/-
Resolving options. An option that is cached is answered from the cache. Otherwise its resolution begins, unless it is
already under way on the same thread: then the chain of options that leads back to it is the error. The tiers are gone
through in their order: an override always has an opinion, a lookup may have none, and a default is the last resort. A
value of the option's type is stored, and the value that is stored first is the one that is answered. However a
resolution ends, it is no longer under way afterwards.

Sources that hand work to other threads can go on for ever. Resolutions therefore nest up to a depth only. Where no
source starts a thread, the depth that an instance gets, `Instance.depth`, makes no difference: every greater one gives
the same run (`Instance.resolve_concur`, in the theory). With threads it is a count of what can still change; that no
resolution that ends nests deeper is then not proved.
-/
import TieredOptions.Instance.Memory

namespace TieredOptions

/-- why a run stops without a value -/
inductive Halt where
  | failed (e : ResolveError)
  /-- resolutions nest without end -/
  | unending
  deriving DecidableEq, Repr

/-- a computation over the memory of an instance; the memory stays as it is when the computation stops -/
abbrev Run (n : Nat) (α : Type) := ExceptT Halt (StateM (Memory n)) α

namespace Run

variable {n : Nat} {α : Type}

def fail (e : ResolveError) : Run n α := throw (.failed e)

/-- go on with a second computation where the first fails -/
def orElse (x : Run n α) (handle : ResolveError → Run n α) : Run n α := fun m =>
  match x m with
  | (.error (.failed e), m) => handle e m
  | r => r

def memory : Run n (Memory n) := fun m => (.ok m, m)

def update (change : Memory n → Memory n) : Run n Unit := fun m => (.ok (), change m)

/-- change the memory after a computation, however it ends -/
def andThen (x : Run n α) (change : Memory n → Memory n) : Run n α := fun m =>
  let (r, m) := x m
  (r, change m)

/-- write down how a computation ends -/
def noting (x : Run n α) (returned : α → Event n) (failed : ResolveError → Event n) : Run n α := fun m =>
  match x m with
  | (.ok a, m) => (.ok a, m.record (returned a))
  | (.error (.failed e), m) => (.error (.failed e), m.record (failed e))
  | r => r

/-- the value or the failure of a computation -/
def attempt (x : Run n α) : Run n (Except ResolveError α) :=
  orElse (do return .ok (← x)) fun e => return .error e

end Run

/-! ## Expressions -/

/-- what an expression needs of the instance it is evaluated on -/
structure Access (c : Contract) where
  /-- an option, read on a thread -/
  read : Nat → c.Slot → Run c.size Value
  /-- is this the first evaluation of a node? -/
  first : Place → Run c.size Bool

namespace Access

variable {c : Contract}

def readName (a : Access c) (thread : Nat) (name : String) : Run c.size Value :=
  match c.slot? name with
  | some s => a.read thread s
  | none => Run.fail (.noSuchAccessor c.name name)

def get (a : Access c) (thread : Nat) (t : ValueType) (name : String) : Run c.size t.Carrier := do
  match (← a.readName thread name).as? t with
  | some x => return x
  | none => Run.fail (.typeMismatch name t)

/-- all options, in order, up to the first failure -/
def readAll (a : Access c) (thread : Nat) : Run c.size Unit :=
  c.slots.forM fun s => discard (a.read thread s)

end Access

/-- the word for the tier of an option, as expressions see it -/
def tierWord : Option Tier → String
  | some t => t.name
  | none => "none"

/-- the value of an expression, evaluated on a thread -/
def Expr.eval {c : Contract} (a : Access c) : {t : ValueType} → Nat → Place → Expr t → Run c.size t.Carrier
  | _, _, _, .const v => return v
  | t, thread, _, .get name => a.get thread t name
  | _, thread, _, .display name => return (← a.readName thread name).display
  | _, _, _, .tier name => return tierWord ((c.slot? name).bind (← Run.memory).tier?)
  | _, _, _, .fail e => Run.fail e
  | _, thread, place, .once first later => do
    match ← a.first place with
    | true => first.eval a thread (0 :: place)
    | false => later.eval a thread (1 :: place)
  | _, thread, place, .orElse e fallback =>
    Run.orElse (e.eval a thread (0 :: place)) fun _ => fallback.eval a thread (1 :: place)
  | _, thread, place, .add how x y => do
    let v ← x.eval a thread (0 :: place)
    let w ← y.eval a thread (1 :: place)
    return how.add v w
  | _, thread, place, .cond name yes no => do
    match ← a.get thread .bool name with
    | true => yes.eval a thread (0 :: place)
    | false => no.eval a thread (1 :: place)
  | _, thread, place, .errorText e =>
    Run.orElse (do let _ ← e.eval a thread (0 :: place); return "ok") fun e => return e.message
  | _, thread, place, .resolveAll e => do
    a.readAll thread
    e.eval a thread (0 :: place)
  | _, thread, place, .spawn e => e.eval a (thread + 1) (0 :: place)
  | _, thread, place, .apply f e => do
    match f (← e.eval a thread (0 :: place)) with
    | .ok v => return v
    | .error e => Run.fail e
termination_by structural _ _ _ e => e

/-! ## Options -/

namespace Instance

abbrev size (i : Instance) : Nat := i.contract.size

/-- is this the first evaluation of a node of the option's override? -/
def firstOwn (i : Instance) (s : i.contract.Slot) (place : Place) : Run i.size Bool := do
  let m ← Run.memory
  if ⟨s, place⟩ ∈ m.spent then return false
  Run.update fun m => { m with spent := ⟨s, place⟩ :: m.spent }
  return true

/-- is this the first evaluation of a node of the option's default? -/
def firstShared (i : Instance) (s : i.contract.Slot) (place : Place) : Run i.size Bool := do
  let m ← Run.memory
  if ⟨s, place⟩ ∈ m.shared then return false
  Run.update fun m => { m with shared := ⟨s, place⟩ :: m.shared }
  return true

/-- run a source of an option; both its start and its end are written down -/
def runSource (i : Instance) (s : i.contract.Slot) (tier : Tier) (opinion : Run i.size (Option Value)) :
    Run i.size (Option Value) := do
  Run.update (·.record (.ran s tier))
  Run.noting opinion (.returned s tier) (.failed s tier)

def consult (i : Instance) (l : Lookup) (s : i.contract.Slot) : Run i.size (Option Value) := do
  let count := (← Run.memory).asked.count s
  Run.update fun m => { m with asked := s :: m.asked }
  match l.ask (i.contract.accessor s).info count with
  | .ok answer => return answer
  | .error e => Run.fail e

/-- the value of a source that is an expression -/
def evalSource (i : Instance) (a : Access i.contract) (thread : Nat) (source : Source) : Run i.size (Option Value) := do
  return some ⟨source.type, ← source.expr.eval a thread []⟩

/-- the opinion of a tier on an option; `read` resolves the options that the tier's source reads -/
def opinion (i : Instance) (read : Nat → i.contract.Slot → Run i.size Value) (thread : Nat) (s : i.contract.Slot) :
    Tier → Run i.size (Option Value)
  | .override => match i.override? s with
    | some source => i.runSource s .override (i.evalSource ⟨read, i.firstOwn s⟩ thread source)
    | none => return none
  | .lookup => match i.lookup with
    | some l => i.runSource s .lookup (i.consult l s)
    | none => return none
  | .default => match (i.contract.accessor s).source? with
    | some source => i.runSource s .default (i.evalSource ⟨read, i.firstShared s⟩ thread source)
    | none => return none

/-- the value of an option from the first of some tiers that has an opinion -/
def firstOpinion (i : Instance) (read : Nat → i.contract.Slot → Run i.size Value) (thread : Nat)
    (s : i.contract.Slot) : List Tier → Run i.size Resolved
  | [] => Run.fail (.missing (i.contract.accessor s).name)
  | tier :: rest => do
    match ← i.opinion read thread s tier with
    | some v => return ⟨v, tier⟩
    | none => i.firstOpinion read thread s rest

/-- the value of an option from the first tier that has one -/
def compute (i : Instance) (read : Nat → i.contract.Slot → Run i.size Value) (thread : Nat) (s : i.contract.Slot) :
    Run i.size Resolved := i.firstOpinion read thread s Tier.all

/-- keep the value of an option, if it has the option's type, and answer the one that is kept -/
def keep (i : Instance) (s : i.contract.Slot) (r : Resolved) : Run i.size Value := do
  if (i.contract.accessor s).info.accepts r.value then
    Run.update (·.store s r)
    return (((← Run.memory).resolved? s).getD r).value
  else Run.fail (.typeMismatch (i.contract.accessor s).name (i.contract.accessor s).type)

def answer (i : Instance) (thread : Nat) (s : i.contract.Slot) (v : Value) : Run i.size Value := do
  Run.update (·.record (.answered thread s v))
  return v

/-- compute the value of an option, keep it and answer with what is kept -/
def settle (i : Instance) (read : Nat → i.contract.Slot → Run i.size Value) (thread : Nat) (s : i.contract.Slot) :
    Run i.size Value := do
  let r ← i.compute read thread s
  let v ← i.keep s r
  i.answer thread s v

/-- resolve an option on a thread, with resolutions nested up to a depth -/
def resolve (i : Instance) : Nat → Nat → i.contract.Slot → Run i.size Value
  | 0, _, _ => throw .unending
  | depth + 1, thread, s => do
    let m ← Run.memory
    match m.resolved? s with
    | some r => i.answer thread s r.value
    | none =>
      let chain := m.chain thread s
      if chain ≠ [] then
        Run.update (·.record (.reentered thread s))
        Run.fail (.cycle ((chain ++ [s]).map fun x => (i.contract.accessor x).name))
      else
        Run.update (·.enter thread s)
        Run.andThen (i.settle (i.resolve depth) thread s) (·.leave thread s)

/-! ## The depth -/

/-- all sources of the instance: overrides and defaults -/
def sources (i : Instance) : List Source :=
  i.overrides.toList.filterMap id ++ i.contract.accessors.filterMap (·.source?)

/-- a count over all sources -/
def total (i : Instance) (count : Source → Nat) : Nat := i.sources.foldr (fun s n => count s + n) 0

/-- How often an answer of a source can come to depend on something new: a node is evaluated for the first time, the
    lookup is asked once more, or an option is stored. -/
def changes (i : Instance) : Nat :=
  i.total (·.expr.onceCount) + (match i.lookup with | some l => l.horizon * i.size | none => 0) + i.size

/-- How deep resolutions may nest. On one thread they nest no deeper than there are options. With threads the count
    leaves room for each node that starts one, once between any two changes. -/
def depth (i : Instance) : Nat :=
  i.size * (1 + (i.changes + 1) * i.total (·.expr.spawnCount)) + 1

end Instance

end TieredOptions
