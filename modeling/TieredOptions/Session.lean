/-
Sessions: several instances in use side by side, asked one request at a time. Each has a memory of its own. What they
share is the memory of their contract: instances of one family were built over the same contract, and a `once` node in
one of its defaults that one of them evaluated counts as evaluated for all.

A request is always answered: an option that fails is an answer too. With the answer comes what the request did, the
tiers of all options afterwards and the sources that were run. A request may come on a thread of its own; it is waited
for before the next. Two instances may also be compared, which is answered in the same way.
-/
import TieredOptions.Report

namespace TieredOptions

/-! ## Requests -/

/-- what may be asked of an instance -/
inductive Request where
  /-- an option at a type -/
  | get (t : ValueType) (name : String)
  /-- an option at a type, twice -/
  | getTwice (t : ValueType) (name : String)
  /-- an option as it is -/
  | getValue (name : String)
  /-- all options -/
  | resolveAll
  /-- the tier of an option, without resolving it -/
  | tier (name : String)
  /-- has an option an override? -/
  | overridden (name : String)
  /-- is there a lookup? -/
  | hasLookup
  /-- what is known of all options, without resolving any -/
  | explain
  /-- a report, with the configuration that the lookup answers from or without it -/
  | report (withConfig : Bool) (createdAt : Instant)
  deriving DecidableEq, Repr

/-- what comes back -/
inductive Answer where
  | value (r : Except ResolveError Value)
  | values (first second : Except ResolveError Value)
  | done (r : Except ResolveError Unit)
  | tier (t : Option Tier)
  | flag (b : Bool)
  | explained (options : List Explained)
  | report (r : Report)

/-- an option at a type, or why there is none -/
def Instance.tryGet (i : Instance) (thread : Nat) (t : ValueType) (name : String) :
    Run i.size (Except ResolveError Value) := Run.attempt (do return ⟨t, ← i.get thread t name⟩)

/-- the answer to a request that comes on a thread -/
def Request.answer (i : Instance) (config : Option Config.Layered) (thread : Nat) : Request → Run i.size Answer
  | get t name => return .value (← i.tryGet thread t name)
  | getTwice t name => return .values (← i.tryGet thread t name) (← i.tryGet thread t name)
  | getValue name => return .value (← Run.attempt (i.getValue thread name))
  | resolveAll => return .done (← Run.attempt (i.resolveAll thread))
  | tier name => return .tier (i.tierOf (← Run.memory) name)
  | overridden name => return .flag (i.isOverridden name)
  | hasLookup => return .flag i.lookup.isSome
  | explain => return .explained (i.explain (← Run.memory))
  | report withConfig createdAt =>
    return .report (← i.report thread (if withConfig then config else none) createdAt)

/-! ## Members -/

/-- what an instance gets as its second tier -/
inductive Supply where
  | nothing
  | lookup (l : Lookup)
  | layered (l : Config.Layered)

def Supply.lookup? : Supply → Option Lookup
  | nothing => none
  | lookup l => some l
  | layered l => some l.lookup

def Supply.config? : Supply → Option Config.Layered
  | layered l => some l
  | _ => none

/-- what a request did -/
structure Outcome (α : Type) where
  answer : Except Halt α
  /-- the tier of every option afterwards -/
  tiers : List (Option Tier)
  /-- the sources that were run, by the names of their options -/
  trace : List (String × Tier)

/-- an instance in use -/
structure Member where
  id : Nat
  family : Nat
  config : Option Config.Layered
  inst : Instance
  memory : Memory inst.size

/-- how an instance compares with another, and what tells it apart -/
structure Comparison where
  same : Bool
  sharesContract : Bool
  id : Nat
  display : String
  deriving DecidableEq, Repr

namespace Member

/-- do something with the instance, with what the family shares; the journal is on this only -/
def perform {α : Type} (m : Member) (shared : List Node) (x : Run m.inst.size α) : Outcome α × Member :=
  let (answer, memory) := x { m.memory with shared := shared, journal := [] }
  let name (s : m.inst.contract.Slot) := (m.inst.contract.accessor s).name
  (⟨answer, m.inst.contract.slots.map memory.tier?, memory.trace.map fun (s, tier) => (name s, tier)⟩,
    { m with memory })

/-- answer a request -/
def ask (m : Member) (shared : List Node) (thread : Nat) (r : Request) : Outcome Answer × Member :=
  m.perform shared (r.answer m.inst m.config thread)

/-- Instances are told apart by their ids alone. -/
def same (a b : Member) : Bool := a.id == b.id

/-- were both built over one contract? -/
def sharesContract (a b : Member) : Bool := a.family == b.family

/-- the form shown to a reader -/
def display (m : Member) : String := "Options<" ++ m.inst.contract.name ++ ">#" ++ toString m.id

def compare (a b : Member) : Run a.inst.size Comparison := return ⟨a.same b, a.sharesContract b, a.id, a.display⟩

end Member

/-! ## Sessions -/

/-- The instances that were to be built, in order; a place stays empty where none was. `shared` are the evaluated nodes
    of the defaults of each family. -/
structure Session where
  members : List (Option Member)
  shared : Nat → List Node

namespace Session

/-- a session without instances -/
def empty : Session := ⟨[], fun _ => []⟩

/-- the instance in a place -/
def member? (s : Session) (k : Nat) : Option Member := (s.members[k]?).join

/-- leave the next place empty -/
def skip (s : Session) : Session := { s with members := s.members ++ [none] }

/-- build an instance in the next place; ids count those that were built -/
def build (s : Session) (c : Contract) (family : Nat) (supply : Supply) (overrides : List Override) :
    Except BuildError Unit × Session :=
  match Instance.build c supply.lookup? overrides with
  | .error e => (.error e, s.skip)
  | .ok i =>
    let id := (s.members.filter (·.isSome)).length
    (.ok (), { s with members := s.members ++ [some ⟨id, family, supply.config?, i, .fresh i.size []⟩] })

/-- do something with the instance in a place, if there is one -/
def perform {α : Type} (s : Session) (k : Nat) (x : (m : Member) → Run m.inst.size α) :
    Option (Outcome α × Session) := do
  let m ← s.member? k
  let (outcome, m) := m.perform (s.shared m.family) (x m)
  return (outcome, ⟨s.members.set k (some m), fun f => if f = m.family then m.memory.shared else s.shared f⟩)

/-- ask the instance in a place -/
def ask (s : Session) (k thread : Nat) (r : Request) : Option (Outcome Answer × Session) :=
  s.perform k fun m => r.answer m.inst m.config thread

/-- compare the instance in a place with that in another -/
def compare (s : Session) (k other : Nat) : Option (Outcome Comparison × Session) := do
  let o ← s.member? other
  s.perform k (·.compare o)

end Session

end TieredOptions
