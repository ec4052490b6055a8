/-
The options of an instance, computed anew for every read: no cache, no threads, nothing under way. An option's value is
that of its override, else what the lookup answers, else that of its default, where the source is evaluated with every
option that it reads computed in the same way (`Instance.recompute`).

This goes on for ever where an option leads back to itself. The read graph has an edge from an option to those that the
source serving it names in its reads; where it is acyclic, `Instance.reference` solves the recursion
(`reference_eq`), because from an option along an edge fewer options can be reached (`descendants_lt`).
-/
import Mathlib.Data.Fintype.Card
import Mathlib.Logic.Relation
import TieredOptions.Proofs.Evaluation
import TieredOptions.Session

namespace TieredOptions

/-- a lookup that answers each accessor always the same way -/
def Lookup.Steady (l : Lookup) : Prop := ∀ info count, l.ask info count = l.ask info 0

theorem Lookup.steady_steady (answer : AccessorInfo → Opinion) : (steady answer).Steady := fun _ _ => rfl

/-! ## Redactions -/

namespace Entry

/-- the names of the entries whose value is left out -/
def redactions (es : List Entry) : List String := (es.filter fun e => isSecret e.name && e.value.isSome).map (·.name)

/-- the entry, with its name if its value is left out -/
def reported (e : Entry) : Reported := ⟨e, if isSecret e.name && e.value.isSome then some e.name else none⟩

theorem reported_of_none {e : Entry} (h : e.value = none) : e.reported = ⟨e, none⟩ := by
  simp [reported, h]

theorem reported_of_some {e : Entry} {text : String} (h : e.value = some text) :
    e.reported = ⟨e, if isSecret e.name then some e.name else none⟩ := by
  simp [reported, h]

theorem map_entry_reported (es : List Entry) : (es.map (·.reported)).map (·.entry) = es := by
  induction es with
  | nil => rfl
  | cons e rest ih => exact congrArg (e :: ·) ih

/-- the names that are noted one by one are those of the entries whose value is left out -/
theorem filterMap_redaction_reported (es : List Entry) :
    (es.map (·.reported)).filterMap (·.redaction) = redactions es := by
  induction es with
  | nil => rfl
  | cons e rest ih =>
    unfold redactions at ih ⊢
    rw [List.map_cons, List.filterMap_cons, List.filter_cons, ih]
    by_cases h : isSecret e.name && e.value.isSome
    · rw [reported, if_pos h, if_pos h]
      rfl
    · rw [reported, if_neg h, if_neg h]

end Entry

namespace Instance

/-! ## The read graph -/

/-- the source that can serve an option: its override if it has one, else its default -/
def served (i : Instance) (s : i.contract.Slot) : Option Source := i.override? s <|> (i.contract.accessor s).source?

/-- the options that the source serving an option names in its reads -/
def named (i : Instance) (s : i.contract.Slot) : List i.contract.Slot :=
  match i.served s with
  | some src => src.expr.reads.filterMap i.contract.slot?
  | none => []

/-- an edge of the read graph -/
def Reads (i : Instance) (s s' : i.contract.Slot) : Prop := s' ∈ i.named s

/-- no option leads back to itself -/
def Acyclic (i : Instance) : Prop := ∀ s, ¬ Relation.TransGen i.Reads s s

variable {i : Instance}

theorem reads_of_named {s s' : i.contract.Slot} {src : Source} {name : String} (hs : i.served s = some src)
    (hn : name ∈ src.expr.reads) (hs' : i.contract.slot? name = some s') : i.Reads s s' := by
  unfold Reads named
  rw [hs]
  exact List.mem_filterMap.2 ⟨name, hn, hs'⟩

/-- numbers for the options that go down along every edge show that the graph is acyclic -/
theorem Acyclic.of_numbering (number : i.contract.Slot → Nat) (h : ∀ s, ∀ s' ∈ i.named s, number s' < number s) :
    i.Acyclic := by
  have hdown {s s' : i.contract.Slot} (hr : Relation.TransGen i.Reads s s') : number s' < number s := by
    induction hr with
    | single hr => exact h _ _ hr
    | tail _ hr ih => exact Nat.lt_trans (h _ _ hr) ih
  exact fun s hs => Nat.lt_irrefl _ (hdown hs)

open Classical in
/-- the options that can be reached from an option -/
noncomputable def descendants (i : Instance) (s : i.contract.Slot) : Finset i.contract.Slot :=
  Finset.univ.filter (Relation.TransGen i.Reads s)

theorem mem_descendants {s s' : i.contract.Slot} : s' ∈ i.descendants s ↔ Relation.TransGen i.Reads s s' := by
  simp [descendants]

theorem Acyclic.descendants_lt (ha : i.Acyclic) {s s' : i.contract.Slot} (h : i.Reads s s') :
    (i.descendants s').card < (i.descendants s).card := by
  refine Finset.card_lt_card (Finset.ssubset_iff_of_subset ?_ |>.2 ⟨s', ?_, ?_⟩)
  · exact fun x hx => mem_descendants.2 (.head h (mem_descendants.1 hx))
  · exact mem_descendants.2 (.single h)
  · exact fun hs => ha s' (mem_descendants.1 hs)

theorem Acyclic.descendants_lt_size (ha : i.Acyclic) (s : i.contract.Slot) : (i.descendants s).card < i.size := by
  have h := Finset.card_lt_univ_of_notMem (s := i.descendants s) (x := s) fun hs => ha s (mem_descendants.1 hs)
  rwa [Fintype.card_fin] at h

/-! ## Computing an option anew -/

/-- what a lookup answers for an option when it is asked for the first time -/
def lookedUp (i : Instance) (s : i.contract.Slot) : Opinion :=
  match i.lookup with
  | some l => l.ask (i.contract.accessor s).info 0
  | none => .ok none

/-- an option by name, with the options that `read` computes -/
def byName (i : Instance) (read : i.contract.Slot → Except ResolveError Resolved) (name : String) :
    Except ResolveError Resolved :=
  match i.contract.slot? name with
  | some s => read s
  | none => .error (.noSuchAccessor i.contract.name name)

/-- its value alone -/
def readBy (i : Instance) (read : i.contract.Slot → Except ResolveError Resolved) (name : String) :
    Except ResolveError Value := (i.byName read name).map (·.value)

/-- the value of a source, with the options that `read` computes -/
def valueOf (i : Instance) (read : i.contract.Slot → Except ResolveError Resolved) (src : Source) :
    Except ResolveError Value := do
  return ⟨src.type, ← src.expr.value (i.readBy read)⟩

/-- The override, else the lookup, else the default; a source reads the options that `read` computes. -/
def candidate (i : Instance) (read : i.contract.Slot → Except ResolveError Resolved) (s : i.contract.Slot) :
    Except ResolveError Resolved :=
  match i.override? s with
  | some src => (i.valueOf read src).map (⟨·, .override⟩)
  | none =>
    match i.lookedUp s with
    | .error e => .error e
    | .ok (some v) => .ok ⟨v, .lookup⟩
    | .ok none =>
      match (i.contract.accessor s).source? with
      | some src => (i.valueOf read src).map (⟨·, .default⟩)
      | none => .error (.missing (i.contract.accessor s).name)

/-- a value that has the option's type -/
def checked (i : Instance) (s : i.contract.Slot) (r : Resolved) : Except ResolveError Resolved :=
  if (i.contract.accessor s).info.accepts r.value then .ok r
  else .error (.typeMismatch (i.contract.accessor s).name (i.contract.accessor s).type)

/-- one step of the recursion: an option, when those that it reads are computed by `read` -/
def recompute (i : Instance) (read : i.contract.Slot → Except ResolveError Resolved) (s : i.contract.Slot) :
    Except ResolveError Resolved := do
  i.checked s (← i.candidate read s)

/-- the recursion up to some depth; below it nothing has a value -/
def unrolled (i : Instance) : Nat → i.contract.Slot → Except ResolveError Resolved
  | 0, _ => .error (.cycle [])
  | depth + 1, s => i.recompute (i.unrolled depth) s

/-- an option computed anew, with all that it reads; as deep as there are options is deep enough -/
def reference (i : Instance) : i.contract.Slot → Except ResolveError Resolved := i.unrolled i.size

/-- one step depends only on the options that the serving source names -/
theorem recompute_congr {f g : i.contract.Slot → Except ResolveError Resolved} {s : i.contract.Slot}
    (h : ∀ s', i.Reads s s' → f s' = g s') : i.recompute f s = i.recompute g s := by
  have hv (src : Source) (hs : i.served s = some src) : i.valueOf f src = i.valueOf g src := by
    unfold valueOf
    rw [src.expr.value_congr fun name hn => ?_]
    unfold readBy byName
    cases hs' : i.contract.slot? name with
    | none => rfl
    | some s' => simp only [h s' (reads_of_named hs hn hs')]
  unfold recompute candidate
  cases ho : i.override? s with
  | some src => simp only [hv src (by simp [served, ho])]
  | none =>
    cases hd : (i.contract.accessor s).source? with
    | none => rfl
    | some src => simp only [hv src (by simp [served, ho, hd])]

/-- where the recursion is deep enough, it makes no difference how deep it is -/
theorem unrolled_eq (ha : i.Acyclic) {depth depth' : Nat} {s : i.contract.Slot} (h : (i.descendants s).card < depth)
    (h' : (i.descendants s).card < depth') : i.unrolled depth s = i.unrolled depth' s := by
  induction depth generalizing depth' s with
  | zero => exact absurd h (Nat.not_lt_zero _)
  | succ depth ih =>
    cases depth' with
    | zero => exact absurd h' (Nat.not_lt_zero _)
    | succ depth' =>
      refine recompute_congr fun s' hr => ih ?_ ?_
      · exact Nat.lt_of_lt_of_le (ha.descendants_lt hr) (Nat.le_of_lt_succ h)
      · exact Nat.lt_of_lt_of_le (ha.descendants_lt hr) (Nat.le_of_lt_succ h')

/-- **The reference solves the recursion** along an acyclic graph. -/
theorem Acyclic.reference_eq (ha : i.Acyclic) (s : i.contract.Slot) :
    i.reference s = i.recompute i.reference s := by
  have hs := ha.descendants_lt_size s
  have hstep : i.unrolled (i.size + 1) s = i.recompute i.reference s := rfl
  rw [← hstep]
  exact unrolled_eq ha hs (Nat.lt_succ_of_lt hs)

/-! ## What readers get -/

def referValue (i : Instance) (name : String) : Except ResolveError Value := i.readBy i.reference name

def referAt (i : Instance) (t : ValueType) (name : String) : Except ResolveError Value := do
  return ⟨t, ← Expr.readAt i.referValue t name⟩

def referAll (i : Instance) : Except ResolveError Unit := i.contract.slots.forM fun s => discard (i.reference s)

/-- what a report says of an option -/
def referEntry (i : Instance) (config : Option Config.Layered) (info : AccessorInfo) : Entry :=
  match i.byName i.reference info.name with
  | .ok r => ⟨info.name, info.type.name, some r.tier, originIn config (some r.tier) info.name,
      some (if isSecret info.name then redacted else info.describe r.value), none⟩
  | .error e => ⟨info.name, info.type.name, none, none, none, some e.message⟩

/-- a report on all options -/
def referReport (i : Instance) (config : Option Config.Layered) (createdAt : Instant) : Report :=
  let es := i.contract.accessors.map fun a => i.referEntry config a.info
  ⟨createdAt, i.contract.name, es, match config with | some l => l.sources | none => [], Entry.redactions es⟩

end Instance

/-- The answer to a request that reads options, from the options computed anew. The other requests look at what is
    remembered, or do not look at values at all. -/
def Request.reference (i : Instance) (config : Option Config.Layered) : Request → Option Answer
  | get t name => some (.value (i.referAt t name))
  | getTwice t name => some (.values (i.referAt t name) (i.referAt t name))
  | getValue name => some (.value (i.referValue name))
  | resolveAll => some (.done i.referAll)
  | report withConfig createdAt => some (.report (i.referReport (if withConfig then config else none) createdAt))
  | tier _ | overridden _ | hasLookup | explain => none

end TieredOptions
