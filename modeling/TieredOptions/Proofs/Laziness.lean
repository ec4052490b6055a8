/-
Reads are lazy. An option leads to itself and to what can be reached from it along the edges of the read graph, where
the source serving an option is its override, or else its default, and a source that resolves all options reads each of
them. A read of an option is confined to what the option leads to (`Memory.Confined`): only about such options does
anything happen, and all others are as they were before.

A read goes from an option to one that the option's source asks for, so what is to be shown is that a set of options
which edges do not lead out of confines the reads of its members (`resolve_confined`). The default of an option that is
overridden is no part of the graph: the override always has an opinion, so the tiers below it are not reached
(`compute_keeps_served`).
-/
import TieredOptions.Proofs.Failure
import TieredOptions.Proofs.Reference

namespace TieredOptions

/-! ## Confinement -/

namespace Memory

variable {n : Nat} {A : Fin n → Prop} {m m' : Memory n} {s : Fin n}

/-- All that happened between the two memories is about the given options, and the others are as they were. -/
structure Confined (A : Fin n → Prop) (m m' : Memory n) : Prop where
  noted : ∃ new, m'.journal = new ++ m.journal ∧ ∀ e ∈ new, A e.slot
  others : ∀ x, ¬ A x → m'.resolved? x = m.resolved? x

instance : IsPreorder (Memory n) (Confined A) where
  refl m := ⟨⟨[], rfl, List.forall_mem_nil _⟩, fun _ _ => rfl⟩
  trans := by
    rintro m m' m'' ⟨⟨new, hj, hn⟩, ho⟩ ⟨⟨new', hj', hn'⟩, ho'⟩
    refine ⟨⟨new' ++ new, by rw [hj', hj, List.append_assoc], ?_⟩, fun x hx => (ho' x hx).trans (ho x hx)⟩
    exact List.forall_mem_append.2 ⟨hn', hn⟩

namespace Confined

/-- a change outside the cache and the journal -/
theorem of_same (hj : m'.journal = m.journal) (hc : m'.cache = m.cache) : Confined A m m' :=
  ⟨⟨[], hj, List.forall_mem_nil _⟩, fun x _ => by simp only [resolved?, hc]⟩

theorem record (e : Event n) (he : A e.slot) (m : Memory n) : Confined A m (m.record e) :=
  ⟨⟨[e], rfl, List.forall_mem_singleton.2 he⟩, fun _ _ => rfl⟩

theorem notes (hs : A s) : Notes (Confined A) s where
  ran m _ := .record _ hs m
  returned m _ _ := .record _ hs m
  failed m _ _ := .record _ hs m
  spent _ _ := .of_same rfl rfl
  shared _ _ := .of_same rfl rfl
  asked _ _ := .of_same rfl rfl

theorem enter (hs : A s) (m : Memory n) (thread : Nat) : Confined A m (m.enter thread s) :=
  ⟨⟨[.entered thread s], rfl, List.forall_mem_singleton.2 hs⟩, fun _ _ => rfl⟩

theorem leave (hs : A s) (m : Memory n) (thread : Nat) : Confined A m (m.leave thread s) :=
  ⟨⟨[.left thread s], rfl, List.forall_mem_singleton.2 hs⟩, fun _ _ => rfl⟩

end Confined

theorem mem_trace {tier : Tier} : (s, tier) ∈ m.trace ↔ .ran s tier ∈ m.journal := by
  simp only [trace, List.mem_filterMap, List.mem_reverse]
  constructor
  · rintro ⟨e, he, h⟩
    cases e <;> cases h
    exact he
  · exact fun h => ⟨_, h, rfl⟩

end Memory

namespace Instance

variable {i : Instance}

theorem confined_store {A : i.contract.Slot → Prop} {s : i.contract.Slot} (hs : A s) (m : Memory i.size)
    (r : Resolved) : Memory.Confined A m (m.store s r) := by
  cases h : m.resolved? s with
  | some r₀ =>
    rw [store_of_some h]
    exact refl_of (Memory.Confined A) m
  | none =>
    obtain ⟨hj, hc⟩ := store_of_none h r
    refine ⟨⟨[.stored s r], hj, List.forall_mem_singleton.2 hs⟩, fun x hx => ?_⟩
    rw [hc]
    exact Cache.apply_of_ne _ fun he => hx (he ▸ hs)

/-! ## What an option leads to -/

/-- an edge of the read graph, where resolving all options is a read of each -/
def DependsOn (i : Instance) (s s' : i.contract.Slot) : Prop :=
  i.Reads s s' ∨ ∃ src, i.served s = some src ∧ src.expr.surveys = true

/-- an option leads to itself and to what can be reached from it along edges -/
def Leads (i : Instance) : i.contract.Slot → i.contract.Slot → Prop := Relation.ReflTransGen i.DependsOn

theorem DependsOn.of_asked {s s' : i.contract.Slot} {src : Source} (hs : i.served s = some src)
    (h : i.contract.Asked src.expr.reads src.expr.surveys s') : i.DependsOn s s' := by
  rcases h with hall | ⟨name, hn, hs'⟩
  · exact .inr ⟨src, hs, hall⟩
  · exact .inl (reads_of_named hs hn hs')

/-! ## Resolving -/

section Tiers

variable {R : Memory i.size → Memory i.size → Prop} [IsPreorder (Memory i.size) R]
  {read : Nat → i.contract.Slot → Run i.size Value} {s : i.contract.Slot}

theorem override_ne_none {src : Source} (ho : i.override? s = some src) (thread : Nat) (m : Memory i.size) :
    (i.opinion read thread s .override m).1 ≠ .ok none := by
  simp only [opinion, ho]
  exact fun h => evalSource_ne_none _ thread src _ (of_runSource_ok h).1

/-- **The tiers do what the reads of the serving source do**, apart from their bookkeeping. -/
theorem compute_keeps_served (hn : Notes R s)
    (hr : ∀ src, i.served s = some src → ∀ x, i.contract.Asked src.expr.reads src.expr.surveys x →
      ∀ thread, Run.Keeps R (read thread x))
    (thread : Nat) : Run.Keeps R (i.compute read thread s) := by
  cases ho : i.override? s with
  | none =>
    refine compute_keeps hn (fun tier src hsrc => hr src ?_) thread
    cases tier with
    | override =>
      rw [show i.override? s = some src from hsrc] at ho
      cases ho
    | lookup => cases hsrc
    | default =>
      rw [served, ho]
      exact hsrc
  | some src =>
    intro m
    have hserved : i.served s = some src := by rw [served, ho]; rfl
    have hkept : Run.Keeps R (i.opinion read thread s .override) :=
      opinion_keeps hn (fun src' hsrc => hr src' (by rw [hserved, ← ho]; exact hsrc)) thread
    have hm := hkept m
    have hne : (i.opinion read thread s .override m).1 ≠ .ok none := override_ne_none ho thread m
    rcases h : i.opinion read thread s .override m with ⟨e | _ | v, m'⟩ <;> rw [h] at hm hne <;>
      rw [show i.compute read thread s m = _ from firstOpinion_cons h]
    · exact hm
    · exact absurd rfl hne
    · exact hm

end Tiers

theorem compute_confined {A : i.contract.Slot → Prop} (hclosed : ∀ s s', A s → i.DependsOn s s' → A s')
    {read : Nat → i.contract.Slot → Run i.size Value}
    (hr : ∀ thread s, A s → Run.Keeps (Memory.Confined A) (read thread s)) (thread : Nat) {s : i.contract.Slot}
    (hs : A s) : Run.Keeps (Memory.Confined A) (i.compute read thread s) := by
  refine compute_keeps_served (Memory.Confined.notes hs) (fun src hsrc x hx thread => ?_) thread
  exact hr thread x (hclosed s x hs (.of_asked hsrc hx))

/-- **Reads are confined**: where no edge leads out of a set of options, a read of one of them does nothing outside of
the set, on whatever thread, however deep it nests and however it ends. -/
theorem resolve_confined {A : i.contract.Slot → Prop} (hclosed : ∀ s s', A s → i.DependsOn s s' → A s')
    (depth thread : Nat) {s : i.contract.Slot} (hs : A s) :
    Run.Keeps (Memory.Confined A) (i.resolve depth thread s) := by
  refine resolve_keeps_within (fun read hr thread s hs => compute_confined hclosed hr thread hs)
    (fun m s r hs _ => confined_store hs m r) (fun m thread s v hs => .record (.answered thread s v) hs m)
    (fun m thread s hs _ => .record (.reentered thread s) hs m) (fun m m' thread s hs _ h => ?_) depth thread s hs
  exact trans_of (Memory.Confined A) (trans_of (Memory.Confined A) (.enter hs m thread) h) (.leave hs m' thread)

theorem resolve_lazy (depth thread : Nat) (s : i.contract.Slot) :
    Run.Keeps (Memory.Confined (i.Leads s)) (i.resolve depth thread s) :=
  resolve_confined (fun _ _ h hd => h.tail hd) depth thread .refl

/-- so is what is done between entering an option and leaving it -/
theorem settle_lazy (depth thread : Nat) (s : i.contract.Slot) :
    Run.Keeps (Memory.Confined (i.Leads s)) (i.settle (i.resolve depth) thread s) := by
  have hclosed : ∀ x x', i.Leads s x → i.DependsOn x x' → i.Leads s x' := fun _ _ h hd => h.tail hd
  have hself : i.Leads s s := .refl
  have hcompute : Run.Keeps (Memory.Confined (i.Leads s)) (i.compute (i.resolve depth) thread s) :=
    compute_confined hclosed (fun thread x hx => resolve_confined hclosed depth thread hx) thread hself
  exact settle_keeps hcompute (fun m r _ => confined_store hself m r) fun m v => .record _ hself m

/-! ## Requests -/

theorem turn_confined {t : Turn} {name : String} (ht : t.request.read? = some name) {s : i.contract.Slot}
    (hs : i.contract.slot? name = some s) (m : Memory i.size) :
    Memory.Confined (i.Leads s) { m with shared := t.shared, journal := [] } (i.turn m t).2 := by
  refine answer_keeps_read ht (fun s' hs' => ?_) t.config _
  cases hs.symm.trans hs'
  exact resolve_lazy _ t.thread s

/-- a request for an option that is not declared does nothing -/
theorem turn_undeclared {t : Turn} {name : String} (ht : t.request.read? = some name)
    (hs : i.contract.slot? name = none) (m : Memory i.size) :
    (i.turn m t).2 = { m with shared := t.shared, journal := [] } := by
  have h : Run.Keeps Eq (t.request.answer i t.config t.thread) :=
    answer_keeps_read ht (fun s hs' => by rw [hs] at hs'; cases hs') t.config
  exact (h _).symm

theorem answer_query {r : Request} (h : r.isQuery = true) (config : Option Config.Layered) (thread : Nat)
    (m : Memory i.size) : ∃ a, r.answer i config thread m = (.ok a, m) := by
  cases r with
  | tier _ | overridden _ | hasLookup | explain => exact ⟨_, rfl⟩
  | _ => cases h

end Instance

/-! ## Questions -/

/-- a member as a request finds it: it knows what its family has evaluated, and the journal is empty -/
def Member.found (m : Member) (shared : List Node) : Member :=
  { m with memory := { m.memory with shared := shared, journal := [] } }

/-- the outcome where nothing was done: no source ran, and all tiers are what they were -/
def Member.idle {α : Type} (m : Member) (a : α) : Outcome α := ⟨.ok a, m.inst.contract.slots.map m.memory.tier?, []⟩

namespace Session

variable {s : Session} {k : Nat} {m : Member}

/-- the session after one of its members was asked something and did nothing -/
def visited (s : Session) (k : Nat) (m : Member) : Session :=
  { s with members := s.members.set k (some (m.found (s.shared m.family))) }

theorem perform_idle {α : Type} {x : (m : Member) → Run m.inst.size α} {a : α} (hm : s.member? k = some m)
    (hx : x m (m.found (s.shared m.family)).memory = (.ok a, (m.found (s.shared m.family)).memory)) :
    s.perform k x = some (m.idle a, s.visited k m) := by
  have hmember : m.perform (s.shared m.family) (x m) = (m.idle a, m.found (s.shared m.family)) := by
    simp only [Member.perform]
    rw [show x m { m.memory with shared := s.shared m.family, journal := [] } = _ from hx]
    rfl
  have hshared : (fun f => if f = m.family then s.shared m.family else s.shared f) = s.shared := by
    funext f
    split
    · rename_i hf
      rw [hf]
    · rfl
  unfold perform
  rw [hm, Option.bind_eq_bind, Option.bind_some, hmember]
  show some (m.idle a, Session.mk _ fun f => if f = m.family then s.shared m.family else s.shared f) = _
  rw [hshared]
  rfl

theorem ask_query (hm : s.member? k = some m) {r : Request} (h : r.isQuery = true) (thread : Nat) :
    ∃ a, s.ask k thread r = some (m.idle a, s.visited k m) := by
  obtain ⟨a, ha⟩ := Instance.answer_query h m.config thread (m.found (s.shared m.family)).memory
  exact ⟨a, perform_idle hm ha⟩

theorem compare_idle (hm : s.member? k = some m) {other : Nat} {o : Member} (ho : s.member? other = some o) :
    s.compare k other = some (m.idle ⟨m.same o, m.sharesContract o, m.id, m.display⟩, s.visited k m) := by
  unfold compare
  rw [ho, Option.bind_eq_bind, Option.bind_some]
  exact perform_idle hm rfl

end Session

namespace Instance

variable {i : Instance}

/-- **Reads are lazy.** Of every instance, from whatever it remembers:
- a read of an option, on any thread and at any depth, does something to options only that the option leads to: all that
  is noted in the journal is about these, and the cache is as it was for all others;
- so a request for one option, at a type, twice or as it is, runs sources of such options only, and leaves the slots of
  all others as they were. A request for an option that is not declared does nothing;
- to ask for the tier of an option, whether it is overridden, whether there is a lookup, or what is known of all options
  does nothing;
- in a session, none of these questions runs a source or changes a tier, and all members remember what they did. The
  same is true of comparing a member with another. What this tells, and whether there is a lookup, is fixed when a
  member is built. -/
theorem reads_lazy (i : Instance) :
    (∀ depth thread s, Run.Keeps (Memory.Confined (i.Leads s)) (i.resolve depth thread s)) ∧
    (∀ m t name, t.request.read? = some name →
      (∀ s, i.contract.slot? name = some s →
        (∀ x tier, (x, tier) ∈ (i.turn m t).2.trace → i.Leads s x) ∧
        ∀ x, ¬ i.Leads s x → (i.turn m t).2.resolved? x = m.resolved? x) ∧
      (i.contract.slot? name = none → (i.turn m t).2 = { m with shared := t.shared, journal := [] })) ∧
    (∀ r : Request, r.isQuery = true → ∀ config thread m, ∃ a, r.answer i config thread m = (.ok a, m)) ∧
    ∀ (s : Session) (k : Nat) (m : Member), s.member? k = some m →
      (∀ r : Request, r.isQuery = true → ∀ thread, ∃ a, s.ask k thread r = some (m.idle a, s.visited k m)) ∧
      (∀ thread, s.ask k thread .hasLookup = some (m.idle (.flag m.inst.lookup.isSome), s.visited k m)) ∧
      ∀ other o, s.member? other = some o → s.compare k other = some (m.idle
        ⟨m.id == o.id, m.family == o.family, m.id, "Options<" ++ m.inst.contract.name ++ ">#" ++ toString m.id⟩,
        s.visited k m) := by
  refine ⟨resolve_lazy, fun m t name ht => ⟨fun s hs => ?_, fun hs => turn_undeclared ht hs m⟩,
    fun r h config thread m => answer_query h config thread m, fun s k m hm =>
      ⟨fun r h thread => Session.ask_query hm h thread, fun thread => Session.perform_idle hm rfl,
        fun other o ho => Session.compare_idle hm ho⟩⟩
  obtain ⟨⟨new, hj, hnew⟩, hothers⟩ := turn_confined ht hs m
  have hj : (i.turn m t).2.journal = new := hj.trans (List.append_nil new)
  refine ⟨fun x tier hx => ?_, hothers⟩
  have hran := Memory.mem_trace.1 hx
  rw [hj] at hran
  exact hnew _ hran

/-- A sheet: its width, the width of two of them side by side, and a title. -/
def sheet : Instance := ⟨⟨"Sheet", [
  ⟨"width", [], .int .u32, some (.const 210#32)⟩,
  ⟨"spread", [], .int .u32, some (.add (.int .u32) (.get "width") (.get "width"))⟩,
  ⟨"title", [], .string, some (.const "Untitled")⟩]⟩, Vector.replicate 3 none, none⟩

def spreadSlot : sheet.contract.Slot := ⟨1, by decide⟩

def titleSlot : sheet.contract.Slot := ⟨2, by decide⟩

theorem sheet_leads {s : sheet.contract.Slot} (h : sheet.Leads spreadSlot s) : s ≠ titleSlot := by
  have hreads : ∀ s : sheet.contract.Slot, s ≠ titleSlot → ∀ s' ∈ sheet.named s, s' ≠ titleSlot := by decide
  have hsurveys : ∀ s : sheet.contract.Slot, (sheet.served s).any (·.expr.surveys) = false := by decide
  induction h with
  | refl => decide
  | @tail s s' _ hd ih =>
    rcases hd with hd | ⟨src, hsrc, hall⟩
    · exact hreads s ih s' hd
    · have hnot := hsurveys s
      rw [hsrc, Option.any_some, hall] at hnot
      cases hnot

def spreadTurn : Turn := ⟨[], none, 0, .getValue "spread"⟩

/-- two sheets of one family; of the first the spread was asked for -/
def firstSheet : Member := ⟨0, 0, none, sheet, (sheet.turn (.fresh 3 []) spreadTurn).2⟩

def secondSheet : Member := ⟨1, 0, none, sheet, .fresh 3 []⟩

def sheets : Session := ⟨[some firstSheet, some secondSheet], fun _ => []⟩

/-- The spread has nothing to do with the title: asking for it runs no source of the title and leaves it as it is. The
    first sheet can be told from the second, and asked for its lookup, without running anything. -/
theorem spread_lazy : ¬ sheet.Leads spreadSlot titleSlot ∧
    (∀ tier, (titleSlot, tier) ∉ (sheet.turn (.fresh 3 []) spreadTurn).2.trace) ∧
    (sheet.turn (.fresh 3 []) spreadTurn).2.resolved? titleSlot = none ∧
    (sheets.compare 0 1).map (·.1) =
      some ⟨.ok ⟨false, true, 0, "Options<Sheet>#0"⟩, [some .default, some .default, none], []⟩ ∧
    (sheets.ask 0 0 .hasLookup).map (·.1) = some ⟨.ok (.flag false), [some .default, some .default, none], []⟩ := by
  have hslot : sheet.contract.slot? "spread" = some spreadSlot := by decide
  have hnot : ¬ sheet.Leads spreadSlot titleSlot := fun h => sheet_leads h rfl
  obtain ⟨htrace, hothers⟩ := ((reads_lazy sheet).2.1 (.fresh 3 []) spreadTurn "spread" rfl).1 spreadSlot hslot
  obtain ⟨-, hlookup, hcompare⟩ := (reads_lazy sheet).2.2.2 sheets 0 firstSheet rfl
  have htiers : sheet.contract.slots.map firstSheet.memory.tier? = [some .default, some .default, none] := by decide
  have hidle {α : Type} (a : α) : firstSheet.idle a = ⟨.ok a, [some .default, some .default, none], []⟩ :=
    congrArg (Outcome.mk (.ok a) · []) htiers
  refine ⟨hnot, fun tier h => hnot (htrace _ tier h), (hothers titleSlot hnot).trans rfl, ?_, ?_⟩
  · rw [hcompare 1 secondSheet rfl, hidle]
    rfl
  · rw [hlookup, hidle]
    rfl

end Instance

end TieredOptions
