/-
Caching is transparent. Take an instance whose sources do not look at what is remembered (`Instance.Memoryless`): no
`once`, no `tier`, no `resolveAll`, a steady lookup and an acyclic read graph. Then whatever it is asked, in whatever
order and on whatever threads, it answers what the options computed anew say (`answers_reference`).

The invariant is `Settled`: what is cached is what the reference computes, and what is under way is as it was. A read of
an option that is not under way finds it cached, with the right value, or runs its source in a memory where one option
more is under way, and the source reads only options that none of those under way can be reached from
(`resolve_yields`, by induction on the depth). A source that fails half-way leaves some of its options cached; as they
are cached with what the reference computes, nobody can tell.
-/
import TieredOptions.Proofs.Nesting
import TieredOptions.Proofs.Reference

namespace TieredOptions

/-- nothing in the instance looks at what is remembered, and no option leads back to itself -/
structure Instance.Memoryless (i : Instance) : Prop where
  plain : ∀ src ∈ i.sources, src.expr.isPlain = true
  steady : ∀ l, i.lookup = some l → l.Steady
  acyclic : i.Acyclic

/-- the cache agrees with the reference, and `active` is what is under way -/
structure Instance.Settled (i : Instance) (active : List (Nat × i.contract.Slot)) (m : Memory i.size) : Prop where
  cached : ∀ s r, m.resolved? s = some r → i.reference s = .ok r
  active : m.active = active

namespace Instance

variable {i : Instance}

theorem mem_sources {s : i.contract.Slot} {src : Source} (h : i.served s = some src) : src ∈ i.sources := by
  rcases (Option.orElse_eq_some ..).1 h with ho | ⟨-, hd⟩
  · exact mem_sources_of_override ho
  · exact mem_sources_of_default hd

namespace Settled

variable {active : List (Nat × i.contract.Slot)} {m m' : Memory i.size}

/-- a change outside the cache and what is under way -/
theorem of_same (h : i.Settled active m) (hc : m'.cache = m.cache) (ha : m'.active = m.active) :
    i.Settled active m' :=
  ⟨fun s r hr => h.cached s r (by rwa [Memory.resolved?, hc] at hr), ha.trans h.active⟩

theorem record (h : i.Settled active m) (e : Event i.size) : i.Settled active (m.record e) := h.of_same rfl rfl

theorem enter (h : i.Settled active m) (thread : Nat) (s : i.contract.Slot) :
    i.Settled (active ++ [(thread, s)]) (m.enter thread s) :=
  ⟨h.cached, congrArg (· ++ [(thread, s)]) h.active⟩

theorem leave {thread : Nat} {s : i.contract.Slot} (h : i.Settled (active ++ [(thread, s)]) m) :
    i.Settled active (m.leave thread s) :=
  ⟨h.cached, Memory.leave_active h.active⟩

theorem store {s : i.contract.Slot} {r : Resolved} (h : i.Settled active m) (hr : i.reference s = .ok r) :
    i.Settled active (m.store s r) := by
  cases hs : m.resolved? s with
  | some r₀ => rw [store_of_some hs]; exact h
  | none =>
    refine ⟨fun x r' hx => ?_, ?_⟩
    · rw [(store_of_none hs r).2] at hx
      by_cases hxs : x = s
      · subst hxs
        have hrr : r = r' := by simpa [Cache.apply] using hx
        exact hrr ▸ hr
      · exact h.cached x r' (by simpa [Cache.apply, hxs] using hx)
    · simp only [Memory.store, hs]
      exact h.active

end Settled

/-! ## Tiers -/

section Tiers

variable {active : List (Nat × i.contract.Slot)} {read : Nat → i.contract.Slot → Run i.size Value}

theorem runSource_yields {s : i.contract.Slot} {tier : Tier} {opinion : Run i.size (Option Value)}
    {r : Except ResolveError (Option Value)} (h : Run.Yields (i.Settled active) opinion r) :
    Run.Yields (i.Settled active) (i.runSource s tier opinion) r :=
  .bind (.update fun _ hm => hm.record _) fun _ _ => .noting h fun _ _ hm => hm.record _

theorem consult_yields {l : Lookup} (hl : l.Steady) (s : i.contract.Slot) :
    Run.Yields (i.Settled active) (i.consult l s) (l.ask (i.contract.accessor s).info 0) := by
  intro m hm
  have hask : i.consult l s m = (Run.outcome (l.ask (i.contract.accessor s).info 0),
      { m with asked := s :: m.asked }) := by
    simp only [consult, Run.memory_bind_apply, Run.update_bind_apply, hl _ (m.asked.count s)]
    cases l.ask (i.contract.accessor s).info 0 <;> rfl
  rw [hask]
  exact ⟨rfl, hm.of_same rfl rfl⟩

/-- a source whose reads yield the reference yields its value -/
theorem evalSource_yields (h : i.Memoryless) {s : i.contract.Slot} {src : Source} (hs : i.served s = some src)
    (hr : ∀ s', i.Reads s s' → ∀ thread,
      Run.Yields (i.Settled active) (read thread s') ((i.reference s').map (·.value)))
    (first : Place → Run i.size Bool) (thread : Nat) :
    Run.Yields (i.Settled active) (i.evalSource ⟨read, first⟩ thread src)
      ((i.valueOf i.reference src).map some) := by
  have hname : ∀ name ∈ src.expr.reads, ∀ thread,
      Run.Yields (i.Settled active) (Access.readName ⟨read, first⟩ thread name) (i.readBy i.reference name) := by
    intro name hn thread
    unfold Access.readName readBy byName
    cases hs' : i.contract.slot? name with
    | none => exact .fail _
    | some s' => exact hr s' (reads_of_named hs hn hs') thread
  have heval := src.expr.eval_yields (h.plain src (mem_sources hs)) hname thread []
  have hbind := Run.Yields.bind heval fun x _ => .pure (some (⟨src.type, x⟩ : Value))
  unfold valueOf
  cases hx : src.expr.value (i.readBy i.reference) <;> rw [hx] at hbind <;> exact hbind

variable {s : i.contract.Slot} {thread : Nat} {tier : Tier} {rest : List Tier}

/-- a tier that has an opinion or fails decides -/
theorem firstOpinion_of_opinion {v : Except ResolveError Value}
    (h : Run.Yields (i.Settled active) (i.opinion read thread s tier) (v.map some)) :
    Run.Yields (i.Settled active) (i.firstOpinion read thread s (tier :: rest)) (v.map (⟨·, tier⟩)) := by
  cases v with
  | error e => exact .error_bind h
  | ok v => exact .ok_bind h (.pure _)

/-- a tier without an opinion leaves it to the next ones -/
theorem firstOpinion_of_silence {r : Except ResolveError Resolved}
    (h : Run.Yields (i.Settled active) (i.opinion read thread s tier) (.ok none))
    (hr : Run.Yields (i.Settled active) (i.firstOpinion read thread s rest) r) :
    Run.Yields (i.Settled active) (i.firstOpinion read thread s (tier :: rest)) r := .ok_bind h hr

/-- **The tiers yield the reference** where the reads of the serving source do. -/
theorem compute_yields (h : i.Memoryless)
    (hr : ∀ s', i.Reads s s' → ∀ thread,
      Run.Yields (i.Settled active) (read thread s') ((i.reference s').map (·.value))) :
    Run.Yields (i.Settled active) (i.compute read thread s) (i.candidate i.reference s) := by
  have hsource {src : Source} (hs : i.served s = some src) := evalSource_yields h hs hr
  unfold compute candidate Tier.all
  cases ho : i.override? s with
  | some src =>
    refine firstOpinion_of_opinion (v := i.valueOf i.reference src) ?_
    simp only [opinion, ho]
    exact runSource_yields (hsource (by simp [served, ho]) _ thread)
  | none =>
    refine firstOpinion_of_silence (by simp only [opinion, ho]; exact .pure _) ?_
    have hlookup : Run.Yields (i.Settled active) (i.opinion read thread s .lookup) (i.lookedUp s) := by
      unfold opinion lookedUp
      cases hl : i.lookup with
      | none => exact .pure _
      | some l => exact runSource_yields (consult_yields (h.steady l hl) s)
    rcases hl : i.lookedUp s with e | _ | v <;> rw [hl] at hlookup
    · exact firstOpinion_of_opinion (v := .error e) hlookup
    · refine firstOpinion_of_silence hlookup ?_
      cases hd : (i.contract.accessor s).source? with
      | none => exact firstOpinion_of_silence (by simp only [opinion, hd]; exact .pure _) (.fail _)
      | some src =>
        refine firstOpinion_of_opinion (v := i.valueOf i.reference src) ?_
        simp only [opinion, hd]
        exact runSource_yields (hsource (by simp [served, ho, hd]) _ thread)
    · exact firstOpinion_of_opinion (v := .ok v) hlookup

end Tiers

/-! ## Resolutions -/

theorem keep_yields {active : List (Nat × i.contract.Slot)} {s : i.contract.Slot} {r : Resolved}
    (hr : i.reference s = i.checked s r) :
    Run.Yields (i.Settled active) (i.keep s r) ((i.reference s).map (·.value)) := by
  intro m hm
  rw [keep_apply, hr]
  unfold checked at hr ⊢
  split at hr
  · rename_i ha
    rw [if_pos ha, if_pos ha]
    refine ⟨?_, hm.store hr⟩
    -- what was there first is the reference too
    cases hs : m.resolved? s with
    | none => rfl
    | some r₀ =>
      have h₀ := hm.cached s r₀ hs
      rw [hr] at h₀
      cases h₀
      rfl
  · rename_i ha
    rw [if_neg ha, if_neg ha]
    exact ⟨rfl, hm⟩

theorem settle_yields (h : i.Memoryless) {active : List (Nat × i.contract.Slot)}
    {read : Nat → i.contract.Slot → Run i.size Value} {thread : Nat} {s : i.contract.Slot}
    (hr : ∀ s', i.Reads s s' → ∀ thread,
      Run.Yields (i.Settled active) (read thread s') ((i.reference s').map (·.value))) :
    Run.Yields (i.Settled active) (i.settle read thread s) ((i.reference s).map (·.value)) := by
  have href := h.acyclic.reference_eq s
  unfold recompute at href
  have hcompute : Run.Yields (i.Settled active) (i.compute read thread s) (i.candidate i.reference s) :=
    compute_yields h hr
  unfold settle
  cases hc : i.candidate i.reference s with
  | error e =>
    rw [hc] at hcompute href
    rw [href]
    exact .error_bind hcompute
  | ok r =>
    rw [hc] at hcompute href
    have hkeep : Run.Yields (i.Settled active) (i.keep s r) ((i.reference s).map (·.value)) := keep_yields href
    refine .ok_bind hcompute ?_
    cases hv : i.reference s with
    | error e => rw [hv] at hkeep; exact .error_bind hkeep
    | ok r' =>
      rw [hv] at hkeep
      exact .ok_bind hkeep (.ok_bind (.update fun _ hm => hm.record _) (.pure _))

/-- **Every resolution yields the reference.** The options under way are those that lead to the option, so it is none of
    them. -/
theorem resolve_yields (h : i.Memoryless) {depth : Nat} {active : List (Nat × i.contract.Slot)}
    {s : i.contract.Slot} (hd : (i.descendants s).card < depth)
    (hp : ∀ p ∈ active, Relation.TransGen i.Reads p.2 s) (thread : Nat) :
    Run.Yields (i.Settled active) (i.resolve depth thread s) ((i.reference s).map (·.value)) := by
  induction depth generalizing active s thread with
  | zero => exact absurd hd (Nat.not_lt_zero _)
  | succ depth ih =>
    intro m hm
    cases hs : m.resolved? s with
    | some r =>
      rw [resolve_cached hs, hm.cached s r hs]
      exact ⟨rfl, hm.record _⟩
    | none =>
      have hnot : (thread, s) ∉ m.active := by
        rw [hm.active]
        exact fun hmem => h.acyclic s (hp _ hmem)
      rw [resolve_entered hs (Memory.chain_eq_nil hnot)]
      have hread (s' : i.contract.Slot) (hr : i.Reads s s') (thread' : Nat) :
          Run.Yields (i.Settled (active ++ [(thread, s)])) (i.resolve depth thread' s')
            ((i.reference s').map (·.value)) := by
        refine ih (Nat.lt_of_lt_of_le (h.acyclic.descendants_lt hr) (Nat.le_of_lt_succ hd)) (fun p hpm => ?_) thread'
        rcases List.mem_append.1 hpm with hpm | hpm
        · exact (hp p hpm).tail hr
        · rw [List.mem_singleton.1 hpm]
          exact .single hr
      obtain ⟨h1, h2⟩ := settle_yields h hread _ (hm.enter thread s)
      exact ⟨h1, h2.leave⟩

theorem access_yields (h : i.Memoryless) (thread : Nat) (s : i.contract.Slot) :
    Run.Yields (i.Settled []) (i.access.read thread s) ((i.reference s).map (·.value)) := by
  have hdepth := Nat.lt_trans (h.acyclic.descendants_lt_size s) i.size_lt_depth
  exact resolve_yields h hdepth (fun _ hp => absurd hp List.not_mem_nil) thread

/-! ## Requests -/

theorem getValue_yields (h : i.Memoryless) (thread : Nat) (name : String) :
    Run.Yields (i.Settled []) (i.getValue thread name) (i.referValue name) := by
  unfold getValue Access.readName referValue readBy byName
  cases i.contract.slot? name with
  | none => exact .fail _
  | some s => exact access_yields h thread s

theorem tryGet_yields (h : i.Memoryless) (thread : Nat) (t : ValueType) (name : String) :
    Run.Yields (i.Settled []) (i.tryGet thread t name) (.ok (i.referAt t name)) :=
  .attempt (.bind (Access.get_yields (getValue_yields h thread name) t) fun _ _ => .pure _)

theorem resolveAll_yields (h : i.Memoryless) (thread : Nat) :
    Run.Yields (i.Settled []) (i.resolveAll thread) i.referAll := by
  unfold resolveAll Access.readAll referAll
  induction i.contract.slots with
  | nil => exact .pure ()
  | cons s rest ih =>
    have hread := access_yields h thread s
    show Run.Yields _ (discard (i.access.read thread s) >>= fun _ => rest.forM _)
      (discard (i.reference s) >>= fun _ => rest.forM _)
    cases hs : i.reference s with
    | error e =>
      rw [hs] at hread
      exact .error_bind (.error_bind hread)
    | ok r =>
      rw [hs] at hread
      exact .ok_bind (.ok_bind hread (.pure _)) ih

/-- a read that succeeds leaves the option cached at the tier of the reference -/
theorem tierOf_getValue (h : i.Memoryless) {m : Memory i.size} (hm : i.Settled [] m) (thread : Nat) {name : String}
    {r : Resolved} (hr : i.byName i.reference name = .ok r) :
    i.tierOf (i.getValue thread name m).2 name = some r.tier := by
  obtain ⟨hv, hm'⟩ := getValue_yields h thread name m hm
  rw [referValue, readBy, hr] at hv
  unfold byName at hr
  unfold getValue Access.readName at hv hm' ⊢
  cases hs : i.contract.slot? name with
  | none => rw [hs] at hr; cases hr
  | some s =>
    simp only [hs] at hr hv hm' ⊢
    obtain ⟨-, tier, ht⟩ := resolve_answered hv
    have href : r = ⟨r.value, tier⟩ := Except.ok.inj (hr.symm.trans (hm'.cached s _ ht))
    simp only [tierOf, hs, Option.bind_some, Memory.tier?]
    rw [show (i.access.read thread s m).2.resolved? s = some r from ht.trans (congrArg some href.symm)]
    rfl

theorem reportEntry_yields (h : i.Memoryless) (thread : Nat) (config : Option Config.Layered) (info : AccessorInfo) :
    Run.Yields (i.Settled []) (i.reportEntry thread config info) (.ok (i.referEntry config info).reported) := by
  have hvalue := getValue_yields h thread info.name
  unfold referEntry
  cases hr : i.byName i.reference info.name with
  | error e =>
    rw [referValue, readBy, hr] at hvalue
    simp only [Entry.reported_of_none]
    exact .ok_bind (.attempt hvalue) (.pure _)
  | ok r =>
    intro m hm
    have ht := tierOf_getValue h hm thread hr
    rw [referValue, readBy, hr] at hvalue
    obtain ⟨hv, hm'⟩ := hvalue m hm
    unfold reportEntry
    rw [Run.bind_ok (Run.attempt_ok (Prod.ext hv rfl))]
    simp only [Run.memory_bind_apply, ht]
    rw [Entry.reported_of_some rfl]
    exact ⟨rfl, hm'⟩

theorem reportEntries_yields (h : i.Memoryless) (thread : Nat) (config : Option Config.Layered)
    (infos : List AccessorInfo) :
    Run.Yields (i.Settled []) (i.reportEntries thread config infos)
      (.ok (infos.map fun info => (i.referEntry config info).reported)) := by
  induction infos with
  | nil => exact .pure []
  | cons info rest ih => exact .ok_bind (reportEntry_yields h thread config info) (.ok_bind ih (.pure _))

theorem report_yields (h : i.Memoryless) (thread : Nat) (config : Option Config.Layered) (createdAt : Instant) :
    Run.Yields (i.Settled []) (i.report thread config createdAt) (.ok (i.referReport config createdAt)) := by
  have hentries := reportEntries_yields h thread config (i.contract.accessors.map (·.info))
  have hreported : (i.contract.accessors.map (·.info)).map (fun info => (i.referEntry config info).reported) =
      (i.contract.accessors.map fun a => i.referEntry config a.info).map (·.reported) := by
    rw [List.map_map, List.map_map]
    rfl
  rw [hreported] at hentries
  refine .ok_bind hentries ?_
  rw [Entry.map_entry_reported, Entry.filterMap_redaction_reported]
  exact .pure _

/-- a request that reads options yields the answer of the reference -/
theorem answer_yields (h : i.Memoryless) (config : Option Config.Layered) (thread : Nat) {r : Request} {a : Answer}
    (ha : r.reference i config = some a) : Run.Yields (i.Settled []) (r.answer i config thread) (.ok a) := by
  cases r <;> cases ha
  case get t name => exact .ok_bind (tryGet_yields h thread t name) (.pure _)
  case getTwice t name =>
    exact .ok_bind (tryGet_yields h thread t name) (.ok_bind (tryGet_yields h thread t name) (.pure _))
  case getValue name => exact .ok_bind (.attempt (getValue_yields h thread name)) (.pure _)
  case resolveAll => exact .ok_bind (.attempt (resolveAll_yields h thread)) (.pure _)
  case report withConfig createdAt => exact .ok_bind (report_yields h thread _ createdAt) (.pure _)

/-! ## Sessions -/

/-- the second memory agrees with the reference if the first does -/
def KeepsSettled (i : Instance) (m m' : Memory i.size) : Prop := i.Settled [] m → i.Settled [] m'

instance : IsPreorder (Memory i.size) i.KeepsSettled where
  refl _ h := h
  trans _ _ _ h₁ h₂ h := h₂ (h₁ h)

theorem memoryAfter_settled (h : i.Memoryless) (ts : List Turn) : i.Settled [] (i.memoryAfter ts) := by
  have hfresh : i.Settled [] (.fresh i.size []) := by
    refine ⟨fun s r hr => ?_, rfl⟩
    simp [Memory.resolved?, Memory.fresh] at hr
  unfold memoryAfter
  generalize Memory.fresh i.size [] = m at hfresh
  induction ts generalizing m with
  | nil => exact hfresh
  | cons t ts ih =>
    have hread (thread : Nat) (s : i.contract.Slot) : Run.Keeps i.KeepsSettled (i.access.read thread s) :=
      fun m hm => (access_yields h thread s m hm).2
    exact ih _ (answer_keeps hread t.config t.thread t.request _ (hfresh.of_same rfl rfl))

/-- **Caching is transparent.** Of an instance in which nothing looks at what is remembered:
- the reference is the recursion from override, else lookup, else default;
- after any turns, on any threads, a request that reads options is answered as the reference says, values and errors;
- so the turns before make no difference;
- what is read within sources is what the reference says, too. -/
theorem answers_reference (i : Instance) (h : i.Memoryless) :
    (∀ s, i.reference s = i.recompute i.reference s) ∧
    (∀ ts t a, t.request.reference i t.config = some a → (i.turn (i.memoryAfter ts) t).1 = .ok a) ∧
    (∀ ts ts' t, (t.request.reference i t.config).isSome →
      (i.turn (i.memoryAfter ts) t).1 = (i.turn (i.memoryAfter ts') t).1) ∧
    (∀ ts thread s v, .answered thread s v ∈ i.history ts → (i.reference s).map (·.value) = .ok v) := by
  have hanswer (ts : List Turn) (t : Turn) (a : Answer) (ha : t.request.reference i t.config = some a) :
      (i.turn (i.memoryAfter ts) t).1 = .ok a := by
    have hm : i.Settled [] { i.memoryAfter ts with shared := t.shared, journal := [] } :=
      (memoryAfter_settled h ts).of_same rfl rfl
    exact (answer_yields h t.config t.thread ha _ hm).1
  refine ⟨h.acyclic.reference_eq, hanswer, fun ts ts' t ht => ?_, fun ts thread s v hv => ?_⟩
  · obtain ⟨a, ha⟩ := Option.isSome_iff_exists.1 ht
    rw [hanswer ts t a ha, hanswer ts' t a ha]
  · obtain ⟨hc, hl⟩ := history_lawful (i := i) ts
    obtain ⟨tier, ht⟩ := hl.answered hv
    rw [(memoryAfter_settled h ts).cached s ⟨v, tier⟩ (by rw [hc]; exact ht)]
    rfl

/-- A lookup that has the base only, a size that cannot be computed because the step is missing, and a label that makes
do without the size. -/
def scaleContract : Contract := ⟨"Scale", [
  ⟨"base", [], .int .u32, none⟩,
  ⟨"step", [], .int .u32, none⟩,
  ⟨"size", [], .int .u32, some (.add (.int .u32) (.get "base") (.spawn (.get "step")))⟩,
  ⟨"label", [], .string, some (.orElse (.display "size") (.add .string (.display "base") (.const "px")))⟩]⟩

def scale : Instance := ⟨scaleContract, #v[none, none, none, none], some (.ofMap [("base", ⟨.int .u32, 7#32⟩)])⟩

theorem scale_memoryless : scale.Memoryless where
  plain := by decide
  steady l hl := by cases hl; exact Lookup.steady_steady _
  acyclic := .of_numbering (·.val) (by decide)

/-- The label is the same after all options were asked for, which fails at the step with the base cached. -/
theorem scale_answers : scale.Memoryless ∧
    (scale.turn (scale.memoryAfter [⟨[], none, 0, .resolveAll⟩]) ⟨[], none, 1, .getValue "label"⟩).1 =
      .ok (.value (.ok ⟨.string, "7px"⟩)) :=
  ⟨scale_memoryless, (answers_reference scale scale_memoryless).2.1 _ _ _ rfl⟩

end Instance

end TieredOptions
