/-
Why a read fails, and what it never fails of in an instance that was built. `Computed` says all that the tiers of an
option can come to. A read that fails is turned away because its option is under way (`TurnedAway`), or passes on the
error of a source (`PassesOn`), or is at an end where the lookup has just answered that it has no value (`Misses`) or
one of another type (`Rejects`), `resolve_fails`.

Construction has seen to it that an override has the type of its option, and that without a lookup every option has a
source (`Checked`). So without a lookup no value is missing or rejected, and none is rejected where the lookup keeps to
types (`Lookup.Typed`), as configuration does.
-/
import TieredOptions.Proofs.Construction
import TieredOptions.Proofs.Decoding
import TieredOptions.Proofs.Precedence

namespace TieredOptions.Instance

variable {i : Instance}

/-! ## What construction has checked -/

/-- Overrides have the types of their options, and without a lookup no option is without a source. -/
structure Checked (i : Instance) : Prop where
  typed : ∀ s src, i.override? s = some src → src.type = (i.contract.accessor s).type
  served : i.lookup = none → ∀ s, i.override? s = none → (i.contract.accessor s).default ≠ none

theorem checked_of_build {c : Contract} {lookup : Option Lookup} {overrides : List Override}
    (h : build c lookup overrides = .ok i) : i.Checked := by
  obtain ⟨ha, rfl⟩ := build_ok h
  have hget (s : c.Slot) : (⟨c, c.bindings overrides, lookup⟩ : Instance).override? s =
      (overrides.find? (·.name == some (c.accessor s).name)).map (·.source) := c.bindings_get overrides s
  refine ⟨fun s src hs => ?_, fun hl s hs hd => ?_⟩
  · rw [hget] at hs
    obtain ⟨o, ho, rfl⟩ := Option.map_eq_some_iff.1 hs
    obtain ⟨a, hac, hname, htype⟩ := ha.fits o (List.mem_of_find?_eq_some ho)
    have hname' : o.name = some (c.accessor s).name := by simpa using List.find?_some ho
    -- the override was found under the name of the option, and it fits the only accessor with this name
    obtain ⟨s', hs'⟩ := List.get_of_mem hac
    have hsame : (c.accessor s').name = (c.accessor s).name := by
      rw [show c.accessor s' = a from hs']
      exact Option.some.inj (hname.symm.trans hname')
    have hslot : s' = s := ha.wellFormed.name_inj hsame
    subst hslot
    exact htype.trans (congrArg Accessor.type hs'.symm)
  · rw [hget, Option.map_eq_none_iff, List.find?_eq_none] at hs
    obtain ⟨o, ho, hname⟩ := ha.served hl (c.accessor s) (List.get_mem _ _) hd
    exact hs o ho (by simp [hname])

/-! ## What the tiers come to -/

/-- What the tiers of an option can come to, and the memory that they leave. -/
inductive Computed (i : Instance) (s : i.contract.Slot) (m : Memory i.size) :
    Except Halt Resolved → Memory i.size → Prop where
  /-- the first source with an opinion, an override or a default, has a value of its type -/
  | value (tier : Tier) (src : Source) (x : src.type.Carrier) (m' : Memory i.size)
    (hs : i.sourceAt s tier = some src) : Computed i s m (.ok ⟨⟨src.type, x⟩, tier⟩) m'
  /-- the lookup answers a value -/
  | answered (l : Lookup) (v : Value) (ho : i.override? s = none) (hl : i.lookup = some l)
    (ha : l.ask (i.contract.accessor s).info (m.asked.count s) = .ok (some v)) :
    Computed i s m (.ok ⟨v, .lookup⟩) (m.consulted s (.returned s .lookup (some v)))
  /-- a source fails -/
  | failed (tier : Tier) (e : ResolveError) (m' : Memory i.size) (earlier : List (Event i.size))
    (hr : i.Reaches s tier) (hj : m'.journal = .failed s tier e :: earlier) :
    Computed i s m (.error (.failed e)) m'
  /-- the lookup has no opinion, and nothing else is there -/
  | unanswered (l : Lookup) (ho : i.override? s = none) (hd : (i.contract.accessor s).default = none)
    (hl : i.lookup = some l) (ha : l.ask (i.contract.accessor s).info (m.asked.count s) = .ok none) :
    Computed i s m (.error (.failed (.missing (i.contract.accessor s).name)))
      (m.consulted s (.returned s .lookup none))
  /-- nothing is there at all -/
  | sourceless (ho : i.override? s = none) (hd : (i.contract.accessor s).default = none) (hl : i.lookup = none) :
    Computed i s m (.error (.failed (.missing (i.contract.accessor s).name))) m
  | unending (m' : Memory i.size) : Computed i s m (.error .unending) m'

section Tiers

variable {read : Nat → i.contract.Slot → Run i.size Value} {s : i.contract.Slot} {m : Memory i.size} {tier : Tier}
  {rest : List Tier}

/-- the first tier that has an opinion decides, and so does one that fails -/
theorem firstOpinion_cons {o : Except Halt (Option Value)} {thread : Nat} {m' : Memory i.size}
    (h : i.opinion read thread s tier m = (o, m')) :
    i.firstOpinion read thread s (tier :: rest) m =
      match o with
      | .error e => (.error e, m')
      | .ok (some v) => (.ok ⟨v, tier⟩, m')
      | .ok none => i.firstOpinion read thread s rest m' := by
  rcases o with e | _ | v
  · exact Run.bind_error h _
  · exact Run.bind_ok h _
  · exact Run.bind_ok h _

/-- an expression is evaluated between two notes -/
theorem runSource_evalSource (a : Access i.contract) (thread : Nat) (src : Source) (m : Memory i.size) :
    i.runSource s tier (i.evalSource a thread src) m =
      match src.expr.eval a thread [] (m.record (.ran s tier)) with
      | (.ok x, m') => (.ok (some ⟨src.type, x⟩), m'.record (.returned s tier (some ⟨src.type, x⟩)))
      | (.error (.failed e), m') => (.error (.failed e), m'.record (.failed s tier e))
      | (.error .unending, m') => (.error .unending, m') := by
  show Run.noting (i.evalSource a thread src) _ _ (m.record (.ran s tier)) = _
  rcases hx : src.expr.eval a thread [] (m.record (.ran s tier)) with ⟨(e | _) | x, m'⟩
  · simp only [Run.noting, evalSource, Run.bind_error hx]
  · simp only [Run.noting, evalSource, Run.bind_error hx]
  · simp only [Run.noting, evalSource, Run.bind_ok hx, Run.pure_apply]

/-- A tier with an expression as its source decides: with the value of the expression, or with its failure. -/
theorem firstOpinion_of_source {a : Access i.contract} {src : Source} (hs : i.sourceAt s tier = some src)
    (hr : i.Reaches s tier) {thread : Nat}
    (ho : i.opinion read thread s tier = i.runSource s tier (i.evalSource a thread src)) (m m₀ : Memory i.size) :
    i.Computed s m₀ (i.firstOpinion read thread s (tier :: rest) m).1
      (i.firstOpinion read thread s (tier :: rest) m).2 := by
  have hop : i.opinion read thread s tier m = _ := ho ▸ runSource_evalSource a thread src m
  rcases hx : src.expr.eval a thread [] (m.record (.ran s tier)) with ⟨(e | _) | x, m'⟩ <;> rw [hx] at hop <;>
    rw [firstOpinion_cons hop]
  · exact .failed tier e _ m'.journal hr rfl
  · exact .unending m'
  · exact .value tier src x _ hs

/-- the default is the last resort -/
theorem default_computed (ho : i.override? s = none) {src : Source} (hd : (i.contract.accessor s).source? = some src)
    (thread : Nat) (m m₀ : Memory i.size) :
    i.Computed s m₀ (i.firstOpinion read thread s [.default] m).1 (i.firstOpinion read thread s [.default] m).2 := by
  have hreach : i.Reaches s .default := by
    refine ⟨ho, ?_⟩
    unfold Accessor.source? at hd
    cases hdef : (i.contract.accessor s).default with
    | none => simp [hdef] at hd
    | some e => rfl
  refine firstOpinion_of_source (a := ⟨read, i.firstShared s⟩) (show i.sourceAt s .default = some src from hd) hreach
    ?_ m m₀
  simp only [opinion, hd]

theorem source?_eq_none {a : Accessor} : a.source? = none ↔ a.default = none := Option.map_eq_none_iff

/-- **What the tiers come to**, whatever the reads of their sources do. -/
theorem compute_computed (read : Nat → i.contract.Slot → Run i.size Value) (thread : Nat) (s : i.contract.Slot)
    (m : Memory i.size) : i.Computed s m (i.compute read thread s m).1 (i.compute read thread s m).2 := by
  unfold compute Tier.all
  cases ho : i.override? s with
  | some src =>
    have hreach : i.Reaches s .override := by
      rw [Reaches, ho]
      rfl
    refine firstOpinion_of_source (a := ⟨read, i.firstOwn s⟩) (show i.sourceAt s .override = some src from ho) hreach ?_
      m m
    simp only [opinion, ho]
  | none =>
    have hoverride : i.opinion read thread s .override m = (.ok none, m) := by
      simp only [opinion, ho]
      rfl
    rw [firstOpinion_cons hoverride]
    cases hl : i.lookup with
    | none =>
      have hlookup : i.opinion read thread s .lookup m = (.ok none, m) := by
        simp only [opinion, hl]
        rfl
      rw [firstOpinion_cons hlookup]
      cases hd : (i.contract.accessor s).source? with
      | some src => exact default_computed ho hd thread m m
      | none =>
        have hdefault : i.opinion read thread s .default m = (.ok none, m) := by
          simp only [opinion, hd]
          rfl
        rw [firstOpinion_cons hdefault]
        exact .sourceless ho (source?_eq_none.1 hd) hl
    | some l =>
      have hask : i.opinion read thread s .lookup m = i.runSource s .lookup (i.consult l s) m := by
        simp only [opinion, hl]
      rw [ask_apply] at hask
      cases ha : l.ask (i.contract.accessor s).info (m.asked.count s) with
      | error e =>
        rw [ha] at hask
        rw [firstOpinion_cons hask]
        exact .failed .lookup e _ _ ⟨ho, by rw [hl]; rfl⟩ rfl
      | ok o =>
        rw [ha] at hask
        rw [firstOpinion_cons hask]
        cases o with
        | some v => exact .answered l v ho hl ha
        | none =>
          cases hd : (i.contract.accessor s).source? with
          | some src => exact default_computed ho hd thread _ m
          | none =>
            have hdefault : i.opinion read thread s .default (m.consulted s (.returned s .lookup none)) =
                (.ok none, m.consulted s (.returned s .lookup none)) := by
              simp only [opinion, hd]
              rfl
            show i.Computed s m (i.firstOpinion read thread s [.default] _).1 _
            rw [firstOpinion_cons hdefault]
            exact .unanswered l ho (source?_eq_none.1 hd) hl ha

end Tiers

/-! ## Attempts -/

section Attempts

variable (i : Instance) (thread : Nat) (s : i.contract.Slot) (m : Memory i.size) (e : ResolveError) (m' : Memory i.size)

/-- The option is under way on the thread, and nothing is done. -/
structure TurnedAway : Prop where
  underWay : m.chain thread s ≠ []
  error : e = .cycle ((m.chain thread s ++ [s]).map fun x => (i.contract.accessor x).name)
  left : m' = m.record (.reentered thread s)

/-- A source of the option failed with the error, and that was the last that happened in the attempt. -/
def PassesOn : Prop :=
  ∃ tier earlier, i.Reaches s tier ∧ m'.journal = .left thread s :: .failed s tier e :: earlier

/-- The option has neither an override nor a default, and the lookup, asked and nothing else, answered no value. -/
structure Misses : Prop where
  notOverridden : i.override? s = none
  noDefault : (i.contract.accessor s).default = none
  asked : ∃ l, i.lookup = some l ∧ l.ask (i.contract.accessor s).info (m.asked.count s) = .ok none
  error : e = .missing (i.contract.accessor s).name
  left : m' = ((m.enter thread s).consulted s (.returned s .lookup none)).leave thread s

/-- The option has no override, and the lookup, asked and nothing else, answered a value of another type. -/
structure Rejects : Prop where
  notOverridden : i.override? s = none
  asked : ∃ l v, i.lookup = some l ∧ l.ask (i.contract.accessor s).info (m.asked.count s) = .ok (some v) ∧
    v.type ≠ (i.contract.accessor s).type ∧
    m' = ((m.enter thread s).consulted s (.returned s .lookup (some v))).leave thread s
  error : e = .typeMismatch (i.contract.accessor s).name (i.contract.accessor s).type

end Attempts

variable {depth thread : Nat} {s : i.contract.Slot} {m m' : Memory i.size} {e : ResolveError}

/-- overrides and defaults have the types of their options -/
theorem Checked.sourceAt_type (hi : i.Checked) {tier : Tier} {src : Source} (hs : i.sourceAt s tier = some src) :
    src.type = (i.contract.accessor s).type := by
  cases tier with
  | override => exact hi.typed s src hs
  | lookup => cases hs
  | default =>
    obtain ⟨x, -, rfl⟩ := Option.map_eq_some_iff.1 hs
    rfl

/-- **Why a read fails**, from whatever memory, on whatever thread and however deep. -/
theorem resolve_fails (hi : i.Checked) (h : i.resolve depth thread s m = (.error (.failed e), m')) :
    i.TurnedAway thread s m e m' ∨ i.PassesOn thread s e m' ∨ i.Misses thread s m e m' ∨ i.Rejects thread s m e m' := by
  cases depth with
  | zero => cases h
  | succ depth =>
    cases hs : m.resolved? s with
    | some r =>
      rw [resolve_cached hs] at h
      cases h
    | none =>
      by_cases hc : m.chain thread s = []
      · rw [resolve_entered hs hc] at h
        have hcomputed := compute_computed (i.resolve depth) thread s (m.enter thread s)
        rcases hcm : i.compute (i.resolve depth) thread s (m.enter thread s) with ⟨e' | r, m₁⟩ <;>
          rw [hcm] at hcomputed
        · rw [settle, Run.bind_error hcm] at h
          cases h
          cases hcomputed with
          | failed tier _ _ earlier hr hj => exact .inr (.inl ⟨tier, earlier, hr, congrArg (_ :: ·) hj⟩)
          | unanswered l ho hd hl ha => exact .inr (.inr (.inl ⟨ho, hd, ⟨l, hl, ha⟩, rfl, rfl⟩))
          | sourceless ho hd hl => exact absurd hd (hi.served hl s ho)
        · rw [settle, Run.bind_ok hcm] at h
          have hkeep := keep_apply m₁ s r
          by_cases ha : (i.contract.accessor s).info.accepts r.value = true
          · rw [if_pos ha] at hkeep
            rw [Run.bind_ok hkeep, answer_apply] at h
            cases h
          · rw [if_neg ha] at hkeep
            rw [Run.bind_error hkeep] at h
            cases h
            have hne : r.value.type ≠ (i.contract.accessor s).type := fun ht => ha (beq_iff_eq.2 ht)
            cases hcomputed with
            | value tier src x _ hsrc => exact absurd (hi.sourceAt_type hsrc) hne
            | answered l v ho hl hask => exact .inr (.inr (.inr ⟨ho, ⟨l, v, hl, hask, hne, rfl⟩, rfl⟩))
      · rw [resolve_reentered hs hc] at h
        cases h
        exact .inl ⟨hc, rfl, rfl⟩

/-- only a lookup leaves a value missing -/
theorem Misses.lookup_ne_none (h : i.Misses thread s m e m') : i.lookup ≠ none := by
  obtain ⟨l, hl, -⟩ := h.asked
  exact hl ▸ Option.some_ne_none l

/-- only what a lookup answers is rejected -/
theorem Rejects.lookup_ne_none (h : i.Rejects thread s m e m') : i.lookup ≠ none := by
  obtain ⟨l, -, hl, -⟩ := h.asked
  exact hl ▸ Option.some_ne_none l

end TieredOptions.Instance

namespace TieredOptions

/-! ## Lookups that keep to types -/

/-- every value that the lookup answers for an accessor has the accessor's type -/
def Lookup.Typed (l : Lookup) : Prop := ∀ info count v, l.ask info count = .ok (some v) → v.type = info.type

theorem Lookup.silent_typed : Lookup.silent.Typed := fun _ _ _ h => by cases h

/-- **Configuration keeps to types.** -/
theorem Config.Layered.lookup_typed (l : Config.Layered) : l.lookup.Typed := by
  intro info count v h
  have h : l.opinion info = .ok (some v) := h
  unfold Config.Layered.opinion at h
  split at h
  · obtain ⟨x, -, rfl⟩ := Config.decode_eq_some h
    rfl
  · cases h

/-- nothing is rejected that comes from a lookup that keeps to types -/
theorem Instance.Rejects.not_typed {i : Instance} {thread : Nat} {s : i.contract.Slot} {m m' : Memory i.size}
    {e : ResolveError} (h : i.Rejects thread s m e m') : ∀ l, i.lookup = some l → ¬ l.Typed := by
  intro l hl ht
  obtain ⟨l', v, hl', ha, hne, -⟩ := h.asked
  rw [hl] at hl'
  cases hl'
  exact hne (ht _ _ _ ha)

end TieredOptions
