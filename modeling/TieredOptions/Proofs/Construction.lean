/-
Building instances, pass by pass: of each pass it is said what holds where it lets everything through, and what is wrong
where it refuses something. Together:
- `build_eq_ok`: an instance is built exactly from what construction asks for, and it holds for each option the override
  that is named like it (`Contract.bindings`);
- `build_error`: a refusal names something that is wrong, and a pass is come to only where those before it let
  everything through.

`build_admits` is the account of construction that follows from the two.
-/
import TieredOptions.Proofs.Validity
import TieredOptions.Session

namespace TieredOptions

/-! ## The contract -/

namespace Contract

variable {c : Contract}

theorem checkAccessors_ok {contract : String} {seen : List String} {as : List Accessor}
    (h : checkAccessors contract seen as = .ok ()) :
    (∀ a ∈ as, a.params = [] ∧ IsIdentifier a.name ∧ a.name ∉ seen) ∧ (as.map (·.name)).Nodup := by
  induction as generalizing seen with
  | nil => simp
  | cons a rest ih =>
    rw [checkAccessors] at h
    split at h
    · cases h
    rename_i hparams
    split at h
    · cases h
    rename_i hname
    split at h
    · cases h
    rename_i hseen
    obtain ⟨hrest, hdistinct⟩ := ih h
    refine ⟨List.forall_mem_cons.2 ⟨⟨not_not.1 hparams, isOptionName_iff.1 (by simpa using hname), hseen⟩, ?_⟩, ?_⟩
    · intro b hb
      obtain ⟨hp, hi, hs⟩ := hrest b hb
      exact ⟨hp, hi, fun hb => hs (List.mem_cons_of_mem _ hb)⟩
    · refine List.nodup_cons.2 ⟨fun ha => ?_, hdistinct⟩
      obtain ⟨b, hb, hba⟩ := List.mem_map.1 ha
      exact (hrest b hb).2.2 (hba ▸ List.mem_cons_self)

/-- the first accessor that is wrong is the error, and of what is wrong with it the first -/
theorem checkAccessors_error {contract : String} {seen : List String} {as : List Accessor} {e : BuildError}
    (h : checkAccessors contract seen as = .error e) :
    ∃ before a after, as = before ++ a :: after ∧
      ((a.params ≠ [] ∧ e = .malformedContract contract a.name (.parameters a.params)) ∨
        (¬ IsIdentifier a.name ∧ e = .malformedContract contract a.name .invalidName) ∨
        ((a.name ∈ seen ∨ a.name ∈ before.map (·.name)) ∧ e = .malformedContract contract a.name .repeated)) := by
  induction as generalizing seen with
  | nil => cases h
  | cons a rest ih =>
    rw [checkAccessors] at h
    split at h
    · rename_i hparams
      cases h
      exact ⟨[], a, rest, rfl, .inl ⟨hparams, rfl⟩⟩
    split at h
    · rename_i hname
      cases h
      have hname : ¬ IsIdentifier a.name := by simpa [← isOptionName_iff] using hname
      exact ⟨[], a, rest, rfl, .inr (.inl ⟨hname, rfl⟩)⟩
    split at h
    · rename_i hseen
      cases h
      exact ⟨[], a, rest, rfl, .inr (.inr ⟨.inl hseen, rfl⟩)⟩
    obtain ⟨before, b, after, hrest, hwrong⟩ := ih h
    refine ⟨a :: before, b, after, by rw [hrest, List.cons_append], ?_⟩
    rcases hwrong with hp | hn | ⟨hs, he⟩
    · exact .inl hp
    · exact .inr (.inl hn)
    · refine .inr (.inr ⟨?_, he⟩)
      rcases hs with hs | hs
      · rcases List.mem_cons.1 hs with hs | hs
        · exact .inr (by simp [hs])
        · exact .inl hs
      · exact .inr (List.mem_cons_of_mem _ hs)

end Contract

/-! ## The names of the overrides -/

theorem Override.identify_ok {o : Override} {name : String} :
    o.identify = .ok name ↔ o.name = some name ∧ IsIdentifier name := by
  unfold Override.identify
  cases o.name with
  | none => simp
  | some n =>
    simp only [Option.some.injEq]
    split
    · rename_i hn
      constructor
      · intro h
        cases h
        exact ⟨rfl, isOptionName_iff.1 hn⟩
      · rintro ⟨rfl, -⟩
        rfl
    · rename_i hn
      refine ⟨nofun, ?_⟩
      rintro ⟨rfl, hi⟩
      exact absurd (isOptionName_iff.2 hi) hn

theorem Override.identify_error {o : Override} {e : BuildError} (h : o.identify = .error e) :
    (o.name = none ∧ e = .identification (.unnamed o.type)) ∨
      ∃ name, o.name = some name ∧ ¬ IsIdentifier name ∧ e = .identification (.invalidName name) := by
  unfold Override.identify at h
  cases hn : o.name with
  | none =>
    rw [hn] at h
    cases h
    exact .inl ⟨rfl, rfl⟩
  | some name =>
    rw [hn] at h
    simp only at h
    split at h
    · cases h
    · rename_i hi
      cases h
      exact .inr ⟨name, rfl, fun h => hi (isOptionName_iff.2 h), rfl⟩

theorem bindOverrides_ok {bound bound' : List (String × Override)} {os : List Override}
    (h : bindOverrides bound os = .ok bound') :
    ∃ fresh, bound' = bound ++ fresh ∧ fresh.map (·.2) = os ∧
      (∀ p ∈ fresh, p.2.name = some p.1 ∧ IsIdentifier p.1 ∧ p.1 ∉ bound.map (·.1)) ∧
      (fresh.map (·.1)).Nodup := by
  induction os generalizing bound with
  | nil =>
    cases h
    exact ⟨[], by simp⟩
  | cons o rest ih =>
    rw [bindOverrides] at h
    split at h
    · cases h
    rename_i name hname
    obtain ⟨hn, hi⟩ := Override.identify_ok.1 hname
    split at h
    · cases h
    rename_i hnew
    have hnew : name ∉ bound.map (·.1) := by simpa using hnew
    obtain ⟨fresh, rfl, hos, hfresh, hdistinct⟩ := ih h
    refine ⟨(name, o) :: fresh, by simp, by simp [hos], List.forall_mem_cons.2 ⟨⟨hn, hi, hnew⟩, ?_⟩, ?_⟩
    · intro p hp
      obtain ⟨hpn, hpi, hpb⟩ := hfresh p hp
      exact ⟨hpn, hpi, fun hb => hpb (by rw [List.map_append]; exact List.mem_append_left _ hb)⟩
    · refine List.nodup_cons.2 ⟨fun hm => ?_, hdistinct⟩
      obtain ⟨p, hp, hpn⟩ := List.mem_map.1 hm
      exact (hfresh p hp).2.2 (by simp [hpn])

/-- the first override whose name is wrong is the error -/
theorem bindOverrides_error {bound : List (String × Override)} {os : List Override} {e : BuildError}
    (h : bindOverrides bound os = .error e) :
    ∃ before o after, os = before ++ o :: after ∧
      ((o.name = none ∧ e = .identification (.unnamed o.type)) ∨
        ∃ name, o.name = some name ∧
          ((¬ IsIdentifier name ∧ e = .identification (.invalidName name)) ∨
            ((name ∈ bound.map (·.1) ∨ some name ∈ before.map (·.name)) ∧ e = .duplicateOption name))) := by
  induction os generalizing bound with
  | nil => cases h
  | cons o rest ih =>
    rw [bindOverrides] at h
    split at h
    · rename_i e' hname
      cases h
      refine ⟨[], o, rest, rfl, ?_⟩
      rcases Override.identify_error hname with hn | ⟨name, hn, hi, he⟩
      · exact .inl hn
      · exact .inr ⟨name, hn, .inl ⟨hi, he⟩⟩
    rename_i name hname
    obtain ⟨hn, hi⟩ := Override.identify_ok.1 hname
    split at h
    · rename_i hold
      cases h
      exact ⟨[], o, rest, rfl, .inr ⟨name, hn, .inr ⟨.inl (by simpa using hold), rfl⟩⟩⟩
    obtain ⟨before, o', after, hrest, hwrong⟩ := ih h
    refine ⟨o :: before, o', after, by rw [hrest, List.cons_append], ?_⟩
    rcases hwrong with hw | ⟨name', hn', hw | ⟨hold, he⟩⟩
    · exact .inl hw
    · exact .inr ⟨name', hn', .inl hw⟩
    · refine .inr ⟨name', hn', .inr ⟨?_, he⟩⟩
      rcases hold with hold | hold
      · rw [List.map_append, List.mem_append] at hold
        rcases hold with hold | hold
        · exact .inl hold
        · exact .inr (by simp_all)
      · exact .inr (List.mem_cons_of_mem _ hold)

/-! ## Sources for all options -/

/-- what is bound by name is what is overridden -/
theorem Contract.uncovered_eq (c : Contract) {bound : List (String × Override)} {overrides : List Override}
    (hos : bound.map (·.2) = overrides) (hn : ∀ p ∈ bound, p.2.name = some p.1) :
    c.uncovered bound = c.unserved overrides := by
  unfold uncovered unserved
  congr 1
  refine List.filter_congr fun a _ => ?_
  have hbound : bound.any (·.1 == a.name) = true ↔ ∃ o ∈ overrides, o.name = some a.name := by
    subst hos
    simp only [List.any_eq_true, beq_iff_eq, List.mem_map]
    constructor
    · rintro ⟨p, hp, ha⟩
      exact ⟨p.2, ⟨p, hp, rfl⟩, by rw [hn p hp, ha]⟩
    · rintro ⟨-, ⟨p, hp, rfl⟩, ha⟩
      rw [hn p hp] at ha
      exact ⟨p, hp, Option.some.inj ha⟩
  rw [Bool.eq_iff_iff]
  simp only [Bool.and_eq_true, Bool.not_eq_true', decide_eq_true_eq]
  rw [← Bool.not_eq_true, hbound]
  simp

/-! ## Overrides in their places -/

namespace Contract

variable {c : Contract}

theorem slot?_eq_none {name : String} : c.slot? name = none ↔ name ∉ c.names := by
  have h : c.slot? name = none ↔ ∀ a ∈ c.accessors, ¬ (a.name == name) = true := List.findFinIdx?_eq_none_iff
  rw [h]
  simp [names]

/-- no two options have one name -/
theorem WellFormed.name_inj (hc : c.WellFormed) {s s' : c.Slot} (h : (c.accessor s).name = (c.accessor s').name) :
    s = s' := by
  have hlen : c.names.length = c.size := List.length_map _
  have hs : s.val < c.names.length := Nat.lt_of_lt_of_eq s.isLt hlen.symm
  have hs' : s'.val < c.names.length := Nat.lt_of_lt_of_eq s'.isLt hlen.symm
  have heq : c.names[s.val] = c.names[s'.val] := by
    simp only [names, List.getElem_map]
    exact h
  exact Fin.ext (hc.distinct.getElem_inj_iff.1 heq)

theorem WellFormed.slot?_eq_some (hc : c.WellFormed) {name : String} {s : c.Slot} :
    c.slot? name = some s ↔ (c.accessor s).name = name := by
  refine ⟨slot?_name, fun h => ?_⟩
  cases hs : c.slot? name with
  | none =>
    have hmem : name ∈ c.names := h ▸ List.mem_map.2 ⟨c.accessor s, List.get_mem _ _, rfl⟩
    exact absurd hmem (slot?_eq_none.1 hs)
  | some s' => rw [hc.name_inj ((slot?_name hs).trans h.symm)]

/-- an option that a name stands for has the type of the override -/
def Placeable (c : Contract) (p : String × Override) : Prop :=
  ∃ s, c.slot? p.1 = some s ∧ p.2.type = (c.accessor s).type

theorem place_ok {slots slots' : Vector (Option Source) c.size} {bound : List (String × Override)}
    (h : c.place slots bound = .ok slots') : ∀ p ∈ bound, c.Placeable p := by
  induction bound generalizing slots with
  | nil => simp
  | cons p rest ih =>
    obtain ⟨name, o⟩ := p
    rw [place] at h
    split at h
    · cases h
    rename_i s hs
    split at h
    · rename_i ht
      exact List.forall_mem_cons.2 ⟨⟨s, hs, ht⟩, ih h⟩
    · cases h

/-- an option gets the source that is bound to its name; the others keep what they have -/
theorem place_get {slots slots' : Vector (Option Source) c.size} {bound : List (String × Override)}
    (h : c.place slots bound = .ok slots') (hd : (bound.map (·.1)).Nodup) (s : c.Slot) :
    (∀ p ∈ bound, c.slot? p.1 = some s → slots'.get s = some p.2.source) ∧
      ((∀ p ∈ bound, c.slot? p.1 ≠ some s) → slots'.get s = slots.get s) := by
  induction bound generalizing slots with
  | nil =>
    cases h
    simp
  | cons p rest ih =>
    obtain ⟨name, o⟩ := p
    rw [place] at h
    split at h
    · cases h
    rename_i s₀ hs₀
    split at h
    swap
    · cases h
    obtain ⟨hnew, hd⟩ := List.nodup_cons.1 hd
    obtain ⟨hput, hkept⟩ := ih h hd
    have hrest : ∀ q ∈ rest, c.slot? q.1 ≠ some s₀ := by
      intro q hq hqs
      have hname : q.1 = name := (slot?_name hqs).symm.trans (slot?_name hs₀)
      exact hnew (List.mem_map.2 ⟨q, hq, hname⟩)
    constructor
    · intro q hq hqs
      rcases List.mem_cons.1 hq with rfl | hq
      · cases hs₀.symm.trans hqs
        rw [hkept hrest]
        exact Vector.getElem_set_self _
      · exact hput q hq hqs
    · intro hnone
      rw [hkept fun q hq => hnone q (List.mem_cons_of_mem _ hq)]
      have hne : s₀.val ≠ s.val := fun he => hnone _ List.mem_cons_self (hs₀.trans (congrArg some (Fin.ext he)))
      exact Vector.getElem_set_ne _ _ hne

/-- the first override that has no place is the error -/
theorem place_error {slots : Vector (Option Source) c.size} {bound : List (String × Override)} {e : BuildError}
    (h : c.place slots bound = .error e) :
    ∃ before p after, bound = before ++ p :: after ∧ (∀ q ∈ before, c.Placeable q) ∧
      ((c.slot? p.1 = none ∧ e = .unknownOption c.name p.1) ∨
        ∃ s, c.slot? p.1 = some s ∧ p.2.type ≠ (c.accessor s).type ∧
          e = .typeMismatch p.1 (c.accessor s).type p.2.type) := by
  induction bound generalizing slots with
  | nil => cases h
  | cons p rest ih =>
    obtain ⟨name, o⟩ := p
    rw [place] at h
    split at h
    · rename_i hs
      cases h
      exact ⟨[], (name, o), rest, rfl, by simp, .inl ⟨hs, rfl⟩⟩
    rename_i s hs
    split at h
    · rename_i ht
      obtain ⟨before, p, after, hrest, hbefore, hwrong⟩ := ih h
      exact ⟨(name, o) :: before, p, after, by rw [hrest, List.cons_append],
        List.forall_mem_cons.2 ⟨⟨s, hs, ht⟩, hbefore⟩, hwrong⟩
    · rename_i ht
      cases h
      exact ⟨[], (name, o), rest, rfl, by simp, .inr ⟨s, hs, ht, rfl⟩⟩

end Contract

/-! ## What the passes say -/

section Refusals

variable {c : Contract} {lookup : Option Lookup} {overrides : List Override} {e : BuildError}

theorem checkAccessors_wellFormed (h : Contract.checkAccessors c.name [] c.accessors = .ok ()) : c.WellFormed := by
  obtain ⟨hall, hd⟩ := Contract.checkAccessors_ok h
  exact ⟨fun a ha => (hall a ha).1, fun a ha => (hall a ha).2.1, hd⟩

theorem checkAccessors_violation (h : Contract.checkAccessors c.name [] c.accessors = .error e) :
    Violation c lookup overrides e ∧ e.kind = .malformedContract := by
  obtain ⟨before, a, after, hc, hwrong⟩ := Contract.checkAccessors_error h
  have ha : a ∈ c.accessors := by simp [hc]
  rcases hwrong with ⟨hp, rfl⟩ | ⟨hn, rfl⟩ | ⟨hr, rfl⟩
  · exact ⟨.parameters a ha hp, rfl⟩
  · exact ⟨.accessorName a ha hn, rfl⟩
  · exact ⟨.accessorRepeated before after a hc (hr.resolve_left List.not_mem_nil), rfl⟩

/-- the overrides with the names that they are bound to -/
structure Bound (overrides : List Override) (bound : List (String × Override)) : Prop where
  overrides : bound.map (·.2) = overrides
  named : ∀ p ∈ bound, p.2.name = some p.1
  distinct : (bound.map (·.1)).Nodup

theorem bindOverrides_bound {bound : List (String × Override)} (h : bindOverrides [] overrides = .ok bound) :
    Identified overrides ∧ Bound overrides bound := by
  obtain ⟨fresh, hf, hos, hfresh, hd⟩ := bindOverrides_ok h
  rw [List.nil_append] at hf
  subst hf
  refine ⟨⟨fun o ho => ?_, ?_⟩, hos, fun p hp => (hfresh p hp).1, hd⟩
  · rw [← hos] at ho
    obtain ⟨p, hp, rfl⟩ := List.mem_map.1 ho
    exact ⟨p.1, (hfresh p hp).1, (hfresh p hp).2.1⟩
  · have hnames : overrides.map (·.name) = (bound.map (·.1)).map some := by
      rw [← hos, List.map_map, List.map_map]
      exact List.map_congr_left fun p hp => (hfresh p hp).1
    rw [hnames]
    exact hd.map fun _ _ h => Option.some.inj h

theorem bindOverrides_violation (h : bindOverrides [] overrides = .error e) :
    Violation c lookup overrides e ∧ e.kind = .unidentifiedOverride := by
  obtain ⟨before, o, after, hos, hwrong⟩ := bindOverrides_error h
  have ho : o ∈ overrides := by simp [hos]
  rcases hwrong with ⟨hn, rfl⟩ | ⟨name, hn, ⟨hi, rfl⟩ | ⟨hr, rfl⟩⟩
  · exact ⟨.overrideUnnamed o ho hn, rfl⟩
  · exact ⟨.overrideName o ho name hn hi, rfl⟩
  · exact ⟨.overrideRepeated before after o hos name hn (hr.resolve_left List.not_mem_nil), rfl⟩

theorem Contract.Placeable.fits {p : String × Override} (h : c.Placeable p) (hn : p.2.name = some p.1) :
    c.Fits p.2 := by
  obtain ⟨s, hs, ht⟩ := h
  exact ⟨c.accessor s, List.get_mem _ _, by rw [hn, slot?_name hs], ht⟩

/-- The first override that does not fit is the error: as an unknown name, or as a type that differs. -/
theorem place_violation {bound : List (String × Override)} (hb : Bound overrides bound)
    {slots : Vector (Option Source) c.size} (h : c.place slots bound = .error e) :
    Violation c lookup overrides e ∧ ∃ before o after, overrides = before ++ o :: after ∧ (∀ o' ∈ before, c.Fits o') ∧
      ((c.Undeclared o ∧ e.kind = .unknownOption) ∨ (c.Mismatched o ∧ e.kind = .typeMismatch)) := by
  obtain ⟨before, p, after, rfl, hbefore, hwrong⟩ := Contract.place_error h
  have hp : p ∈ before ++ p :: after := by simp
  have hos : overrides = before.map (·.2) ++ p.2 :: after.map (·.2) := by rw [← hb.overrides]; simp
  have ho : p.2 ∈ overrides := by simp [hos]
  have hfits : ∀ o' ∈ before.map (·.2), c.Fits o' := by
    intro o' ho'
    obtain ⟨q, hq, rfl⟩ := List.mem_map.1 ho'
    exact (hbefore q hq).fits (hb.named q (List.mem_append_left _ hq))
  have hname : p.2.name = some p.1 := hb.named p hp
  rcases hwrong with ⟨hs, rfl⟩ | ⟨s, hs, ht, rfl⟩
  · have hun : p.1 ∉ c.names := Contract.slot?_eq_none.1 hs
    exact ⟨.unknown p.2 ho p.1 hname hun, _, p.2, _, hos, hfits, .inl ⟨⟨p.1, hname, hun⟩, rfl⟩⟩
  · have ha : c.accessor s ∈ c.accessors := List.get_mem _ _
    have hname' : p.2.name = some (c.accessor s).name := by rw [hname, Contract.slot?_name hs]
    rw [← Contract.slot?_name hs]
    exact ⟨.mismatch p.2 ho _ ha hname' ht, _, p.2, _, hos, hfits, .inr ⟨⟨_, ha, hname', ht⟩, rfl⟩⟩

end Refusals

/-! ## Building -/

/-- for each option the source of the override that is named like it -/
def Contract.bindings (c : Contract) (overrides : List Override) : Vector (Option Source) c.size :=
  Vector.ofFn fun s => (overrides.find? (·.name == some (c.accessor s).name)).map (·.source)

theorem Contract.bindings_get (c : Contract) (overrides : List Override) (s : c.Slot) :
    (c.bindings overrides).get s = (overrides.find? (·.name == some (c.accessor s).name)).map (·.source) :=
  Vector.getElem_ofFn _

section Building

variable {c : Contract} {lookup : Option Lookup} {overrides : List Override}

theorem place_bindings (hc : c.WellFormed) {bound : List (String × Override)} (hb : Bound overrides bound)
    {slots : Vector (Option Source) c.size} (h : c.place (Vector.replicate c.size none) bound = .ok slots) :
    slots = c.bindings overrides := by
  refine Vector.ext fun k hk => ?_
  obtain ⟨hput, hkept⟩ := Contract.place_get h hb.distinct ⟨k, hk⟩
  have hget := c.bindings_get overrides ⟨k, hk⟩
  refine Eq.trans ?_ hget.symm
  cases hf : overrides.find? (·.name == some (c.accessor ⟨k, hk⟩).name) with
  | some o =>
    have ho : o ∈ bound.map (·.2) := hb.overrides ▸ List.mem_of_find?_eq_some hf
    obtain ⟨p, hp, rfl⟩ := List.mem_map.1 ho
    have hname : p.2.name = some (c.accessor ⟨k, hk⟩).name := by simpa using List.find?_some hf
    rw [hb.named p hp] at hname
    exact hput p hp (hc.slot?_eq_some.2 (Option.some.inj hname).symm)
  | none =>
    rw [List.find?_eq_none] at hf
    have hnone : ∀ p ∈ bound, c.slot? p.1 ≠ some ⟨k, hk⟩ := by
      intro p hp hs
      have ho : p.2 ∈ overrides := hb.overrides ▸ List.mem_map_of_mem hp
      refine hf p.2 ho ?_
      rw [hb.named p hp, Contract.slot?_name hs]
      exact beq_self_eq_true _
    exact (hkept hnone).trans (Vector.getElem_replicate _)

/-- one pass after the other -/
theorem Instance.build_eq (c : Contract) (lookup : Option Lookup) (overrides : List Override) :
    Instance.build c lookup overrides =
      match Contract.checkAccessors c.name [] c.accessors, bindOverrides [] overrides with
      | .error e, _ => .error e
      | .ok (), .error e => .error e
      | .ok (), .ok bound =>
        if lookup = none ∧ c.uncovered bound ≠ [] then .error (.missingOption c.name (c.uncovered bound))
        else (c.place (Vector.replicate c.size none) bound).map (⟨c, ·, lookup⟩) := by
  unfold build
  rcases Contract.checkAccessors c.name [] c.accessors with e | ⟨⟨⟩⟩
  · rfl
  rcases bindOverrides [] overrides with e | bound
  · rfl
  have hguard : (lookup.isNone && decide (c.uncovered bound ≠ [])) = true ↔ lookup = none ∧ c.uncovered bound ≠ [] := by
    simp
  show (if (lookup.isNone && decide (c.uncovered bound ≠ [])) = true then _ else _) = _
  by_cases hm : lookup = none ∧ c.uncovered bound ≠ []
  · rw [if_pos (hguard.2 hm)]
    simp only [if_pos hm]
    rfl
  · rw [if_neg (mt hguard.1 hm)]
    simp only [if_neg hm]
    cases c.place (Vector.replicate c.size none) bound <;> rfl

/-- what is built is what was asked for: the contract, the lookup, and each override with the option named like it -/
theorem Instance.build_ok {i : Instance} (h : Instance.build c lookup overrides = .ok i) :
    c.Admits lookup overrides ∧ i = ⟨c, c.bindings overrides, lookup⟩ := by
  rw [build_eq] at h
  rcases hcheck : Contract.checkAccessors c.name [] c.accessors with e | ⟨⟨⟩⟩
  · rw [hcheck] at h
    cases h
  rcases hbind : bindOverrides [] overrides with e | bound
  · rw [hcheck, hbind] at h
    cases h
  rw [hcheck, hbind] at h
  have hc := checkAccessors_wellFormed hcheck
  obtain ⟨hi, hb⟩ := bindOverrides_bound hbind
  simp only at h
  split at h
  · cases h
  rename_i hserved
  rw [c.uncovered_eq hb.overrides hb.named] at hserved
  cases hplace : c.place (Vector.replicate c.size none) bound with
  | error e =>
    rw [hplace] at h
    cases h
  | ok slots =>
    rw [hplace] at h
    cases h
    refine ⟨⟨hc, hi, fun o ho => ?_, fun hl => ?_⟩, by rw [place_bindings hc hb hplace]⟩
    · rw [← hb.overrides] at ho
      obtain ⟨p, hp, rfl⟩ := List.mem_map.1 ho
      exact (Contract.place_ok hplace p hp).fits (hb.named p hp)
    · by_contra hu
      exact hserved ⟨hl, fun h => hu (Contract.unserved_eq_nil.1 h)⟩

/-- **Every refusal has its reason**, and a pass is come to only where the passes before let everything through. -/
theorem Instance.build_error {e : BuildError} (h : Instance.build c lookup overrides = .error e) :
    Violation c lookup overrides e ∧
      (e.kind = .malformedContract ∨ c.WellFormed ∧
        (e.kind = .unidentifiedOverride ∨ Identified overrides ∧
          (e.kind = .missingOption ∨ ¬ c.Violates lookup overrides .missingOption ∧
            ∃ before o after, overrides = before ++ o :: after ∧ (∀ o' ∈ before, c.Fits o') ∧
              ((c.Undeclared o ∧ e.kind = .unknownOption) ∨ (c.Mismatched o ∧ e.kind = .typeMismatch))))) := by
  rw [build_eq] at h
  rcases hcheck : Contract.checkAccessors c.name [] c.accessors with e' | ⟨⟨⟩⟩
  · rw [hcheck] at h
    cases h
    obtain ⟨hv, hk⟩ := checkAccessors_violation hcheck
    exact ⟨hv, .inl hk⟩
  have hc := checkAccessors_wellFormed hcheck
  rcases hbind : bindOverrides [] overrides with e' | bound
  · rw [hcheck, hbind] at h
    cases h
    obtain ⟨hv, hk⟩ := bindOverrides_violation hbind
    exact ⟨hv, .inr ⟨hc, .inl hk⟩⟩
  obtain ⟨hi, hb⟩ := bindOverrides_bound hbind
  rw [hcheck, hbind] at h
  simp only at h
  rw [c.uncovered_eq hb.overrides hb.named] at h
  split at h
  · rename_i hm
    cases h
    exact ⟨.unserved hm.1 hm.2, .inr ⟨hc, .inr ⟨hi, .inl rfl⟩⟩⟩
  · rename_i hm
    cases hplace : c.place (Vector.replicate c.size none) bound with
    | ok slots =>
      rw [hplace] at h
      cases h
    | error e' =>
      rw [hplace] at h
      cases h
      obtain ⟨hv, hfirst⟩ := place_violation hb hplace
      exact ⟨hv, .inr ⟨hc, .inr ⟨hi, .inr ⟨hm, hfirst⟩⟩⟩⟩

/-- **Construction accepts exactly what is admitted.** -/
theorem Instance.build_eq_ok {i : Instance} :
    Instance.build c lookup overrides = .ok i ↔
      c.Admits lookup overrides ∧ i = ⟨c, c.bindings overrides, lookup⟩ := by
  refine ⟨build_ok, ?_⟩
  rintro ⟨ha, rfl⟩
  cases hb : Instance.build c lookup overrides with
  | ok i => rw [(build_ok hb).2]
  | error e => exact absurd ha (build_error hb).1.violates.not_admits

theorem Identified.eq_of_name (hi : Identified overrides) {o o' : Override} (ho : o ∈ overrides)
    (ho' : o' ∈ overrides) (h : o.name = o'.name) : o = o' :=
  List.inj_on_of_nodup_map hi.distinct ho ho' h

theorem Contract.bindings_of_mem (hi : Identified overrides) {o : Override} (ho : o ∈ overrides) {s : c.Slot}
    (hn : o.name = some (c.accessor s).name) : (c.bindings overrides).get s = some o.source := by
  rw [c.bindings_get]
  cases hf : overrides.find? (·.name == some (c.accessor s).name) with
  | none =>
    rw [List.find?_eq_none] at hf
    exact absurd (beq_iff_eq.2 hn) (hf o ho)
  | some o' =>
    have hn' : o'.name = some (c.accessor s).name := by simpa using List.find?_some hf
    rw [hi.eq_of_name ho (List.mem_of_find?_eq_some hf) (hn.trans hn'.symm)]
    rfl

theorem Contract.bindings_isSome (c : Contract) (overrides : List Override) (s : c.Slot) :
    ((c.bindings overrides).get s).isSome = true ↔ ∃ o ∈ overrides, o.name = some (c.accessor s).name := by
  rw [c.bindings_get, Option.isSome_map, List.find?_isSome]
  simp

/-- the order of the overrides makes no difference -/
theorem Contract.Admits.perm {overrides' : List Override} (h : c.Admits lookup overrides)
    (hp : overrides.Perm overrides') :
    c.Admits lookup overrides' ∧ c.bindings overrides' = c.bindings overrides := by
  have hmem (o : Override) : o ∈ overrides' ↔ o ∈ overrides := hp.mem_iff.symm
  have hi : Identified overrides' :=
    ⟨fun o ho => h.identified.named o ((hmem o).1 ho), (hp.map _).nodup_iff.1 h.identified.distinct⟩
  refine ⟨⟨h.wellFormed, hi, fun o ho => h.fits o ((hmem o).1 ho), fun hl a ha hd => ?_⟩, ?_⟩
  · obtain ⟨o, ho, hn⟩ := h.served hl a ha hd
    exact ⟨o, (hmem o).2 ho, hn⟩
  · refine Vector.ext fun k hk => ?_
    have hs : (c.bindings overrides').get ⟨k, hk⟩ = (c.bindings overrides).get ⟨k, hk⟩ := by
      by_cases ho : ∃ o ∈ overrides, o.name = some (c.accessor ⟨k, hk⟩).name
      · obtain ⟨o, ho, hn⟩ := ho
        rw [Contract.bindings_of_mem h.identified ho hn, Contract.bindings_of_mem hi ((hmem o).2 ho) hn]
      · have hnone (os : List Override) (hos : ∀ o, o ∈ os ↔ o ∈ overrides) :
            (c.bindings os).get ⟨k, hk⟩ = none := by
          rw [← Option.not_isSome_iff_eq_none, c.bindings_isSome]
          rintro ⟨o, hm, hn⟩
          exact ho ⟨o, (hos o).1 hm, hn⟩
        rw [hnone overrides' hmem, hnone overrides fun _ => Iff.rfl]
    exact hs

end Building

/-- **Construction.** For every contract, lookup or none, and list of overrides:
- an instance is built exactly if all that construction asks for is there;
- it has the contract and the lookup. An option is overridden exactly if an override is named like it, and then it holds
  the source of that override. Every override is held by one option, and every overridden option holds one override;
- put in another order, the same overrides give the same instance, or none as before;
- nothing is cached in what is built;
- a refusal names something that is wrong. -/
theorem Instance.build_admits (c : Contract) (lookup : Option Lookup) (overrides : List Override) :
    ((∃ i, Instance.build c lookup overrides = .ok i) ↔ c.Admits lookup overrides) ∧
    (∀ i, Instance.build c lookup overrides = .ok i → ∃ slots : Vector (Option Source) c.size, i = ⟨c, slots, lookup⟩ ∧
      (∀ s : c.Slot, (slots.get s).isSome = true ↔ ∃ o ∈ overrides, o.name = some (c.accessor s).name) ∧
      (∀ o ∈ overrides, ∃! s : c.Slot, o.name = some (c.accessor s).name ∧ slots.get s = some o.source) ∧
      (∀ s : c.Slot, (slots.get s).isSome = true → ∃! o, o ∈ overrides ∧ o.name = some (c.accessor s).name)) ∧
    (∀ overrides', overrides.Perm overrides' →
      ∀ i, Instance.build c lookup overrides = .ok i ↔ Instance.build c lookup overrides' = .ok i) ∧
    (∀ i, Instance.build c lookup overrides = .ok i →
      ∀ (session : Session) (family : Nat) (supply : Supply), supply.lookup? = lookup →
        ∃ m, (session.build c family supply overrides).2.members = session.members ++ [some m] ∧ m.inst = i ∧
          ∀ s, m.memory.resolved? s = none) ∧
    (∀ e, Instance.build c lookup overrides = .error e → Violation c lookup overrides e) := by
  refine ⟨⟨?_, fun h => ⟨_, build_eq_ok.2 ⟨h, rfl⟩⟩⟩, ?_, ?_, ?_, fun e h => (build_error h).1⟩
  · rintro ⟨i, h⟩
    exact (build_ok h).1
  · intro i h
    obtain ⟨ha, rfl⟩ := build_ok h
    refine ⟨_, rfl, c.bindings_isSome overrides, fun o ho => ?_, fun s hs => ?_⟩
    · obtain ⟨a, hm, hn, -⟩ := ha.fits o ho
      obtain ⟨s, rfl⟩ := List.get_of_mem hm
      refine ⟨s, ⟨hn, Contract.bindings_of_mem ha.identified ho hn⟩, ?_⟩
      rintro s' ⟨hn', -⟩
      exact ha.wellFormed.name_inj (Option.some.inj (hn'.symm.trans hn))
    · obtain ⟨o, ho, hn⟩ := (c.bindings_isSome overrides s).1 hs
      refine ⟨o, ⟨ho, hn⟩, ?_⟩
      rintro o' ⟨ho', hn'⟩
      exact ha.identified.eq_of_name ho' ho (hn'.trans hn.symm)
  · intro overrides' hp i
    constructor
    · intro h
      obtain ⟨ha, rfl⟩ := build_ok h
      obtain ⟨ha', hb⟩ := ha.perm hp
      exact build_eq_ok.2 ⟨ha', by rw [hb]⟩
    · intro h
      obtain ⟨ha, rfl⟩ := build_ok h
      obtain ⟨ha', hb⟩ := ha.perm hp.symm
      exact build_eq_ok.2 ⟨ha', by rw [hb]⟩
  · rintro i h session family supply rfl
    simp only [Session.build, h]
    exact ⟨_, rfl, rfl, fun s => by simp [Memory.resolved?, Memory.fresh]⟩

end TieredOptions
