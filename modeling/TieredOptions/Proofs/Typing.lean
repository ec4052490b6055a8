/-
Types of values. What is stored has the type of its option, at every moment of every session (`Law.typed`,
`cacheAt_typed`), because the type is looked at before storing. So a read of an option comes back with a value of the
option's type; asked for at this type the option is answered with the value, asked for at any other with a mismatch
(`get_of_getValue`). What `explain` and reports show of a value is its form at the option's type.

Main statement: `construction_suffices`, together with what construction has checked (`Proofs.Failure`).
-/
import TieredOptions.Proofs.Failure
import TieredOptions.Proofs.Nesting
import TieredOptions.Proofs.Shown

namespace TieredOptions

/-- what is stored has the type of its option -/
def Law.typed (c : Contract) : Law c.size where
  Allows _ _
    | .stored s r => r.value.type = (c.accessor s).type
    | _ => True
  extend _ _ _ e h := by cases e <;> exact h

/-- a value is shown in its own form at its own type -/
theorem AccessorInfo.describe_shows {info : AccessorInfo} {v : Value} (h : v.type = info.type) :
    info.type.Shows (info.describe v) := by
  rw [describe, ← h]
  exact ⟨v.content, v.describeAs_type⟩

/-- The value of the entry, if it has one, is left out or shown at the type that the entry names. -/
def Entry.Shown (e : Entry) : Prop :=
  ∀ text, e.value = some text → text = redacted ∨ ∃ t : ValueType, e.typeName = t.name ∧ t.Shows text

namespace Instance

open Memory

variable {i : Instance}

/-! ## What is cached -/

/-- every cached value has the type of its option -/
def WellTyped (i : Instance) (cache : Cache i.size) : Prop :=
  ∀ s r, cache s = some r → r.value.type = (i.contract.accessor s).type

theorem WellTyped.after {cache : Cache i.size} (h : i.WellTyped cache) {active : List (Nat × i.contract.Slot)}
    {events : List (Event i.size)} (hl : (Law.typed i.contract).Heeded active events) :
    i.WellTyped (cache.after events) := by
  induction events with
  | nil => exact h
  | cons e earlier ih =>
    intro s r hs
    cases e with
    | stored s' r' =>
      by_cases hne : s = s'
      · subst hne
        have hr : r' = r := by simpa [Cache.apply] using hs
        exact hr ▸ hl.1
      · exact ih hl.2 s r (by simpa [Cache.apply, hne] using hs)
    | _ => exact ih hl.2 s r hs

theorem typed_obeyed (i : Instance) : i.Obeys (Law.typed i.contract) where
  entered _ _ _ _ := trivial
  reentered _ _ _ _ := trivial
  ran _ _ _ := trivial
  returned _ _ _ _ := trivial
  failed _ _ _ _ := trivial
  stored _ _ _ h := eq_of_beq h
  answered _ _ _ _ := trivial
  left _ _ _ _ := trivial

/-- what was well typed still is -/
theorem Follows.wellTyped {m m' : Memory i.size} (hf : i.Follows m m') (hr : Returns (Law.typed i.contract) m m')
    (hm : i.WellTyped m.resolved?) : i.WellTyped m'.resolved? := by
  obtain ⟨new, hj, hc, -⟩ := hf
  obtain ⟨-, new', hj', -, hl⟩ := hr
  have hnew : new = new' := List.append_cancel_right (hj.symm.trans hj')
  rw [hc, hnew]
  exact hm.after hl

theorem resolve_wellTyped {m : Memory i.size} (hm : i.WellTyped m.resolved?) (depth thread : Nat)
    (s : i.contract.Slot) : i.WellTyped (i.resolve depth thread s m).2.resolved? :=
  (resolve_follows depth thread s m).wellTyped (i.typed_obeyed.resolve_returns depth thread s m) hm

/-- **Every moment of a session is well typed.** -/
theorem cacheAt_typed {ts : List Turn} {events : List (Event i.size)} (h : events <:+ i.history ts) :
    i.WellTyped (i.cacheAt events) := by
  have hempty : i.WellTyped fun _ => none := fun s r hs => by cases hs
  exact hempty.after ((i.typed_obeyed.history ts).suffix h)

/-! ## Reads -/

variable {m m' : Memory i.size} {thread : Nat} {name : String} {v : Value}

/-- a read that succeeds comes back with a value of the option's type -/
theorem getValue_typed (hm : i.WellTyped m.resolved?) (h : i.getValue thread name m = (.ok v, m')) :
    i.WellTyped m'.resolved? ∧ ∃ s, i.contract.slot? name = some s ∧ v.type = (i.contract.accessor s).type := by
  unfold getValue Access.readName at h
  cases hs : i.contract.slot? name with
  | none =>
    rw [hs] at h
    cases h
  | some s =>
    rw [hs] at h
    have h : i.resolve i.depth thread s m = (.ok v, m') := h
    have htyped := resolve_wellTyped hm i.depth thread s
    obtain ⟨-, tier, hcached⟩ := resolve_answered (i := i) (congrArg Prod.fst h)
    rw [h] at htyped hcached
    exact ⟨htyped, s, rfl, htyped s _ hcached⟩

/-- **A read at a type.** Where the option has a value, the type of the option gets it, and every other type a
    mismatch. -/
theorem get_of_getValue (hm : i.WellTyped m.resolved?) (h : i.getValue thread name m = (.ok v, m')) :
    ∃ s x, i.contract.slot? name = some s ∧ v = ⟨(i.contract.accessor s).type, x⟩ ∧
      i.get thread (i.contract.accessor s).type name m = (.ok x, m') ∧
      ∀ t, t ≠ (i.contract.accessor s).type →
        i.get thread t name m = (.error (.failed (.typeMismatch name t)), m') := by
  obtain ⟨-, s, hs, ht⟩ := getValue_typed hm h
  obtain ⟨t', x⟩ := v
  have ht : t' = (i.contract.accessor s).type := ht
  subst ht
  have h : i.access.readName thread name m = _ := h
  refine ⟨s, x, hs, rfl, ?_, fun t hne => ?_⟩
  · unfold get Access.get
    rw [Run.bind_ok h, Value.as?_self]
    rfl
  · unfold get Access.get
    have hnone : (Value.mk (i.contract.accessor s).type x).as? t = none := dif_neg (Ne.symm hne)
    rw [Run.bind_ok h, hnone]
    rfl

/-! ## What is shown -/

theorem explain_shows (hm : i.WellTyped m.resolved?) {e : Explained} (he : e ∈ i.explain m) {text : String}
    (ht : e.value = some text) : e.info.type.Shows text := by
  obtain ⟨s, -, rfl⟩ := List.mem_map.1 he
  obtain ⟨r, hr, rfl⟩ := Option.map_eq_some_iff.1 ht
  exact AccessorInfo.describe_shows (hm s r hr)

theorem reportEntry_shows (hc : i.contract.WellFormed) (hm : i.WellTyped m.resolved?)
    {config : Option Config.Layered} {a : Accessor} (ha : a ∈ i.contract.accessors) {r : Reported}
    (h : i.reportEntry thread config a.info m = (.ok r, m')) : i.WellTyped m'.resolved? ∧ r.entry.Shown := by
  unfold reportEntry at h
  rcases hv : i.getValue thread a.info.name m with ⟨(err | _) | v, m₁⟩
  · rw [Run.bind_ok (Run.attempt_failed hv)] at h
    cases h
    have hfollows : i.Follows m (i.access.readName thread a.info.name m).2 :=
      Access.readName_keeps (fun s _ => resolve_follows _ thread s) m
    have hreturns : Returns (Law.typed i.contract) m (i.access.readName thread a.info.name m).2 :=
      Access.readName_keeps (fun s _ => i.typed_obeyed.resolve_returns _ thread s) m
    rw [show i.access.readName thread a.info.name m = _ from hv] at hfollows hreturns
    exact ⟨hfollows.wellTyped hreturns hm, fun _ ht => by cases ht⟩
  · rw [Run.bind_error (Run.attempt_unending hv)] at h
    cases h
  · rw [Run.bind_ok (Run.attempt_ok hv)] at h
    cases h
    obtain ⟨htyped, s, hs, ht⟩ := getValue_typed hm hv
    refine ⟨htyped, fun text htext => ?_⟩
    -- the name of the accessor stands for no other one
    obtain ⟨s', hs'⟩ := List.get_of_mem ha
    have hs' : i.contract.accessor s' = a := hs'
    have hslot : i.contract.slot? a.name = some s' := hc.slot?_eq_some.2 (congrArg Accessor.name hs')
    have hsame : s = s' := Option.some.inj (hs.symm.trans hslot)
    have htype : v.type = a.info.type := by
      rw [ht, hsame, hs']
      rfl
    by_cases hsecret : isSecret a.info.name
    · left
      simpa [hsecret] using htext.symm
    · right
      have htext : a.info.describe v = text := by simpa [hsecret] using htext
      exact ⟨a.info.type, rfl, htext ▸ AccessorInfo.describe_shows htype⟩

theorem reportEntries_shows (hc : i.contract.WellFormed) (hm : i.WellTyped m.resolved?)
    {config : Option Config.Layered} {as : List Accessor} (has : ∀ a ∈ as, a ∈ i.contract.accessors)
    {rs : List Reported} (h : i.reportEntries thread config (as.map (·.info)) m = (.ok rs, m')) :
    ∀ r ∈ rs, r.entry.Shown := by
  induction as generalizing m rs with
  | nil =>
    cases h
    exact fun r hr => absurd hr List.not_mem_nil
  | cons a rest ih =>
    obtain ⟨ha, hrest⟩ := List.forall_mem_cons.1 has
    rw [List.map_cons, reportEntries] at h
    rcases hx : i.reportEntry thread config a.info m with ⟨err | r, m₁⟩
    · rw [Run.bind_error hx] at h
      cases h
    · rw [Run.bind_ok hx] at h
      obtain ⟨hm₁, hshown⟩ := reportEntry_shows hc hm ha hx
      rcases hy : i.reportEntries thread config (rest.map (·.info)) m₁ with ⟨err | rs', m₂⟩
      · rw [Run.bind_error hy] at h
        cases h
      · rw [Run.bind_ok hy] at h
        cases h
        exact List.forall_mem_cons.2 ⟨hshown, ih hm₁ hrest hy⟩

theorem report_shows (hc : i.contract.WellFormed) (hm : i.WellTyped m.resolved?) {config : Option Config.Layered}
    {now : Instant} {r : Report} (h : i.report thread config now m = (.ok r, m')) : ∀ e ∈ r.options, e.Shown := by
  unfold report at h
  rcases hx : i.reportEntries thread config (i.contract.accessors.map Accessor.info) m with ⟨err | rs, m₁⟩
  · rw [Run.bind_error hx] at h
    cases h
  · rw [Run.bind_ok hx] at h
    cases h
    exact List.forall_mem_map.2 (reportEntries_shows hc hm (fun a ha => ha) hx)

/-! ## The whole -/

/-- **What construction checked does not fail later.** Of every instance that was built:
- a read that fails, from whatever memory, is turned away from an option under way, passes on the error of a source,
  misses a value where the lookup has just answered none and nothing else is there, or rejects a value of another type
  that the lookup has just answered;
- without a lookup nothing is missing and nothing rejected; a lookup that never has an opinion, or one that answers from
  configuration, has nothing rejected;
- at every moment of a session all cached values have the types of their options;
- from there, where an option has a value it is the type of the option that gets it, and any other type a mismatch;
- and what is shown of a value is its form at the option's type, never a refusal. -/
theorem construction_suffices {c : Contract} {lookup : Option Lookup} {overrides : List Override} {i : Instance}
    (h : build c lookup overrides = .ok i) :
    (∀ depth thread s m e m', i.resolve depth thread s m = (.error (.failed e), m') →
      (i.TurnedAway thread s m e m' ∨ i.PassesOn thread s e m' ∨ i.Misses thread s m e m' ∨
        i.Rejects thread s m e m') ∧
      (lookup = none → i.TurnedAway thread s m e m' ∨ i.PassesOn thread s e m') ∧
      (lookup = some .silent ∨ (∃ l : Config.Layered, lookup = some l.lookup) →
        i.TurnedAway thread s m e m' ∨ i.PassesOn thread s e m' ∨ i.Misses thread s m e m')) ∧
    (∀ ts, i.WellTyped (i.memoryAfter ts).resolved? ∧
      ∀ events, events <:+ i.history ts → i.WellTyped (i.cacheAt events)) ∧
    ∀ m, i.WellTyped m.resolved? →
      (∀ thread name v m', i.getValue thread name m = (.ok v, m') →
        i.WellTyped m'.resolved? ∧
        ∃ s x, i.contract.slot? name = some s ∧ v = ⟨(i.contract.accessor s).type, x⟩ ∧
          i.get thread (i.contract.accessor s).type name m = (.ok x, m') ∧
          ∀ t, t ≠ (i.contract.accessor s).type →
            i.get thread t name m = (.error (.failed (.typeMismatch name t)), m')) ∧
      (∀ e ∈ i.explain m, ∀ text, e.value = some text →
        e.info.type.Shows text ∧ ∀ t : ValueType, text ≠ t.refusal) ∧
      ∀ thread config now r m', i.report thread config now m = (.ok r, m') → ∀ e ∈ r.options,
        ∀ text, e.value = some text →
          (text = redacted ∨ ∃ t : ValueType, e.typeName = t.name ∧ t.Shows text) ∧
          ∀ t : ValueType, text ≠ t.refusal := by
  have hchecked := checked_of_build h
  obtain ⟨hadmits, rfl⟩ := build_ok h
  refine ⟨?_, fun ts => ⟨?_, fun events => cacheAt_typed⟩, fun m hm => ⟨?_, ?_, ?_⟩⟩
  · intro depth thread s m e m' hfail
    have hcause := resolve_fails hchecked hfail
    refine ⟨hcause, fun hl => ?_, fun hl => ?_⟩
    · rcases hcause with hc | hc | hc | hc
      · exact .inl hc
      · exact .inr hc
      · exact absurd hl hc.lookup_ne_none
      · exact absurd hl hc.lookup_ne_none
    · rcases hcause with hc | hc | hc | hc
      · exact .inl hc
      · exact .inr (.inl hc)
      · exact .inr (.inr hc)
      · rcases hl with hl | ⟨l, hl⟩
        · exact absurd Lookup.silent_typed (hc.not_typed _ hl)
        · exact absurd l.lookup_typed (hc.not_typed _ hl)
  · rw [(history_lawful ts).1]
    exact cacheAt_typed (List.suffix_refl _)
  · intro thread name v m' hv
    exact ⟨(getValue_typed hm hv).1, get_of_getValue hm hv⟩
  · intro e he text ht
    have hshows := explain_shows hm he ht
    exact ⟨hshows, hshows.ne_refusal⟩
  · intro thread config now r m' hr e he text ht
    have hshown := report_shows hadmits.wellFormed hm hr e he text ht
    refine ⟨hshown, fun t => ?_⟩
    rcases hshown with rfl | ⟨t', -, hshows⟩
    · exact fun hr => absurd (hr ▸ t.front_refusal) (by decide)
    · exact hshows.ne_refusal t

/-- A page whose width has to come from somewhere. -/
def pageContract : Contract := ⟨"Page", [
  ⟨"width", [], .int .u32, none⟩,
  ⟨"title", [], .string, some (.const "untitled")⟩]⟩

def narrowPage : Instance := ⟨pageContract, #v[some ⟨.int .u32, .const 40⟩, none], none⟩

/-- The width that an override gives is a number, and no text. -/
theorem narrowPage_typed : build pageContract none [.value "width" ⟨.int .u32, 40⟩] = .ok narrowPage ∧
    ∃ m', narrowPage.get 0 .string "width" (.fresh 2 []) =
      (.error (.failed (.typeMismatch "width" .string)), m') := by
  have hbuild : build pageContract none [.value "width" ⟨.int .u32, 40⟩] = .ok narrowPage := by rfl
  have hfresh : narrowPage.WellTyped (Memory.fresh 2 []).resolved? := ((construction_suffices hbuild).2.1 []).1
  obtain ⟨-, s, x, hs, -, -, hother⟩ :=
    ((construction_suffices hbuild).2.2 _ hfresh).1 0 "width" ⟨.int .u32, 40⟩ _ rfl
  have hslot : s = (0 : Fin 2) := Option.some.inj (hs.symm.trans (by decide))
  exact ⟨hbuild, _, hother .string (by rw [hslot]; decide)⟩

end Instance

end TieredOptions
