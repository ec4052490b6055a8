/-
What a report tells of a secret option. The instances compared are built alike, over configurations that differ in what
the secret option is configured with (`Instance.AlteredSecret`). If the option has a value with both, then whatever their
reports show is the same: the value is left out, and neither tier nor source depends on it. If it has none with either,
the option's own error quotes what is configured, so the reports are the same only if that error is left out too
(`report_conceals`, `key_disclosed`).

The proof puts a veil over the option (`veil_over`), or over no option where the answer to it is the same with both
configurations (`veil_of_same`), and goes through the two reports entry by entry.
-/
import TieredOptions.Proofs.Alteration
import TieredOptions.Proofs.Construction
import TieredOptions.Proofs.Twins

namespace TieredOptions

/-! ## Reports that say the same -/

/-- the report, made at another time -/
def Report.dated (r : Report) (createdAt : Instant) : Report := { r with createdAt }

/-- Two reports say the same in all that is shown of them, but when they were made. -/
structure Report.SaysAs (r r' : Report) : Prop where
  options : r.options = r'.options
  sources : r.sources = r'.sources
  redactions : r.redactions = r'.redactions
  json : ∀ createdAt, (r.dated createdAt).jsonText = (r'.dated createdAt).jsonText
  human : r.human = r'.human

theorem Report.SaysAs.of_parts {r r' : Report} (hc : r.contract = r'.contract) (ho : r.options = r'.options)
    (hs : r.sources = r'.sources) (hr : r.redactions = r'.redactions) : r.SaysAs r' := by
  have hdated (createdAt : Instant) : r.dated createdAt = r'.dated createdAt := by
    simp only [dated, hc, ho, hs, hr]
  have hhuman : (r.dated r.createdAt).human = (r'.dated r.createdAt).human := by rw [hdated]
  exact ⟨ho, hs, hr, fun createdAt => by rw [hdated], hhuman⟩

/-- the entry with its error left out, as values are, if it is that of the option -/
def Entry.withheld (name : String) (e : Entry) : Entry :=
  if e.name = name then { e with error := e.error.map fun _ => redacted } else e

/-- the report with the error of one option left out -/
def Report.withheld (name : String) (r : Report) : Report := { r with options := r.options.map (·.withheld name) }

/-- what an option adds to the report, with its error left out -/
def Reported.withheld (name : String) (r : Reported) : Reported := { r with entry := r.entry.withheld name }

theorem Reported.map_entry_withheld (name : String) (rs : List Reported) :
    (rs.map (·.withheld name)).map (·.entry) = (rs.map (·.entry)).map (·.withheld name) := by
  rw [List.map_map, List.map_map]
  rfl

/-- leaving out errors does not change which values are left out -/
theorem Reported.filterMap_redaction_withheld (name : String) (rs : List Reported) :
    (rs.map (·.withheld name)).filterMap (·.redaction) = rs.filterMap (·.redaction) := by
  rw [List.filterMap_map]
  rfl

/-! ## Reports under a veil -/

/-- the same as far as `shown` goes, and altogether the same where hidden options do not fail -/
def Concealed {α : Type} (shown : α → α) (fails : Prop) (a b : α) : Prop := shown a = shown b ∧ (¬ fails → a = b)

theorem Concealed.refl {α : Type} (shown : α → α) (fails : Prop) (a : α) : Concealed shown fails a a :=
  ⟨rfl, fun _ => rfl⟩

namespace Instance

open Run Memory

variable {i : Instance} {l l' : Lookup} {hidden : i.contract.Slot → Prop} {fails : Prop} {name : String}

theorem reportEntry_twin (hv : Veil i l l' hidden fails) (hname : ∀ s, hidden s → (i.contract.accessor s).name = name)
    (hsecret : isSecret name = true) {config config' : Option Config.Layered} {info : AccessorInfo}
    (horigin : ∀ tier, originIn config tier info.name = originIn config' tier info.name) (thread : Nat) :
    Twin (Hides hidden) (Agree (Concealed (Reported.withheld name) fails))
      ((i.withLookup l).reportEntry thread config info) ((i.withLookup l').reportEntry thread config' info) := by
  intro m m' hm
  unfold reportEntry
  cases hs : i.contract.slot? info.name with
  | none =>
    have hread (l : Lookup) (m : Memory i.size) : attempt ((i.withLookup l).getValue thread info.name) m =
        (.ok (.error (.noSuchAccessor i.contract.name info.name)), m) := by
      refine attempt_failed ?_
      unfold getValue Access.readName
      simp only [hs]
      rfl
    rw [bind_ok (hread l m), bind_ok (hread l' m')]
    exact ⟨.refl _ _ _, hm⟩
  | some s =>
    have hread (l : Lookup) : (i.withLookup l).getValue thread info.name = (i.withLookup l).access.read thread s := by
      unfold getValue Access.readName
      simp only [hs]
    have htwin := access_twin hv thread s m m' hm
    rw [← hread l, ← hread l'] at htwin
    rcases hx : (i.withLookup l).getValue thread info.name m with ⟨r, m₁⟩
    rcases hy : (i.withLookup l').getValue thread info.name m' with ⟨r', m₁'⟩
    rw [hx, hy] at htwin
    obtain ⟨hr, hm₁⟩ := htwin
    have hs' : (i.contract.accessor s).name = info.name := Contract.slot?_name hs
    cases hr with
    | @value v w hvw =>
      rw [bind_ok (attempt_ok hx), bind_ok (attempt_ok hy)]
      have htier : (i.withLookup l).tierOf m₁ info.name = (i.withLookup l').tierOf m₁' info.name := by
        simp only [tierOf, hs]
        exact hm₁.tier s
      have hvalue : (if isSecret info.name then redacted else info.describe v) =
          if isSecret info.name then redacted else info.describe w := by
        by_cases hh : hidden s
        · rw [← hs', hname s hh, if_pos hsecret, if_pos hsecret]
        · rw [hvw hh]
      show Concealed _ fails (⟨⟨_, _, (i.withLookup l).tierOf m₁ info.name,
        originIn config ((i.withLookup l).tierOf m₁ info.name) info.name,
        some (if isSecret info.name then redacted else info.describe v), none⟩, _⟩ : Reported) _ ∧ _
      rw [htier, horigin, hvalue]
      exact ⟨.refl _ _ _, hm₁⟩
    | halt h =>
      cases h with
      | failed e =>
        rw [bind_ok (attempt_failed hx), bind_ok (attempt_failed hy)]
        exact ⟨.refl _ _ _, hm₁⟩
      | unending =>
        rw [bind_error (attempt_unending hx), bind_error (attempt_unending hy)]
        exact ⟨rfl, hm₁⟩
    | failure hh hf e e' =>
      rw [bind_ok (attempt_failed hx), bind_ok (attempt_failed hy)]
      have hn : info.name = name := hs'.symm.trans (hname s hh)
      refine ⟨⟨?_, fun h => absurd hf h⟩, hm₁⟩
      simp only [Reported.withheld, Entry.withheld, hn, if_pos]
      rfl

/-- the entries of a report, one after the other -/
theorem reportEntries_twin (hv : Veil i l l' hidden fails) (hname : ∀ s, hidden s → (i.contract.accessor s).name = name)
    (hsecret : isSecret name = true) {config config' : Option Config.Layered} (infos : List AccessorInfo)
    (horigin : ∀ info ∈ infos, ∀ tier, originIn config tier info.name = originIn config' tier info.name)
    (thread : Nat) :
    Twin (Hides hidden) (Agree (Concealed (List.map (Reported.withheld name)) fails))
      ((i.withLookup l).reportEntries thread config infos) ((i.withLookup l').reportEntries thread config' infos) := by
  induction infos with
  | nil => exact .pure (.refl _ _ _)
  | cons info rest ih =>
    obtain ⟨ho, hrest⟩ := List.forall_mem_cons.1 horigin
    refine .seq (reportEntry_twin hv hname hsecret ho thread) fun r r' hr => ?_
    refine .seq (ih hrest) fun rs rs' hrs => .pure ⟨?_, fun hf => ?_⟩
    · rw [List.map_cons, List.map_cons, hr.1, hrs.1]
    · rw [hr.2 hf, hrs.2 hf]

/-- **Under a veil reports say the same**, but for the errors of hidden options. -/
theorem report_twin (hv : Veil i l l' hidden fails) (hname : ∀ s, hidden s → (i.contract.accessor s).name = name)
    (hsecret : isSecret name = true) {config config' : Option Config.Layered}
    (hsources : config.map (·.sources) = config'.map (·.sources))
    (horigin : ∀ a ∈ i.contract.accessors, ∀ tier, originIn config tier a.name = originIn config' tier a.name)
    (thread : Nat) (createdAt createdAt' : Instant) :
    Twin (Hides hidden) (Agree fun r r' => (r.withheld name).SaysAs (r'.withheld name) ∧ (¬ fails → r.SaysAs r'))
      ((i.withLookup l).report thread config createdAt) ((i.withLookup l').report thread config' createdAt') := by
  have hinfos : ∀ info ∈ i.contract.accessors.map (·.info), ∀ tier,
      originIn config tier info.name = originIn config' tier info.name := by
    intro info hinfo
    obtain ⟨a, ha, rfl⟩ := List.mem_map.1 hinfo
    exact horigin a ha
  refine .seq (reportEntries_twin hv hname hsecret _ hinfos thread) fun rs rs' hrs =>
    .pure ⟨.of_parts rfl ?options ?sources ?redactions, fun hf => .of_parts rfl ?_ ?sources ?_⟩
  case sources => cases config <;> cases config' <;> first | rfl | cases hsources | exact Option.some.inj hsources
  case options =>
    show (rs.map (·.entry)).map (·.withheld name) = (rs'.map (·.entry)).map (·.withheld name)
    rw [← Reported.map_entry_withheld, ← Reported.map_entry_withheld, hrs.1]
  case redactions =>
    show rs.filterMap (·.redaction) = rs'.filterMap (·.redaction)
    rw [← Reported.filterMap_redaction_withheld name rs, ← Reported.filterMap_redaction_withheld name rs', hrs.1]
  · exact congrArg (List.map (·.entry)) (hrs.2 hf)
  · exact congrArg (List.filterMap (·.redaction)) (hrs.2 hf)

/-! ## Options that the lookup decides -/

/-- the option has a value when it is the first to be asked for -/
def Resolves (i : Instance) (thread : Nat) (shared : List Node) (name : String) : Prop :=
  ∃ v, (i.getValue thread name (.fresh i.size shared)).1 = .ok v

/-- Without an override, an option has a value if the lookup answers one, and none if the lookup fails. -/
theorem resolves_of_answer {s : i.contract.Slot} (ho : i.override? s = none) (hs : i.contract.slot? name = some s)
    (thread : Nat) (shared : List Node) :
    ((∃ v, l.ask (i.contract.accessor s).info 0 = .ok (some v) ∧ (i.contract.accessor s).info.accepts v = true) →
      (i.withLookup l).Resolves thread shared name) ∧
    ((∃ e, l.ask (i.contract.accessor s).info 0 = .error e) → ¬ (i.withLookup l).Resolves thread shared name) := by
  have hfresh : (Memory.fresh i.size shared).resolved? s = none := by simp [Memory.resolved?, Memory.fresh]
  have hchain : (Memory.fresh i.size shared).chain thread s = [] := rfl
  obtain ⟨depth, hdepth⟩ : ∃ depth, (i.withLookup l).depth = depth + 1 := ⟨_, rfl⟩
  obtain ⟨read, hread⟩ : ∃ read, ((i.withLookup l).getValue thread name (.fresh i.size shared)).1 =
      ((i.withLookup l).settle read thread s ((Memory.fresh i.size shared).enter thread s)).1 := by
    unfold getValue Access.readName
    simp only [hs]
    show ∃ read, ((i.withLookup l).resolve (i.withLookup l).depth thread s (.fresh i.size shared)).1 = _
    rw [hdepth, resolve_entered (i := i.withLookup l) hfresh hchain]
    exact ⟨_, rfl⟩
  obtain ⟨hvalue, herror⟩ := compute_asks (l := l) ho read thread ((Memory.fresh i.size shared).enter thread s)
  unfold Resolves
  rw [hread]
  constructor
  · rintro ⟨v, ha, hacc⟩
    have hkeep := keep_apply (i := i.withLookup l)
      (((Memory.fresh i.size shared).enter thread s).consulted s (.returned s .lookup (some v))) s ⟨v, .lookup⟩
    rw [if_pos hacc] at hkeep
    have hsettle : (i.withLookup l).settle read thread s ((Memory.fresh i.size shared).enter thread s) = _ :=
      (bind_ok (hvalue v ha) _).trans (bind_ok hkeep _)
    rw [hsettle, answer_apply]
    exact ⟨_, rfl⟩
  · rintro ⟨e, ha⟩ ⟨v, hv⟩
    have hsettle : (i.withLookup l).settle read thread s ((Memory.fresh i.size shared).enter thread s) = _ :=
      bind_error (herror e ha) _
    rw [hsettle] at hv
    cases hv

end Instance

/-! ## Veils over one option -/

namespace Config

/-- Decoding has no opinion whatever is configured, or a value of the type or an error for each configured value. -/
theorem decode_cases (info : AccessorInfo) (v w : Json) : decode info v = decode info w ∨
    ∀ u, (∃ x, decode info u = .ok (some x) ∧ info.accepts x = true) ∨ ∃ e, decode info u = .error e := by
  unfold decode
  cases hd : decodable info.type with
  | false => exact .inl rfl
  | true =>
    refine .inr fun u => ?_
    cases hx : decodeAs? info.type u with
    | some x => exact .inl ⟨_, rfl, by simp [AccessorInfo.accepts]⟩
    | none => exact .inr ⟨_, rfl⟩

/-- What two configurations answer for the altered option: the same, or each a value of its type or an error. -/
theorem Layered.Altered.opinion_cases {l l' : Layered} {info : AccessorInfo} (h : Altered l l' info.name) :
    l.opinion info = l'.opinion info ∨ ∀ k, k = l ∨ k = l' →
      (∃ x, k.opinion info = .ok (some x) ∧ info.accepts x = true) ∨ ∃ e, k.opinion info = .error e := by
  have hsome := h.raw_isSome
  unfold opinion
  cases hv : l.raw info.name with
  | none =>
    have hw : l'.raw info.name = none := by
      rw [← Option.not_isSome_iff_eq_none, ← hsome, hv]
      simp
    rw [hw]
    exact .inl rfl
  | some v =>
    obtain ⟨w, hw⟩ := Option.isSome_iff_exists.1 (hsome.symm.trans (by rw [hv]; rfl))
    rw [hw]
    rcases decode_cases info v w with hsame | hdecode
    · exact .inl hsame
    · refine .inr ?_
      rintro k (rfl | rfl)
      · rw [hv]
        exact hdecode v
      · rw [hw]
        exact hdecode w

end Config

namespace Instance

open Config

/-- Two instances over two configurations that are the same but for something that is not null under the key of one
    option. The option is secret by its name and has no override, and no source that serves another option reads it. -/
structure AlteredSecret (i i' : Instance) (l l' : Layered) (name : String) : Prop where
  built : ∃ c overrides, build c (some l.lookup) overrides = .ok i ∧ build c (some l'.lookup) overrides = .ok i'
  altered : ∃ layers layers' sources sect, l = (Layered.ofLayers layers sources).within sect ∧
    l' = (Layered.ofLayers layers' sources).within sect ∧ (∀ layer ∈ layers, layer.Ordered) ∧
    (∀ layer ∈ layers', layer.Ordered) ∧ List.Forall₂ (Json.ButFor (Text.segments (l.key name))) layers layers'
  declared : name ∈ i.contract.names
  secret : isSecret name = true
  free : i.isOverridden name = false
  unread : ∀ s, (i.contract.accessor s).name ≠ name → ∀ src, i.served s = some src → name ∉ src.expr.reads

/-- no source that serves another option resolves all options, and with them this one -/
def Unsurveyed (i : Instance) (name : String) : Prop :=
  ∀ s, (i.contract.accessor s).name ≠ name → ∀ src, i.served s = some src → src.expr.surveys = false

/-- the report on an instance that has resolved nothing yet, made with the configuration or without it -/
def firstReport (i : Instance) (l : Layered) (withConfig : Bool) (thread : Nat) (shared : List Node)
    (createdAt : Instant) : Except Halt Report :=
  (i.report thread (if withConfig then some l else none) createdAt (.fresh i.size shared)).1

variable {i : Instance} {l l' : Layered} {s : i.contract.Slot}

theorem isIdentifier_name (hc : i.contract.WellFormed) (s : i.contract.Slot) :
    IsIdentifier (i.contract.accessor s).name :=
  hc.named _ (List.get_mem _ _)

/-- the lookups answer alike for every option but the altered one -/
theorem opinion_other (hc : i.contract.WellFormed) (h : Layered.Altered l l' (i.contract.accessor s).name)
    {x : i.contract.Slot} (hx : x ≠ s) :
    l.opinion (i.contract.accessor x).info = l'.opinion (i.contract.accessor x).info := by
  have hraw : l.raw (i.contract.accessor x).info.name = l'.raw (i.contract.accessor x).info.name :=
    h.raw_other (isIdentifier_name hc s) (isIdentifier_name hc x) fun hn => hx (hc.name_inj hn)
  unfold Layered.opinion
  rw [hraw]

/-- If the altered option is answered alike too, nothing need be hidden. -/
theorem veil_of_same (hc : i.contract.WellFormed) (h : Layered.Altered l l' (i.contract.accessor s).name)
    (hs : l.opinion (i.contract.accessor s).info = l'.opinion (i.contract.accessor s).info) :
    Veil i l.lookup l'.lookup (fun _ => False) False where
  horizon := rfl
  same x _ := by
    funext count
    show l.opinion _ = l'.opinion _
    by_cases hx : x = s
    · rw [hx, hs]
    · exact opinion_other hc h hx
  free _ hx := hx.elim
  values _ _ hx := hx.elim
  failures hf := hf.elim
  blind _ _ _ _ := ⟨fun _ _ _ _ hx => hx, fun hf => hf.elim⟩

/-- the option that is altered can be hidden, if it has values or errors with both configurations -/
theorem veil_over (hc : i.contract.WellFormed) (h : Layered.Altered l l' (i.contract.accessor s).name)
    (ho : i.override? s = none) {fails : Prop}
    (hunread : ∀ x, (i.contract.accessor x).name ≠ (i.contract.accessor s).name → ∀ src, i.served x = some src →
      (i.contract.accessor s).name ∉ src.expr.reads)
    (hvalues : ¬ fails → ∀ k, k = l ∨ k = l' → ∃ v, k.opinion (i.contract.accessor s).info = .ok (some v) ∧
      (i.contract.accessor s).info.accepts v = true)
    (hfails : fails → i.Unsurveyed (i.contract.accessor s).name ∧
      ∀ k, k = l ∨ k = l' → ∃ e, k.opinion (i.contract.accessor s).info = .error e) :
    Veil i l.lookup l'.lookup (· = s) fails where
  horizon := rfl
  same x hx := by
    funext count
    exact opinion_other hc h hx
  free x hx := hx ▸ ho
  values hf x hx count := by
    obtain ⟨v, hv, hacc⟩ := hvalues hf l (.inl rfl)
    obtain ⟨w, hw, hacc'⟩ := hvalues hf l' (.inr rfl)
    subst hx
    exact ⟨v, w, hv, hacc, hw, hacc'⟩
  failures hf x hx count := by
    obtain ⟨e, he⟩ := (hfails hf).2 l (.inl rfl)
    obtain ⟨e', he'⟩ := (hfails hf).2 l' (.inr rfl)
    subst hx
    exact ⟨e, e', he, he'⟩
  blind x hx src hsrc := by
    have hname : (i.contract.accessor x).name ≠ (i.contract.accessor s).name := fun hn => hx (hc.name_inj hn)
    refine ⟨fun name hn y hy hys => ?_, fun hf => (hfails hf).1 x hname src hsrc⟩
    -- a name read that stands for the hidden option is its name
    have hread : (i.contract.accessor s).name = name := hys ▸ Contract.slot?_name hy
    exact hunread x hname src hsrc (hread ▸ hn)

/-- reports on two instances that have resolved nothing yet -/
theorem firstReport_agree (hc : i.contract.WellFormed) (h : Layered.Altered l l' (i.contract.accessor s).name)
    {hidden : i.contract.Slot → Prop} {fails : Prop} (hv : Veil i l.lookup l'.lookup hidden fails)
    (hs : ∀ x, hidden x → x = s) (hsecret : isSecret (i.contract.accessor s).name = true) (withConfig : Bool)
    (thread : Nat) (shared : List Node) (createdAt createdAt' : Instant) :
    Run.Agree (fun r r' => (r.withheld (i.contract.accessor s).name).SaysAs (r'.withheld (i.contract.accessor s).name) ∧
        (¬ fails → r.SaysAs r'))
      ((i.withLookup l.lookup).firstReport l withConfig thread shared createdAt)
      ((i.withLookup l'.lookup).firstReport l' withConfig thread shared createdAt') := by
  have hname : ∀ x, hidden x → (i.contract.accessor x).name = (i.contract.accessor s).name := fun x hx => by rw [hs x hx]
  have hsources : (if withConfig then some l else none).map (·.sources) =
      (if withConfig then some l' else none).map (·.sources) := by
    cases withConfig
    · rfl
    · exact congrArg some h.sources
  have horigin : ∀ a ∈ i.contract.accessors, ∀ tier, originIn (if withConfig then some l else none) tier a.name =
      originIn (if withConfig then some l' else none) tier a.name := by
    intro a ha tier
    have heq : l.originOf a.name = l'.originOf a.name := h.originOf_eq (isIdentifier_name hc s) (hc.named a ha)
    cases withConfig
    · rfl
    · simp only [originIn, if_true, Option.bind_some, heq]
  exact (report_twin hv hname hsecret hsources horigin thread createdAt createdAt' _ _ (.refl _)).1

/-- **What a report does not tell.** Two instances whose configurations differ in what a secret option is configured
    with, the option having no override and being read by no other option's source:
    - if the option has a value with both, their reports say the same, whether made with the configuration or without;
    - if it has none with either, and no other source resolves all options, their reports say the same but for the
      option's own error. -/
theorem report_conceals {i i' : Instance} {l l' : Layered} {name : String} (h : i.AlteredSecret i' l l' name)
    (withConfig : Bool) (thread : Nat) (shared : List Node) (createdAt createdAt' : Instant) :
    (i.Resolves thread shared name → i'.Resolves thread shared name →
      Run.Agree Report.SaysAs (i.firstReport l withConfig thread shared createdAt)
        (i'.firstReport l' withConfig thread shared createdAt')) ∧
    (¬ i.Resolves thread shared name → ¬ i'.Resolves thread shared name → i.Unsurveyed name →
      Run.Agree (fun r r' => (r.withheld name).SaysAs (r'.withheld name))
        (i.firstReport l withConfig thread shared createdAt)
        (i'.firstReport l' withConfig thread shared createdAt')) := by
  obtain ⟨⟨c, overrides, hb, hb'⟩, ⟨layers, layers', sources, sect, hl, hl', ho, ho', hlayers⟩, hdeclared, hsecret, hfree,
    hunread⟩ := h
  obtain ⟨hadmits, rfl⟩ := build_ok hb
  obtain ⟨-, rfl⟩ := build_ok hb'
  have haltered : Layered.Altered l l' name := by
    subst hl hl'
    exact Layered.altered_ofLayers sources sect ho ho' hlayers
  obtain ⟨s, rfl⟩ : ∃ s : c.Slot, (c.accessor s).name = name := by
    obtain ⟨a, ha, rfl⟩ := List.mem_map.1 hdeclared
    obtain ⟨s, rfl⟩ := List.get_of_mem ha
    exact ⟨s, rfl⟩
  have hc := hadmits.wellFormed
  -- both instances are this one, with one of the two lookups
  let base : Instance := ⟨c, c.bindings overrides, none⟩
  have hslot : c.slot? (c.accessor s).name = some s := hc.slot?_eq_some.2 rfl
  have hnone : base.override? s = none := by
    simp only [isOverridden, hslot] at hfree
    exact Option.not_isSome_iff_eq_none.1 fun h => Bool.noConfusion (hfree.symm.trans h)
  have hresolves (k : Layered) := resolves_of_answer (l := k.lookup) hnone hslot thread shared
  have haltered' : Layered.Altered l l' (c.accessor s).info.name := haltered
  rcases haltered'.opinion_cases with hsame | hcases
  · have hagree := firstReport_agree (i := base) hc haltered (veil_of_same hc haltered hsame) (fun _ h => h.elim) hsecret
      withConfig thread shared createdAt createdAt'
    exact ⟨fun _ _ => hagree.mono fun _ _ h => h.2 id, fun _ _ _ => hagree.mono fun _ _ h => h.1⟩
  constructor
  · intro hr hr'
    have hvalues : ∀ k, k = l ∨ k = l' → ∃ v, k.opinion (c.accessor s).info = .ok (some v) ∧
        (c.accessor s).info.accepts v = true := by
      rintro k (rfl | rfl)
      · exact (hcases _ (.inl rfl)).resolve_right fun he => (hresolves _).2 he hr
      · exact (hcases _ (.inr rfl)).resolve_right fun he => (hresolves _).2 he hr'
    have hv : Veil base l.lookup l'.lookup (· = s) False :=
      veil_over hc haltered hnone hunread (fun _ => hvalues) fun hf => hf.elim
    have hagree := firstReport_agree (i := base) hc haltered hv (fun _ h => h) hsecret withConfig thread shared createdAt
      createdAt'
    exact hagree.mono fun _ _ h => h.2 id
  · intro hr hr' hsurveys
    have herrors : ∀ k, k = l ∨ k = l' → ∃ e, k.opinion (c.accessor s).info = .error e := by
      rintro k (rfl | rfl)
      · exact (hcases _ (.inl rfl)).resolve_left fun hv => hr ((hresolves _).1 hv)
      · exact (hcases _ (.inr rfl)).resolve_left fun hv => hr' ((hresolves _).1 hv)
    have hv : Veil base l.lookup l'.lookup (· = s) True :=
      veil_over hc haltered hnone hunread (fun hf => absurd trivial hf) fun _ => ⟨hsurveys, herrors⟩
    have hagree := firstReport_agree (i := base) hc haltered hv (fun _ h => h) hsecret withConfig thread shared createdAt
      createdAt'
    exact hagree.mono fun _ _ h => h.1

/-- a host, with a default, and a key, without one -/
def remoteContract : Contract :=
  ⟨"Remote", [⟨"host", [], .string, some (.const "example.org")⟩, ⟨"api_key", [], .int .u32, none⟩]⟩

/-- a file that holds a key -/
def keyed (v : Json) : Layered := .ofLayers [.object [("api_key", v)]] [⟨.file, some "remote.toml", none⟩]

/-- the host and the key, configured by a file that holds a key -/
def remote (v : Json) : Instance := ⟨remoteContract, Vector.replicate 2 none, some (keyed v).lookup⟩

theorem remote_sources {v : Json} {s : (remote v).contract.Slot} {src : Source} (h : (remote v).served s = some src) :
    src.expr.reads = [] ∧ src.expr.surveys = false := by
  match s with
  | ⟨0, _⟩ =>
    cases h
    exact ⟨rfl, rfl⟩
  | ⟨1, _⟩ => cases h

theorem remote_altered {v w : Json} (hv : v ≠ .null) (hw : w ≠ .null) (ho : v.Ordered) (ho' : w.Ordered) :
    (remote v).AlteredSecret (remote w) (keyed v) (keyed w) "api_key" where
  built := ⟨remoteContract, [], rfl, rfl⟩
  altered := by
    have hone {u : Json} (h : u.Ordered) : ∀ layer ∈ [Json.object [("api_key", u)]], layer.Ordered := by
      intro layer hl
      rw [List.mem_singleton.1 hl]
      exact .object (List.pairwise_singleton _ _) (by simpa using h)
    have hkey : Text.segments ((keyed v).key "api_key") = ["api_key"] := show Text.segments "api_key" = _ by decide
    have hlayer : Json.ButFor (Text.segments ((keyed v).key "api_key")) (.object [("api_key", v)])
        (.object [("api_key", w)]) := by
      rw [hkey]
      exact .inr ⟨v, w, hv, hw, rfl, rfl⟩
    exact ⟨_, _, _, none, rfl, rfl, hone ho, hone ho', .cons hlayer .nil⟩
  declared := show "api_key" ∈ ["host", "api_key"] by decide
  secret := by decide
  free := rfl
  unread s _ src hsrc := by
    rw [(remote_sources hsrc).1]
    exact List.not_mem_nil

/-- Which of two numbers the key is does not show. -/
theorem key_concealed : (remote (.number (.int 1))).AlteredSecret (remote (.number (.int 2)))
      (keyed (.number (.int 1))) (keyed (.number (.int 2))) "api_key" ∧
    Run.Agree Report.SaysAs ((remote (.number (.int 1))).firstReport (keyed (.number (.int 1))) true 0 [] ⟨0, 0⟩)
      ((remote (.number (.int 2))).firstReport (keyed (.number (.int 2))) true 0 [] ⟨1, 0⟩) := by
  have h := remote_altered (v := .number (.int 1)) (w := .number (.int 2)) nofun nofun (.number _) (.number _)
  exact ⟨h, (report_conceals h true 0 [] ⟨0, 0⟩ ⟨1, 0⟩).1 ⟨_, rfl⟩ ⟨_, rfl⟩⟩

/-- A key that is no number does show: the error quotes it, in a report as elsewhere. -/
theorem key_disclosed : ¬ ∀ (i i' : Instance) (l l' : Layered) (name : String), i.AlteredSecret i' l l' name →
    i.Unsurveyed name → ∀ (thread : Nat) (shared : List Node),
    i.Resolves thread shared name ∧ i'.Resolves thread shared name ∨
      ¬ i.Resolves thread shared name ∧ ¬ i'.Resolves thread shared name →
    ∀ (withConfig : Bool) (createdAt createdAt' : Instant),
      Run.Agree Report.SaysAs (i.firstReport l withConfig thread shared createdAt)
        (i'.firstReport l' withConfig thread shared createdAt') := by
  intro h
  have haltered := remote_altered (v := .string "hunter2") (w := .string "swordfish") nofun nofun (.string _) (.string _)
  have hsurveys : (remote (.string "hunter2")).Unsurveyed "api_key" := fun _ _ _ hsrc => (remote_sources hsrc).2
  have hfails : ¬ (remote (.string "hunter2")).Resolves 0 [] "api_key" := by
    rintro ⟨v, hv⟩
    cases hv
  have hfails' : ¬ (remote (.string "swordfish")).Resolves 0 [] "api_key" := by
    rintro ⟨v, hv⟩
    cases hv
  have hagree := h _ _ _ _ _ haltered hsurveys 0 [] (.inr ⟨hfails, hfails'⟩) true ⟨0, 0⟩ ⟨0, 0⟩
  have herrors := congrArg (List.map (·.error)) hagree.options
  exact absurd herrors (by decide)

end Instance

end TieredOptions
