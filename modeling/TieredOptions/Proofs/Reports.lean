/-
What a report says. The options are read in the order of their declaration, each where the reads before it have left the
memory, whether or not these failed (`Told`, `reportEntries_cases`). An entry is made of how the read of its option ended
and of what is cached then (`entryOf`); as nothing cached is ever taken back, it still holds of the memory in which the
report ends (`Tells`).

Of the memory that a report begins with two things are needed (`Sound`), which hold at every moment of every session
(`Reachable.sound`) and are kept by every read: what is cached has the type of its option, and what is cached at the
tier of the lookup the lookup has answered. If the lookup answers from a configuration, then the configuration has
something for the option, and so an origin of it.

Main statement: `report_consistent`.
-/
import TieredOptions.Proofs.Precedence
import TieredOptions.Proofs.Provenance
import TieredOptions.Proofs.Reference
import TieredOptions.Proofs.Retries

namespace TieredOptions

/-- no form of a value reads as what stands for a secret one -/
theorem ValueType.display_ne_redacted (t : ValueType) (x : t.Carrier) : t.display x ≠ redacted := by
  have hfront : redacted.toList.head? = some '[' := by decide
  have hnumber {text : String} (h : Numeric text) : text ≠ redacted := by
    rintro rfl
    exact absurd (h '[' (List.mem_of_mem_head? hfront)) (by decide)
  have hother {text : String} (h : text.toList.head? ≠ some '[') : text ≠ redacted := by
    rintro rfl
    exact h hfront
  have hdisplay : Numeric Decimal.Style.display.plus := by decide
  cases t with
  | string => exact hother (by simp [display, Text.quoted])
  | bool => cases x <;> decide
  | int k => exact hnumber (numeric_int _)
  | f32 => exact hnumber (Decimal.Style.numeric_floating hdisplay .single x)
  | f64 => exact hnumber (Decimal.Style.numeric_floating hdisplay .double x)
  | strings =>
    cases x with
    | nil => decide
    | cons s rest =>
      -- after the bracket comes the quotation mark of the first item
      have hsecond : (Text.bracketed ((s :: rest).map Text.quoted)).toList[1]? = some '"' := by
        cases rest <;> simp [Text.bracketed, Text.quoted]
      intro he
      rw [show Text.bracketed ((s :: rest).map Text.quoted) = redacted from he] at hsecond
      exact absurd hsecond (by decide)
  | json => exact hother (by cases x <;> simp [display, Json.display])
  | char => exact hother (by simp [display, Text.quotedChar])
  | unit => exact hother (by simp [display])
  | optionalU32 => exact hother (by cases x <;> simp [display])

namespace Instance

open Memory

variable {i : Instance}

/-! ## What reports rely on -/

/-- what is cached at the tier of the lookup, the lookup has answered -/
def Heard (i : Instance) (cache : Cache i.size) : Prop :=
  ∀ s r, cache s = some r → r.tier = .lookup → ∃ asked, i.Hears asked s (.ok (some r.value))

/-- what is cached after some events was stored by one of them, or cached before -/
theorem stored_or_before {before : Cache i.size} {events : List (Event i.size)} {s : i.contract.Slot} {r : Resolved}
    (h : before.after events s = some r) : .stored s r ∈ events ∨ before s = some r := by
  induction events with
  | nil => exact .inr h
  | cons e earlier ih =>
    cases e with
    | stored s' r' =>
      by_cases hs : s = s'
      · subst hs
        have hr : r' = r := by simpa [Cache.apply] using h
        rw [hr]
        exact .inl List.mem_cons_self
      · exact (ih (by simpa [Cache.apply, hs] using h)).imp_left (List.mem_cons_of_mem _)
    | _ => exact (ih h).imp_left (List.mem_cons_of_mem _)

theorem Heard.after {before : Cache i.size} (h : i.Heard before) {asked : List i.contract.Slot}
    {past events : List (Event i.size)} (hs : i.Sourced events) (hf : i.Faithful asked past events) :
    i.Heard (before.after events) := by
  intro s r hr ht
  rcases stored_or_before hr with hstored | hbefore
  · obtain ⟨late, early, hsplit⟩ := List.append_of_mem (hs.returned hstored)
    rw [hsplit] at hf
    obtain ⟨-, hgives⟩ := hf.truthful
    rw [ht] at hgives
    exact ⟨_, hgives.hears⟩
  · exact h s r hbefore ht

/-- what holds of the memory before holds of the memory after -/
def Maintains {n : Nat} (P : Memory n → Prop) (m m' : Memory n) : Prop := P m → P m'

instance {n : Nat} (P : Memory n → Prop) : IsPreorder (Memory n) (Maintains P) where
  refl _ h := h
  trans _ _ _ h h' hm := h' (h hm)

/-- what is cached has the type of its option, and comes from the lookup where the tier says so -/
structure Sound (i : Instance) (m : Memory i.size) : Prop where
  wellTyped : i.WellTyped m.resolved?
  heard : i.Heard m.resolved?

/-- every read keeps a memory sound, however it ends -/
theorem resolve_sound (depth thread : Nat) (s : i.contract.Slot) :
    Run.Keeps (Maintains i.Sound) (i.resolve depth thread s) := by
  intro m hm
  refine ⟨resolve_wellTyped hm.wellTyped depth thread s, ?_⟩
  obtain ⟨new, hj, hc, -⟩ := resolve_follows depth thread s m
  obtain ⟨new', hj', -, hst⟩ := resolve_quiet depth thread s m
  have hnew : new' = new := List.append_cancel_right (hj'.symm.trans hj)
  subst hnew
  rw [hc]
  exact hm.heard.after hst.sourced hst.faithful

/-- A memory as it can be found at a moment of a session, between two requests or while sources run: what is cached is
    what the events up to the moment have made it. -/
def Reachable (i : Instance) (m : Memory i.size) : Prop :=
  ∃ ts events, events <:+ i.history ts ∧ m.resolved? = i.cacheAt events

theorem reachable_found (i : Instance) (ts : List Turn) (t : Turn) : i.Reachable (i.found ts t) :=
  ⟨ts, i.history ts, List.suffix_refl _, (history_lawful ts).1⟩

theorem Reachable.sound {m : Memory i.size} (h : i.Reachable m) : i.Sound m := by
  obtain ⟨ts, events, hevents, hm⟩ := h
  obtain ⟨late, hlate⟩ := hevents
  obtain ⟨hst, -⟩ := i.history_stretch ts
  have hsourced : i.Sourced events := Sourced.suffix (hlate ▸ hst.sourced)
  have hfaithful : i.Faithful [] [] events := (faithful_append.1 (hlate ▸ hst.faithful)).2
  have hempty : i.Heard fun _ => none := fun s r hs => by cases hs
  refine ⟨?_, ?_⟩
  · rw [hm]
    exact cacheAt_typed ⟨late, hlate⟩
  · rw [hm]
    exact hempty.after hsourced hfaithful

/-! ## One entry after the other -/

variable {thread : Nat} {config : Option Config.Layered} {m m₁ m' : Memory i.size} {info : AccessorInfo}
  {infos : List AccessorInfo} {es : List Entry} {r : Except ResolveError Value}

/-- what a report says of an option whose read has ended so, in this memory -/
def entryOf (i : Instance) (config : Option Config.Layered) (info : AccessorInfo) (m : Memory i.size) :
    Except ResolveError Value → Entry
  | .ok v => ⟨info.name, info.type.name, i.tierOf m info.name, originIn config (i.tierOf m info.name) info.name,
      some (if isSecret info.name then redacted else info.describe v), none⟩
  | .error e => ⟨info.name, info.type.name, none, none, none, some e.message⟩

theorem reportEntry_eq (h : i.getValue thread info.name m = (Run.outcome r, m')) :
    i.reportEntry thread config info m = (.ok (i.entryOf config info m' r).reported, m') := by
  unfold reportEntry
  cases r with
  | ok v =>
    rw [Run.bind_ok (Run.attempt_ok h), Entry.reported_of_some rfl]
    rfl
  | error e =>
    rw [Run.bind_ok (Run.attempt_failed h), Entry.reported_of_none rfl]
    rfl

/-- The entries of some options, whose reads all end, with a value or a failure; the memory goes from the first to the
    second. -/
inductive Told (i : Instance) (thread : Nat) (config : Option Config.Layered) :
    Memory i.size → List AccessorInfo → List Entry → Memory i.size → Prop where
  | nil (m : Memory i.size) : Told i thread config m [] [] m
  | cons {m m₁ m' : Memory i.size} {info : AccessorInfo} {r : Except ResolveError Value} {infos : List AccessorInfo}
    {es : List Entry} (read : i.getValue thread info.name m = (Run.outcome r, m₁))
    (told : Told i thread config m₁ infos es m') :
    Told i thread config m (info :: infos) (i.entryOf config info m₁ r :: es) m'

/-- the memory after reads of some options, however they end -/
def visited (i : Instance) (thread : Nat) (m : Memory i.size) (names : List String) : Memory i.size :=
  names.foldl (fun m name => (i.getValue thread name m).2) m

theorem Told.visited (h : i.Told thread config m infos es m') : i.visited thread m (infos.map (·.name)) = m' := by
  induction h with
  | nil m => rfl
  | cons read _ ih =>
    rw [List.map_cons, Instance.visited, List.foldl_cons, read]
    exact ih

theorem Told.keeps {R : Memory i.size → Memory i.size → Prop} [IsPreorder (Memory i.size) R]
    (h : i.Told thread config m infos es m') (hr : ∀ s, Run.Keeps R (i.access.read thread s)) : R m m' := by
  induction h with
  | nil m => exact refl_of R m
  | @cons m m₁ m' info r infos es read _ ih =>
    have hread : R m (i.getValue thread info.name m).2 := Access.readName_keeps (fun s _ => hr s) m
    rw [read] at hread
    exact trans_of R hread ih

theorem Told.names (h : i.Told thread config m infos es m') : es.map (·.name) = infos.map (·.name) := by
  induction h with
  | nil m => rfl
  | @cons m m₁ m' info r infos es _ _ ih =>
    rw [List.map_cons, List.map_cons, ih]
    cases r <;> rfl

/-- an option in the middle: its entry is made after those before it, and before the others -/
theorem Told.split {before after : List AccessorInfo} (h : i.Told thread config m (before ++ info :: after) es m') :
    ∃ front back r m₁, es = front ++ i.entryOf config info m₁ r :: back ∧ front.length = before.length ∧
      i.Told thread config m before front (i.visited thread m (before.map (·.name))) ∧
      i.getValue thread info.name (i.visited thread m (before.map (·.name))) = (Run.outcome r, m₁) ∧
      i.Told thread config m₁ after back m' := by
  induction before generalizing m es with
  | nil =>
    cases h with
    | @cons _ m₁ _ _ r _ es read told => exact ⟨[], es, r, m₁, rfl, rfl, .nil m, read, told⟩
  | cons first before ih =>
    cases h with
    | @cons _ m₁ _ _ r _ es read told =>
      obtain ⟨front, back, r', m₂, rfl, hlength, hbefore, hread, hafter⟩ := ih told
      have hvisited : i.visited thread m ((first :: before).map (·.name)) = i.visited thread m₁ (before.map (·.name)) := by
        rw [List.map_cons, Instance.visited, List.foldl_cons, read]
        rfl
      rw [hvisited]
      exact ⟨_ :: front, back, r', m₂, rfl, congrArg (· + 1) hlength, .cons read hbefore, hread, hafter⟩

/-- **All options have their entries**, or the read of one of them does not end. -/
theorem reportEntries_cases (thread : Nat) (config : Option Config.Layered) (infos : List AccessorInfo)
    (m : Memory i.size) :
    (∃ es m', i.Told thread config m infos es m' ∧
      i.reportEntries thread config infos m = (.ok (es.map (·.reported)), m')) ∨
    ∃ before info after front m₁ m', infos = before ++ info :: after ∧ i.Told thread config m before front m₁ ∧
      i.getValue thread info.name m₁ = (.error .unending, m') ∧
      i.reportEntries thread config infos m = (.error .unending, m') := by
  induction infos generalizing m with
  | nil => exact .inl ⟨[], m, .nil m, rfl⟩
  | cons info rest ih =>
    rcases Run.outcome_or_unending (i.getValue thread info.name) m with ⟨r, m₁, hread⟩ | ⟨m₁, hread⟩
    · have hgo : i.reportEntries thread config (info :: rest) m =
          (do return (i.entryOf config info m₁ r).reported :: (← i.reportEntries thread config rest) :
            Run i.size (List Reported)) m₁ :=
        Run.bind_ok (reportEntry_eq hread) _
      rw [hgo]
      rcases ih m₁ with ⟨es, m', told, heq⟩ | ⟨before, x, after, front, m₂, m', rfl, told, hx, heq⟩
      · exact .inl ⟨_, m', .cons hread told, Run.bind_ok heq _⟩
      · exact .inr ⟨info :: before, x, after, _, m₂, m', rfl, .cons hread told, hx, Run.bind_error heq _⟩
    · have hentry : i.reportEntry thread config info m = (.error .unending, m₁) :=
        Run.bind_error (Run.attempt_unending hread) _
      exact .inr ⟨[], info, rest, [], m, m₁, rfl, .nil m, hread, Run.bind_error hentry _⟩

/-! ## What an entry says -/

/-- What the entry of an option says after the read of the option was answered so, in the memory that the report ends in:
- it has either a value or an error, and a tier exactly if it has a value;
- the tier is the one that the option is cached with, the cached value is the one that was answered, and the entry shows
  it, or in its place that it is secret. This is all that it shows so;
- the error is what the read failed with;
- there is an origin only at the tier of the lookup, and it is that of the configuration. -/
structure Tells (i : Instance) (config : Option Config.Layered) (s : i.contract.Slot) (answer : Except Halt Value)
    (m : Memory i.size) (e : Entry) : Prop where
  name : e.name = (i.contract.accessor s).name
  typeName : e.typeName = (i.contract.accessor s).type.name
  either : e.value.isSome = e.error.isNone
  tiered : e.tier.isSome = e.value.isSome
  stored : ∀ tier, e.tier = some tier →
    ∃ x, m.resolved? s = some ⟨⟨(i.contract.accessor s).type, x⟩, tier⟩ ∧
      answer = .ok ⟨(i.contract.accessor s).type, x⟩ ∧
      e.value = some (if isSecret (i.contract.accessor s).name then redacted else (i.contract.accessor s).type.display x)
  withheld : e.value = some redacted ↔ e.value.isSome = true ∧ isSecret (i.contract.accessor s).name = true
  failed : ∀ text, e.error = some text ↔ ∃ err, answer = .error (.failed err) ∧ text = err.message
  origin : e.origin = if e.tier = some .lookup then (config.bind (·.originOf (i.contract.accessor s).name)).map (·.origin)
    else none

/-- an option that is reported without an error is cached -/
theorem Tells.cached {s : i.contract.Slot} {answer : Except Halt Value} {e : Entry} (h : i.Tells config s answer m e)
    (he : e.error.isNone = true) : ∃ res, m.resolved? s = some res := by
  have htier : e.tier.isSome = true := h.tiered.trans (h.either.trans he)
  obtain ⟨tier, ht⟩ := Option.isSome_iff_exists.1 htier
  obtain ⟨x, hcached, -⟩ := h.stored tier ht
  exact ⟨_, hcached⟩

/-- a read that succeeds leaves its option cached, at its own type -/
theorem getValue_cached_typed (hc : i.contract.WellFormed) (hm : i.WellTyped m.resolved?) {s : i.contract.Slot} {v : Value}
    (h : i.getValue thread (i.contract.accessor s).name m = (.ok v, m')) :
    ∃ x tier, v = ⟨(i.contract.accessor s).type, x⟩ ∧ i.contract.slot? (i.contract.accessor s).name = some s ∧
      m'.resolved? s = some ⟨v, tier⟩ := by
  have hslot : i.contract.slot? (i.contract.accessor s).name = some s := hc.slot?_eq_some.2 rfl
  have hread : i.resolve i.depth thread s m = (.ok v, m') := by
    rw [← getValue_eq hslot]
    exact h
  obtain ⟨-, tier, hcached⟩ := resolve_answered (i := i) (congrArg Prod.fst hread)
  obtain ⟨-, s', hs', htype⟩ := getValue_typed hm h
  cases hslot.symm.trans hs'
  rw [hread] at hcached
  obtain ⟨type, x⟩ := v
  have htype : type = (i.contract.accessor s).type := htype
  subst htype
  exact ⟨x, tier, rfl, hslot, hcached⟩

/-- **An entry tells the truth**, also when more has been cached. -/
theorem entryOf_tells (hc : i.contract.WellFormed) (hm : i.WellTyped m.resolved?) {s : i.contract.Slot}
    (h : i.getValue thread (i.contract.accessor s).name m = (Run.outcome r, m₁)) (hgrows : Memory.Grows m₁ m')
    (config : Option Config.Layered) :
    i.Tells config s (Run.outcome r) m' (i.entryOf config (i.contract.accessor s).info m₁ r) := by
  cases r with
  | error err =>
    refine ⟨rfl, rfl, rfl, rfl, nofun, ⟨nofun, fun h => by cases h.1⟩, fun text => ?_, rfl⟩
    constructor
    · intro htext
      cases htext
      exact ⟨err, rfl, rfl⟩
    · rintro ⟨err', herr, rfl⟩
      cases herr
      rfl
  | ok v =>
    obtain ⟨x, tier, rfl, hslot, hcached⟩ := getValue_cached_typed hc hm h
    have htier : i.tierOf m₁ (i.contract.accessor s).name = some tier := by
      simp only [tierOf, hslot, Option.bind_some, tier?, hcached, Option.map_some]
    have hshown : (i.contract.accessor s).info.describe ⟨(i.contract.accessor s).type, x⟩ =
        (i.contract.accessor s).type.display x := Value.describeAs_type ⟨(i.contract.accessor s).type, x⟩
    refine ⟨rfl, rfl, rfl, ?_, fun tier' ht => ?_, ?_, ?_, rfl⟩
    · show (i.tierOf m₁ (i.contract.accessor s).name).isSome = _
      rw [htier]
      rfl
    · have ht : i.tierOf m₁ (i.contract.accessor s).name = some tier' := ht
      cases htier.symm.trans ht
      refine ⟨x, hgrows s _ hcached, rfl, ?_⟩
      rw [← hshown]
      rfl
    · show some (if isSecret (i.contract.accessor s).name then redacted else _) = some redacted ↔ true = true ∧ _
      rw [hshown, Option.some_inj]
      split
      · rename_i hsecret
        exact iff_of_true rfl ⟨rfl, hsecret⟩
      · rename_i hsecret
        exact iff_of_false (ValueType.display_ne_redacted _ x) fun h => hsecret h.2
    · intro text
      refine ⟨nofun, ?_⟩
      rintro ⟨err, herr, -⟩
      cases herr

/-! ## Origins -/

/-- what the lookup has answered from a configuration, the configuration has -/
theorem raw_isSome_of_heard {l : Config.Layered} (hl : i.lookup = some l.lookup) {asked : List i.contract.Slot}
    {s : i.contract.Slot} {v : Value} (h : i.Hears asked s (.ok (some v))) :
    l.raw (i.contract.accessor s).name ≠ none := by
  obtain ⟨l', before, hl', -, hanswer⟩ := h
  cases hl.symm.trans hl'
  have hopinion : l.opinion (i.contract.accessor s).info = .ok (some v) := hanswer
  intro hnone
  unfold Config.Layered.opinion at hopinion
  rw [show l.raw (i.contract.accessor s).info.name = none from hnone] at hopinion
  cases hopinion

/-- an option that is configured has an origin -/
theorem originOf_isSome {l : Config.Layered} {name : String} (hn : l.layers.length = l.sources.length)
    (hc : l.config = Json.mergeLayers l.layers) (ho : ∀ layer ∈ l.layers, layer.Ordered) (h : l.raw name ≠ none) :
    (l.originOf name).isSome = true := by
  refine Option.isSome_iff_ne_none.2 fun hnone => h ?_
  exact Config.Layered.raw_eq_none hc ho ((Config.Layered.originOf_eq_none hn).1 hnone)

/-- if the lookup answers from the configuration of the report, what is cached from it has an origin -/
theorem Tells.origin_isSome_iff {l : Config.Layered} {s : i.contract.Slot} {answer : Except Halt Value} {e : Entry}
    (h : i.Tells (some l) s answer m e) (hm : i.Heard m.resolved?) (hl : i.lookup = some l.lookup)
    (hn : l.layers.length = l.sources.length) (hc : l.config = Json.mergeLayers l.layers)
    (ho : ∀ layer ∈ l.layers, layer.Ordered) : e.origin.isSome = true ↔ e.tier = some .lookup := by
  constructor
  · intro horigin
    by_contra hne
    rw [h.origin, if_neg hne] at horigin
    cases horigin
  · intro htier
    obtain ⟨x, hcached, -⟩ := h.stored .lookup htier
    obtain ⟨asked, hhears⟩ := hm s _ hcached rfl
    rw [h.origin, if_pos htier, Option.isSome_map]
    exact originOf_isSome hn hc ho (raw_isSome_of_heard hl hhears)

/-! ## The whole report -/

theorem infos_split (c : Contract) (s : c.Slot) : c.accessors.map (·.info) =
    (c.accessors.take s).map (·.info) ++ (c.accessor s).info :: (c.accessors.drop (s + 1)).map (·.info) := by
  have hdrop : c.accessor s :: c.accessors.drop (s + 1) = c.accessors.drop s := List.getElem_cons_drop s.isLt
  rw [← List.map_cons, hdrop, ← List.map_append, List.take_append_drop]

theorem names_take (c : Contract) (k : Nat) : ((c.accessors.take k).map (·.info)).map (·.name) = c.names.take k := by
  rw [Contract.names, ← List.map_take, List.map_map]
  rfl

theorem slot_of_split {c : Contract} {before after : List AccessorInfo}
    (h : c.accessors.map (·.info) = before ++ info :: after) :
    ∃ s : c.Slot, before.map (·.name) = c.names.take s ∧ (c.accessor s).info = info := by
  have hlt : before.length < c.size := by
    have hlength := congrArg List.length h
    simp at hlength
    unfold Contract.size
    omega
  have hsplit := h.symm.trans (infos_split c ⟨before.length, hlt⟩)
  have hlength : before.length = ((c.accessors.take before.length).map (·.info)).length := by
    rw [List.length_map, List.length_take]
    exact (Nat.min_eq_left (Nat.le_of_lt hlt)).symm
  obtain ⟨hbefore, hrest⟩ := List.append_inj hsplit hlength
  refine ⟨⟨before.length, hlt⟩, ?_, (List.cons.inj hrest).1.symm⟩
  rw [← names_take, ← hbefore]

/-- the entry of every option is in its place, and tells the truth -/
theorem Told.tells (h : i.Told thread config m (i.contract.accessors.map (·.info)) es m') (hc : i.contract.WellFormed)
    (hm : i.Sound m) (s : i.contract.Slot) :
    ∃ e, es[s.val]? = some e ∧ i.Tells config s
      (i.getValue thread (i.contract.accessor s).name (i.visited thread m (i.contract.names.take s))).1 m' e := by
  rw [infos_split i.contract s] at h
  obtain ⟨front, back, r, m₁, rfl, hlength, hbefore, hread, hafter⟩ := h.split
  rw [names_take] at hbefore hread
  have hsound : i.Sound (i.visited thread m (i.contract.names.take s)) :=
    hbefore.keeps (R := Maintains i.Sound) (fun x => resolve_sound _ thread x) hm
  have hgrows : Memory.Grows m₁ m' := hafter.keeps fun x m => (resolve_follows _ thread x m).grows
  have hplace : front.length = s.val := by
    rw [hlength, List.length_map, List.length_take]
    exact Nat.min_eq_left (Nat.le_of_lt s.isLt)
  refine ⟨i.entryOf config (i.contract.accessor s).info m₁ r, by simp [← hplace], ?_⟩
  have hread : i.getValue thread (i.contract.accessor s).name _ = (Run.outcome r, m₁) := hread
  rw [hread]
  exact entryOf_tells hc hsound.wellTyped hread hgrows config

/-- an entry is that of some option -/
theorem Told.slot (h : i.Told thread config m (i.contract.accessors.map (·.info)) es m') {e : Entry} (he : e ∈ es) :
    ∃ s : i.contract.Slot, es[s.val]? = some e := by
  have hlength : es.length = i.contract.size := by
    have hnames := congrArg List.length h.names
    simpa [Contract.size] using hnames
  obtain ⟨k, hk, rfl⟩ := List.mem_iff_getElem.1 he
  exact ⟨⟨k, hlength ▸ hk⟩, List.getElem?_eq_getElem hk⟩

/-- **A report is made**, unless the read of some option does not end. -/
theorem report_cases (thread : Nat) (config : Option Config.Layered) (now : Instant) (m : Memory i.size) :
    (∃ r m', i.report thread config now m = (.ok r, m') ∧ r.redactions = Entry.redactions r.options ∧
      i.Told thread config m (i.contract.accessors.map (·.info)) r.options m') ∨
    ∃ s m', i.report thread config now m = (.error .unending, m') ∧
      ∃ infos front, i.Told thread config m infos front (i.visited thread m (i.contract.names.take s.val)) ∧
        i.getValue thread (i.contract.accessor s).name (i.visited thread m (i.contract.names.take s.val)) =
          (.error .unending, m') := by
  rcases reportEntries_cases thread config (i.contract.accessors.map (·.info)) m with
    ⟨es, m', told, heq⟩ | ⟨before, info, after, front, m₁, m', hsplit, told, hread, heq⟩
  · have hentries : (es.map (·.reported)).map (·.entry) = es := Entry.map_entry_reported es
    refine .inl ⟨_, m', Run.bind_ok heq _, ?_, ?_⟩
    · show (es.map (·.reported)).filterMap (·.redaction) = Entry.redactions ((es.map (·.reported)).map (·.entry))
      rw [hentries, Entry.filterMap_redaction_reported]
    · show i.Told thread config m _ ((es.map (·.reported)).map (·.entry)) m'
      rw [hentries]
      exact told
  · obtain ⟨s, hnames, rfl⟩ := slot_of_split hsplit
    have hvisited : i.visited thread m (i.contract.names.take s) = m₁ := by
      rw [← hnames]
      exact told.visited
    refine .inr ⟨s, m', Run.bind_error heq _, before, front, ?_⟩
    rw [hvisited]
    exact ⟨told, hread⟩

/-- where no source starts a thread, a read comes to an end, and what is under way on its thread is left under way -/
theorem read_concur (h : i.Unthreaded) {active : List i.contract.Slot} (hd : active.Nodup) (thread : Nat)
    (s : i.contract.Slot) : i.Concur thread active (i.access.read thread s) (i.access.read thread s) := by
  have hdepth : i.size < i.depth + active.length := Nat.lt_add_right _ i.size_lt_depth
  exact resolve_concur h hd hdepth hdepth s

theorem Told.stays_open {active : List i.contract.Slot} (h : i.Told thread config m infos es m') (ht : i.Unthreaded)
    (hd : active.Nodup) (ho : i.Open thread active m) : i.Open thread active m' :=
  h.keeps (R := Maintains (i.Open thread active)) (fun s m hm => (read_concur ht hd thread s m hm).2.2.1) ho

/-- **Reports are complete and consistent.** Of every instance that was built, and of every memory that it comes to:
- a report is made, whatever fails, unless the read of some option, at its turn, does not end. If no source starts a
  thread, it is made, also while options are under way;
- it has one entry for each option, in the order of their declaration. The turn of an option comes after the options
  before it have been read, and its entry says how it is answered then, and what it is cached with (`Tells`);
- it names as left out, in order, the secret options that have a value; the failures are the entries with an error; and
  if there are none, every option is cached afterwards;
- if the lookup answers from the very configuration that the report is given, and this has a source for each of its
  layers, then an entry has an origin exactly at the tier of the lookup. -/
theorem report_consistent {c : Contract} {lookup : Option Lookup} {overrides : List Override} {i : Instance}
    (h : build c lookup overrides = .ok i) {m : Memory i.size} (hm : i.Reachable m) (thread : Nat)
    (config : Option Config.Layered) (now : Instant) :
    (∀ e m', i.report thread config now m = (.error e, m') → e = .unending ∧
      ∃ s : i.contract.Slot, i.getValue thread (i.contract.accessor s).name
        (i.visited thread m (i.contract.names.take s)) = (.error .unending, m')) ∧
    (i.Unthreaded → ∀ active, active.Nodup → i.Open thread active m →
      ∃ r m', i.report thread config now m = (.ok r, m')) ∧
    ∀ r m', i.report thread config now m = (.ok r, m') →
      r.options.map (·.name) = i.contract.names ∧
      (∀ s : i.contract.Slot, ∃ e, r.options[s.val]? = some e ∧
        i.Tells config s
          (i.getValue thread (i.contract.accessor s).name (i.visited thread m (i.contract.names.take s))).1 m' e) ∧
      r.redactions = (r.options.filter fun e => isSecret e.name && e.value.isSome).map (·.name) ∧
      (r.failures.Sublist r.options ∧ ∀ e, e ∈ r.failures ↔ e ∈ r.options ∧ ∃ text, e.error = some text) ∧
      (r.isComplete = true → ∀ s, ∃ res, m'.resolved? s = some res) ∧
      ∀ layers sources sect, layers.length = sources.length → (∀ layer ∈ layers, layer.Ordered) →
        config = some ((Config.Layered.ofLayers layers sources).within sect) →
        lookup = some ((Config.Layered.ofLayers layers sources).within sect).lookup →
        ∀ e ∈ r.options, e.origin.isSome = true ↔ e.tier = some .lookup := by
  obtain ⟨hadmits, hi⟩ := build_ok h
  have hwell : i.contract.WellFormed := by
    rw [hi]
    exact hadmits.wellFormed
  refine ⟨fun e m' herror => ?_, fun hthreads active hd hopen => ?_, fun r m' hr => ?_⟩
  · rcases report_cases thread config now m with ⟨r, m'', heq, -, -⟩ | ⟨s, m'', heq, infos, front, -, hread⟩
    · cases heq.symm.trans herror
    · cases heq.symm.trans herror
      exact ⟨rfl, s, hread⟩
  · rcases report_cases thread config now m with ⟨r, m', heq, -, -⟩ | ⟨s, m', -, infos, front, told, hread⟩
    · exact ⟨r, m', heq⟩
    · -- the options before this one leave what is under way as it is, so the read of this one ends
      obtain ⟨-, hend, -⟩ := i.access.readName_concur (read_concur hthreads hd thread) (i.contract.accessor s).name _
        (told.stays_open hthreads hd hopen)
      exact absurd (congrArg Prod.fst hread) hend
  · rcases report_cases thread config now m with ⟨r', m'', heq, hredactions, told⟩ | ⟨s, m'', heq, -⟩
    · cases heq.symm.trans hr
      have hsound : i.Sound m' := told.keeps (R := Maintains i.Sound) (fun x => resolve_sound _ thread x) hm.sound
      have htells := told.tells hwell hm.sound
      refine ⟨told.names.trans (by simp [Contract.names, Accessor.info]), htells, hredactions,
        ⟨List.filter_sublist, fun e => ?_⟩, fun hcomplete s => ?_, ?_⟩
      · simp [Report.failures, Option.isSome_iff_exists]
      · obtain ⟨e, he, htell⟩ := htells s
        have herror : e.error.isNone = true := List.all_eq_true.1 hcomplete e (List.mem_of_getElem? he)
        exact htell.cached herror
      · intro layers sources sect hn ho hconfig hlookup e he
        obtain ⟨s, hs⟩ := told.slot he
        obtain ⟨e', he', htell⟩ := htells s
        cases hs.symm.trans he'
        subst hconfig hlookup
        refine htell.origin_isSome_iff hsound.heard (congrArg Instance.lookup hi) ?_ ?_ ?_
        · rw [Config.Layered.within_layers, Config.Layered.within_sources]
          exact hn
        · rw [Config.Layered.within_layers, Config.Layered.within_config]
          rfl
        · rw [Config.Layered.within_layers]
          exact ho
    · cases heq.symm.trans hr

/-- A panel that is configured but for its owner. -/
def panelContract : Contract := ⟨"Panel", [
  ⟨"port", [], .int .u16, none⟩,
  ⟨"api_key", [], .string, none⟩,
  ⟨"title", [], .string, some (.const "untitled")⟩,
  ⟨"owner", [], .string, none⟩]⟩

def panelLayers : List Json := [.object [("panel", .object [("api_key", .string "k"), ("port", .number (.int 80))])]]

def panelConfig : Config.Layered := (Config.Layered.ofLayers panelLayers [⟨.cli, none, none⟩]).within (some "panel")

def panel : Instance := ⟨panelContract, Vector.replicate 4 none, some panelConfig.lookup⟩

/-- the panel after its port was asked for -/
def panelMemory : Memory panel.size := panel.found [⟨[], none, 0, .getValue "port"⟩] ⟨[], none, 0, .explain⟩

theorem panelLayers_ordered : ∀ layer ∈ panelLayers, layer.Ordered := by
  have hpanel : (Json.object [("api_key", .string "k"), ("port", .number (.int 80))]).Ordered :=
    .cons (by decide) (.string _) (.single (.number _) _)
  simpa [panelLayers] using hpanel.single "panel"

def keySlot : panel.contract.Slot := ⟨1, by decide⟩

/-- All options of the panel are reported, the owner among them, and what comes from the configuration has its origin.
    The key is there, but not what it is, and the report says so. -/
theorem panel_reported : build panelContract (some panelConfig.lookup) [] = .ok panel ∧ panel.Reachable panelMemory ∧
    panel.Unthreaded ∧ panel.Open 0 [] panelMemory ∧
    ∃ r m', panel.report 0 (some panelConfig) ⟨0, 0⟩ panelMemory = (.ok r, m') ∧
      r.options.map (·.name) = ["port", "api_key", "title", "owner"] ∧
      (∃ e, r.options[1]? = some e ∧ e.name = "api_key" ∧ e.value = some "[REDACTED]") ∧
      r.redactions = ["api_key"] ∧
      ∀ e ∈ r.options, e.origin.isSome = true ↔ e.tier = some .lookup := by
  have hbuild : build panelContract (some panelConfig.lookup) [] = .ok panel := by rfl
  have hreachable : panel.Reachable panelMemory := reachable_found panel _ _
  have hthreads : panel.Unthreaded := by
    unfold Unthreaded
    decide
  have hidle : panelMemory.active = [] := panel.memoryAfter_active _
  have hopen : panel.Open 0 [] panelMemory := .of_idle hidle 0
  obtain ⟨-, hmade, hsays⟩ := report_consistent hbuild hreachable 0 (some panelConfig) ⟨0, 0⟩
  obtain ⟨r, m', hr⟩ := hmade hthreads [] List.nodup_nil hopen
  obtain ⟨hdeclared, htells, hredactions, -, -, horigin⟩ := hsays r m' hr
  have hnames : r.options.map (·.name) = ["port", "api_key", "title", "owner"] := hdeclared
  have hkey : ∃ e, r.options[1]? = some e ∧ e.name = "api_key" ∧ e.value = some "[REDACTED]" := by
    obtain ⟨e, he, htell⟩ := htells keySlot
    have hanswer : (panel.getValue 0 (panel.contract.accessor keySlot).name
        (panel.visited 0 panelMemory (panel.contract.names.take keySlot))).1 = .ok ⟨.string, "k"⟩ := rfl
    have herror : e.error = none := by
      by_contra hsome
      obtain ⟨text, htext⟩ := Option.ne_none_iff_exists'.1 hsome
      obtain ⟨err, herr, -⟩ := (htell.failed text).1 htext
      cases hanswer.symm.trans herr
    have hvalue : e.value.isSome = true := by rw [htell.either, herror]; rfl
    exact ⟨e, he, htell.name, htell.withheld.2 ⟨hvalue, by decide⟩⟩
  refine ⟨hbuild, hreachable, hthreads, hopen, r, m', hr, hnames, hkey, ?_,
    horigin panelLayers [⟨.cli, none, none⟩] (some "panel") rfl panelLayers_ordered rfl rfl⟩
  obtain ⟨e, he, hname, hvalue⟩ := hkey
  simp only [List.map_eq_cons_iff, List.map_eq_nil_iff] at hnames
  obtain ⟨port, -, hall, hport, key, -, rfl, -, title, -, rfl, htitle, owner, -, rfl, howner, rfl⟩ := hnames
  rw [hall] at he
  cases he
  have hsecret : isSecret "port" = false ∧ isSecret "api_key" = true ∧ isSecret "title" = false ∧
      isSecret "owner" = false := by decide
  simp [hredactions, hall, hport, hname, htitle, howner, hvalue, hsecret]

end Instance

end TieredOptions
