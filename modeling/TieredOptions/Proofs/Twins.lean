/-
Two instances side by side that have everything in common but their lookups, and the lookups differ in what they answer
for some hidden options. Two runs are twins (`Run.Twin`) if from memories that are alike they come to outcomes that are
alike, and to memories that are alike again. Memories are alike (`Memory.Hides`) if they differ in the values of hidden
options only.

Under a veil (`Veil`) no source of an option that is not hidden reads a hidden one, so no value of a hidden option gets
into another option's value: `resolve_twin`, by induction on the depth. A hidden option has a value with both lookups, or
fails with both; in the second case a source that resolves all options would fail with its error, so then there is none.
-/
import TieredOptions.Proofs.History
import TieredOptions.Proofs.Reference

namespace TieredOptions

/-! ## Runs -/

namespace Run

variable {n : Nat} {α β : Type}

/-- both come to an end, with results that stand in the relation, or both stop for one reason -/
def Agree (Q : α → α → Prop) : Except Halt α → Except Halt α → Prop
  | .ok a, .ok b => Q a b
  | .error h, .error h' => h = h'
  | _, _ => False

/-- from memories that are alike both runs come to outcomes that are alike, and to such memories again -/
def Twin (I : Memory n → Memory n → Prop) (P : Except Halt α → Except Halt α → Prop) (x y : Run n α) : Prop :=
  ∀ m m', I m m' → P (x m).1 (y m').1 ∧ I (x m).2 (y m').2

theorem Agree.mono {Q Q' : α → α → Prop} (h : ∀ a b, Q a b → Q' a b) {r r' : Except Halt α} (hr : Agree Q r r') :
    Agree Q' r r' := by
  cases r <;> cases r' <;> first | exact hr | exact h _ _ hr

theorem Agree.cases {Q : α → α → Prop} {r r' : Except Halt α} (h : Agree Q r r') :
    (∃ a b, r = .ok a ∧ r' = .ok b ∧ Q a b) ∨ ∃ e, r = .error e ∧ r' = .error e := by
  rcases r with e | a <;> rcases r' with e' | b
  · cases h
    exact .inr ⟨e, rfl, rfl⟩
  · cases h
  · cases h
  · exact .inl ⟨a, b, rfl, rfl, h⟩

namespace Twin

variable {I : Memory n → Memory n → Prop} {Q : α → α → Prop} {x y : Run n α}

/-- The two runs, from memories that are alike: they come to results that stand in the relation, or stop for one
    reason, and their memories are alike. -/
theorem cases (hx : Twin I (Agree Q) x y) {m m' : Memory n} (hm : I m m') :
    (∃ a b m₁ m₁', x m = (.ok a, m₁) ∧ y m' = (.ok b, m₁') ∧ Q a b ∧ I m₁ m₁') ∨
      ∃ e m₁ m₁', x m = (.error e, m₁) ∧ y m' = (.error e, m₁') ∧ I m₁ m₁' := by
  obtain ⟨ho, hm₁⟩ := hx m m' hm
  rcases ho.cases with ⟨a, b, ha, hb, hab⟩ | ⟨e, ha, hb⟩
  · exact .inl ⟨a, b, _, _, Prod.ext ha rfl, Prod.ext hb rfl, hab, hm₁⟩
  · exact .inr ⟨e, _, _, Prod.ext ha rfl, Prod.ext hb rfl, hm₁⟩

theorem mono {P P' : Except Halt α → Except Halt α → Prop} (h : ∀ r r', P r r' → P' r r') (hx : Twin I P x y) :
    Twin I P' x y := fun m m' hm => ⟨h _ _ (hx m m' hm).1, (hx m m' hm).2⟩

theorem pure {a b : α} (h : Q a b) : Twin I (Agree Q) (Pure.pure a) (Pure.pure b) := fun _ _ hm => ⟨h, hm⟩

theorem fail (e : ResolveError) : Twin I (Agree Q) (Run.fail e) (Run.fail e) := fun _ _ hm => ⟨rfl, hm⟩

theorem bind {P : Except Halt β → Except Halt β → Prop} {f g : α → Run n β} (hx : Twin I (Agree Q) x y)
    (hf : ∀ a b, Q a b → Twin I P (f a) (g b)) (hP : ∀ h, P (.error h) (.error h)) :
    Twin I P (x >>= f) (y >>= g) := by
  intro m m' hm
  rcases hx.cases hm with ⟨a, b, m₁, m₁', hxm, hym, hab, hm₁⟩ | ⟨h, m₁, m₁', hxm, hym, hm₁⟩
  · rw [bind_ok hxm, bind_ok hym]
    exact hf a b hab m₁ m₁' hm₁
  · rw [bind_error hxm, bind_error hym]
    exact ⟨hP h, hm₁⟩

/-- two parts, each with its like -/
theorem seq {R : β → β → Prop} {f g : α → Run n β} (hx : Twin I (Agree Q) x y)
    (hf : ∀ a b, Q a b → Twin I (Agree R) (f a) (g b)) : Twin I (Agree R) (x >>= f) (y >>= g) :=
  hx.bind hf fun _ => rfl

theorem orElse {f g : ResolveError → Run n α} (hx : Twin I (Agree Q) x y) (hf : ∀ e, Twin I (Agree Q) (f e) (g e)) :
    Twin I (Agree Q) (Run.orElse x f) (Run.orElse y g) := by
  intro m m' hm
  rcases hx.cases hm with ⟨a, b, m₁, m₁', hxm, hym, hab, hm₁⟩ | ⟨e | _, m₁, m₁', hxm, hym, hm₁⟩ <;>
    simp only [Run.orElse, hxm, hym]
  · exact ⟨hab, hm₁⟩
  · exact hf e m₁ m₁' hm₁
  · exact ⟨rfl, hm₁⟩

theorem noting {returned : α → Event n} {failed : ResolveError → Event n} (hx : Twin I (Agree Q) x y)
    (hI : ∀ m m' e e', I m m' → I (m.record e) (m'.record e')) :
    Twin I (Agree Q) (Run.noting x returned failed) (Run.noting y returned failed) := by
  intro m m' hm
  rcases hx.cases hm with ⟨a, b, m₁, m₁', hxm, hym, hab, hm₁⟩ | ⟨e | _, m₁, m₁', hxm, hym, hm₁⟩ <;>
    simp only [Run.noting, hxm, hym]
  · exact ⟨hab, hI _ _ _ _ hm₁⟩
  · exact ⟨rfl, hI _ _ _ _ hm₁⟩
  · exact ⟨rfl, hm₁⟩

end Twin

end Run

/-! ## Memories -/

/-- The memories differ in the values of hidden options only; how they came to be may differ. -/
structure Memory.Hides {n : Nat} (hidden : Fin n → Prop) (m m' : Memory n) : Prop where
  resolved : ∀ s, ¬ hidden s → m.resolved? s = m'.resolved? s
  tier : ∀ s, m.tier? s = m'.tier? s
  active : m.active = m'.active
  spent : m.spent = m'.spent
  shared : m.shared = m'.shared
  asked : m.asked = m'.asked

namespace Memory.Hides

variable {n : Nat} {hidden : Fin n → Prop} {m m' : Memory n}

theorem refl (m : Memory n) : Hides hidden m m := ⟨fun _ _ => rfl, fun _ => rfl, rfl, rfl, rfl, rfl⟩

theorem record (h : Hides hidden m m') (e e' : Event n) : Hides hidden (m.record e) (m'.record e') :=
  ⟨h.resolved, h.tier, h.active, h.spent, h.shared, h.asked⟩

theorem enter (h : Hides hidden m m') (thread : Nat) (s : Fin n) :
    Hides hidden (m.enter thread s) (m'.enter thread s) :=
  ⟨h.resolved, h.tier, by simp only [Memory.enter, Memory.record, h.active], h.spent, h.shared, h.asked⟩

theorem leave (h : Hides hidden m m') (thread : Nat) (s : Fin n) :
    Hides hidden (m.leave thread s) (m'.leave thread s) :=
  ⟨h.resolved, h.tier, by simp only [Memory.leave, Memory.record, h.active], h.spent, h.shared, h.asked⟩

theorem chain (h : Hides hidden m m') (thread : Nat) (s : Fin n) : m.chain thread s = m'.chain thread s := by
  simp only [Memory.chain, h.active]

/-- what is resolved in one memory is resolved in the other -/
theorem resolved?_cases (h : Hides hidden m m') (s : Fin n) :
    (∃ r r', m.resolved? s = some r ∧ m'.resolved? s = some r' ∧ (¬ hidden s → r = r')) ∨
      (m.resolved? s = none ∧ m'.resolved? s = none) := by
  have ht := h.tier s
  unfold Memory.tier? at ht
  cases hs : m.resolved? s with
  | none =>
    rw [hs] at ht
    exact .inr ⟨rfl, Option.map_eq_none_iff.1 ht.symm⟩
  | some r =>
    rw [hs] at ht
    obtain ⟨r', hs', -⟩ := Option.map_eq_some_iff.1 ht.symm
    exact .inl ⟨r, r', rfl, hs', fun hn => Option.some.inj (hs.symm.trans ((h.resolved s hn).trans hs'))⟩

theorem store {i : Instance} {hidden : i.contract.Slot → Prop} {m m' : Memory i.size} (h : Hides hidden m m')
    {s : i.contract.Slot} {r r' : Resolved} (hr : ¬ hidden s → r = r') (ht : r.tier = r'.tier) :
    Hides hidden (m.store s r) (m'.store s r') := by
  rcases h.resolved?_cases s with ⟨r₀, r₀', hs, hs', -⟩ | ⟨hs, hs'⟩
  · rw [Instance.store_of_some hs, Instance.store_of_some hs']
    exact h
  · have hcache := (Instance.store_of_none hs r).2
    have hcache' := (Instance.store_of_none hs' r').2
    refine ⟨fun x hx => ?_, fun x => ?_, ?_, ?_, ?_, ?_⟩
    · rw [hcache, hcache']
      by_cases hxs : x = s
      · subst hxs
        simp [Cache.apply, hr hx]
      · simp [Cache.apply, hxs, h.resolved x hx]
    · rw [Memory.tier?, Memory.tier?, hcache, hcache']
      by_cases hxs : x = s
      · simp [Cache.apply, hxs, ht]
      · simp only [Cache.apply, if_neg hxs]
        exact h.tier x
    all_goals simp only [Memory.store, hs, hs', Memory.record]
    · exact h.active
    · exact h.spent
    · exact h.shared
    · exact h.asked

end Memory.Hides

/-! ## Sources -/

/-- What reads of one option come to: the same, but that a hidden option has a value of its own in each, or fails with an
    error of its own in each where hidden options fail. -/
inductive Veiled (hidden fails : Prop) : Except Halt Value → Except Halt Value → Prop where
  | value {v w : Value} (h : ¬ hidden → v = w) : Veiled hidden fails (.ok v) (.ok w)
  | halt (h : Halt) : Veiled hidden fails (.error h) (.error h)
  | failure (hh : hidden) (hf : fails) (e e' : ResolveError) :
      Veiled hidden fails (.error (.failed e)) (.error (.failed e'))

/-- an option that is not hidden is read alike -/
theorem Veiled.eq {hidden fails : Prop} {r r' : Except Halt Value} (h : Veiled hidden fails r r') (hh : ¬ hidden) :
    Run.Agree Eq r r' := by
  cases h with
  | value h => exact h hh
  | halt h => exact rfl
  | failure hh' => exact absurd hh' hh

/-- where hidden options do not fail, they have values or stop for one reason -/
theorem Veiled.ends {hidden fails : Prop} {r r' : Except Halt Value} (h : Veiled hidden fails r r') (hf : ¬ fails) :
    Run.Agree (fun _ _ => True) r r' := by
  cases h with
  | value h => exact trivial
  | halt h => exact rfl
  | failure _ hf' => exact absurd hf' hf

/-- Of the names read none is that of a hidden option; and where hidden options fail, not all options are resolved. -/
structure Contract.Blind (c : Contract) (hidden : c.Slot → Prop) (fails : Prop) (names : List String)
    (surveys : Bool) : Prop where
  unread : ∀ name ∈ names, ∀ s, c.slot? name = some s → ¬ hidden s
  unsurveyed : fails → surveys = false

theorem Contract.Blind.parts {c : Contract} {hidden : c.Slot → Prop} {fails : Prop} {names names' : List String}
    {surveys surveys' : Bool} (h : c.Blind hidden fails (names ++ names') (surveys || surveys')) :
    c.Blind hidden fails names surveys ∧ c.Blind hidden fails names' surveys' := by
  have hs (hf : fails) := Bool.or_eq_false_iff.1 (h.unsurveyed hf)
  exact ⟨⟨fun name hn => h.unread name (List.mem_append_left _ hn), fun hf => (hs hf).1⟩,
    ⟨fun name hn => h.unread name (List.mem_append_right _ hn), fun hf => (hs hf).2⟩⟩

section Sources

open Run Memory

variable {c : Contract} {a a' : Access c} {hidden : c.Slot → Prop} {fails : Prop}

theorem Access.readName_twin (hr : ∀ thread s, Twin (Hides hidden) (Veiled (hidden s) fails) (a.read thread s)
    (a'.read thread s)) (thread : Nat) {name : String} (hn : ∀ s, c.slot? name = some s → ¬ hidden s) :
    Twin (Hides hidden) (Agree Eq) (a.readName thread name) (a'.readName thread name) := by
  unfold readName
  cases hs : c.slot? name with
  | none => exact .fail _
  | some s => exact (hr thread s).mono fun r r' h => h.eq (hn s hs)

theorem Access.get_twin (hr : ∀ thread s, Twin (Hides hidden) (Veiled (hidden s) fails) (a.read thread s)
    (a'.read thread s)) (thread : Nat) (t : ValueType) {name : String} (hn : ∀ s, c.slot? name = some s → ¬ hidden s) :
    Twin (Hides hidden) (Agree Eq) (a.get thread t name) (a'.get thread t name) := by
  refine .seq (readName_twin hr thread hn) ?_
  rintro v _ rfl
  cases v.as? t with
  | none => exact .fail _
  | some x => exact .pure rfl

/-- resolving all options does not tell hidden ones apart, unless they fail -/
theorem Access.readAll_twin (hr : ∀ thread s, Twin (Hides hidden) (Veiled (hidden s) fails) (a.read thread s)
    (a'.read thread s)) (hf : ¬ fails) (thread : Nat) :
    Twin (Hides hidden) (Agree Eq) (a.readAll thread) (a'.readAll thread) := by
  unfold readAll
  induction c.slots with
  | nil => exact .pure rfl
  | cons s rest ih =>
    have hread : Twin (Hides hidden) (Agree fun _ _ => True) (a.read thread s) (a'.read thread s) :=
      (hr thread s).mono fun r r' h => h.ends hf
    exact .seq (.seq (R := Eq) hread fun _ _ _ => .pure rfl) fun _ _ _ => ih

/-- **A source that reads no hidden option has one value.** -/
theorem Expr.eval_twin (hr : ∀ thread s, Twin (Hides hidden) (Veiled (hidden s) fails) (a.read thread s)
    (a'.read thread s)) (hf : ∀ place, Twin (Hides hidden) (Agree Eq) (a.first place) (a'.first place)) {t : ValueType}
    (e : Expr t) (hb : c.Blind hidden fails e.reads e.surveys) (thread : Nat) (place : Place) :
    Twin (Hides hidden) (Agree Eq) (e.eval a thread place) (e.eval a' thread place) := by
  induction e generalizing thread place with
  | const v => exact .pure rfl
  | get name => exact a.get_twin hr thread _ (hb.unread name List.mem_cons_self)
  | display name =>
    refine .seq (a.readName_twin hr thread (hb.unread name List.mem_cons_self)) ?_
    rintro v _ rfl
    exact .pure rfl
  | tier name =>
    intro m m' hm
    have ht : (c.slot? name).bind m.tier? = (c.slot? name).bind m'.tier? := by
      cases c.slot? name with
      | none => rfl
      | some s => exact hm.tier s
    exact ⟨congrArg tierWord ht, hm⟩
  | fail e => exact .fail e
  | once first later ih₁ ih₂ =>
    obtain ⟨hb₁, hb₂⟩ := hb.parts
    refine .seq (hf place) ?_
    rintro b _ rfl
    cases b with
    | true => exact ih₁ hb₁ thread _
    | false => exact ih₂ hb₂ thread _
  | orElse e fallback ih₁ ih₂ =>
    obtain ⟨hb₁, hb₂⟩ := hb.parts
    exact .orElse (ih₁ hb₁ thread _) fun _ => ih₂ hb₂ thread _
  | add how x y ih₁ ih₂ =>
    obtain ⟨hb₁, hb₂⟩ := hb.parts
    refine .seq (ih₁ hb₁ thread _) ?_
    rintro v _ rfl
    refine .seq (ih₂ hb₂ thread _) ?_
    rintro w _ rfl
    exact .pure rfl
  | cond name yes no ih₁ ih₂ =>
    have hrest : c.Blind hidden fails (yes.reads ++ no.reads) (yes.surveys || no.surveys) :=
      ⟨fun name hn => hb.unread name (List.mem_cons_of_mem _ hn), hb.unsurveyed⟩
    obtain ⟨hb₁, hb₂⟩ := hrest.parts
    refine .seq (a.get_twin hr thread _ (hb.unread name List.mem_cons_self)) ?_
    rintro b _ rfl
    cases b with
    | true => exact ih₁ hb₁ thread _
    | false => exact ih₂ hb₂ thread _
  | errorText e ih =>
    refine .orElse (.seq (ih hb thread _) ?_) fun _ => .pure rfl
    rintro v _ rfl
    exact .pure rfl
  | resolveAll e ih =>
    have hfails : ¬ fails := fun h => nomatch hb.unsurveyed h
    have hb' : c.Blind hidden fails e.reads e.surveys := ⟨hb.unread, fun h => absurd h hfails⟩
    exact .seq (a.readAll_twin hr hfails thread) fun _ _ _ => ih hb' thread _
  | spawn e ih => exact ih hb (thread + 1) _
  | apply f e ih =>
    refine .seq (ih hb thread _) ?_
    rintro v _ rfl
    cases f v with
    | ok w => exact .pure rfl
    | error e => exact .fail e

end Sources

/-! ## Instances -/

/-- the instance with another lookup -/
abbrev Instance.withLookup (i : Instance) (l : Lookup) : Instance := ⟨i.contract, i.overrides, some l⟩

/-- Two lookups for an instance that differ in what they answer for hidden options only. No source that serves another
    option reads a hidden one. If hidden options do not fail, then each has a value of its type with both lookups;
    if they fail, then with both, and no source that serves another option resolves all. -/
structure Veil (i : Instance) (l l' : Lookup) (hidden : i.contract.Slot → Prop) (fails : Prop) : Prop where
  horizon : l.horizon = l'.horizon
  same : ∀ s, ¬ hidden s → l.ask (i.contract.accessor s).info = l'.ask (i.contract.accessor s).info
  free : ∀ s, hidden s → i.override? s = none
  values : ¬ fails → ∀ s, hidden s → ∀ count, ∃ v w,
    l.ask (i.contract.accessor s).info count = .ok (some v) ∧ (i.contract.accessor s).info.accepts v = true ∧
    l'.ask (i.contract.accessor s).info count = .ok (some w) ∧ (i.contract.accessor s).info.accepts w = true
  failures : fails → ∀ s, hidden s → ∀ count, ∃ e e',
    l.ask (i.contract.accessor s).info count = .error e ∧ l'.ask (i.contract.accessor s).info count = .error e'
  blind : ∀ s, ¬ hidden s → ∀ src, i.served s = some src →
    i.contract.Blind hidden fails src.expr.reads src.expr.surveys

namespace Instance

open Run Memory

variable {i : Instance} {l l' : Lookup} {hidden : i.contract.Slot → Prop} {fails : Prop}

theorem firstOwn_twin (s : i.contract.Slot) (place : Place) :
    Twin (Hides hidden) (Agree Eq) ((i.withLookup l).firstOwn s place) ((i.withLookup l').firstOwn s place) := by
  intro m m' hm
  have hspent : (⟨s, place⟩ : Node) :: m.spent = ⟨s, place⟩ :: m'.spent := by rw [hm.spent]
  simp only [firstOwn, memory_bind_apply, hm.spent]
  split
  · exact ⟨rfl, hm⟩
  · exact ⟨rfl, hm.resolved, hm.tier, hm.active, hspent, hm.shared, hm.asked⟩

theorem firstShared_twin (s : i.contract.Slot) (place : Place) :
    Twin (Hides hidden) (Agree Eq) ((i.withLookup l).firstShared s place) ((i.withLookup l').firstShared s place) := by
  intro m m' hm
  have hshared : (⟨s, place⟩ : Node) :: m.shared = ⟨s, place⟩ :: m'.shared := by rw [hm.shared]
  simp only [firstShared, memory_bind_apply, hm.shared]
  split
  · exact ⟨rfl, hm⟩
  · exact ⟨rfl, hm.resolved, hm.tier, hm.active, hm.spent, hshared, hm.asked⟩

theorem runSource_twin {Q : Option Value → Option Value → Prop} (s : i.contract.Slot) (tier : Tier)
    {x y : Run i.size (Option Value)} (hx : Twin (Hides hidden) (Agree Q) x y) :
    Twin (Hides hidden) (Agree Q) ((i.withLookup l).runSource s tier x) ((i.withLookup l').runSource s tier y) :=
  fun _ _ hm => hx.noting (fun _ _ e e' h => h.record e e') _ _ (hm.record _ _)

/-- a source that reads no hidden option has an opinion, and one only -/
theorem evalSource_twin {a a' : Access i.contract}
    (hr : ∀ thread s, Twin (Hides hidden) (Veiled (hidden s) fails) (a.read thread s) (a'.read thread s))
    (hf : ∀ place, Twin (Hides hidden) (Agree Eq) (a.first place) (a'.first place)) (thread : Nat) {source : Source}
    (hb : i.contract.Blind hidden fails source.expr.reads source.expr.surveys) :
    Twin (Hides hidden) (Agree fun o o' => o = o' ∧ o ≠ none) ((i.withLookup l).evalSource a thread source)
      ((i.withLookup l').evalSource a' thread source) := by
  refine .seq (source.expr.eval_twin hr hf hb thread []) ?_
  rintro x _ rfl
  exact .pure ⟨rfl, nofun⟩

variable {read read' : Nat → i.contract.Slot → Run i.size Value}

section Opinions

variable (hv : Veil i l l' hidden fails)
  (hr : ∀ thread s, Twin (Hides hidden) (Veiled (hidden s) fails) (read thread s) (read' thread s))

include hv in
theorem consult_twin {s : i.contract.Slot} (hs : ¬ hidden s) :
    Twin (Hides hidden) (Agree Eq) ((i.withLookup l).consult l s) ((i.withLookup l').consult l' s) := by
  intro m m' hm
  rw [consult_apply, consult_apply, hm.asked]
  refine ⟨?_, hm.resolved, hm.tier, hm.active, hm.spent, hm.shared, rfl⟩
  show Agree Eq (outcome (l.ask (i.contract.accessor s).info _)) (outcome (l'.ask (i.contract.accessor s).info _))
  rw [hv.same s hs]
  cases l'.ask (i.contract.accessor s).info (m'.asked.count s) <;> rfl

include hv hr

theorem override_twin (thread : Nat) {s : i.contract.Slot} (hs : ¬ hidden s) {source : Source}
    (ho : i.override? s = some source) :
    Twin (Hides hidden) (Agree fun o o' => o = o' ∧ o ≠ none) ((i.withLookup l).opinion read thread s .override)
      ((i.withLookup l').opinion read' thread s .override) := by
  have ho₁ : (i.withLookup l).override? s = some source := ho
  have ho₂ : (i.withLookup l').override? s = some source := ho
  simp only [opinion, ho₁, ho₂]
  have hb := hv.blind s hs source (by rw [served, ho]; rfl)
  exact runSource_twin s _ (evalSource_twin hr (firstOwn_twin s) thread hb)

theorem opinion_twin (thread : Nat) {s : i.contract.Slot} (hs : ¬ hidden s) (ho : i.override? s = none) (tier : Tier) :
    Twin (Hides hidden) (Agree Eq) ((i.withLookup l).opinion read thread s tier)
      ((i.withLookup l').opinion read' thread s tier) := by
  cases tier with
  | override =>
    have ho₁ : (i.withLookup l).override? s = none := ho
    have ho₂ : (i.withLookup l').override? s = none := ho
    simp only [opinion, ho₁, ho₂]
    exact .pure rfl
  | lookup => exact runSource_twin s _ (consult_twin hv hs)
  | default =>
    cases hd : (i.contract.accessor s).source? with
    | none =>
      simp only [opinion, hd]
      exact .pure rfl
    | some source =>
      simp only [opinion, hd]
      have hb := hv.blind s hs source (by rw [served, ho, hd]; rfl)
      have he : Twin (Hides hidden) (Agree fun o o' => o = o' ∧ o ≠ none)
          ((i.withLookup l).evalSource ⟨read, (i.withLookup l).firstShared s⟩ thread source)
          ((i.withLookup l').evalSource ⟨read', (i.withLookup l').firstShared s⟩ thread source) :=
        evalSource_twin hr (firstShared_twin s) thread hb
      exact (runSource_twin s _ he).mono fun r r' h => h.mono fun _ _ h => h.1

/-- **An option that is not hidden has one value.** -/
theorem compute_twin (thread : Nat) {s : i.contract.Slot} (hs : ¬ hidden s) :
    Twin (Hides hidden) (Agree Eq) ((i.withLookup l).compute read thread s)
      ((i.withLookup l').compute read' thread s) := by
  cases ho : i.override? s with
  | some source =>
    refine .seq (override_twin hv hr thread hs ho) ?_
    rintro o _ ⟨rfl, hne⟩
    cases o with
    | none => exact absurd rfl hne
    | some v => exact .pure rfl
  | none =>
    unfold compute
    induction Tier.all with
    | nil => exact .fail _
    | cons tier rest ih =>
      refine .seq (opinion_twin hv hr thread hs ho tier) ?_
      rintro o _ rfl
      cases o with
      | none => exact ih
      | some v => exact .pure rfl

end Opinions

/-! ## Resolving -/

theorem consulted_hides {m m' : Memory i.size} (hm : Hides hidden m m') (s : i.contract.Slot) (e e' : Event i.size) :
    Hides hidden (m.consulted s e) (m'.consulted s e') :=
  ⟨hm.resolved, hm.tier, hm.active, hm.spent, hm.shared, congrArg (s :: ·) hm.asked⟩

/-- Without an override the lookup is asked first, and the default is left aside if it answers a value or fails. -/
theorem compute_asks {s : i.contract.Slot} (ho : i.override? s = none)
    (read : Nat → i.contract.Slot → Run i.size Value) (thread : Nat) (m : Memory i.size) :
    (∀ v, l.ask (i.contract.accessor s).info (m.asked.count s) = .ok (some v) →
      (i.withLookup l).compute read thread s m = (.ok ⟨v, .lookup⟩, m.consulted s (.returned s .lookup (some v)))) ∧
    (∀ e, l.ask (i.contract.accessor s).info (m.asked.count s) = .error e →
      (i.withLookup l).compute read thread s m = (.error (.failed e), m.consulted s (.failed s .lookup e))) := by
  have ho' : (i.withLookup l).override? s = none := ho
  have hoverride : (i.withLookup l).opinion read thread s .override m = (.ok none, m) := by
    simp only [opinion, ho']
    rfl
  have hcompute : (i.withLookup l).compute read thread s m =
      (i.withLookup l).firstOpinion read thread s [.lookup, .default] m := bind_ok hoverride _
  have hlookup : (i.withLookup l).opinion read thread s .lookup m = _ := ask_apply (i := i.withLookup l) l s m
  constructor
  · intro v ha
    rw [show l.ask ((i.withLookup l).contract.accessor s).info _ = _ from ha] at hlookup
    rw [hcompute]
    exact bind_ok hlookup _
  · intro e ha
    rw [show l.ask ((i.withLookup l).contract.accessor s).info _ = _ from ha] at hlookup
    rw [hcompute]
    exact bind_error hlookup _

theorem keep_twin {s : i.contract.Slot} {r r' : Resolved} (hr : ¬ hidden s → r = r') (ht : r.tier = r'.tier)
    (ha : (i.contract.accessor s).info.accepts r.value = (i.contract.accessor s).info.accepts r'.value) :
    Twin (Hides hidden) (Agree fun v w => ¬ hidden s → v = w) ((i.withLookup l).keep s r)
      ((i.withLookup l').keep s r') := by
  intro m m' hm
  have hkeep := keep_apply (i := i.withLookup l) m s r
  have hkeep' := keep_apply (i := i.withLookup l') m' s r'
  cases hacc : (i.contract.accessor s).info.accepts r.value with
  | true =>
    rw [if_pos hacc] at hkeep
    rw [if_pos (ha ▸ hacc)] at hkeep'
    rw [hkeep, hkeep']
    refine ⟨fun hs => ?_, hm.store hr ht⟩
    rw [hm.resolved s hs, hr hs]
  | false =>
    rw [if_neg (by simp [hacc])] at hkeep
    rw [if_neg (by simp [← ha, hacc])] at hkeep'
    rw [hkeep, hkeep']
    exact ⟨rfl, hm⟩

theorem answer_twin {s : i.contract.Slot} {v w : Value} (h : ¬ hidden s → v = w) (thread : Nat) :
    Twin (Hides hidden) (Veiled (hidden s) fails) ((i.withLookup l).answer thread s v)
      ((i.withLookup l').answer thread s w) :=
  fun _ _ hm => ⟨.value h, hm.record _ _⟩

/-- a value that is computed is kept and answered -/
theorem settle_of_compute {s : i.contract.Slot} {thread : Nat} {Q : Resolved → Resolved → Prop}
    (hc : Twin (Hides hidden) (Agree Q) ((i.withLookup l).compute read thread s)
      ((i.withLookup l').compute read' thread s))
    (hQ : ∀ r r', Q r r' → (¬ hidden s → r = r') ∧ r.tier = r'.tier ∧
      (i.contract.accessor s).info.accepts r.value = (i.contract.accessor s).info.accepts r'.value) :
    Twin (Hides hidden) (Veiled (hidden s) fails) ((i.withLookup l).settle read thread s)
      ((i.withLookup l').settle read' thread s) := by
  refine hc.bind (fun r r' h => ?_) .halt
  obtain ⟨hr, ht, ha⟩ := hQ r r' h
  exact (keep_twin hr ht ha).bind (fun v w hvw => answer_twin hvw thread) .halt

/-- **Hidden or not, an option is settled alike.** -/
theorem settle_twin (hv : Veil i l l' hidden fails)
    (hr : ∀ thread s, Twin (Hides hidden) (Veiled (hidden s) fails) (read thread s) (read' thread s)) (thread : Nat)
    (s : i.contract.Slot) :
    Twin (Hides hidden) (Veiled (hidden s) fails) ((i.withLookup l).settle read thread s)
      ((i.withLookup l').settle read' thread s) := by
  by_cases hs : hidden s
  · have ho := hv.free s hs
    by_cases hf : fails
    · -- both lookups fail, and so do both options
      intro m m' hm
      obtain ⟨e, e', he, he'⟩ := hv.failures hf s hs (m.asked.count s)
      have hc := (compute_asks ho read thread m).2 e he
      have hc' := (compute_asks ho read' thread m').2 e' (hm.asked ▸ he')
      have hsettle : (i.withLookup l).settle read thread s m = _ := bind_error hc _
      have hsettle' : (i.withLookup l').settle read' thread s m' = _ := bind_error hc' _
      rw [hsettle, hsettle']
      exact ⟨.failure hs hf e e', consulted_hides hm s _ _⟩
    · -- both lookups answer values of the option's type
      have hc : Twin (Hides hidden) (Agree fun r r' : Resolved => r.tier = r'.tier ∧
          (i.contract.accessor s).info.accepts r.value = (i.contract.accessor s).info.accepts r'.value)
          ((i.withLookup l).compute read thread s) ((i.withLookup l').compute read' thread s) := by
        intro m m' hm
        obtain ⟨v, w, hl, hacc, hl', hacc'⟩ := hv.values hf s hs (m.asked.count s)
        rw [(compute_asks ho read thread m).1 v hl,
          (compute_asks ho read' thread m').1 w (hm.asked ▸ hl')]
        exact ⟨⟨rfl, hacc.trans hacc'.symm⟩, consulted_hides hm s _ _⟩
      exact settle_of_compute hc fun r r' h => ⟨fun hn => absurd hs hn, h.1, h.2⟩
  · refine settle_of_compute (compute_twin hv hr thread hs) ?_
    rintro r _ rfl
    exact ⟨fun _ => rfl, rfl, rfl⟩

/-- **Every read is alike under a veil**: what is not hidden has one value, whatever reads it, on whatever thread and
    however deep. -/
theorem resolve_twin (hv : Veil i l l' hidden fails) (depth thread : Nat) (s : i.contract.Slot) :
    Twin (Hides hidden) (Veiled (hidden s) fails) ((i.withLookup l).resolve depth thread s)
      ((i.withLookup l').resolve depth thread s) := by
  induction depth generalizing thread s with
  | zero => exact fun m m' hm => ⟨.halt _, hm⟩
  | succ depth ih =>
    intro m m' hm
    rcases hm.resolved?_cases s with ⟨r, r', hs, hs', hr⟩ | ⟨hs, hs'⟩
    · rw [resolve_cached (i := i.withLookup l) hs, resolve_cached (i := i.withLookup l') hs']
      exact ⟨.value fun hn => congrArg Resolved.value (hr hn), hm.record _ _⟩
    · by_cases hc : m.chain thread s = []
      · rw [resolve_entered (i := i.withLookup l) hs hc,
          resolve_entered (i := i.withLookup l') hs' (hm.chain thread s ▸ hc)]
        have h := settle_twin hv ih thread s _ _ (hm.enter thread s)
        exact ⟨h.1, h.2.leave thread s⟩
      · rw [resolve_reentered (i := i.withLookup l) hs hc,
          resolve_reentered (i := i.withLookup l') hs' (hm.chain thread s ▸ hc), hm.chain]
        exact ⟨.halt _, hm.record _ _⟩

theorem depth_withLookup (h : l.horizon = l'.horizon) : (i.withLookup l).depth = (i.withLookup l').depth := by
  simp only [depth, changes, total, sources, h]

theorem access_twin (hv : Veil i l l' hidden fails) (thread : Nat) (s : i.contract.Slot) :
    Twin (Hides hidden) (Veiled (hidden s) fails) ((i.withLookup l).access.read thread s)
      ((i.withLookup l').access.read thread s) := by
  show Twin _ _ ((i.withLookup l).resolve _ thread s) ((i.withLookup l').resolve _ thread s)
  rw [depth_withLookup hv.horizon]
  exact resolve_twin hv _ thread s

end Instance

end TieredOptions
