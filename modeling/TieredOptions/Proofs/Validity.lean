/-
What construction asks for, said without its checks: a well-formed contract, overrides that say which options they are
for, no option without a source, and overrides that fit (`Contract.Admits`). Names are identifiers
(`isOptionName_iff`).

`Violation` says of each error what is wrong where it is named. What an error names is wrong
(`Violation.violates`), and where anything is wrong, construction does not get what it asks for
(`Violates.not_admits`).
-/
import Mathlib.Data.List.Nodup
import TieredOptions.Instance.Build

namespace TieredOptions

/-! ## What construction asks for -/

/-- an ASCII letter or an underscore, then ASCII letters, digits and underscores; a lone underscore is no name -/
def IsIdentifier (name : String) : Prop :=
  ∃ c cs, name.toList = c :: cs ∧ (c.isAlpha = true ∨ c = '_') ∧ (∀ d ∈ cs, d.isAlphanum = true ∨ d = '_') ∧
    name ≠ "_"

theorem isNameStart_iff {c : Char} : isNameStart c = true ↔ c.isAlpha = true ∨ c = '_' := by
  have hlower : ('a' ≤ c && c ≤ 'z') = c.isLower := rfl
  have hupper : ('A' ≤ c && c ≤ 'Z') = c.isUpper := (Bool.decide_and _ _).symm
  have halpha : c.isAlpha = (c.isUpper || c.isLower) := rfl
  rw [isNameStart, hlower, hupper, halpha, Bool.or_eq_true, Bool.or_eq_true, Bool.or_eq_true, beq_iff_eq]
  tauto

theorem isNamePart_iff {c : Char} : isNamePart c = true ↔ c.isAlphanum = true ∨ c = '_' := by
  have hdigit : ('0' ≤ c && c ≤ '9') = c.isDigit := rfl
  rw [isNamePart, hdigit, Bool.or_eq_true, isNameStart_iff, Char.isAlphanum, Bool.or_eq_true]
  tauto

/-- option names are identifiers -/
theorem isOptionName_iff {name : String} : isOptionName name = true ↔ IsIdentifier name := by
  unfold isOptionName IsIdentifier
  cases hn : name.toList with
  | nil => simp
  | cons c cs =>
    have hlone : name.toList = "_".toList ↔ name = "_" := String.toList_inj
    rw [hn] at hlone
    have hne : ((c :: cs) != ['_']) = true ↔ name ≠ "_" := bne_iff_ne.trans (not_congr hlone)
    rw [Bool.and_eq_true, Bool.and_eq_true, hne, isNameStart_iff, List.all_eq_true]
    simp only [isNamePart_iff]
    constructor
    · rintro ⟨⟨h₁, h₂⟩, h₃⟩
      exact ⟨c, cs, rfl, h₁, h₂, h₃⟩
    · rintro ⟨c', cs', hc, h₁, h₂, h₃⟩
      cases hc
      exact ⟨⟨h₁, h₂⟩, h₃⟩

/-- no accessor takes parameters, all are named by identifiers, and no two by the same -/
structure Contract.WellFormed (c : Contract) : Prop where
  parameterless : ∀ a ∈ c.accessors, a.params = []
  named : ∀ a ∈ c.accessors, IsIdentifier a.name
  distinct : c.names.Nodup

/-- every override is named by an identifier, and no two by the same -/
structure Identified (overrides : List Override) : Prop where
  named : ∀ o ∈ overrides, ∃ name, o.name = some name ∧ IsIdentifier name
  distinct : (overrides.map (·.name)).Nodup

namespace Contract

/-- the options with neither a default nor an override, in order of declaration -/
def unserved (c : Contract) (overrides : List Override) : List String :=
  (c.accessors.filter fun a => a.default.isNone ∧ ∀ o ∈ overrides, o.name ≠ some a.name).map (·.name)

/-- the override is for an option that the contract declares, and has its type -/
def Fits (c : Contract) (o : Override) : Prop := ∃ a ∈ c.accessors, o.name = some a.name ∧ o.type = a.type

/-- the override is for an option that the contract does not declare -/
def Undeclared (c : Contract) (o : Override) : Prop := ∃ name, o.name = some name ∧ name ∉ c.names

/-- the override is for an option of another type -/
def Mismatched (c : Contract) (o : Override) : Prop := ∃ a ∈ c.accessors, o.name = some a.name ∧ o.type ≠ a.type

/-- what construction asks for -/
structure Admits (c : Contract) (lookup : Option Lookup) (overrides : List Override) : Prop where
  wellFormed : c.WellFormed
  identified : Identified overrides
  fits : ∀ o ∈ overrides, c.Fits o
  served : lookup = none → ∀ a ∈ c.accessors, a.default = none → ∃ o ∈ overrides, o.name = some a.name

end Contract

/-- what is wrong, for each error that construction may end with -/
inductive Violation (c : Contract) (lookup : Option Lookup) (overrides : List Override) : BuildError → Prop where
  | parameters (a : Accessor) (ha : a ∈ c.accessors) (h : a.params ≠ []) :
    Violation c lookup overrides (.malformedContract c.name a.name (.parameters a.params))
  | accessorName (a : Accessor) (ha : a ∈ c.accessors) (h : ¬ IsIdentifier a.name) :
    Violation c lookup overrides (.malformedContract c.name a.name .invalidName)
  | accessorRepeated (before after : List Accessor) (a : Accessor) (ha : c.accessors = before ++ a :: after)
    (h : a.name ∈ before.map (·.name)) : Violation c lookup overrides (.malformedContract c.name a.name .repeated)
  | overrideUnnamed (o : Override) (ho : o ∈ overrides) (h : o.name = none) :
    Violation c lookup overrides (.identification (.unnamed o.type))
  | overrideName (o : Override) (ho : o ∈ overrides) (name : String) (hn : o.name = some name)
    (h : ¬ IsIdentifier name) : Violation c lookup overrides (.identification (.invalidName name))
  | overrideRepeated (before after : List Override) (o : Override) (ho : overrides = before ++ o :: after)
    (name : String) (hn : o.name = some name) (h : some name ∈ before.map (·.name)) :
    Violation c lookup overrides (.duplicateOption name)
  | unserved (hl : lookup = none) (h : c.unserved overrides ≠ []) :
    Violation c lookup overrides (.missingOption c.name (c.unserved overrides))
  | unknown (o : Override) (ho : o ∈ overrides) (name : String) (hn : o.name = some name) (h : name ∉ c.names) :
    Violation c lookup overrides (.unknownOption c.name name)
  | mismatch (o : Override) (ho : o ∈ overrides) (a : Accessor) (ha : a ∈ c.accessors) (hn : o.name = some a.name)
    (h : o.type ≠ a.type) : Violation c lookup overrides (.typeMismatch a.name a.type o.type)

/-- the kinds of errors that construction may end with -/
inductive BuildError.Kind where
  | malformedContract
  | unidentifiedOverride
  | missingOption
  | unknownOption
  | typeMismatch
  deriving DecidableEq

def BuildError.kind : BuildError → Kind
  | malformedContract _ _ _ => .malformedContract
  | identification _ | duplicateOption _ => .unidentifiedOverride
  | missingOption _ _ => .missingOption
  | unknownOption _ _ => .unknownOption
  | typeMismatch _ _ _ => .typeMismatch

/-- something of the kind is wrong -/
def Contract.Violates (c : Contract) (lookup : Option Lookup) (overrides : List Override) : BuildError.Kind → Prop
  | .malformedContract => ¬ c.WellFormed
  | .unidentifiedOverride => ¬ Identified overrides
  | .missingOption => lookup = none ∧ c.unserved overrides ≠ []
  | .unknownOption => ∃ o ∈ overrides, c.Undeclared o
  | .typeMismatch => ∃ o ∈ overrides, c.Mismatched o

/-! ## Violations -/

theorem Contract.unserved_eq_nil {c : Contract} {overrides : List Override} :
    c.unserved overrides = [] ↔ ∀ a ∈ c.accessors, a.default = none → ∃ o ∈ overrides, o.name = some a.name := by
  simp only [unserved, List.map_eq_nil_iff, List.filter_eq_nil_iff, decide_eq_true_eq, Option.isNone_iff_eq_none,
    not_and, not_forall, not_not, exists_prop]

theorem Contract.Undeclared.not_fits {c : Contract} {o : Override} (h : c.Undeclared o) : ¬ c.Fits o := by
  obtain ⟨name, hn, hnot⟩ := h
  rintro ⟨a, ha, hn', -⟩
  rw [hn] at hn'
  cases hn'
  exact hnot (List.mem_map.2 ⟨a, ha, rfl⟩)

theorem Contract.Mismatched.declared {c : Contract} {o : Override} (h : c.Mismatched o) : ¬ c.Undeclared o := by
  obtain ⟨a, ha, hn, -⟩ := h
  rintro ⟨name, hn', hnot⟩
  rw [hn] at hn'
  cases hn'
  exact hnot (List.mem_map.2 ⟨a, ha, rfl⟩)

theorem Contract.Mismatched.not_fits {c : Contract} {o : Override} (hc : c.WellFormed) (h : c.Mismatched o) :
    ¬ c.Fits o := by
  obtain ⟨a, ha, hn, ht⟩ := h
  rintro ⟨a', ha', hn', ht'⟩
  have hname : a.name = a'.name := Option.some.inj (hn.symm.trans hn')
  have haa : a = a' := List.inj_on_of_nodup_map hc.distinct ha ha' hname
  exact ht (haa ▸ ht')

variable {c : Contract} {lookup : Option Lookup} {overrides : List Override} {e : BuildError}

/-- what stands twice keeps names from being distinct -/
theorem not_nodup_of_before {α β : Type} {f : α → β} {l before after : List α} {a : α} (hl : l = before ++ a :: after)
    (h : f a ∈ before.map f) : ¬ (l.map f).Nodup := by
  intro hd
  rw [hl, List.map_append, List.map_cons, List.nodup_append] at hd
  exact hd.2.2 _ h _ List.mem_cons_self rfl

/-- **Errors tell the truth.** What an error names is wrong, and it is of the kind of the error. -/
theorem Violation.violates (h : Violation c lookup overrides e) : c.Violates lookup overrides e.kind := by
  cases h with
  | parameters a ha h => exact fun hc => h (hc.parameterless a ha)
  | accessorName a ha h => exact fun hc => h (hc.named a ha)
  | accessorRepeated before after a ha h => exact fun hc => not_nodup_of_before ha h hc.distinct
  | overrideUnnamed o ho h =>
    intro hi
    obtain ⟨name, hn, -⟩ := hi.named o ho
    rw [h] at hn
    cases hn
  | overrideName o ho name hn h =>
    intro hi
    obtain ⟨name', hn', hid⟩ := hi.named o ho
    rw [hn] at hn'
    cases hn'
    exact h hid
  | overrideRepeated before after o ho name hn h =>
    exact fun hi => not_nodup_of_before ho (hn ▸ h) hi.distinct
  | unserved hl h => exact ⟨hl, h⟩
  | unknown o ho name hn h => exact ⟨o, ho, name, hn, h⟩
  | mismatch o ho a ha hn h => exact ⟨o, ho, a, ha, hn, h⟩

/-- where something is wrong, construction does not get what it asks for -/
theorem Contract.Violates.not_admits {k : BuildError.Kind} (h : c.Violates lookup overrides k) :
    ¬ c.Admits lookup overrides := by
  intro ha
  cases k with
  | malformedContract => exact h ha.wellFormed
  | unidentifiedOverride => exact h ha.identified
  | missingOption => exact h.2 (Contract.unserved_eq_nil.2 (ha.served h.1))
  | unknownOption =>
    obtain ⟨o, ho, h⟩ := h
    exact h.not_fits (ha.fits o ho)
  | typeMismatch =>
    obtain ⟨o, ho, h⟩ := h
    exact h.not_fits ha.wellFormed (ha.fits o ho)

end TieredOptions
