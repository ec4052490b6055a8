/-
What a reader is shown of a value. The form of a value at its own type (`ValueType.Shows`) never looks like the words
for a value that has not the type it is described at (`ValueType.refusal`), whatever the two types are: numbers are made
of a few characters, of which no bracket is one (`Numeric`), and every other form begins with a character of its own
(`Shows.ne_refusal`).
-/
import Mathlib.Data.Nat.Digits.Defs
import TieredOptions.Value.Basic

namespace TieredOptions

/-! ## Numbers are made of few characters -/

/-- the characters that stand in numbers -/
def isNumeral (c : Char) : Bool := c.isDigit || ['-', '.', 'e', 'N', 'a', 'i', 'n', 'f'].contains c

/-- the text is made of characters that stand in numbers -/
def Numeric (text : String) : Prop := ∀ c ∈ text.toList, isNumeral c = true

instance (text : String) : Decidable (Numeric text) :=
  decidable_of_iff (text.toList.all isNumeral = true) List.all_eq_true

/-- no opening angle bracket stands in the text -/
def Unbracketed (text : String) : Prop := '<' ∉ text.toList

theorem Numeric.unbracketed {text : String} (h : Numeric text) : Unbracketed text :=
  fun hmem => absurd (h _ hmem) (by decide)

theorem Numeric.append {a b : String} (ha : Numeric a) (hb : Numeric b) : Numeric (a ++ b) := by
  unfold Numeric at *
  rw [String.toList_append]
  exact List.forall_mem_append.2 ⟨ha, hb⟩

theorem Numeric.ofList {cs : List Char} (h : ∀ c ∈ cs, isNumeral c = true) : Numeric (String.ofList cs) := by
  rwa [Numeric, String.toList_ofList]

theorem numeric_nat (n : Nat) : Numeric (toString n) := by
  intro c hc
  have hdigit : c ∈ Nat.toDigits 10 n := by simpa [toString, Nat.repr] using hc
  have hc : c.isDigit = true := Nat.isDigit_of_mem_toDigits (by decide) (by decide) hdigit
  rw [isNumeral, hc, Bool.true_or]

theorem numeric_int (n : Int) : Numeric (toString n) := by
  cases n with
  | ofNat n => exact numeric_nat n
  | negSucc n => exact .append (a := "-") (by decide) (numeric_nat (n + 1))

namespace Decimal

theorem numeric_zeros (n : Nat) : Numeric (zeros n) :=
  .ofList fun c hc => by rw [List.eq_of_mem_replicate hc]; decide

theorem Expansion.numeric_positional (d : Expansion) : Numeric d.positional := by
  have hdigits := numeric_nat d.digits
  unfold positional
  dsimp only
  split
  · exact .append (.append hdigits (numeric_zeros _)) (by decide)
  · split
    · exact .append (.append (.ofList fun c hc => hdigits c (List.mem_of_mem_take hc)) (by decide))
        (.ofList fun c hc => hdigits c (List.mem_of_mem_drop hc))
    · exact .append (.append (by decide) (numeric_zeros _)) hdigits

theorem Expansion.numeric_scientific {plus : String} (hp : Numeric plus) (d : Expansion) :
    Numeric (d.scientific plus) := by
  have hdigits := numeric_nat d.digits
  unfold Numeric at hdigits
  unfold scientific
  dsimp only
  refine .append (.append (.append ?_ (by decide)) ?_) (numeric_nat _)
  · generalize (toString d.digits).toList = cs at hdigits
    split
    · obtain ⟨hc, hrest⟩ := List.forall_mem_cons.1 hdigits
      exact .ofList (List.forall_mem_cons.2 ⟨hc, List.forall_mem_cons.2 ⟨by decide, hrest⟩⟩)
    · exact .ofList hdigits
  · split
    · decide
    · exact hp

theorem Style.numeric_floating {s : Style} (hp : Numeric s.plus) (f : Format) (x : Floating) :
    Numeric (s.floating f x) := by
  unfold floating
  split
  · decide
  · split <;> decide
  · have hsign (b : Bool) : Numeric (if b then "-" else "") := by cases b <;> decide
    refine .append (hsign _) ?_
    split
    · decide
    · unfold expansion
      dsimp only
      split
      · exact Expansion.numeric_positional _
      · exact Expansion.numeric_scientific hp _

end Decimal

/-! ## Forms and refusals -/

namespace ValueType

/-- the text is the form of some value of the type -/
def Shows (t : ValueType) (text : String) : Prop := ∃ x : t.Carrier, text = t.display x

/-- what is shown of a value that has not the type it is described at -/
def refusal (t : ValueType) : String := "<not a " ++ t.name ++ ">"

theorem front_refusal (t : ValueType) : t.refusal.toList.head? = some '<' := by
  simp [refusal]

/-- the form of a value begins with another character than a refusal -/
theorem front_display (t : ValueType) (x : t.Carrier) : (t.display x).toList.head? ≠ some '<' := by
  have hnumber {text : String} (h : Numeric text) : text.toList.head? ≠ some '<' :=
    fun hf => h.unbracketed (List.mem_of_mem_head? hf)
  have hdisplay : Numeric Decimal.Style.display.plus := by decide
  cases t with
  | string => simp [display, Text.quoted]
  | bool => cases x <;> decide
  | int k => exact hnumber (numeric_int _)
  | f32 => exact hnumber (Decimal.Style.numeric_floating hdisplay .single x)
  | f64 => exact hnumber (Decimal.Style.numeric_floating hdisplay .double x)
  | strings => simp [display, Text.bracketed]
  | json => cases x <;> simp [display, Json.display]
  | char => simp [display, Text.quotedChar]
  | unit => simp [display]
  | optionalU32 => cases x <;> simp [display]

/-- **No form of a value reads as a refusal.** -/
theorem Shows.ne_refusal {t : ValueType} {text : String} (h : t.Shows text) (t' : ValueType) : text ≠ t'.refusal := by
  obtain ⟨x, rfl⟩ := h
  intro he
  exact t.front_display x (he ▸ t'.front_refusal)

end ValueType

end TieredOptions
