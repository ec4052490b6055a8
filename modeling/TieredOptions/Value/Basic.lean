/-
Option values. A value carries its type, so that it can be kept beside values of other types and asked for at a type:
`as? t` gives the content exactly if `t` is the type. `display` is the form shown to a reader.
-/
import TieredOptions.Value.Type
import TieredOptions.Json.Printer

namespace TieredOptions

structure Value where
  type : ValueType
  content : type.Carrier
  deriving DecidableEq

namespace Value

/-- the content, if the value has the type -/
def as? (v : Value) (t : ValueType) : Option t.Carrier :=
  if h : v.type = t then some (h ▸ v.content) else none

@[simp] theorem as?_self (t : ValueType) (x : t.Carrier) : (Value.mk t x).as? t = some x := by
  simp [as?]

end Value

namespace ValueType

/-- the form of a value that is shown to a reader -/
def display : (t : ValueType) → t.Carrier → String
  | string, s => Text.quoted s
  | bool, b => toString b
  | int k, w => toString (k.toInt w)
  | f32, x => Decimal.Style.display.floating .single x
  | f64, x => Decimal.Style.display.floating .double x
  | strings, ss => Text.bracketed (ss.map Text.quoted)
  | json, v => v.display
  | char, c => Text.quotedChar c
  | unit, _ => "()"
  | optionalU32, none => "None"
  | optionalU32, some w => "Some(" ++ toString w.toNat ++ ")"

end ValueType

/-- a value as a reader of the type `t` sees it -/
def Value.describeAs (v : Value) (t : ValueType) : String :=
  match v.as? t with
  | some x => t.display x
  | none => "<not a " ++ t.name ++ ">"

/-- the form of a value at its own type -/
def Value.display (v : Value) : String := v.type.display v.content

theorem Value.describeAs_type (v : Value) : v.describeAs v.type = v.display := by
  simp [describeAs, display, as?]

/-! ## Sums -/

/-- the types whose values can be added -/
inductive Summable : ValueType → Type where
  | int (k : IntKind) : Summable (.int k)
  | string : Summable .string
  | strings : Summable .strings

/-- how the values of a type are added, if they can be -/
def ValueType.summable? : (t : ValueType) → Option (Summable t)
  | .int k => some (.int k)
  | .string => some .string
  | .strings => some .strings
  | _ => none

/-- Integers add up modulo the size of their kind; texts and lists are put one after the other. -/
def Summable.add : {t : ValueType} → Summable t → t.Carrier → t.Carrier → t.Carrier
  | _, .int _, a, b => a + b
  | _, .string, a, b => a ++ b
  | _, .strings, a, b => a ++ b

end TieredOptions
