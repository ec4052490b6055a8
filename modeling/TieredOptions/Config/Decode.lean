/-
Decoding configuration values at the type of an option. Nothing is converted: an integer must be one and be in range, a
list of texts must hold texts only; a number of any kind is a double. Integer numbers are at hand as words of 64 bits,
signed, or unsigned where they are too great for that. Types without a form in configuration get no value, so that an
option of such a type falls through to its default.
-/
import TieredOptions.Contract.Lookup

namespace TieredOptions

/-- a number as a signed word of 64 bits, if it is one -/
def Number.signed? : Number → Option (BitVec IntKind.i64.bits)
  | .int n => IntKind.i64.ofInt? n
  | .float _ => none

/-- a number as an unsigned word of 64 bits, if it is one -/
def Number.unsigned? : Number → Option (BitVec IntKind.u64.bits)
  | .int n => IntKind.u64.ofInt? n
  | .float _ => none

/-- the double that a number is, or the nearest one to it -/
def Number.double : Number → Decimal.Floating
  | .int n => Decimal.Format.double.ofInt n
  | .float x => .finite x

namespace Config

/-- A number as an integer of a kind. It is read as a signed word if it is one, else as an unsigned word, and what the
    word stands for must be in the range of the kind. -/
def integer? (k : IntKind) (n : Number) : Option (BitVec k.bits) :=
  match n.signed?, n.unsigned? with
  | some w, _ => k.ofInt? (IntKind.i64.toInt w)
  | none, some w => k.ofInt? (IntKind.u64.toInt w)
  | none, none => none

/-- all items, if they are strings -/
def strings? : List Json → Option (List String)
  | [] => some []
  | .string s :: rest => (strings? rest).map (s :: ·)
  | _ :: _ => none

/-- has the type a form in configuration? -/
def decodable : ValueType → Bool
  | .int .i16 | .f32 | .char | .unit | .optionalU32 => false
  | _ => true

/-- the value of a type that a configuration value is, if it is one -/
def decodeAs? : (t : ValueType) → Json → Option t.Carrier
  | .string, .string s => some s
  | .bool, .bool b => some b
  | .int k, .number n => integer? k n
  | .f64, .number n => some n.double
  | .strings, .array items => strings? items
  | .json, v => some v
  | _, _ => none

/-- a configuration value at the type of an accessor -/
def decode (info : AccessorInfo) (raw : Json) : Opinion :=
  if !decodable info.type then .ok none
  else match decodeAs? info.type raw with
    | some x => .ok (some ⟨info.type, x⟩)
    | none => .error (.decode info.name info.type raw.compact)

end Config

end TieredOptions
