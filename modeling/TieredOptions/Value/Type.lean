/-
The types an option can have, and the values of each. Integers are machine words: of every kind it is known how many
bits it has and whether it is signed, so a value of the kind is in range by being one. `IntKind.ofInt?` takes an integer
into a kind exactly if it is in range, and `toInt_ofInt?` says that nothing of it is lost.
-/
import TieredOptions.Json.Basic

namespace TieredOptions

inductive IntKind where
  | u8 | u16 | u32 | u64 | usize | i16 | i32 | i64
  deriving DecidableEq, Repr

namespace IntKind

def bits : IntKind → Nat
  | u8 => 8
  | u16 | i16 => 16
  | u32 | i32 => 32
  | u64 | usize | i64 => 64

def signed : IntKind → Bool
  | i16 | i32 | i64 => true
  | _ => false

def name : IntKind → String
  | u8 => "u8"
  | u16 => "u16"
  | u32 => "u32"
  | u64 => "u64"
  | usize => "usize"
  | i16 => "i16"
  | i32 => "i32"
  | i64 => "i64"

/-- the least integer of the kind -/
def least (k : IntKind) : Int := if k.signed then -(Nat.pow 2 (k.bits - 1) : Nat) else 0

/-- one more than the greatest integer of the kind -/
def limit (k : IntKind) : Int := Nat.pow 2 (if k.signed then k.bits - 1 else k.bits)

/-- the integer that a word of the kind stands for -/
def toInt (k : IntKind) (w : BitVec k.bits) : Int := if k.signed then w.toInt else w.toNat

/-- the word for an integer, reduced to the bits of the kind -/
def wrap (k : IntKind) (n : Int) : BitVec k.bits := BitVec.ofInt k.bits n

/-- the word for an integer that is in range -/
def ofInt? (k : IntKind) (n : Int) : Option (BitVec k.bits) :=
  if k.least ≤ n ∧ n < k.limit then some (k.wrap n) else none

theorem toInt_wrap (k : IntKind) (n : Int) (h : k.least ≤ n ∧ n < k.limit) : k.toInt (k.wrap n) = n := by
  cases k <;> simp [least, limit, signed, bits] at h <;>
    simp [toInt, wrap, signed, bits, BitVec.toInt_ofInt, BitVec.toNat_ofInt, Int.bmod] <;> omega

theorem toInt_ofInt? {k : IntKind} {n : Int} {w : BitVec k.bits} (h : k.ofInt? n = some w) : k.toInt w = n := by
  unfold ofInt? at h
  split at h
  · rename_i hn
    cases h
    exact toInt_wrap k n hn
  · cases h

theorem ofInt?_isSome (k : IntKind) (n : Int) : (k.ofInt? n).isSome = true ↔ k.least ≤ n ∧ n < k.limit := by
  simp [ofInt?]

end IntKind

inductive ValueType where
  | string
  | bool
  | int (kind : IntKind)
  | f32
  | f64
  | strings
  | json
  | char
  | unit
  | optionalU32
  deriving DecidableEq, Repr

namespace ValueType

/-- the full name of a type, as messages have it -/
def name : ValueType → String
  | string => "alloc::string::String"
  | bool => "bool"
  | int k => k.name
  | f32 => "f32"
  | f64 => "f64"
  | strings => "alloc::vec::Vec<alloc::string::String>"
  | json => "serde_json::value::Value"
  | char => "char"
  | unit => "()"
  | optionalU32 => "core::option::Option<u32>"

@[reducible] def Carrier : ValueType → Type
  | string => String
  | bool => Bool
  | int k => BitVec k.bits
  | f32 => Decimal.Floating
  | f64 => Decimal.Floating
  | strings => List String
  | json => Json
  | char => Char
  | unit => Unit
  | optionalU32 => Option (BitVec 32)

instance : (t : ValueType) → DecidableEq t.Carrier
  | string => inferInstanceAs (DecidableEq String)
  | bool => inferInstanceAs (DecidableEq Bool)
  | int k => inferInstanceAs (DecidableEq (BitVec k.bits))
  | f32 => inferInstanceAs (DecidableEq Decimal.Floating)
  | f64 => inferInstanceAs (DecidableEq Decimal.Floating)
  | strings => inferInstanceAs (DecidableEq (List String))
  | json => inferInstanceAs (DecidableEq Json)
  | char => inferInstanceAs (DecidableEq Char)
  | unit => inferInstanceAs (DecidableEq Unit)
  | optionalU32 => inferInstanceAs (DecidableEq (Option (BitVec 32)))

end ValueType

end TieredOptions
