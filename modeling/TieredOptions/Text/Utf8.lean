/-
UTF-8, with the position of the first fault. A fault is either a byte that cannot continue the sequence it stands in
(then the sequence up to that byte is what is wrong), or an input that ends inside a sequence.

`encode` writes a text as bytes, `decode` reads it back: overlong forms, surrogates and code points above U+10FFFF are
refused by the range that the second byte must lie in.
-/

namespace TieredOptions.Text.Utf8

/-- why bytes are no UTF-8, and the index at which the faulty sequence starts -/
inductive Fault where
  /-- the first `length` bytes of the sequence cannot be the beginning of a character -/
  | invalid (length : Nat) (index : Nat)
  /-- the input ends before the sequence does -/
  | incomplete (index : Nat)
  deriving DecidableEq, Repr

def Fault.message : Fault → String
  | .invalid length index => s!"invalid utf-8 sequence of {length} bytes from index {index}"
  | .incomplete index => s!"incomplete utf-8 byte sequence from index {index}"

def encode (s : String) : List UInt8 := s.toList.flatMap String.utf8EncodeChar

/-- what the first byte of a sequence promises: how many bytes follow, the range of the next one, and its own bits -/
structure Lead where
  follow : Nat
  low : Nat
  high : Nat
  bits : Nat

/-- the promise of a first byte from 0x80 on -/
def lead? (n : Nat) : Option Lead :=
  if 0xc2 ≤ n ∧ n ≤ 0xdf then some ⟨1, 0x80, 0xbf, n - 0xc0⟩
  else if n = 0xe0 then some ⟨2, 0xa0, 0xbf, 0⟩
  else if n = 0xed then some ⟨2, 0x80, 0x9f, 0xd⟩
  else if 0xe1 ≤ n ∧ n ≤ 0xef then some ⟨2, 0x80, 0xbf, n - 0xe0⟩
  else if n = 0xf0 then some ⟨3, 0x90, 0xbf, 0⟩
  else if 0xf1 ≤ n ∧ n ≤ 0xf3 then some ⟨3, 0x80, 0xbf, n - 0xf0⟩
  else if n = 0xf4 then some ⟨3, 0x80, 0x8f, 4⟩
  else none

/-- is the byte a continuation byte in the given range? -/
def within (b : UInt8) (low high : Nat) : Bool := low ≤ b.toNat && b.toNat ≤ high

/-- append the six bits of a continuation byte -/
def extend (n : Nat) (b : UInt8) : Nat := n * 0x40 + b.toNat % 0x40

/-- decode the bytes that stand from `index` on -/
def decodeFrom (index : Nat) : List UInt8 → Except Fault (List Char)
  | [] => .ok []
  | b0 :: bs =>
    if b0.toNat < 0x80 then (decodeFrom (index + 1) bs).map (Char.ofNat b0.toNat :: ·)
    else match lead? b0.toNat with
      | none => .error (.invalid 1 index)
      | some l => match bs with
        | [] => .error (.incomplete index)
        | b1 :: bs1 =>
          if !within b1 l.low l.high then .error (.invalid 1 index)
          else if l.follow = 1 then (decodeFrom (index + 2) bs1).map (Char.ofNat (extend l.bits b1) :: ·)
          else match bs1 with
            | [] => .error (.incomplete index)
            | b2 :: bs2 =>
              if !within b2 0x80 0xbf then .error (.invalid 2 index)
              else if l.follow = 2 then
                (decodeFrom (index + 3) bs2).map (Char.ofNat (extend (extend l.bits b1) b2) :: ·)
              else match bs2 with
                | [] => .error (.incomplete index)
                | b3 :: bs3 =>
                  if !within b3 0x80 0xbf then .error (.invalid 3 index)
                  else (decodeFrom (index + 4) bs3).map
                    (Char.ofNat (extend (extend (extend l.bits b1) b2) b3) :: ·)

/-- the text that the bytes encode, or the first fault -/
def decode (bytes : List UInt8) : Except Fault (List Char) := decodeFrom 0 bytes

example : decode [0x61, 0xe2, 0x82, 0xac] = .ok ['a', '€'] := by rfl
example : decode [0xe2, 0x82, 0x61] = .error (.invalid 2 0) := by rfl
example : decode [0x61, 0xf0, 0x9f, 0x98] = .error (.incomplete 1) := by rfl

end TieredOptions.Text.Utf8
