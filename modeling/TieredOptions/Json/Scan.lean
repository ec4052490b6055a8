/-
Reading JSON text from the front, for a reader that knows what it wants. Strings are read exactly (`string?`); a value
that nobody asks for is only passed over (`skip?`), which checks its syntax but neither how large its numbers are nor
that the surrogates in its strings come in pairs.
-/
import TieredOptions.Decimal.Numeral

namespace TieredOptions.Json.Scan

def isBlank (c : Char) : Bool := c == ' ' || c == '\t' || c == '\n' || c == '\r'

/-- the text after the blanks at its front -/
def skipBlanks (cs : List Char) : List Char := cs.dropWhile isBlank

/-- the text after the given characters -/
def expect? (word cs : List Char) : Option (List Char) :=
  if word.isPrefixOf cs then some (cs.drop word.length) else none

/-- is the character a hexadecimal digit, in either case? -/
def isHex (c : Char) : Bool := Decimal.isDigit c || ('a' ≤ c && c ≤ 'f') || ('A' ≤ c && c ≤ 'F')

def hex4? (cs : List Char) : Option (Nat × List Char) :=
  let digits := cs.take 4
  if digits.length = 4 ∧ digits.all isHex then some (Decimal.ofDigits 16 digits, cs.drop 4) else none

/-- the character that a one-letter escape stands for -/
def shortEscape? : Char → Option Char
  | '"' => some '"'
  | '\\' => some '\\'
  | '/' => some '/'
  | 'b' => some '\x08'
  | 'f' => some '\x0c'
  | 'n' => some '\n'
  | 'r' => some '\r'
  | 't' => some '\t'
  | _ => none

/-- the character of a numeric escape; a leading surrogate must be followed by the escape of a trailing one -/
def codePoint? (cs : List Char) : Option (Char × List Char) := do
  let (n, rest) ← hex4? cs
  if 0xdc00 ≤ n ∧ n ≤ 0xdfff then none
  else if 0xd800 ≤ n ∧ n ≤ 0xdbff then
    let rest ← expect? ['\\', 'u'] rest
    let (m, rest) ← hex4? rest
    if 0xdc00 ≤ m ∧ m ≤ 0xdfff then some (Char.ofNat (0x10000 + (n - 0xd800) * 0x400 + (m - 0xdc00)), rest) else none
  else some (Char.ofNat n, rest)

/-- the rest of a string after its opening quote; `fuel` is a bound on its length, `acc` what was read, last first -/
def stringRest (acc : List Char) : Nat → List Char → Option (String × List Char)
  | 0, _ => none
  | fuel + 1, cs => match cs with
    | [] => none
    | '"' :: rest => some (String.ofList acc.reverse, rest)
    | '\\' :: 'u' :: rest => do
      let (c, rest) ← codePoint? rest
      stringRest (c :: acc) fuel rest
    | '\\' :: e :: rest => do
      let c ← shortEscape? e
      stringRest (c :: acc) fuel rest
    | c :: rest => if c = '\\' ∨ c.toNat < 0x20 then none else stringRest (c :: acc) fuel rest

/-- a string, blanks before it allowed -/
def string? (cs : List Char) : Option (String × List Char) := do
  let rest ← expect? ['"'] (skipBlanks cs)
  stringRest [] (rest.length + 1) rest

/-- the text after the rest of a string -/
def skipStringRest : Nat → List Char → Option (List Char)
  | 0, _ => none
  | fuel + 1, cs => match cs with
    | [] => none
    | '"' :: rest => some rest
    | '\\' :: 'u' :: rest => do
      let (_, rest) ← hex4? rest
      skipStringRest fuel rest
    | '\\' :: e :: rest => if (shortEscape? e).isSome then skipStringRest fuel rest else none
    | c :: rest => if c = '\\' ∨ c.toNat < 0x20 then none else skipStringRest fuel rest

/-- the text after at least one digit -/
def skipDigits? : List Char → Option (List Char)
  | c :: cs => if Decimal.isDigit c then some (cs.dropWhile Decimal.isDigit) else none
  | [] => none

/-- the text after a number -/
def skipNumber? (cs : List Char) : Option (List Char) := do
  let rest := match cs with | '-' :: rest => rest | _ => cs
  let rest ← match rest with
    | '0' :: rest => if (rest.head?.map Decimal.isDigit).getD false then none else some rest
    | _ => skipDigits? rest
  let rest ← match rest with
    | '.' :: rest => skipDigits? rest
    | _ => some rest
  match rest with
  | e :: rest' =>
    if e = 'e' ∨ e = 'E' then skipDigits? (Decimal.signed rest').2 else some rest
  | [] => some []

mutual

/-- the text after a value, blanks before it allowed; `fuel` is a bound on the length of the text -/
def skipValue : Nat → List Char → Option (List Char)
  | 0, _ => none
  | fuel + 1, cs => match skipBlanks cs with
    | 'n' :: rest => expect? "ull".toList rest
    | 't' :: rest => expect? "rue".toList rest
    | 'f' :: rest => expect? "alse".toList rest
    | '"' :: rest => skipStringRest (rest.length + 1) rest
    | '[' :: rest =>
      match skipBlanks rest with
      | ']' :: rest => some rest
      | _ => skipItems fuel rest
    | '{' :: rest =>
      match skipBlanks rest with
      | '}' :: rest => some rest
      | _ => skipFields fuel rest
    | rest => skipNumber? rest

/-- the text after the items of an array and its bracket -/
def skipItems : Nat → List Char → Option (List Char)
  | 0, _ => none
  | fuel + 1, cs => do
    let rest ← skipValue fuel cs
    match skipBlanks rest with
    | ',' :: rest => skipItems fuel rest
    | ']' :: rest => some rest
    | _ => none

/-- the text after the fields of an object and its brace -/
def skipFields : Nat → List Char → Option (List Char)
  | 0, _ => none
  | fuel + 1, cs => do
    let rest ← expect? ['"'] (skipBlanks cs)
    let rest ← skipStringRest (rest.length + 1) rest
    let rest ← expect? [':'] (skipBlanks rest)
    let rest ← skipValue fuel rest
    match skipBlanks rest with
    | ',' :: rest => skipFields fuel rest
    | '}' :: rest => some rest
    | _ => none

end

/-- the text after a value, blanks before it allowed -/
def skip? (cs : List Char) : Option (List Char) := skipValue (2 * cs.length + 2) cs

def nullable? (cs : List Char) : Option (Option String × List Char) :=
  match skipBlanks cs with
  | 'n' :: rest => (expect? "ull".toList rest).map (none, ·)
  | rest => (string? rest).map fun (s, rest) => (some s, rest)

end TieredOptions.Json.Scan
