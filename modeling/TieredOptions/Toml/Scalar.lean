/-
The scalars of TOML at the front of a text: strings in their four forms, booleans, numbers and date-times. A reader
takes the characters and gives the value and what is left of them; nothing if no such value stands there.
-/
import TieredOptions.Toml.Value

namespace TieredOptions.Toml

open Decimal (isDigit digitValue ofDigits)

/-- a reader of values at the front of a text -/
abbrev Reader (α : Type) := List Char → Option (α × List Char)

/-! ## Blanks and line ends -/

/-- blanks within a line: space and tab -/
def isSpace (c : Char) : Bool := c == ' ' || c == '\t'

/-- the text after the blanks at its front -/
def skipSpaces (cs : List Char) : List Char := cs.dropWhile isSpace

/-- the text after one line end: a line feed, alone or after a carriage return -/
def newline? : List Char → Option (List Char)
  | '\n' :: cs => some cs
  | '\r' :: '\n' :: cs => some cs
  | _ => none

/-- the characters that may stand in comments and, delimiters apart, in strings: no controls but the tab -/
def isPlain (c : Char) : Bool := c == '\t' || (0x20 ≤ c.toNat && c.toNat != 0x7f)

/-- the text after the rest of a line that holds blanks and a comment at most -/
def lineEnd? (cs : List Char) : Option (List Char) :=
  let rest := match skipSpaces cs with
    | '#' :: tail => tail.dropWhile isPlain
    | tail => tail
  if rest = [] then some [] else newline? rest

/-- the text after blanks, comments and line ends, as they may stand between the items of an array -/
def skipTrivia (inComment : Bool) : List Char → Option (List Char)
  | [] => some []
  | c :: cs =>
    if c = '\n' then skipTrivia false cs
    else if c = '\r' then
      match cs with
      | '\n' :: tail => skipTrivia false tail
      | _ => none
    else if inComment then if isPlain c then skipTrivia true cs else none
    else if isSpace c then skipTrivia false cs
    else if c = '#' then skipTrivia true cs
    else some (c :: cs)

/-! ## Strings -/

/-- is the character a hexadecimal digit, in either case? -/
def isHex (c : Char) : Bool := isDigit c || ('a' ≤ c && c ≤ 'f') || ('A' ≤ c && c ≤ 'F')

/-- the character with the code point that `count` hexadecimal digits give; surrogates are none -/
def codePoint? (count : Nat) (cs : List Char) : Option (Char × List Char) :=
  let digits := cs.take count
  let n := ofDigits 16 digits
  if digits.length = count ∧ digits.all isHex ∧ n.isValidChar then some (Char.ofNat n, cs.drop count) else none

/-- what stands after a backslash -/
def escape? : Reader Char
  | 'b' :: cs => some ('\x08', cs)
  | 't' :: cs => some ('\t', cs)
  | 'n' :: cs => some ('\n', cs)
  | 'f' :: cs => some ('\x0c', cs)
  | 'r' :: cs => some ('\r', cs)
  | '"' :: cs => some ('"', cs)
  | '\\' :: cs => some ('\\', cs)
  | 'u' :: cs => codePoint? 4 cs
  | 'U' :: cs => codePoint? 8 cs
  | _ => none

/-- The rest of a string in double quotes; `fuel` is a bound on its length, `acc` what was read, last first. -/
def basicRest (acc : List Char) : Nat → Reader String
  | 0, _ => none
  | fuel + 1, cs => match cs with
    | '"' :: rest => some (String.ofList acc.reverse, rest)
    | '\\' :: rest => do
      let (c, rest) ← escape? rest
      basicRest (c :: acc) fuel rest
    | c :: rest => if isPlain c then basicRest (c :: acc) fuel rest else none
    | [] => none

/-- the rest of a string in single quotes -/
def literalRest (cs : List Char) : Option (String × List Char) :=
  let body := cs.takeWhile fun c => isPlain c && c != '\''
  match cs.dropWhile fun c => isPlain c && c != '\'' with
  | '\'' :: rest => some (String.ofList body, rest)
  | _ => none

/-- The text after a backslash at the end of a line: the line end and all blanks and line ends that follow. -/
def afterLineContinuation? (cs : List Char) : Option (List Char) := do
  let rest ← newline? (skipSpaces cs)
  some (skip rest)
where
  /-- the text after blanks and line ends -/
  skip : List Char → List Char
    | [] => []
    | c :: cs =>
      if isSpace c || c == '\n' then skip cs
      else if c == '\r' then match cs with
        | '\n' :: tail => skip tail
        | _ => c :: cs
      else c :: cs

/-- The rest of a string over several lines, delimited by three quotes. Up to two quotes may stand in it, also right
    before the delimiter. Escapes are read only where `escapes` says so; line ends count as line feeds. -/
def multilineRest (quote : Char) (escapes : Bool) (acc : List Char) : Nat → Reader String
  | 0, _ => none
  | fuel + 1, cs =>
    let run := (cs.takeWhile (· == quote)).length
    if 3 ≤ run then
      let inside := min (run - 3) 2
      some (String.ofList (List.replicate inside quote ++ acc).reverse, cs.drop (inside + 3))
    else if 0 < run then multilineRest quote escapes (List.replicate run quote ++ acc) fuel (cs.drop run)
    else match newline? cs with
      | some rest => multilineRest quote escapes ('\n' :: acc) fuel rest
      | none => match cs with
        | [] => none
        | c :: rest =>
          if escapes && c == '\\' then
            match afterLineContinuation? rest with
            | some rest => multilineRest quote escapes acc fuel rest
            | none => do
              let (c, rest) ← escape? rest
              multilineRest quote escapes (c :: acc) fuel rest
          else if isPlain c then multilineRest quote escapes (c :: acc) fuel rest
          else none

/-- a line end right after the opening delimiter is no part of the string -/
def skipNewline (cs : List Char) : List Char := (newline? cs).getD cs

/-- a string on one line, in either kind of quotes -/
def lineString? : Reader String
  | '"' :: cs => basicRest [] (cs.length + 1) cs
  | '\'' :: cs => literalRest cs
  | _ => none

def string? : Reader String
  | '"' :: '"' :: '"' :: cs => multilineRest '"' true [] (cs.length + 1) (skipNewline cs)
  | '\'' :: '\'' :: '\'' :: cs => multilineRest '\'' false [] (cs.length + 1) (skipNewline cs)
  | cs => lineString? cs

/-! ## Numbers -/

/-- Digits, between which single underscores may stand. The digits come without the underscores. -/
def digitRun (digit : Char → Bool) : List Char → Option (List Char × List Char)
  | [] => none
  | c :: cs =>
    if !digit c then none
    else match cs with
      | '_' :: rest => do
        let (ds, rest) ← digitRun digit rest
        some (c :: ds, rest)
      | d :: rest =>
        if digit d then do
          let (ds, rest) ← digitRun digit (d :: rest)
          some (c :: ds, rest)
        else some ([c], d :: rest)
      | [] => some ([c], [])

/-- the digits of a decimal integer: a zero stands alone -/
def decimalRun : Reader (List Char)
  | '0' :: cs => some (['0'], cs)
  | cs => digitRun isDigit cs

/-- the integers that fit into 64 bits -/
def fits (n : Int) : Bool := -0x8000000000000000 ≤ n && n < 0x8000000000000000

/-- an integer, if it fits -/
def integer (n : Int) (rest : List Char) : Option (Value × List Char) :=
  if fits n then some (.integer n, rest) else none

/-- an integer in the given base -/
def based (base : Nat) (digit : Char → Bool) (cs : List Char) : Option (Value × List Char) := do
  let (ds, rest) ← digitRun digit cs
  integer (ofDigits base ds) rest

/-- an exponent, if one stands here -/
def exponent? (cs : List Char) : Option (Option Int × List Char) :=
  match cs with
  | e :: tail =>
    if e = 'e' ∨ e = 'E' then do
      let (negative, digits) := Decimal.signed tail
      let (ds, rest) ← digitRun isDigit digits
      let n : Int := ofDigits 10 ds
      some (some (if negative then -n else n), rest)
    else some (none, cs)
  | [] => some (none, [])

/-- A decimal number after its sign. It is a float if it has a point or an exponent. A number too large for a float is
    refused, unless it is negative: then it is the negative infinity. -/
def decimal? (negative : Bool) (cs : List Char) : Option (Value × List Char) := do
  let (whole, rest) ← decimalRun cs
  let (places, rest) ← match rest with
    | '.' :: tail => (digitRun isDigit tail).map fun (ds, rest) => (some ds, rest)
    | _ => some (none, rest)
  let (exponent, rest) ← exponent? rest
  if places.isNone && exponent.isNone then
    let n : Int := ofDigits 10 whole
    integer (if negative then -n else n) rest
  else
    let ds := places.getD []
    let x := Decimal.Format.double.ofDecimal negative (ofDigits 10 (whole ++ ds)) (exponent.getD 0 - ds.length)
    if x = .infinite false then none else some (.float x, rest)

/-- a number or a date-time -/
def number? (cs : List Char) : Option (Value × List Char) :=
  if beginsDate cs || beginsTime cs then (Datetime.read? cs).map fun (d, rest) => (.datetime d, rest)
  else match cs with
    | '0' :: 'x' :: rest => based 16 isHex rest
    | '0' :: 'o' :: rest => based 8 (fun c => '0' ≤ c && c ≤ '7') rest
    | '0' :: 'b' :: rest => based 2 (fun c => c == '0' || c == '1') rest
    | _ =>
      let (negative, body) := Decimal.signed cs
      match body with
      | 'i' :: 'n' :: 'f' :: rest => some (.float (.infinite negative), rest)
      | 'n' :: 'a' :: 'n' :: rest => some (.float .nan, rest)
      | _ => decimal? negative body

def scalar? (cs : List Char) : Option (Value × List Char) :=
  match cs with
  | 't' :: 'r' :: 'u' :: 'e' :: rest => some (.boolean true, rest)
  | 'f' :: 'a' :: 'l' :: 's' :: 'e' :: rest => some (.boolean false, rest)
  | '"' :: _ => (string? cs).map fun (s, rest) => (.string s, rest)
  | '\'' :: _ => (string? cs).map fun (s, rest) => (.string s, rest)
  | _ => number? cs

end TieredOptions.Toml
