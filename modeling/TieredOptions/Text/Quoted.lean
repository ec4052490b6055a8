/-
Quoted text: how strings and characters are shown to a reader. What is printable stands as it is; the delimiter, the
backslash and the usual controls have a short escape; every other character that cannot be printed, or that would
merge with its neighbour, is written as its code point in braces.
-/
import TieredOptions.Text.GraphemeExtend

namespace TieredOptions.Text

/-- the digits of `n` in base 16, lower case, no leading zero -/
def hex (n : Nat) : String := String.ofList (Nat.toDigits 16 n)

/-- one character inside quotes whose delimiter is `delimiter` -/
def escape (delimiter : Char) (c : Char) : String :=
  if c = '\x00' then "\\0"
  else if c = '\t' then "\\t"
  else if c = '\n' then "\\n"
  else if c = '\r' then "\\r"
  else if c = '\\' then "\\\\"
  else if c = delimiter then "\\" ++ c.toString
  else if extendsGrapheme c || !isPrintable c then "\\u\x7b" ++ hex c.toNat ++ "\x7d"
  else c.toString

/-- a string in double quotes -/
def quoted (s : String) : String :=
  "\"" ++ s.toList.foldl (fun acc c => acc ++ escape '"' c) "" ++ "\""

/-- a character in single quotes -/
def quotedChar (c : Char) : String := "'" ++ escape '\'' c ++ "'"

/-- items in brackets, separated by a comma and a space -/
def bracketed (items : List String) : String := "[" ++ ", ".intercalate items ++ "]"

end TieredOptions.Text
