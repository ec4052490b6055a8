/-
Three ways to write a configuration value: compact JSON text, JSON text over indented lines, and the form shown to a
reader, which names the kind of every value. Fields are written in the order in which they stand.
-/
import TieredOptions.Json.Basic
import TieredOptions.Decimal.Style
import TieredOptions.Text.Quoted

namespace TieredOptions

def Number.text : Number → String
  | .int n => toString n
  | .float x => Decimal.Style.config.finite .double x

namespace Json

def hex4 (n : Nat) : String :=
  let cs := Nat.toDigits 16 n
  String.ofList (List.replicate (4 - cs.length) '0' ++ cs)

/-- one character of a JSON string: the delimiter, the backslash and controls are escaped, nothing else is -/
def escape (c : Char) : String :=
  if c = '"' then "\\\""
  else if c = '\\' then "\\\\"
  else if c = '\x08' then "\\b"
  else if c = '\t' then "\\t"
  else if c = '\n' then "\\n"
  else if c = '\x0c' then "\\f"
  else if c = '\r' then "\\r"
  else if c.toNat < 0x20 then "\\u" ++ hex4 c.toNat
  else c.toString

def quote (s : String) : String := "\"" ++ s.toList.foldl (fun acc c => acc ++ escape c) "" ++ "\""

mutual

/-- JSON text without blanks -/
def compact : Json → String
  | .null => "null"
  | .bool b => toString b
  | .number n => n.text
  | .string s => quote s
  | .array items => "[" ++ ",".intercalate (compactItems items) ++ "]"
  | .object fields => "\x7b" ++ ",".intercalate (compactFields fields) ++ "\x7d"

def compactItems : List Json → List String
  | [] => []
  | v :: rest => compact v :: compactItems rest

def compactFields : List (String × Json) → List String
  | [] => []
  | (k, v) :: rest => (quote k ++ ":" ++ compact v) :: compactFields rest

end

/-- the start of a line at some depth -/
def indent (depth : Nat) : String := "\n" ++ String.ofList (List.replicate (2 * depth) ' ')

/-- entries on lines of their own between two brackets; nothing at all between the brackets of an empty one -/
def block (opening closing : String) (depth : Nat) (entries : List String) : String :=
  if entries = [] then opening ++ closing
  else opening ++ indent (depth + 1) ++ ("," ++ indent (depth + 1)).intercalate entries ++ indent depth ++ closing

mutual

/-- JSON text, every entry of a container on a line of its own, two blanks deeper than the container -/
def prettyAt (depth : Nat) : Json → String
  | .array items => block "[" "]" depth (prettyItems (depth + 1) items)
  | .object fields => block "\x7b" "\x7d" depth (prettyFields (depth + 1) fields)
  | v => compact v

def prettyItems (depth : Nat) : List Json → List String
  | [] => []
  | v :: rest => prettyAt depth v :: prettyItems depth rest

def prettyFields (depth : Nat) : List (String × Json) → List String
  | [] => []
  | (k, v) :: rest => (quote k ++ ": " ++ prettyAt depth v) :: prettyFields depth rest

end

def pretty (v : Json) : String := prettyAt 0 v

mutual

/-- the form shown to a reader -/
def display : Json → String
  | .null => "Null"
  | .bool b => "Bool(" ++ toString b ++ ")"
  | .number n => "Number(" ++ n.text ++ ")"
  | .string s => "String(" ++ Text.quoted s ++ ")"
  | .array items => "Array " ++ Text.bracketed (displayItems items)
  | .object fields => "Object \x7b" ++ ", ".intercalate (displayFields fields) ++ "\x7d"

def displayItems : List Json → List String
  | [] => []
  | v :: rest => display v :: displayItems rest

def displayFields : List (String × Json) → List String
  | [] => []
  | (k, v) :: rest => (Text.quoted k ++ ": " ++ display v) :: displayFields rest

end

end Json

end TieredOptions
