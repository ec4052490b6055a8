/-
TOML documents. `document?` reads a whole text into the entries of its top table, or refuses it; `table?` and `value?`
give the result as a table, or as a value, with marked date-times settled. Containers and dotted keys nest at most 79
deep.
-/
import TieredOptions.Toml.Scalar
import TieredOptions.Toml.Tree

namespace TieredOptions.Toml

/-- containers and keys nest less deep than this -/
def depthLimit : Nat := 80

/-! ## Keys -/

/-- may the character stand in a key without quotes? -/
def isKeyChar (c : Char) : Bool :=
  Decimal.isDigit c || ('a' ≤ c && c ≤ 'z') || ('A' ≤ c && c ≤ 'Z') || c == '-' || c == '_'

/-- one segment of a key: bare, or a string on one line -/
def segment? (cs : List Char) : Option (String × List Char) :=
  match cs with
  | '"' :: _ => lineString? cs
  | '\'' :: _ => lineString? cs
  | _ =>
    let bare := cs.takeWhile isKeyChar
    if bare = [] then none else some (String.ofList bare, cs.dropWhile isKeyChar)

/-- the segments of a dotted key, with blanks around each; `fuel` is a bound on their number -/
def keySegments : Nat → Reader (List String)
  | 0, _ => none
  | fuel + 1, cs => do
    let (s, rest) ← segment? (skipSpaces cs)
    match skipSpaces rest with
    | '.' :: rest => do
      let (ss, rest) ← keySegments fuel rest
      some (s :: ss, rest)
    | rest => some ([s], rest)

/-- a dotted key: the path before the last segment, and the last segment -/
def key? (cs : List Char) : Option ((List String × String) × List Char) := do
  let (ss, rest) ← keySegments (cs.length + 1) cs
  if ss.length < depthLimit then (ss.getLast?).map fun last => ((ss.dropLast, last), rest) else none

/-- a key, the equals sign, and a value -/
def definition? (value : Reader Value) (cs : List Char) : Option (Definition × List Char) := do
  let ((path, key), rest) ← key? cs
  let rest ← expect? '=' rest
  let (v, rest) ← value (skipSpaces rest)
  some (⟨path, key, v⟩, rest)

/-! ## Values -/

/-- the items of an array after its bracket, or after a comma -/
def arrayItems (value : Reader Value) : Nat → Reader (List Value)
  | 0, _ => none
  | fuel + 1, cs => do
    match ← skipTrivia false cs with
    | ']' :: rest => some ([], rest)
    | start => do
      let (v, rest) ← value start
      match ← skipTrivia false rest with
      | ',' :: rest => do
        let (vs, rest) ← arrayItems value fuel rest
        some (v :: vs, rest)
      | ']' :: rest => some ([v], rest)
      | _ => none

/-- the definitions of an inline table, of which there is at least one -/
def inlineDefinitions (value : Reader Value) : Nat → Reader (List Definition)
  | 0, _ => none
  | fuel + 1, cs => do
    let (d, rest) ← definition? value cs
    match skipSpaces rest with
    | ',' :: rest => do
      let (ds, rest) ← inlineDefinitions value fuel rest
      some (d :: ds, rest)
    | '}' :: rest => some ([d], rest)
    | _ => none

/-- the rest of an inline table after its brace -/
def inlineTable (value : Reader Value) (cs : List Char) : Option (Value × List Char) := do
  let (ds, rest) ← match skipSpaces cs with
    | '}' :: rest => some ([], rest)
    | _ => inlineDefinitions value (cs.length + 1) cs
  let entries ← define? [] ds
  some (.table (entryValues entries), rest)

/-- a value with containers nested at most `depth` deep -/
def value : Nat → Reader Value
  | 0, cs => match cs with
    | '[' :: _ => none
    | '{' :: _ => none
    | _ => scalar? cs
  | depth + 1, cs => match cs with
    | '[' :: rest => do
      let (vs, rest) ← arrayItems (value depth) (rest.length + 1) rest
      some (.array vs, rest)
    | '{' :: rest => inlineTable (value depth) rest
    | _ => scalar? cs

/-! ## Lines -/

inductive Line where
  | definition (d : Definition)
  | header (repeated : Bool) (path : List String) (key : String)

/-- a header after its first bracket -/
def header? : Reader Line
  | '[' :: cs => do
    let ((path, key), rest) ← key? cs
    let rest ← expect? ']' rest
    let rest ← expect? ']' rest
    some (.header true path key, rest)
  | cs => do
    let ((path, key), rest) ← key? cs
    let rest ← expect? ']' rest
    some (.header false path key, rest)

/-- all lines that say something; `fuel` is a bound on the length of the text -/
def lines? : Nat → List Char → Option (List Line)
  | 0, _ => none
  | fuel + 1, cs =>
    match skipSpaces cs with
    | [] => some []
    | '[' :: rest => do
      let (line, rest) ← header? rest
      let more ← lines? fuel (← lineEnd? rest)
      some (line :: more)
    | c :: rest =>
      if c = '#' ∨ c = '\n' ∨ c = '\r' then do lines? fuel (← lineEnd? (c :: rest))
      else do
        let (d, rest) ← definition? (value (depthLimit - 1)) (c :: rest)
        let more ← lines? fuel (← lineEnd? rest)
        some (.definition d :: more)

/-- the definitions before the first header, and the sections with their definitions -/
def sections : List Line → List Definition × List Section
  | [] => ([], [])
  | .definition d :: rest => let (top, ss) := sections rest; (d :: top, ss)
  | .header repeated path key :: rest => let (body, ss) := sections rest; ([], ⟨repeated, path, key, body⟩ :: ss)

/-- the entries of the top table; a byte order mark at the front is no part of the document -/
def document? (cs : List Char) : Option (List (String × Value)) := do
  let body := match cs with
    | '\ufeff' :: rest => rest
    | _ => cs
  let ls ← lines? (body.length + 1) body
  let (top, ss) := sections ls
  (assemble? top ss).map entryValues

def table? (cs : List Char) : Option (List (String × Value)) := (document? cs).bind Value.settleEntries?

def value? (cs : List Char) : Option Value := (document? cs).bind fun es => (Value.table es).settle?

end TieredOptions.Toml
