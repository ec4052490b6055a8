/-
Assignments `key=value` of the command line. The key is what stands before the first equals sign; it must have segments,
none of them empty. The value is read as TOML where it is TOML and is a plain text otherwise; it stands on one line.
All assignments make one layer, each written over what the ones before it left.
-/
import TieredOptions.Json.Path
import TieredOptions.Text.Blank
import TieredOptions.Toml.Document

namespace TieredOptions.Config

/-- an assignment that was understood -/
structure Assignment where
  key : String
  value : Json
  deriving DecidableEq, Repr

namespace Assignment

def scalar (raw : String) : Json :=
  match Toml.table? ("value = ".toList ++ raw.toList) with
  | some [(key, v)] => if key = "value" then v.toJson else .string raw
  | _ => .string raw

/-- may the text not stand on one line? -/
def breaksLine (cs : List Char) : Bool := cs.any fun c => c == '\n' || c == '\r'

/-- what the text before the first equals sign is, and what follows it -/
def split? (text : String) : Option (List Char × List Char) :=
  match text.toList.dropWhile (· != '=') with
  | [] => none
  | _ :: raw => some (text.toList.takeWhile (· != '='), raw)

/-- an assignment, if the text is one -/
def ofText? (text : String) : Option Assignment :=
  match split? text with
  | none => none
  | some (before, raw) =>
    let key := Text.trimChars before
    if key = [] ∨ [] ∈ Text.splitDots key ∨ breaksLine raw then none
    else some ⟨String.ofList key, scalar (String.ofList (Text.trimChars raw))⟩

/-- the value with an assignment carried out -/
def apply (v : Json) (a : Assignment) : Json := v.setKey a.key a.value

end Assignment

/-- the assignments that texts are, or the first text that is none -/
def assignments? : List String → Except String (List Assignment)
  | [] => .ok []
  | text :: rest =>
    match Assignment.ofText? text with
    | none => .error text
    | some a => (assignments? rest).map (a :: ·)

def assignmentLayer (as : List Assignment) : Json := as.foldl Assignment.apply (.object [])

end TieredOptions.Config
