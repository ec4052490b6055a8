/-
Overrides: sources that a caller binds to options by name. `Override.identify` says which option an override is for.
-/
import TieredOptions.Contract.Basic

namespace TieredOptions

/-- a letter of an option name, or an underscore -/
def isNameStart (c : Char) : Bool := ('a' ≤ c && c ≤ 'z') || ('A' ≤ c && c ≤ 'Z') || c == '_'

/-- any character of an option name -/
def isNamePart (c : Char) : Bool := isNameStart c || ('0' ≤ c && c ≤ '9')

/-- Option names are ASCII identifiers; a lone underscore is none. -/
def isOptionName (name : String) : Bool :=
  match name.toList with
  | [] => false
  | c :: cs => isNameStart c && cs.all isNamePart && (c :: cs) != ['_']

/-- a source for the option of some name -/
structure Override where
  name : Option String
  type : ValueType
  expr : Expr type

namespace Override

def value (name : String) (v : Value) : Override := ⟨some name, v.type, .const v.content⟩

def source (o : Override) : Source := ⟨o.type, o.expr⟩

/-- the form shown to a reader -/
def display (o : Override) : String :=
  let name := match o.name with
    | some name => "Some(" ++ Text.quoted name ++ ")"
    | none => "None"
  "Override \x7b name: " ++ name ++ ", type: " ++ Text.quoted o.type.name ++ " \x7d"

/-- the name of the option that the override is for -/
def identify (o : Override) : Except BuildError String :=
  match o.name with
  | none => .error (.identification (.unnamed o.type))
  | some name => if isOptionName name then .ok name else .error (.identification (.invalidName name))

end Override

end TieredOptions
