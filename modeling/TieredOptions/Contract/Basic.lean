/-
Contracts: named lists of accessors. An accessor has a name, a type and perhaps a default; it takes no parameters in a
contract that is well formed. Order is the order of declaration, and a name stands for the first accessor that has it.
-/
import TieredOptions.Contract.Expr

namespace TieredOptions

/-- where a value came from, in order of precedence -/
inductive Tier where
  | override
  | lookup
  | default
  deriving DecidableEq, Repr

def Tier.all : List Tier := [.override, .lookup, .default]

def Tier.name : Tier → String
  | override => "override"
  | lookup => "lookup"
  | default => "default"

/-- what a lookup is told of an accessor -/
structure AccessorInfo where
  name : String
  params : List String
  type : ValueType
  hasDefault : Bool
  deriving DecidableEq, Repr

namespace AccessorInfo

/-- does the accessor return this value's type? -/
def accepts (info : AccessorInfo) (v : Value) : Bool := v.type == info.type

/-- a value as a reader of the accessor sees it -/
def describe (info : AccessorInfo) (v : Value) : String := v.describeAs info.type

/-- the form shown to a reader -/
def display (info : AccessorInfo) : String :=
  "AccessorInfo \x7b name: " ++ Text.quoted info.name ++ ", params: " ++ Text.bracketed (info.params.map Text.quoted) ++
    ", type: " ++ Text.quoted info.type.name ++ ", has_default: " ++ toString info.hasDefault ++ " \x7d"

end AccessorInfo

structure Accessor where
  name : String
  params : List String
  type : ValueType
  default : Option (Expr type)

/-- the accessor as lookups see it -/
def Accessor.info (a : Accessor) : AccessorInfo := ⟨a.name, a.params, a.type, a.default.isSome⟩

/-- the default as a source -/
def Accessor.source? (a : Accessor) : Option Source := a.default.map (⟨a.type, ·⟩)

structure Contract where
  name : String
  accessors : List Accessor

namespace Contract

def size (c : Contract) : Nat := c.accessors.length

/-- the position of an option -/
abbrev Slot (c : Contract) := Fin c.size

def accessor (c : Contract) (s : c.Slot) : Accessor := c.accessors.get s

/-- the position of the first accessor with a name -/
def slot? (c : Contract) (name : String) : Option c.Slot := c.accessors.findFinIdx? (·.name == name)

def slots (c : Contract) : List c.Slot := List.finRange c.size

def names (c : Contract) : List String := c.accessors.map (·.name)

/-- the form shown to a reader -/
def display (c : Contract) : String :=
  "Contract \x7b name: " ++ Text.quoted c.name ++ ", accessors: " ++
    Text.bracketed (c.accessors.map (·.info.display)) ++ " \x7d"

theorem slot?_name {c : Contract} {name : String} {s : c.Slot} (h : c.slot? name = some s) :
    (c.accessor s).name = name := by
  exact eq_of_beq (List.findFinIdx?_eq_some_iff.1 h).1

end Contract

end TieredOptions
