/-
Building instances. A contract, overrides and perhaps a lookup make an instance if the contract is well formed, every
override is for a different option, no option is left without any source, and every override fits an accessor. The
checks are made in that order, and the first that fails is the error.
-/
import TieredOptions.Contract.Override
import TieredOptions.Contract.Lookup

namespace TieredOptions

/-- A contract with its sources: for each option the override bound to it, if any, and for all of them perhaps a lookup. -/
structure Instance where
  contract : Contract
  overrides : Vector (Option Source) contract.size
  lookup : Option Lookup

namespace Contract

/-- check the accessors one by one; `seen` are the names before them -/
def checkAccessors (contract : String) (seen : List String) : List Accessor → Except BuildError Unit
  | [] => .ok ()
  | a :: rest =>
    if a.params ≠ [] then .error (.malformedContract contract a.name (.parameters a.params))
    else if !isOptionName a.name then .error (.malformedContract contract a.name .invalidName)
    else if a.name ∈ seen then .error (.malformedContract contract a.name .repeated)
    else checkAccessors contract (a.name :: seen) rest

/-- the options that have neither a default nor one of the given overrides, in order -/
def uncovered (c : Contract) (bound : List (String × Override)) : List String :=
  (c.accessors.filter fun a => a.default.isNone && !bound.any (·.1 == a.name)).map (·.name)

/-- put every override in the place of its option -/
def place (c : Contract) (slots : Vector (Option Source) c.size) :
    List (String × Override) → Except BuildError (Vector (Option Source) c.size)
  | [] => .ok slots
  | (name, o) :: rest =>
    match c.slot? name with
    | none => .error (.unknownOption c.name name)
    | some s =>
      if o.type = (c.accessor s).type then place c (slots.set s (some o.source)) rest
      else .error (.typeMismatch name (c.accessor s).type o.type)

end Contract

/-- name every override; `bound` are the ones before, each with its name -/
def bindOverrides (bound : List (String × Override)) : List Override → Except BuildError (List (String × Override))
  | [] => .ok bound
  | o :: rest =>
    match o.identify with
    | .error e => .error e
    | .ok name =>
      if bound.any (·.1 == name) then .error (.duplicateOption name)
      else bindOverrides (bound ++ [(name, o)]) rest

def Instance.build (c : Contract) (lookup : Option Lookup) (overrides : List Override) : Except BuildError Instance := do
  Contract.checkAccessors c.name [] c.accessors
  let bound ← bindOverrides [] overrides
  if lookup.isNone && c.uncovered bound ≠ [] then throw (.missingOption c.name (c.uncovered bound))
  let slots ← c.place (Vector.replicate c.size none) bound
  return ⟨c, slots, lookup⟩

/-- the source that an override binds to an option -/
def Instance.override? (i : Instance) (s : i.contract.Slot) : Option Source := i.overrides[s]

def Instance.isOverridden (i : Instance) (name : String) : Bool :=
  match i.contract.slot? name with
  | some s => (i.override? s).isSome
  | none => false

end TieredOptions
