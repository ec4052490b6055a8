/-
Reading an instance from outside: one option at a type or as it is, all options, and what is known of them without
resolving any. A read may be made on any thread.
-/
import TieredOptions.Instance.Resolve

namespace TieredOptions

/-- what is known of an option: its accessor, and tier and value once it is resolved -/
structure Explained where
  info : AccessorInfo
  tier : Option Tier
  value : Option String
  deriving DecidableEq, Repr

namespace Instance

/-- reading from outside starts at the full depth; sources have no nodes there -/
def access (i : Instance) : Access i.contract := ⟨i.resolve i.depth, fun _ => return true⟩

def getValue (i : Instance) (thread : Nat) (name : String) : Run i.size Value := i.access.readName thread name

def get (i : Instance) (thread : Nat) (t : ValueType) (name : String) : Run i.size t.Carrier :=
  i.access.get thread t name

/-- all options, in order, up to the first failure -/
def resolveAll (i : Instance) (thread : Nat) : Run i.size Unit := i.access.readAll thread

def tierOf (i : Instance) (m : Memory i.size) (name : String) : Option Tier := (i.contract.slot? name).bind m.tier?

/-- what is known of every option, in order -/
def explain (i : Instance) (m : Memory i.size) : List Explained :=
  i.contract.slots.map fun s =>
    let info := (i.contract.accessor s).info
    ⟨info, m.tier? s, (m.resolved? s).map (info.describe ·.value)⟩

end Instance

end TieredOptions
