/-
Layered configuration: files first, then the assignments of the command line, later layers over earlier ones. It answers
for an option what the merged layers hold at the option's key; the source of the answer is the last layer that has the
key. A section, if one is set, stands before every key.

Loading is all or nothing. The first file that cannot be read, is no UTF-8 or is no TOML is the error; if all files load,
the first text that is no assignment.
-/
import TieredOptions.Config.Assignment
import TieredOptions.Config.Decode
import TieredOptions.Config.Source
import TieredOptions.Digest.Sha256
import TieredOptions.Disk
import TieredOptions.Json.Merge
import TieredOptions.Text.Utf8

namespace TieredOptions.Config

inductive LoadError where
  | unreadable (path : String) (fault : IoFault)
  | notUtf8 (path : String) (fault : Text.Utf8.Fault)
  | notToml (path : String)
  | invalidAssignment (text : String)
  deriving DecidableEq, Repr

def LoadError.message : LoadError → String
  | unreadable path fault => "IO error: " ++ path ++ ": " ++ fault.message
  | notUtf8 path fault => "Parse error: " ++ path ++ ": invalid UTF-8: " ++ fault.message
  | notToml path => "Parse error: " ++ path ++ ": TOML parse error"
  | invalidAssignment text => "Invalid assignment `" ++ text ++ "`: expected KEY=VALUE"

/-- Configuration in layers. `sources` tells where each layer came from, in the same order. -/
structure Layered where
  sect : Option String
  config : Json
  layers : List Json
  sources : List Source
  deriving DecidableEq

namespace Layered

/-- layers that are at hand -/
def ofLayers (layers : List Json) (sources : List Source) : Layered :=
  ⟨none, Json.mergeLayers layers, layers, sources⟩

/-- the same layers, with options looked up in a table of them -/
def withSection (l : Layered) (name : String) : Layered := { l with sect := some name }

/-- the key of an option -/
def key (l : Layered) (name : String) : String :=
  match l.sect with
  | some s => Text.joinKeys s name
  | none => name

/-- what is configured for an option; null is nothing -/
def raw (l : Layered) (name : String) : Option Json :=
  match l.config.getKey? (l.key name) with
  | some .null => none
  | found => found

/-- the source of the last layer that has the option's key -/
def originOf (l : Layered) (name : String) : Option Source :=
  ((l.layers.zip l.sources).reverse.find? fun p => (p.1.getKey? (l.key name)).isSome).map (·.2)

/-- what is configured for an accessor, at its type -/
def opinion (l : Layered) (info : AccessorInfo) : Opinion :=
  match l.raw info.name with
  | some raw => decode info raw
  | none => .ok none

/-- the configuration as the second tier -/
def lookup (l : Layered) : Lookup := Lookup.steady l.opinion

/-! ## Loading -/

def loadFile (read : String → Except IoFault (List UInt8)) (path : String) : Except LoadError (Json × String) :=
  match read path with
  | .error fault => .error (.unreadable path fault)
  | .ok bytes =>
    match Text.Utf8.decode bytes with
    | .error fault => .error (.notUtf8 path fault)
    | .ok cs =>
      match Toml.value? cs with
      | none => .error (.notToml path)
      | some v => .ok (v.toJson, Digest.Sha256.digest bytes)

def loadFiles (read : String → Except IoFault (List UInt8)) : List String → Except LoadError (List (Json × Source))
  | [] => .ok []
  | path :: rest => do
    let (v, digest) ← loadFile read path
    let more ← loadFiles read rest
    return (v, ⟨.file, some path, some digest⟩) :: more

/-- the layer of the command line; without any text there is none -/
def loadAssignments (texts : List String) : Except LoadError (List (Json × Source)) :=
  if texts = [] then .ok []
  else match assignments? texts with
    | .error text => .error (.invalidAssignment text)
    | .ok as => .ok [(assignmentLayer as, ⟨.cli, none, none⟩)]

/-- files in order, then assignments -/
def load (read : String → Except IoFault (List UInt8)) (files texts : List String) : Except LoadError Layered := do
  let fromFiles ← loadFiles read files
  let fromTexts ← loadAssignments texts
  let all := fromFiles ++ fromTexts
  return ofLayers (all.map (·.1)) (all.map (·.2))

end Layered

end TieredOptions.Config
