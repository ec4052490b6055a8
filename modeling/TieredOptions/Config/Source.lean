/-
Where a configuration layer came from: a file, with its path and the digest of its bytes, or the assignments of the
command line. A source is written as JSON with `origin`, `path` and `digest` in this order, the last two only if they
are known. It is read from an object, whatever the order of its keys and whatever else it holds, or from an array of all
three.
-/
import TieredOptions.Json.Printer
import TieredOptions.Json.Scan

namespace TieredOptions.Config

inductive Origin where
  | file
  | cli
  deriving DecidableEq, Repr

def Origin.name : Origin → String
  | file => "file"
  | cli => "cli"

def Origin.ofName? (name : String) : Option Origin :=
  if name = "file" then some .file else if name = "cli" then some .cli else none

structure Source where
  origin : Origin
  path : Option String
  digest : Option String
  deriving DecidableEq, Repr

namespace Source

/-- the source as JSON; what is not known is left out -/
def toJson (s : Source) : Json :=
  .object (("origin", .string s.origin.name) :: Json.optionalField "path" s.path ++ Json.optionalField "digest" s.digest)

/-- an optional text as a reader sees it -/
def shown : Option String → String
  | some s => "Some(" ++ Text.quoted s ++ ")"
  | none => "None"

/-- the form shown to a reader -/
def display (s : Source) : String :=
  let origin := match s.origin with | .file => "File" | .cli => "Cli"
  "ConfigSource \x7b origin: " ++ origin ++ ", path: " ++ shown s.path ++ ", digest: " ++ shown s.digest ++ " \x7d"

/-! ## Reading -/

open Json.Scan

/-- a kind: its name, or an object with its name and null -/
def origin? (cs : List Char) : Option (Origin × List Char) :=
  match skipBlanks cs with
  | '{' :: rest => do
    let (name, rest) ← string? rest
    let kind ← Origin.ofName? name
    let rest ← expect? [':'] (skipBlanks rest)
    let rest ← expect? "null".toList (skipBlanks rest)
    let rest ← expect? ['}'] (skipBlanks rest)
    some (kind, rest)
  | rest => do
    let (name, rest) ← string? rest
    let kind ← Origin.ofName? name
    some (kind, rest)

/-- what was read of an object so far; a field of the source may be read once -/
structure Draft where
  origin : Option Origin := none
  path : Option (Option String) := none
  digest : Option (Option String) := none

/-- the value of a field, which goes into its place or is passed over -/
def field? (key : String) (p : Draft) (cs : List Char) : Option (Draft × List Char) :=
  if key = "origin" then
    if p.origin.isSome then none else (origin? cs).map fun (o, rest) => ({ p with origin := some o }, rest)
  else if key = "path" then
    if p.path.isSome then none else (nullable? cs).map fun (s, rest) => ({ p with path := some s }, rest)
  else if key = "digest" then
    if p.digest.isSome then none else (nullable? cs).map fun (s, rest) => ({ p with digest := some s }, rest)
  else (skip? cs).map (p, ·)

/-- the fields of an object, of which there is at least one, and its brace; `fuel` is a bound on their number -/
def fields? (p : Draft) : Nat → List Char → Option (Draft × List Char)
  | 0, _ => none
  | fuel + 1, cs => do
    let (key, rest) ← string? cs
    let rest ← expect? [':'] (skipBlanks rest)
    let (p, rest) ← field? key p rest
    match skipBlanks rest with
    | ',' :: rest => fields? p fuel rest
    | '}' :: rest => some (p, rest)
    | _ => none

/-- a source from an object, or from an array of its three parts -/
def read? (cs : List Char) : Option (Source × List Char) :=
  match skipBlanks cs with
  | '{' :: rest => do
    let (p, rest) ← match skipBlanks rest with
      | '}' :: rest => some ({}, rest)
      | _ => fields? {} (rest.length + 1) rest
    let origin ← p.origin
    some (⟨origin, p.path.getD none, p.digest.getD none⟩, rest)
  | '[' :: rest => do
    let (origin, rest) ← origin? rest
    let rest ← expect? [','] (skipBlanks rest)
    let (path, rest) ← nullable? rest
    let rest ← expect? [','] (skipBlanks rest)
    let (digest, rest) ← nullable? rest
    let rest ← expect? [']'] (skipBlanks rest)
    some (⟨origin, path, digest⟩, rest)
  | _ => none

def ofText? (text : String) : Option Source := do
  let (s, rest) ← read? text.toList
  if skipBlanks rest = [] then some s else none

end Source

end TieredOptions.Config
