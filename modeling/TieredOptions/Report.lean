/-
Reports: every option of an instance with its value, the tier and the kind of layer that the value came from, or with
the error in its place. A report is written as JSON or as lines for a reader.

Making a report resolves every option in order; one that fails does not keep the others from being resolved. The values
of options whose names say that they are secret are left out, in both forms.
-/
import TieredOptions.Config.Layered
import TieredOptions.Instance.Read
import TieredOptions.Time.Instant

namespace TieredOptions

/-- what a report says of an option -/
structure Entry where
  name : String
  typeName : String
  tier : Option Tier
  origin : Option Config.Origin
  value : Option String
  error : Option String
  deriving DecidableEq, Repr

/-- all options of an instance as they were at some moment -/
structure Report where
  createdAt : Instant
  contract : String
  options : List Entry
  sources : List Config.Source
  redactions : List String
  deriving DecidableEq, Repr

/-! ## Secrets -/

/-- words that mark an option as secret -/
def secretWords : List String := ["password", "token", "secret", "private_key", "api_key", "credential"]

/-- do the characters stand in this order, one after the other, somewhere in the text? -/
def containsWord (word : List Char) : List Char → Bool
  | [] => word.isEmpty
  | c :: cs => word.isPrefixOf (c :: cs) || containsWord word cs

/-- Does the name hold a secret word, in any case? Option names are ASCII, so lower case is that of ASCII letters. -/
def isSecret (name : String) : Bool :=
  secretWords.any fun word => containsWord word.toList (name.toList.map Char.toLower)

/-- what stands for the value of a secret option -/
def redacted : String := "[REDACTED]"

/-! ## Making a report -/

/-- what an option adds to a report: its entry, and its name among the redactions if its value is left out -/
structure Reported where
  entry : Entry
  redaction : Option String
  deriving DecidableEq, Repr

namespace Instance

/-- the kind of the layer that holds an option's value, if the lookup gave it -/
def originIn (config : Option Config.Layered) (tier : Option Tier) (name : String) : Option Config.Origin :=
  if tier = some .lookup then (config.bind (·.originOf name)).map (·.origin) else none

/-- resolve an option and say how it came out, and note its name if its value is left out -/
def reportEntry (i : Instance) (thread : Nat) (config : Option Config.Layered) (info : AccessorInfo) :
    Run i.size Reported := do
  match ← Run.attempt (i.getValue thread info.name) with
  | .ok v =>
    let tier := i.tierOf (← Run.memory) info.name
    let value := if isSecret info.name then redacted else info.describe v
    let redaction := if isSecret info.name then some info.name else none
    return ⟨⟨info.name, info.type.name, tier, originIn config tier info.name, some value, none⟩, redaction⟩
  | .error e => return ⟨⟨info.name, info.type.name, none, none, none, some e.message⟩, none⟩

/-- what some accessors come to, one after the other -/
def reportEntries (i : Instance) (thread : Nat) (config : Option Config.Layered) :
    List AccessorInfo → Run i.size (List Reported)
  | [] => return []
  | info :: rest => do
    let r ← i.reportEntry thread config info
    let rs ← i.reportEntries thread config rest
    return r :: rs

/-- a report on all options; `config` is the configuration that the lookup answers from, if it is known -/
def report (i : Instance) (thread : Nat) (config : Option Config.Layered) (createdAt : Instant) :
    Run i.size Report := do
  let rs ← i.reportEntries thread config (i.contract.accessors.map (·.info))
  let sources := match config with
    | some l => l.sources
    | none => []
  return ⟨createdAt, i.contract.name, rs.map (·.entry), sources, rs.filterMap (·.redaction)⟩

end Instance

namespace Report

def failures (r : Report) : List Entry := r.options.filter (·.error.isSome)

/-- Has no option an error? -/
def isComplete (r : Report) : Bool := r.options.all (·.error.isNone)

/-! ## JSON -/

def schemaVersion : Int := 1

def schemaId : String := "dynopts/explain@1"

/-- an entry with the fields that have a value -/
def entryJson (e : Entry) : Json :=
  .object ([("name", .string e.name), ("type_name", .string e.typeName)] ++
    Json.optionalField "tier" (e.tier.map (·.name)) ++ Json.optionalField "origin" (e.origin.map (·.name)) ++
    Json.optionalField "value" e.value ++ Json.optionalField "error" e.error)

def toJson (r : Report) : Json :=
  .object [("schema_version", .number (.int schemaVersion)), ("schema_id", .string schemaId),
    ("created_at", .string r.createdAt.text), ("contract", .string r.contract),
    ("options", .array (r.options.map entryJson)), ("sources", .array (r.sources.map (·.toJson))),
    ("redactions", .array (r.redactions.map .string))]

def jsonText (r : Report) : String := r.toJson.pretty

/-! ## Lines -/

/-- a name followed by blanks, so that names of one width in characters end in one column -/
def padded (width : Nat) (name : String) : String :=
  name ++ String.ofList (List.replicate (width - name.length) ' ')

/-- the tier and the layer of a value -/
def provenance (e : Entry) : String :=
  let tier := match e.tier with
    | some t => t.name
    | none => ""
  match e.origin with
  | some o => tier ++ ", " ++ o.name
  | none => tier

/-- the line of an entry; one that has neither a value nor an error has none -/
def entryLine (width : Nat) (e : Entry) : String :=
  match e.value, e.error with
  | some value, _ => "  " ++ padded width e.name ++ "  " ++ value ++ "  (" ++ provenance e ++ ")\n"
  | none, some error => "  " ++ padded width e.name ++ "  error: " ++ error ++ "\n"
  | none, none => ""

/-- the characters at the front that take so many bytes in UTF-8, if there are such -/
def takeBytes? : Nat → List Char → Option (List Char)
  | 0, _ => some []
  | _ + 1, [] => none
  | n + 1, c :: cs => if c.utf8Size ≤ n + 1 then (takeBytes? (n + 1 - c.utf8Size) cs).map (c :: ·) else none

/-- the first twelve bytes of a digest, or all of it if it cannot be cut there -/
def shortDigest (digest : String) : String :=
  match takeBytes? 12 digest.toList with
  | some cs => String.ofList cs
  | none => digest

def sourceLine (s : Config.Source) : String :=
  match s.path with
  | some path => "  file " ++ path ++ " (" ++ shortDigest (s.digest.getD "") ++ ")\n"
  | none => "  cli\n"

/-- the width of the widest name, in bytes -/
def nameWidth (es : List Entry) : Nat := (es.map (·.name.utf8ByteSize)).foldl max 0

def human (r : Report) : String :=
  let sources := if r.sources = [] then "" else "sources:\n" ++ String.join (r.sources.map sourceLine)
  r.contract ++ "\n" ++ String.join (r.options.map (entryLine (nameWidth r.options))) ++ sources

end Report

end TieredOptions
