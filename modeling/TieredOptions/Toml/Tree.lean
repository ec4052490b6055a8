/-
Assembling tables. A table can be introduced in three ways, and they decide what may still be added to it: by its own
header, as the parent of a table that has a header, or by a dotted key. Dotted keys add only to tables that dotted keys
made; a header may still complete a mere parent; nothing is defined twice.
-/
import TieredOptions.Toml.Value

namespace TieredOptions.Toml

/-- how a table came to be -/
inductive Origin where
  /-- its own header or braces -/
  | header
  /-- it lies on the way to a table with a header -/
  | parent
  /-- it lies on the way of a dotted key -/
  | dotted
  deriving DecidableEq, Repr

inductive Item where
  | value (v : Value)
  | table (origin : Origin) (entries : List (String × Item))
  /-- the tables of repeated headers in double brackets, in order -/
  | tables (elements : List (List (String × Item)))

/-- entries of a table, in the order of their introduction -/
abbrev Entries := List (String × Item)

/-- give a key that is present another item, in its place -/
def replace (key : String) (item : Item) (entries : Entries) : Entries :=
  entries.map fun e => if e.1 = key then (key, item) else e

/-- apply a change to the last element -/
def changeLast? (change : Entries → Option Entries) : List Entries → Option (List Entries)
  | [] => none
  | [e] => (change e).map ([·])
  | e :: rest => (changeLast? change rest).map (e :: ·)

/-- Define a key at the end of a dotted path. `mayTake` says whether the table at hand takes keys that stand right in it. -/
def assign? (mayTake : Bool) (key : String) (v : Value) : List String → Entries → Option Entries
  | [], entries =>
    if mayTake && (entries.lookup key).isNone then some (entries ++ [(key, .value v)]) else none
  | k :: path, entries =>
    match entries.lookup k with
    | none => (assign? true key v path []).map fun es => entries ++ [(k, .table .dotted es)]
    | some (.table .dotted es) => (assign? true key v path es).map fun es => replace k (.table .dotted es) entries
    | some (.table .parent es) => (assign? false key v path es).map fun es => replace k (.table .parent es) entries
    | some (.tables elements) =>
      (changeLast? (assign? false key v path) elements).map fun es => replace k (.tables es) entries
    | _ => none

/-- a definition: the dotted path before the last key, the last key, and the value -/
structure Definition where
  path : List String
  key : String
  value : Value

/-- add definitions to a table, in order -/
def define? (entries : Entries) (ds : List Definition) : Option Entries :=
  ds.foldlM (fun es d => assign? true d.key d.value d.path es) entries

/-- Open the table of a header. `path` leads to it, tables on the way are made; `change` gives the new item for the
    table's key from the one that is there. Where `atEnd` holds the item moves behind all other entries. -/
def place? (change : Option Item → Option Item) (atEnd : Bool) (key : String) : List String → Entries → Option Entries
  | [], entries => do
    let old := entries.lookup key
    let new ← change old
    if old.isNone then some (entries ++ [(key, new)])
    else if atEnd then some (entries.filter (·.1 ≠ key) ++ [(key, new)])
    else some (replace key new entries)
  | k :: path, entries =>
    match entries.lookup k with
    | none => (place? change atEnd key path []).map fun es => entries ++ [(k, .table .parent es)]
    | some (.table origin es) => (place? change atEnd key path es).map fun es => replace k (.table origin es) entries
    | some (.tables elements) =>
      (changeLast? (place? change atEnd key path) elements).map fun es => replace k (.tables es) entries
    | some (.value _) => none

/-- a header with the definitions below it -/
structure Section where
  /-- double brackets: one more table of an array -/
  repeated : Bool
  path : List String
  key : String
  body : List Definition

/-- the item for a header's key, from the one that is there -/
def Section.item? (s : Section) (old : Option Item) : Option Item :=
  match s.repeated, old with
  | false, none => (define? [] s.body).map (.table .header)
  | false, some (.table .parent es) => (define? es s.body).map (.table .header)
  | true, none => (define? [] s.body).map fun es => .tables [es]
  | true, some (.tables elements) => (define? [] s.body).map fun es => .tables (elements ++ [es])
  | _, _ => none

/-- the entries of a document: the definitions before the first header, then the sections -/
def assemble? (top : List Definition) (sections : List Section) : Option Entries := do
  let entries ← define? [] top
  sections.foldlM (fun es s => place? s.item? (!s.repeated) s.key s.path es) entries

mutual

def Item.toValue : Item → Value
  | .value v => v
  | .table _ entries => .table (entryValues entries)
  | .tables elements => .array (elementValues elements)

def entryValues : List (String × Item) → List (String × Value)
  | [] => []
  | (k, i) :: rest => (k, i.toValue) :: entryValues rest

def elementValues : List (List (String × Item)) → List Value
  | [] => []
  | es :: rest => .table (entryValues es) :: elementValues rest

end

end TieredOptions.Toml
