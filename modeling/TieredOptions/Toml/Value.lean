/-
Values of a TOML document, and what they mean as configuration values. A table keeps its entries in the order in which
the document introduces them. Date-times become their text, floats that are not finite become null.

One table is no table: where the first key is the reserved word for date-times, the table stands for the date-time that
this key's string spells (`Value.settle?`).
-/
import TieredOptions.Json.Basic
import TieredOptions.Toml.Datetime

namespace TieredOptions.Toml

inductive Value where
  | string (value : String)
  | integer (value : Int)
  | float (value : Decimal.Floating)
  | boolean (value : Bool)
  | datetime (value : Datetime)
  | array (items : List Value)
  | table (entries : List (String × Value))
  deriving Repr

/-- the key that marks a table as a date-time -/
def datetimeKey : String := "$__toml_private_datetime"

namespace Value

mutual

/-- The value with every marked table replaced by its date-time; nothing if a mark spells none. -/
def settle? : Value → Option Value
  | .array items => (settleItems? items).map .array
  | .table [] => some (.table [])
  | .table ((k, v) :: rest) =>
    if k = datetimeKey then
      match v with
      | .string s => (Datetime.ofText? s).map .datetime
      | _ => none
    else do
      let v ← settle? v
      let rest ← settleEntries? rest
      some (.table ((k, v) :: rest))
  | v => some v

def settleItems? : List Value → Option (List Value)
  | [] => some []
  | v :: rest => do
    let v ← settle? v
    let rest ← settleItems? rest
    some (v :: rest)

/-- the entries of a table, each settled -/
def settleEntries? : List (String × Value) → Option (List (String × Value))
  | [] => some []
  | (k, v) :: rest => do
    let v ← settle? v
    let rest ← settleEntries? rest
    some ((k, v) :: rest)

end

mutual

/-- the configuration value that a TOML value stands for -/
def toJson : Value → Json
  | .string s => .string s
  | .integer n => .number (.int n)
  | .float x => Json.ofFloating x
  | .boolean b => .bool b
  | .datetime d => .string d.text
  | .array items => .array (toJsonItems items)
  | .table entries => Json.ofFields (toJsonEntries entries)

def toJsonItems : List Value → List Json
  | [] => []
  | v :: rest => toJson v :: toJsonItems rest

def toJsonEntries : List (String × Value) → List (String × Json)
  | [] => []
  | (k, v) :: rest => (k, toJson v) :: toJsonEntries rest

end

end Value

end TieredOptions.Toml
