/-
Configuration values: null, booleans, numbers, strings, arrays and objects. A number is an integer or a finite double;
an infinity or a not-a-number has no place here. The fields of an object are a list of key and value; objects that are
built by insertion keep it in strictly increasing order of keys, so that equal tables are equal lists.

`insertField` replaces on an equal key, so what it says of one key holds of every list, ordered or not
(`lookup_insertField_self`, `lookup_insertField_ne`).
-/
import TieredOptions.Decimal.Binary

namespace TieredOptions

inductive Number where
  | int (value : Int)
  | float (value : Decimal.Finite)
  deriving DecidableEq, Repr

inductive Json where
  | null
  | bool (value : Bool)
  | number (value : Number)
  | string (value : String)
  | array (items : List Json)
  | object (fields : List (String × Json))
  deriving Repr

namespace Json

/-- a float as a configuration value; what is not finite becomes null -/
def ofFloating : Decimal.Floating → Json
  | .finite x => .number (.float x)
  | _ => .null

/-- the fields of an object, none for anything else -/
def fields : Json → List (String × Json)
  | .object fs => fs
  | _ => []

def isObject : Json → Bool
  | .object _ => true
  | _ => false

/-- the value of a key, if the value is an object that has it -/
def member? (v : Json) (key : String) : Option Json := v.fields.lookup key

/-- put a key in its place among ordered fields, or replace its value -/
def insertField (key : String) (v : Json) : List (String × Json) → List (String × Json)
  | [] => [(key, v)]
  | (k, w) :: rest =>
    if key = k then (key, v) :: rest
    else if key < k then (key, v) :: (k, w) :: rest
    else (k, w) :: insertField key v rest

/-- the object with the given fields; of two values for one key the later stays -/
def ofFields (fs : List (String × Json)) : Json := .object (fs.foldl (fun acc f => insertField f.1 f.2 acc) [])

/-- a text under a key, or no field at all -/
def optionalField (key : String) : Option String → List (String × Json)
  | some s => [(key, .string s)]
  | none => []

theorem lookup_insertField_self (key : String) (v : Json) (fs : List (String × Json)) :
    (insertField key v fs).lookup key = some v := by
  induction fs with
  | nil => simp [insertField]
  | cons f fs ih =>
    obtain ⟨k, w⟩ := f
    simp only [insertField]
    split
    · simp
    · split
      · simp
      · rename_i h _
        have hk : (key == k) = false := beq_eq_false_iff_ne.2 h
        simp [List.lookup_cons, hk, ih]

theorem lookup_insertField_ne {key other : String} (h : other ≠ key) (v : Json) (fs : List (String × Json)) :
    (insertField key v fs).lookup other = fs.lookup other := by
  have hne : (other == key) = false := beq_eq_false_iff_ne.2 h
  induction fs with
  | nil => simpa [insertField] using h
  | cons f fs ih =>
    obtain ⟨k, w⟩ := f
    simp only [insertField]
    split
    · rename_i hk
      subst hk
      simp [List.lookup_cons, hne]
    · split
      · simp [List.lookup_cons, hne]
      · simp [List.lookup_cons, ih]

/-! ## Equality is decidable -/

mutual

/-- are the two values the same? -/
def same : Json → Json → Bool
  | .null, .null => true
  | .bool a, .bool b => a == b
  | .number a, .number b => a == b
  | .string a, .string b => a == b
  | .array a, .array b => sameItems a b
  | .object a, .object b => sameFields a b
  | _, _ => false

def sameItems : List Json → List Json → Bool
  | [], [] => true
  | a :: as, b :: bs => same a b && sameItems as bs
  | _, _ => false

def sameFields : List (String × Json) → List (String × Json) → Bool
  | [], [] => true
  | (k, a) :: as, (l, b) :: bs => k == l && same a b && sameFields as bs
  | _, _ => false

end

mutual

theorem same_iff : (a b : Json) → (same a b = true ↔ a = b)
  | .array a, b => by cases b <;> simp [same, sameItems_iff a]
  | .object a, b => by cases b <;> simp [same, sameFields_iff a]
  | .null, b => by cases b <;> simp [same]
  | .bool _, b => by cases b <;> simp [same]
  | .number _, b => by cases b <;> simp [same]
  | .string _, b => by cases b <;> simp [same]

theorem sameItems_iff : (a b : List Json) → (sameItems a b = true ↔ a = b)
  | [], b => by cases b <;> simp [sameItems]
  | a :: as, b => by cases b <;> simp [sameItems, same_iff a, sameItems_iff as]

theorem sameFields_iff : (a b : List (String × Json)) → (sameFields a b = true ↔ a = b)
  | [], b => by cases b <;> simp [sameFields]
  | (k, a) :: as, b => by cases b <;> simp [sameFields, same_iff a, sameFields_iff as, Prod.ext_iff, and_assoc]

end

instance : DecidableEq Json := fun a b => decidable_of_iff _ (same_iff a b)

end Json

end TieredOptions
