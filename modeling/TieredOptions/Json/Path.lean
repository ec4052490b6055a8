/-
Reading and writing a configuration value along a path of keys. Reading stops where a key is absent or what stands
there is no object. Writing always succeeds: what is missing on the way is created, and whatever is no object on the
way is replaced by one.
-/
import TieredOptions.Json.Basic
import TieredOptions.Text.Dotted

namespace TieredOptions.Json

/-- the value at a path -/
def get? (v : Json) : List String → Option Json
  | [] => some v
  | k :: ks => (v.member? k).bind (get? · ks)

/-- the value with `leaf` put at a path -/
def set (v : Json) : List String → Json → Json
  | [], leaf => leaf
  | k :: ks, leaf => .object (insertField k (set ((v.member? k).getD (.object [])) ks leaf) v.fields)

/-- the value at a dotted key -/
def getKey? (v : Json) (key : String) : Option Json := v.get? (Text.segments key)

/-- the value with `leaf` put at a dotted key -/
def setKey (v : Json) (key : String) (leaf : Json) : Json := v.set (Text.segments key) leaf

@[simp] theorem get?_nil (v : Json) : v.get? [] = some v := rfl

@[simp] theorem get?_cons (v : Json) (k : String) (ks : List String) :
    v.get? (k :: ks) = (v.member? k).bind (·.get? ks) := rfl

/-- a path is read one part after the other -/
theorem get?_append (v : Json) (p q : List String) : v.get? (p ++ q) = (v.get? p).bind (·.get? q) := by
  induction p generalizing v with
  | nil => rfl
  | cons k p ih => cases h : v.member? k <;> simp [h, ih]

/-- what was written is read back -/
theorem get?_set (v : Json) (p : List String) (leaf : Json) : (v.set p leaf).get? p = some leaf := by
  induction p generalizing v with
  | nil => rfl
  | cons k p ih => simp [set, member?, fields, lookup_insertField_self, ih]

end TieredOptions.Json
