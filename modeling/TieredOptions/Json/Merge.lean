/-
Merging configuration values. Of two objects the overlay's entries go into the base key by key, and entries that both
have are merged in turn; in every other case the overlay replaces the base, so that arrays and scalars, null included,
are never combined.
-/
import TieredOptions.Json.Basic

namespace TieredOptions.Json

mutual

/-- lay the second value over the first -/
def merge : Json → Json → Json
  | .object base, .object overlay => .object (mergeFields base overlay)
  | _, overlay => overlay
termination_by structural _ overlay => overlay

/-- lay the entries of the second list over those of the first -/
def mergeFields (base : List (String × Json)) : List (String × Json) → List (String × Json)
  | [] => base
  | (k, v) :: rest =>
    mergeFields (insertField k (match base.lookup k with | some b => merge b v | none => v) base) rest
termination_by structural overlay => overlay

end

/-- all layers over each other, the first at the bottom -/
def mergeLayers (layers : List Json) : Json := layers.foldl merge (.object [])

end TieredOptions.Json
