/-
Lookups: the second tier. A lookup is asked for one accessor at a time and answers a value, no opinion, or a failure.
Its answer may depend on how often it was asked for that accessor before, but only up to some count, its `horizon`:
from then on it stays the same.
-/
import TieredOptions.Contract.Basic

namespace TieredOptions

/-- what a lookup answers -/
abbrev Opinion := Except ResolveError (Option Value)

/-- a source of values by accessor -/
structure Lookup where
  /-- the answer for an accessor that was asked for so many times before -/
  ask : AccessorInfo → Nat → Opinion
  horizon : Nat
  settled : ∀ info count, horizon ≤ count → ask info count = ask info horizon

namespace Lookup

/-- a lookup whose answers do not change -/
def steady (answer : AccessorInfo → Opinion) : Lookup := ⟨fun info _ => answer info, 0, fun _ _ _ => rfl⟩

def silent : Lookup := steady fun _ => .ok none

def ofMap (entries : List (String × Value)) : Lookup := steady fun info => .ok (entries.lookup info.name)

inductive Script where
  | silent
  | value (v : Value)
  | fail (e : ResolveError)
  /-- a text that describes the accessor -/
  | describe
  /-- the first script for the first question, the second for those after it -/
  | once (first later : Script)

/-- A different script for each of the first questions; the last one stays. -/
def Script.nth (s : Script) : List Script → Script
  | [] => s
  | s' :: rest => .once s (nth s' rest)

/-- the answer of a script after so many questions -/
def Script.answer (info : AccessorInfo) : Script → Nat → Opinion
  | .silent, _ => .ok none
  | .value v, _ => .ok (some v)
  | .fail e, _ => .error e
  | .describe, _ => .ok (some ⟨.string, info.display⟩)
  | .once first _, 0 => first.answer info 0
  | .once _ later, n + 1 => later.answer info n

/-- the count from which on a script answers the same -/
def Script.horizon : Script → Nat
  | .once _ later => later.horizon + 1
  | _ => 0

theorem Script.answer_settled (info : AccessorInfo) (s : Script) (n : Nat) (h : s.horizon ≤ n) :
    s.answer info n = s.answer info s.horizon := by
  induction s generalizing n with
  | once first later _ ih =>
    cases n with
    | zero => simp [horizon] at h
    | succ n => simpa [answer, horizon] using ih n (by simpa [horizon] using h)
  | _ => cases n <;> rfl

/-- the count from which on all scripts answer the same -/
def Script.horizonOf (entries : List (String × Script)) : Nat := entries.foldr (fun e n => max e.2.horizon n) 0

theorem Script.horizon_le_horizonOf {entries : List (String × Script)} {name : String} {s : Script}
    (h : entries.lookup name = some s) : s.horizon ≤ horizonOf entries := by
  induction entries with
  | nil => simp at h
  | cons e entries ih =>
    obtain ⟨k, t⟩ := e
    rw [List.lookup_cons] at h
    split at h
    · cases h
      exact Nat.le_max_left _ _
    · exact Nat.le_trans (ih h) (Nat.le_max_right _ _)

/-- a script by name; names without one have no opinion -/
def scripted (entries : List (String × Script)) : Lookup where
  ask info count := match entries.lookup info.name with
    | some s => s.answer info count
    | none => .ok none
  horizon := Script.horizonOf entries
  settled info count h := by
    cases he : entries.lookup info.name with
    | none => rfl
    | some s =>
      have hle := Script.horizon_le_horizonOf he
      simp only
      rw [Script.answer_settled info s count (Nat.le_trans hle h), ← Script.answer_settled info s _ hle]

end Lookup

end TieredOptions
