/-
Dotted keys. A key is read as the list of its segments, cut at every dot; there is always at least one segment, and
empty ones count. Main statement: the segments of two keys joined by a dot are the segments of the one followed by the
segments of the other (`segments_join`).
-/

namespace TieredOptions.Text

/-- cut a text at every dot -/
def splitDots : List Char → List (List Char)
  | [] => [[]]
  | c :: cs =>
    if c = '.' then [] :: splitDots cs
    else match splitDots cs with
      | [] => [[c]]
      | word :: words => (c :: word) :: words

/-- the segments of a dotted key -/
def segments (key : String) : List String := (splitDots key.toList).map String.ofList

/-- two keys joined by a dot -/
def joinKeys (outer inner : String) : String := outer ++ "." ++ inner

theorem splitDots_ne_nil (cs : List Char) : splitDots cs ≠ [] := by
  cases cs with
  | nil => simp [splitDots]
  | cons c cs =>
    simp only [splitDots]
    split
    · simp
    · split <;> simp

/-- where there is no dot, nothing is cut -/
theorem splitDots_of_not_mem {cs : List Char} (h : '.' ∉ cs) : splitDots cs = [cs] := by
  induction cs with
  | nil => rfl
  | cons c cs ih =>
    obtain ⟨hc, hcs⟩ := not_or.1 (mt List.mem_cons.2 h)
    simp only [splitDots, if_neg (Ne.symm hc), ih hcs]

theorem splitDots_append_dot (a b : List Char) : splitDots (a ++ '.' :: b) = splitDots a ++ splitDots b := by
  induction a with
  | nil => simp [splitDots]
  | cons c a ih =>
    simp only [List.cons_append, splitDots, ih]
    split
    · simp
    · cases h : splitDots a with
      | nil => exact absurd h (splitDots_ne_nil a)
      | cons word words => simp

theorem segments_ne_nil (key : String) : segments key ≠ [] := by
  simp [segments, splitDots_ne_nil]

theorem segments_join (outer inner : String) : segments (joinKeys outer inner) = segments outer ++ segments inner := by
  have h : (joinKeys outer inner).toList = outer.toList ++ '.' :: inner.toList := by simp [joinKeys]
  simp [segments, h, splitDots_append_dot]

end TieredOptions.Text
