/-
Writing along paths. What was written is read back, whole and in its parts (`get?_set_append`); on the way to it stand
objects; and at every path apart from it, that is, where neither of the two paths leads along the other, stands what
stood there before (`get?_set_of_apart`). A write along a path in two parts is one write within another (`set_append`):
the second part is written into what stands at the first, or into an empty object if nothing does.

The laws of the writes themselves are read off key by key (`Ordered.ext`): a write of what is there changes nothing, of
two writes along one path the second stays, and two writes apart from each other can change places.

Main statement: `writing_lawful`.
-/
import TieredOptions.Proofs.Ordered

namespace TieredOptions.Json

/-! ## The first key of a path -/

theorem member?_set_self (v : Json) (k : String) (ks : List String) (leaf : Json) :
    (v.set (k :: ks) leaf).member? k = some (((v.member? k).getD (.object [])).set ks leaf) :=
  lookup_insertField_self k _ v.fields

theorem member?_set_ne {k other : String} (h : other ≠ k) (v : Json) (ks : List String) (leaf : Json) :
    (v.set (k :: ks) leaf).member? other = v.member? other :=
  lookup_insertField_ne h _ v.fields

theorem isObject_set {path : List String} (h : path ≠ []) (v leaf : Json) : (v.set path leaf).isObject = true := by
  cases path with
  | nil => exact absurd rfl h
  | cons k ks => rfl

/-! ## Reading after a write -/

/-- nothing stands in the empty object, so what is made for a write in it is empty again -/
theorem getD_get?_empty (path : List String) : ((object []).get? path).getD (.object []) = .object [] := by
  cases path with
  | nil => rfl
  | cons k ks => rfl

theorem getD_get?_member (v : Json) (k : String) (path : List String) :
    (((v.member? k).getD (.object [])).get? path).getD (.object []) = (v.get? (k :: path)).getD (.object []) := by
  rw [get?_cons]
  cases v.member? k with
  | none => exact getD_get?_empty path
  | some w => rfl

/-- **A write along a path in two parts**: the second part is written into what stands at the first. -/
theorem set_append (v : Json) (p q : List String) (leaf : Json) :
    v.set (p ++ q) leaf = v.set p (((v.get? p).getD (.object [])).set q leaf) := by
  induction p generalizing v with
  | nil => rfl
  | cons k p ih => rw [List.cons_append, set, set, ih, getD_get?_member]

/-- what was written has its parts where it stands -/
theorem get?_set_append (v : Json) (p rest : List String) (leaf : Json) :
    (v.set p leaf).get? (p ++ rest) = leaf.get? rest := by
  rw [get?_append, get?_set, Option.bind_some]

/-- on the way to what was written stand objects -/
theorem get?_set_of_prefix {p q : List String} (h : q <+: p) (hne : q ≠ p) (v leaf : Json) :
    ∃ w, (v.set p leaf).get? q = some w ∧ w.isObject = true := by
  obtain ⟨rest, rfl⟩ := h
  have hrest : rest ≠ [] := by
    intro hnil
    exact hne (by simp [hnil])
  rw [set_append]
  exact ⟨_, get?_set v q _, isObject_set hrest _ leaf⟩

/-- neither path leads along the other -/
def Apart (p q : List String) : Prop := ¬ p <+: q ∧ ¬ q <+: p

instance (p q : List String) : Decidable (Apart p q) := inferInstanceAs (Decidable (_ ∧ _))

theorem prefix_or_apart (p q : List String) : p <+: q ∨ (q <+: p ∧ q ≠ p) ∨ Apart p q := by
  by_cases hpq : p <+: q
  · exact .inl hpq
  · by_cases hqp : q <+: p
    · refine .inr (.inl ⟨hqp, ?_⟩)
      rintro rfl
      exact hpq hqp
    · exact .inr (.inr ⟨hpq, hqp⟩)

theorem Apart.symm {p q : List String} (h : Apart p q) : Apart q p := ⟨h.2, h.1⟩

theorem not_apart_nil (p : List String) : ¬ Apart p [] := fun h => h.2 List.nil_prefix

theorem not_nil_apart (q : List String) : ¬ Apart [] q := fun h => h.1 List.nil_prefix

theorem apart_cons_self {k : String} {p q : List String} : Apart (k :: p) (k :: q) ↔ Apart p q := by
  simp [Apart, List.cons_prefix_cons]

/-- **A write leaves what stands apart from it.** -/
theorem get?_set_of_apart {p q : List String} (h : Apart p q) (v leaf : Json) :
    (v.set q leaf).get? p = v.get? p := by
  induction p generalizing q v with
  | nil => exact absurd h (not_nil_apart q)
  | cons k p ih =>
    cases q with
    | nil => exact absurd h (not_apart_nil _)
    | cons l q =>
      by_cases hk : k = l
      · subst hk
        have hpq := apart_cons_self.1 h
        rw [get?_cons, member?_set_self, Option.bind_some, ih hpq]
        cases hm : v.member? k with
        | some w => simp [hm]
        | none =>
          -- the object that is made for the write is empty, so there is nothing at the path, as before
          cases p with
          | nil => exact absurd hpq (not_nil_apart q)
          | cons x p => simp [hm, show (object []).member? x = none from rfl]
      · rw [get?_cons, get?_cons, member?_set_ne hk]

/-! ## Writes among themselves -/

/-- to write what is there changes nothing -/
theorem Ordered.set_get? {v leaf : Json} (hv : v.Ordered) {path : List String} (h : v.get? path = some leaf) :
    v.set path leaf = v := by
  have hleaf : leaf.Ordered := hv.get? h
  induction path generalizing v with
  | nil => exact (Option.some.inj h).symm
  | cons k ks ih =>
    obtain ⟨w, hw, hks⟩ := Option.bind_eq_some_iff.1 h
    refine (hv.set hleaf (k :: ks)).ext hv rfl (isObject_of_member? hw) fun other => ?_
    by_cases hk : other = k
    · subst hk
      rw [member?_set_self, hw, Option.getD_some, ih (hv.member? hw) hks]
    · exact member?_set_ne hk v ks leaf

/-- of two writes along one path the second stays -/
theorem Ordered.set_set {v x y : Json} (hv : v.Ordered) (hx : x.Ordered) (hy : y.Ordered) (path : List String) :
    (v.set path x).set path y = v.set path y := by
  induction path generalizing v with
  | nil => rfl
  | cons k ks ih =>
    refine ((hv.set hx (k :: ks)).set hy (k :: ks)).ext (hv.set hy (k :: ks)) rfl rfl fun other => ?_
    by_cases hk : other = k
    · subst hk
      rw [member?_set_self, member?_set_self, member?_set_self, Option.getD_some, ih (hv.child other)]
    · rw [member?_set_ne hk, member?_set_ne hk, member?_set_ne hk]

/-- **Writes apart from each other can change places.** -/
theorem Ordered.set_comm {v x y : Json} (hv : v.Ordered) (hx : x.Ordered) (hy : y.Ordered) {p q : List String}
    (h : Apart p q) : (v.set p x).set q y = (v.set q y).set p x := by
  induction p generalizing q v with
  | nil => exact absurd h (not_nil_apart q)
  | cons k p ih =>
    cases q with
    | nil => exact absurd h (not_apart_nil _)
    | cons l q =>
      refine ((hv.set hx (k :: p)).set hy (l :: q)).ext ((hv.set hy (l :: q)).set hx (k :: p)) rfl rfl fun other => ?_
      by_cases hkl : k = l
      · subst hkl
        by_cases hk : other = k
        · -- the rest of both paths is written below one key
          subst hk
          rw [member?_set_self, member?_set_self, member?_set_self, member?_set_self, Option.getD_some,
            Option.getD_some, ih (hv.child other) (apart_cons_self.1 h)]
        · rw [member?_set_ne hk, member?_set_ne hk, member?_set_ne hk, member?_set_ne hk]
      · by_cases hk : other = k
        · subst hk
          rw [member?_set_ne hkl, member?_set_self, member?_set_self, member?_set_ne hkl]
        · rw [member?_set_ne hk (v.set (l :: q) y)]
          by_cases hl : other = l
          · subst hl
            rw [member?_set_self, member?_set_self, member?_set_ne hk]
          · rw [member?_set_ne hl, member?_set_ne hl, member?_set_ne hk]

/-- **Writing along dotted keys is lawful.** Of every value, whatever its shape, and every key `p`, after a value `v` is
written at `p`:
- the whole is an object, and at `p` stands `v`;
- at a key that extends `p` by more segments stands what those have in `v`;
- at a key whose segments are some of the first of `p` stands an object;
- at a key of which neither leads along the other stands what stood there, if anything did.

A write of what is there changes nothing, a second write at `p` makes up for the first, and writes at keys of which
neither leads along the other can change places. -/
theorem writing_lawful {root v w : Json} (hroot : root.Ordered) (hv : v.Ordered) (hw : w.Ordered) (p : String) :
    ((root.setKey p v).isObject = true ∧ (root.setKey p v).getKey? p = some v) ∧
    (∀ q rest, Text.segments q = Text.segments p ++ rest → (root.setKey p v).getKey? q = v.get? rest) ∧
    (∀ q, Text.segments q <+: Text.segments p → Text.segments q ≠ Text.segments p →
      ∃ x, (root.setKey p v).getKey? q = some x ∧ x.isObject = true) ∧
    (∀ q, Apart (Text.segments p) (Text.segments q) → (root.setKey p v).getKey? q = root.getKey? q) ∧
    (root.getKey? p = some v → root.setKey p v = root) ∧
    (root.setKey p v).setKey p w = root.setKey p w ∧
    ∀ q, Apart (Text.segments p) (Text.segments q) →
      (root.setKey p v).setKey q w = (root.setKey q w).setKey p v := by
  refine ⟨⟨isObject_set (Text.segments_ne_nil p) root v, get?_set root _ v⟩, ?_, ?_, ?_, ?_, ?_, ?_⟩
  · intro q rest hq
    unfold getKey?
    rw [hq]
    exact get?_set_append root _ rest v
  · intro q hq hne
    exact get?_set_of_prefix hq hne root v
  · intro q hq
    exact get?_set_of_apart hq.symm root v
  · intro h
    exact hroot.set_get? h
  · exact hroot.set_set hv hw _
  · intro q hq
    exact hroot.set_comm hv hw hq

/-- A text, and a table with a field that has no name. -/
def mixed : Json := .object [("a", .string "off"), ("b", .object [("", .bool true)])]

theorem mixed_ordered : mixed.Ordered :=
  .cons (by decide) (.string _) (.single (.single (.bool true) "") "b")

/-- A table takes the place of the text, the field without a name stays, and it does not matter which of the two is
    written first. -/
theorem mixed_written :
    (mixed.Ordered ∧ (Json.object [("d", .null)]).Ordered ∧ Json.Ordered .null) ∧
    (mixed.setKey "a.c" (.object [("d", .null)])).getKey? "a.c.d" = some .null ∧
    (∃ x, (mixed.setKey "a.c" (.object [("d", .null)])).getKey? "a" = some x ∧ x.isObject = true) ∧
    (mixed.setKey "a.c" (.object [("d", .null)])).getKey? "b." = some (.bool true) ∧
    (mixed.setKey "a.c" (.object [("d", .null)])).setKey "b." .null =
      (mixed.setKey "b." .null).setKey "a.c" (.object [("d", .null)]) ∧
    mixed.setKey "b." (.bool true) = mixed := by
  have htable : (Json.object [("d", .null)]).Ordered := .single .null "d"
  have hapart : Apart (Text.segments "a.c") (Text.segments "b.") := by decide
  obtain ⟨-, hbelow, habove, hoff, -, -, hcomm⟩ := writing_lawful mixed_ordered htable .null "a.c"
  obtain ⟨-, -, -, -, hsame, -⟩ := writing_lawful mixed_ordered (.bool true) .null "b."
  refine ⟨⟨mixed_ordered, htable, .null⟩, hbelow "a.c.d" ["d"] (by decide), habove "a" (by decide) (by decide), ?_,
    hcomm "b." hapart, hsame (by decide)⟩
  exact (hoff "b." hapart).trans (by decide)

end TieredOptions.Json
