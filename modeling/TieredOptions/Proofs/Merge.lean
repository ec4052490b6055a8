/-
What a merge holds at a path. If an ordered value is laid over another, then at every path:
- where the overlay has a value that is no object on the way, its root included, there is nothing (`Shadows`,
  `get?_merge_of_shadows`);
- elsewhere there is what the two have at the path, laid over each other (`get?_merge_of_not_shadows`).

In terms of what the overlay has at the path this is `merge_pathwise`. Of several layers the last one that has a path
decides what is there, unless a later one shadows it (`get?_mergeLayers`).
-/
import TieredOptions.Proofs.Ordered

namespace TieredOptions.Json

/-- on the way along a path, its end apart, stands a value that is no object -/
def Shadows (v : Json) (path : List String) : Prop :=
  ∃ front w, front <+: path ∧ front ≠ path ∧ v.get? front = some w ∧ w.isObject = false

/-- what stands in a place when what an overlay has there is laid over what a base has there -/
def overlaid : Option Json → Option Json → Option Json
  | below, none => below
  | none, some v => some v
  | some w, some v => some (merge w v)

@[simp] theorem overlaid_none_right (below : Option Json) : overlaid below none = below := by cases below <;> rfl

@[simp] theorem overlaid_none_left (above : Option Json) : overlaid none above = above := by cases above <;> rfl

/-! ## Shadows -/

theorem not_shadows_nil (v : Json) : ¬ v.Shadows [] := by
  rintro ⟨front, w, hf, hne, -⟩
  exact hne (List.prefix_nil.1 hf)

theorem shadows_cons {v : Json} {k : String} {ks : List String} :
    v.Shadows (k :: ks) ↔ v.isObject = false ∨ ∃ w, v.member? k = some w ∧ w.Shadows ks := by
  constructor
  · rintro ⟨front, w, hf, hne, hw, ho⟩
    rcases List.prefix_cons_iff.1 hf with rfl | ⟨rest, rfl, hr⟩
    · cases hw
      exact .inl ho
    · obtain ⟨x, hx, hw⟩ := Option.bind_eq_some_iff.1 hw
      exact .inr ⟨x, hx, rest, w, hr, fun h => hne (congrArg _ h), hw, ho⟩
  · rintro (ho | ⟨x, hx, rest, w, hr, hne, hw, ho⟩)
    · exact ⟨[], v, List.nil_prefix, nofun, rfl, ho⟩
    · refine ⟨k :: rest, w, List.cons_prefix_cons.2 ⟨rfl, hr⟩, fun h => hne (List.cons_inj_right k |>.1 h), ?_, ho⟩
      simp [hx, hw]

/-- behind a value that is no object there is nothing -/
theorem Shadows.get?_eq_none {v : Json} {path : List String} (h : v.Shadows path) : v.get? path = none := by
  induction path generalizing v with
  | nil => exact absurd h (not_shadows_nil v)
  | cons k ks ih =>
    rw [get?_cons]
    rcases shadows_cons.1 h with ho | ⟨w, hw, hs⟩
    · rw [member?_of_not_object ho, Option.bind_none]
    · rw [hw, Option.bind_some, ih hs]

theorem not_shadows_of_some {v w : Json} {path : List String} (h : v.get? path = some w) : ¬ v.Shadows path :=
  fun hs => by rw [hs.get?_eq_none] at h; cases h

/-! ## Merges -/

theorem lookup_mergeFields {overlay : List (String × Json)} (hk : overlay.Pairwise (·.1 < ·.1))
    (base : List (String × Json)) (k : String) :
    (mergeFields base overlay).lookup k = overlaid (base.lookup k) (overlay.lookup k) := by
  induction overlay generalizing base with
  | nil => exact (overlaid_none_right _).symm
  | cons f rest ih =>
    obtain ⟨k', v⟩ := f
    obtain ⟨hlt, hrest⟩ := List.pairwise_cons.1 hk
    rw [mergeFields, ih hrest, List.lookup_cons]
    by_cases h : k = k'
    · subst h
      -- the later keys are greater, so the rest of the overlay says nothing of this one
      have hnone : rest.lookup k = none :=
        List.lookup_eq_none_iff.2 fun f hf => by simpa using String.ne_of_lt (hlt f hf)
      rw [lookup_insertField_self, hnone, beq_self_eq_true, overlaid_none_right]
      cases base.lookup k <;> rfl
    · rw [lookup_insertField_ne h, beq_eq_false_iff_ne.2 h]

theorem member?_merge {overlay : Json} (ho : overlay.Ordered) (hobj : overlay.isObject = true) (base : Json)
    (k : String) : (merge base overlay).member? k = overlaid (base.member? k) (overlay.member? k) := by
  cases ho with
  | object hk _ =>
    cases base with
    | object fs => exact lookup_mergeFields hk fs k
    | _ => exact (overlaid_none_left _).symm
  | _ => cases hobj

/-- what the overlay shadows is gone -/
theorem get?_merge_of_shadows {overlay : Json} (ho : overlay.Ordered) {path : List String} (h : overlay.Shadows path)
    (base : Json) : (merge base overlay).get? path = none := by
  induction path generalizing base overlay with
  | nil => exact absurd h (not_shadows_nil _)
  | cons k ks ih =>
    cases hobj : overlay.isObject with
    | false => rw [merge_of_not_object hobj, h.get?_eq_none]
    | true =>
      obtain ⟨w, hw, hs⟩ := (shadows_cons.1 h).resolve_left (by simp [hobj])
      rw [get?_cons, member?_merge ho hobj, hw]
      cases base.member? k with
      | none => exact hs.get?_eq_none
      | some b => exact ih (ho.member? hw) hs b

/-- **A merge, path by path.** Where the overlay does not shadow a path, what the two values have there is laid over
    each other. -/
theorem get?_merge_of_not_shadows {overlay : Json} (ho : overlay.Ordered) {path : List String}
    (h : ¬ overlay.Shadows path) (base : Json) :
    (merge base overlay).get? path = overlaid (base.get? path) (overlay.get? path) := by
  induction path generalizing base overlay with
  | nil => rfl
  | cons k ks ih =>
    obtain ⟨hobj, hs⟩ := not_or.1 (mt shadows_cons.2 h)
    rw [get?_cons, get?_cons, get?_cons, member?_merge ho (by simpa using hobj)]
    cases hw : overlay.member? k with
    | none => simp
    | some w =>
      have hs : ¬ w.Shadows ks := fun hs' => hs ⟨w, hw, hs'⟩
      cases base.member? k with
      | none => exact (overlaid_none_left _).symm
      | some b => exact ih (ho.member? hw) hs b

/-! ## What is on top -/

/-- An overlay that is no object is what comes out. -/
theorem overlaid_of_not_object {v : Json} (h : v.isObject = false) (below : Option Json) :
    overlaid below (some v) = some v := by
  cases below with
  | none => rfl
  | some w => exact congrArg some (merge_of_not_object h w)

/-- something comes out, and it is null only if null was laid on top -/
theorem overlaid_some (below : Option Json) (v : Json) :
    ∃ w, overlaid below (some v) = some w ∧ (w = .null ↔ v = .null) := by
  cases hv : v.isObject with
  | false => exact ⟨v, overlaid_of_not_object hv below, Iff.rfl⟩
  | true =>
    have hne {w : Json} (hw : w.isObject = true) : w ≠ .null := by rintro rfl; cases hw
    cases below with
    | none => exact ⟨v, rfl, Iff.rfl⟩
    | some w => exact ⟨merge w v, rfl, iff_of_false (hne (isObject_merge hv w)) (hne hv)⟩

/-- Whatever is below, an overlay that is an object is contained in the object that comes out: every path of it is
    there, with the same value if that is no object. -/
theorem overlaid_of_object {v w : Json} {below : Option Json} (ho : v.Ordered) (h : v.isObject = true)
    (hw : overlaid below (some v) = some w) :
    w.isObject = true ∧ ∀ path u, v.get? path = some u → ∃ x, w.get? path = some x ∧ (u.isObject = false → x = u) := by
  cases below with
  | none =>
    cases hw
    exact ⟨h, fun path u hu => ⟨u, hu, fun _ => rfl⟩⟩
  | some b =>
    cases hw
    refine ⟨isObject_merge h b, fun path u hu => ?_⟩
    rw [get?_merge_of_not_shadows ho (not_shadows_of_some hu), hu]
    cases hb : b.get? path with
    | none => exact ⟨u, rfl, fun _ => rfl⟩
    | some y => exact ⟨merge y u, rfl, fun hu => merge_of_not_object hu y⟩

/-- a value that is no object and stands in a merge was there before -/
theorem eq_some_of_overlaid {below above : Option Json} {v : Json} (h : overlaid below above = some v)
    (hv : v.isObject = false) : above = some v ∨ below = some v := by
  cases above with
  | none =>
    rw [overlaid_none_right] at h
    exact .inr h
  | some u =>
    cases hu : u.isObject with
    | false => exact .inl ((overlaid_of_not_object hu below).symm.trans h)
    | true =>
      -- an object on top comes out as an object
      cases below with
      | none => exact .inl h
      | some w =>
        cases h
        rw [isObject_merge hu w] at hv
        cases hv

theorem eq_some_of_get?_merge {base overlay v : Json} (ho : overlay.Ordered) {path : List String}
    (h : (merge base overlay).get? path = some v) (hv : v.isObject = false) :
    overlay.get? path = some v ∨ base.get? path = some v := by
  by_cases hs : overlay.Shadows path
  · rw [get?_merge_of_shadows ho hs] at h
    cases h
  · rw [get?_merge_of_not_shadows ho hs] at h
    exact eq_some_of_overlaid h hv

/-- **A merge at every path**, the empty one included. Whatever the base, and if the overlay is ordered:
- a value of the overlay that is no object replaces whatever the base has at its path;
- an object of the overlay is laid over the base's, if that is an object, too, and stands as it is otherwise;
- where the overlay has nothing, the base's value stands or is missing as before, but nothing is left where the overlay
  has a value that is no object on the way.

So every value of the merge that is no object is one that the overlay or the base has at the same path. -/
theorem merge_pathwise (base : Json) {overlay : Json} (ho : overlay.Ordered) (path : List String) :
    (∀ v, overlay.get? path = some v → v.isObject = false → (merge base overlay).get? path = some v) ∧
    (∀ v, overlay.get? path = some v → v.isObject = true →
      (∀ w, base.get? path = some w → w.isObject = true → (merge base overlay).get? path = some (merge w v)) ∧
      ((∀ w, base.get? path = some w → w.isObject = false) → (merge base overlay).get? path = some v)) ∧
    (overlay.get? path = none →
      (overlay.Shadows path → (merge base overlay).get? path = none) ∧
      (¬ overlay.Shadows path → (merge base overlay).get? path = base.get? path)) ∧
    ∀ v, (merge base overlay).get? path = some v → v.isObject = false →
      overlay.get? path = some v ∨ base.get? path = some v := by
  have hsome {v : Json} (hv : overlay.get? path = some v) :
      (merge base overlay).get? path = overlaid (base.get? path) (some v) := by
    rw [get?_merge_of_not_shadows ho (not_shadows_of_some hv), hv]
  refine ⟨fun v hv hobj => ?_, fun v hv _ => ⟨fun w hw _ => ?_, fun hbase => ?_⟩,
    fun hnone => ⟨fun hs => get?_merge_of_shadows ho hs base, fun hs => ?_⟩, fun v => eq_some_of_get?_merge ho⟩
  · rw [hsome hv, overlaid_of_not_object hobj]
  · rw [hsome hv, hw]
    rfl
  · rw [hsome hv]
    cases hw : base.get? path with
    | none => rfl
    | some w => exact congrArg some (merge_onto_not_object (hbase w hw) v)
  · rw [get?_merge_of_not_shadows ho hs, hnone, overlaid_none_right]

/-- A server with limits, and a list of paths. -/
def serverBase : Json := .object [
  ("paths", .array [.string "a", .string "b"]),
  ("server", .object [("host", .string "a"), ("limits", .object [("width", .number (.int 1))])])]

/-- No host, another limit, and a text in the place of the list. -/
def serverOverlay : Json := .object [
  ("paths", .string "off"),
  ("server", .object [("host", .null), ("limits", .object [("depth", .number (.int 2))])])]

theorem serverOverlay_ordered : serverOverlay.Ordered :=
  .cons (by decide) (.string _) (.single (.cons (by decide) .null (.single (.single (.number _) _) _)) _)

/-- The limits are put together, the null replaces the host, the width is kept, and below the text there is nothing. -/
theorem server_pathwise : serverOverlay.Ordered ∧
    (merge serverBase serverOverlay).get? ["server", "limits"] =
      some (.object [("depth", .number (.int 2)), ("width", .number (.int 1))]) ∧
    (merge serverBase serverOverlay).get? ["server", "host"] = some .null ∧
    (merge serverBase serverOverlay).get? ["server", "limits", "width"] = some (.number (.int 1)) ∧
    (merge serverBase serverOverlay).get? ["paths", "first"] = none := by
  have h := merge_pathwise serverBase serverOverlay_ordered
  have hlimits := ((h ["server", "limits"]).2.1 (.object [("depth", .number (.int 2))]) (by decide) rfl).1
    (.object [("width", .number (.int 1))]) (by decide) rfl
  have hshadowed : serverOverlay.Shadows ["paths", "first"] :=
    ⟨["paths"], .string "off", by decide, by decide, by decide, rfl⟩
  have hclear : ¬ serverOverlay.Shadows ["server", "limits", "width"] := by
    have hobject (fields : List (String × Json)) : (Json.object fields).isObject = true := rfl
    have hserver : serverOverlay.member? "server" =
        some (.object [("host", .null), ("limits", .object [("depth", .number (.int 2))])]) := by rfl
    have hinner : (Json.object [("host", .null), ("limits", .object [("depth", .number (.int 2))])]).member? "limits" =
        some (.object [("depth", .number (.int 2))]) := by rfl
    have hwidth : (Json.object [("depth", .number (.int 2))]).member? "width" = none := by rfl
    rw [shadows_cons, hserver]
    simp [shadows_cons, hobject, serverOverlay, hinner, hwidth]
  exact ⟨serverOverlay_ordered, hlimits.trans (by decide), (h ["server", "host"]).1 .null (by decide) rfl,
    (((h ["server", "limits", "width"]).2.2.1 (by decide)).2 hclear).trans (by decide),
    ((h ["paths", "first"]).2.2.1 (by decide)).1 hshadowed⟩

/-! ## Layers -/

theorem mergeLayers_append (below above : List Json) :
    mergeLayers (below ++ above) = above.foldl merge (mergeLayers below) := List.foldl_append

/-- Of layers that have nothing at a path those that shadow it take away what is there; the others leave it. -/
theorem get?_foldl_merge {layers : List Json} {path : List String} (ho : ∀ layer ∈ layers, layer.Ordered)
    (ha : ∀ layer ∈ layers, layer.get? path = none) (base : Json) :
    ((∃ layer ∈ layers, layer.Shadows path) → (layers.foldl merge base).get? path = none) ∧
      ((∀ layer ∈ layers, ¬ layer.Shadows path) → (layers.foldl merge base).get? path = base.get? path) := by
  induction layers generalizing base with
  | nil => exact ⟨fun ⟨_, h, _⟩ => absurd h List.not_mem_nil, fun _ => rfl⟩
  | cons layer rest ih =>
    obtain ⟨ho, hrest⟩ := List.forall_mem_cons.1 ho
    obtain ⟨ha, hrest'⟩ := List.forall_mem_cons.1 ha
    obtain ⟨ihs, ihn⟩ := ih hrest hrest' (merge base layer)
    constructor
    · rintro ⟨x, hx, hs⟩
      by_cases h : ∃ y ∈ rest, y.Shadows path
      · exact ihs h
      · -- no layer after this one shadows the path, so this one does
        have hn : ∀ y ∈ rest, ¬ y.Shadows path := fun y hy hys => h ⟨y, hy, hys⟩
        rcases List.mem_cons.1 hx with rfl | hx
        · rw [List.foldl_cons, ihn hn, get?_merge_of_shadows ho hs]
        · exact absurd hs (hn x hx)
    · intro hn
      obtain ⟨hn, hn'⟩ := List.forall_mem_cons.1 hn
      rw [List.foldl_cons, ihn hn', get?_merge_of_not_shadows ho hn, ha, overlaid_none_right]

theorem get?_mergeLayers_of_absent {layers : List Json} {path : List String} (hp : path ≠ [])
    (ho : ∀ layer ∈ layers, layer.Ordered) (ha : ∀ layer ∈ layers, layer.get? path = none) :
    (mergeLayers layers).get? path = none := by
  obtain ⟨hs, hn⟩ := get?_foldl_merge ho ha (.object [])
  by_cases h : ∃ layer ∈ layers, layer.Shadows path
  · exact hs h
  · refine (hn fun layer hl hls => h ⟨layer, hl, hls⟩).trans ?_
    cases path with
    | nil => exact absurd rfl hp
    | cons k ks => rfl

/-- **The last layer that has a path decides what is there**, unless a later one shadows the path. -/
theorem get?_mergeLayers {before after : List Json} {top v : Json} {path : List String}
    (ho : ∀ layer ∈ before ++ top :: after, layer.Ordered) (hv : top.get? path = some v)
    (ha : ∀ layer ∈ after, layer.get? path = none) :
    ((∃ layer ∈ after, layer.Shadows path) → (mergeLayers (before ++ top :: after)).get? path = none) ∧
      ((∀ layer ∈ after, ¬ layer.Shadows path) →
        (mergeLayers (before ++ top :: after)).get? path = overlaid ((mergeLayers before).get? path) (some v)) := by
  have hafter (layer : Json) (hl : layer ∈ after) : layer.Ordered := ho layer (by simp [hl])
  rw [mergeLayers_append, List.foldl_cons]
  obtain ⟨hs, hn⟩ := get?_foldl_merge hafter ha (merge (mergeLayers before) top)
  refine ⟨hs, fun h => ?_⟩
  rw [hn h, get?_merge_of_not_shadows (ho top (by simp)) (not_shadows_of_some hv), hv]

end TieredOptions.Json
