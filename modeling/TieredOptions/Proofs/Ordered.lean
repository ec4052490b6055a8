/-
Ordered values: values of which every object has its keys in strictly increasing order (`Json.Ordered`), so that no key
stands twice in it. This is how configuration values are represented: an object that is ordered is what its keys give
(`Ordered.ext`), and no two lists of fields stand for the same object. Values that are put together from ordered values
by inserting fields, writing along paths and merging are ordered, and so is all that is read from files and assignments.
-/
import TieredOptions.Json.Merge
import TieredOptions.Json.Path

namespace TieredOptions.Json

/-- the keys of every object are in strictly increasing order, so that no key stands twice -/
inductive Ordered : Json → Prop where
  | null : Ordered .null
  | bool (b : Bool) : Ordered (.bool b)
  | number (n : Number) : Ordered (.number n)
  | string (s : String) : Ordered (.string s)
  | array {items : List Json} (h : ∀ v ∈ items, Ordered v) : Ordered (.array items)
  | object {fs : List (String × Json)} (hk : fs.Pairwise (·.1 < ·.1)) (h : ∀ f ∈ fs, Ordered f.2) : Ordered (.object fs)

/-! ## Objects and other values -/

theorem member?_of_not_object {v : Json} (h : v.isObject = false) (k : String) : v.member? k = none := by
  cases v <;> first | rfl | cases h

theorem isObject_of_member? {v w : Json} {k : String} (h : v.member? k = some w) : v.isObject = true := by
  cases ho : v.isObject with
  | true => rfl
  | false =>
    rw [member?_of_not_object ho] at h
    cases h

theorem merge_of_not_object {overlay : Json} (h : overlay.isObject = false) (base : Json) :
    merge base overlay = overlay := by
  cases base <;> cases overlay <;> first | rfl | cases h

theorem merge_onto_not_object {base : Json} (h : base.isObject = false) (overlay : Json) :
    merge base overlay = overlay := by
  cases base <;> cases overlay <;> first | rfl | cases h

theorem isObject_merge {overlay : Json} (h : overlay.isObject = true) (base : Json) :
    (merge base overlay).isObject = true := by
  cases base <;> cases overlay <;> first | rfl | cases h

/-! ## Fields in order -/

theorem mem_insertField {key : String} {v : Json} {fs : List (String × Json)} {f : String × Json}
    (h : f ∈ insertField key v fs) : f = (key, v) ∨ f ∈ fs := by
  induction fs with
  | nil => exact .inl (List.mem_singleton.1 h)
  | cons g rest ih =>
    obtain ⟨k, w⟩ := g
    simp only [insertField] at h
    split at h
    · exact (List.mem_cons.1 h).imp_right (List.mem_cons_of_mem _)
    · split at h
      · exact List.mem_cons.1 h
      · rcases List.mem_cons.1 h with rfl | h
        · exact .inr List.mem_cons_self
        · exact (ih h).imp_right (List.mem_cons_of_mem _)

theorem pairwise_insertField {fs : List (String × Json)} (h : fs.Pairwise (·.1 < ·.1)) (key : String) (v : Json) :
    (insertField key v fs).Pairwise (·.1 < ·.1) := by
  induction fs with
  | nil => exact List.pairwise_singleton _ _
  | cons g rest ih =>
    obtain ⟨k, w⟩ := g
    obtain ⟨hlt, hrest⟩ := List.pairwise_cons.1 h
    simp only [insertField]
    split
    · rename_i hk
      subst hk
      exact List.pairwise_cons.2 ⟨hlt, hrest⟩
    · split
      · rename_i hk
        refine List.pairwise_cons.2 ⟨fun f hf => ?_, h⟩
        rcases List.mem_cons.1 hf with rfl | hf
        · exact hk
        · exact String.lt_trans hk (hlt f hf)
      · rename_i hne hnlt
        have hk : k < key := Std.lt_of_le_of_ne (String.not_lt.1 hnlt) (Ne.symm hne)
        refine List.pairwise_cons.2 ⟨fun f hf => ?_, ih hrest⟩
        rcases mem_insertField hf with rfl | hf
        · exact hk
        · exact hlt f hf

/-- with the keys in order, a key gives the one field that has it -/
theorem lookup_eq_some_iff_mem {fs : List (String × Json)} (hk : fs.Pairwise (·.1 < ·.1)) {k : String} {v : Json} :
    fs.lookup k = some v ↔ (k, v) ∈ fs := by
  constructor
  · intro h
    obtain ⟨l₁, l₂, rfl, -⟩ := List.lookup_eq_some_iff.1 h
    simp
  · intro h
    obtain ⟨l₁, l₂, rfl⟩ := List.append_of_mem h
    have hbefore := (List.pairwise_append.1 hk).2.2
    exact List.lookup_eq_some_iff.2
      ⟨l₁, l₂, rfl, fun f hf => bne_iff_ne.2 (String.ne_of_lt (hbefore f hf (k, v) (by simp))).symm⟩

/-- fields in order are the same if every key gives the same -/
theorem eq_of_lookup {fs gs : List (String × Json)} (hf : fs.Pairwise (·.1 < ·.1)) (hg : gs.Pairwise (·.1 < ·.1))
    (h : ∀ k, fs.lookup k = gs.lookup k) : fs = gs := by
  have hmem (f : String × Json) : f ∈ fs ↔ f ∈ gs := by
    rw [← lookup_eq_some_iff_mem hf, ← lookup_eq_some_iff_mem hg, h]
  have hnodup {l : List (String × Json)} (hl : l.Pairwise (·.1 < ·.1)) : l.Nodup :=
    hl.imp fun hlt heq => String.ne_of_lt hlt (congrArg Prod.fst heq)
  refine List.Perm.eq_of_pairwise (fun f g _ _ hfg hgf => ?_) hf hg
    ((List.perm_ext_iff_of_nodup (hnodup hf) (hnodup hg)).2 hmem)
  exact absurd hgf (String.lt_asymm hfg)

/-! ## Ordered values -/

namespace Ordered

theorem member? {v w : Json} {k : String} (h : v.Ordered) (hw : v.member? k = some w) : w.Ordered := by
  cases h with
  | object hk h => exact h (k, w) ((lookup_eq_some_iff_mem hk).1 hw)
  | _ => cases hw

theorem get? {v w : Json} {path : List String} (h : v.Ordered) (hw : v.get? path = some w) : w.Ordered := by
  induction path generalizing v with
  | nil => cases hw; exact h
  | cons k ks ih =>
    obtain ⟨x, hx, hw⟩ := Option.bind_eq_some_iff.1 hw
    exact ih (h.member? hx) hw

/-- ordered objects are the same if every key gives the same -/
theorem ext {v w : Json} (hv : v.Ordered) (hw : w.Ordered) (hvo : v.isObject = true) (hwo : w.isObject = true)
    (h : ∀ k, v.member? k = w.member? k) : v = w := by
  cases hv with
  | object hf _ =>
    cases hw with
    | object hg _ => exact congrArg _ (eq_of_lookup hf hg h)
    | _ => cases hwo
  | _ => cases hvo

theorem insertField {fs : List (String × Json)} {v : Json} (h : (Json.object fs).Ordered) (hv : v.Ordered)
    (key : String) : (Json.object (insertField key v fs)).Ordered := by
  cases h with
  | object hk hfs =>
    refine .object (pairwise_insertField hk key v) fun f hf => ?_
    rcases mem_insertField hf with rfl | hf
    · exact hv
    · exact hfs f hf

theorem empty : (Json.object []).Ordered := .object .nil fun _ hf => absurd hf List.not_mem_nil

/-- one more field in front -/
theorem cons {fs : List (String × Json)} {k : String} {v : Json} (hk : ∀ f ∈ fs, k < f.1) (hv : v.Ordered)
    (h : (Json.object fs).Ordered) : (Json.object ((k, v) :: fs)).Ordered := by
  cases h with
  | object hp hfs => exact .object (List.pairwise_cons.2 ⟨hk, hp⟩) (List.forall_mem_cons.2 ⟨hv, hfs⟩)

theorem single {v : Json} (h : v.Ordered) (k : String) : (Json.object [(k, v)]).Ordered := cons (by simp) h empty

theorem fields {v : Json} (h : v.Ordered) : (Json.object v.fields).Ordered := by
  cases h with
  | object hk hfs => exact .object hk hfs
  | _ => exact empty

theorem ofFields {fs : List (String × Json)} (h : ∀ f ∈ fs, f.2.Ordered) : (ofFields fs).Ordered := by
  have hfold (acc : List (String × Json)) (hacc : (Json.object acc).Ordered) :
      (Json.object (fs.foldl (fun acc f => Json.insertField f.1 f.2 acc) acc)).Ordered := by
    induction fs generalizing acc with
    | nil => exact hacc
    | cons f rest ih =>
      obtain ⟨hf, hrest⟩ := List.forall_mem_cons.1 h
      exact ih hrest _ (hacc.insertField hf f.1)
  exact hfold [] empty

/-- what stands at a key, or the empty object that a write makes there -/
theorem child {v : Json} (h : v.Ordered) (k : String) : ((v.member? k).getD (.object [])).Ordered := by
  cases hm : v.member? k with
  | none => exact empty
  | some w => exact h.member? hm

theorem set {v leaf : Json} (h : v.Ordered) (hl : leaf.Ordered) (path : List String) : (v.set path leaf).Ordered := by
  induction path generalizing v with
  | nil => exact hl
  | cons k ks ih => exact h.fields.insertField (ih (h.child k)) k

/-- fields are laid over ordered ones if each of them can be laid over whatever has its key -/
theorem mergeFields {base overlay : List (String × Json)} (hb : (Json.object base).Ordered)
    (ho : ∀ f ∈ overlay, f.2.Ordered) (h : ∀ f ∈ overlay, ∀ b : Json, b.Ordered → (Json.merge b f.2).Ordered) :
    (Json.object (mergeFields base overlay)).Ordered := by
  induction overlay generalizing base with
  | nil => exact hb
  | cons f rest ih =>
    obtain ⟨hof, hor⟩ := List.forall_mem_cons.1 ho
    obtain ⟨hf, hrest⟩ := List.forall_mem_cons.1 h
    refine ih (hb.insertField ?_ f.1) hor hrest
    split
    · rename_i b hlookup
      exact hf b (hb.member? hlookup)
    · exact hof

/-- **Laying one ordered value over another gives an ordered value.** -/
theorem merge {base overlay : Json} (hb : base.Ordered) (ho : overlay.Ordered) : (Json.merge base overlay).Ordered := by
  induction ho generalizing base with
  | object hk h ih =>
    cases hb with
    | object hkb hfs => exact mergeFields (.object hkb hfs) h fun f hf _ hw => ih f hf hw
    | _ => exact .object hk h
  | _ => rw [merge_of_not_object rfl]; constructor <;> assumption

theorem mergeLayers {layers : List Json} (h : ∀ layer ∈ layers, layer.Ordered) : (mergeLayers layers).Ordered :=
  List.foldlRecOn layers Json.merge empty fun _ hv layer hl => hv.merge (h layer hl)

end Ordered

end TieredOptions.Json
