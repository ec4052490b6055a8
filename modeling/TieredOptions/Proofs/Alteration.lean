/-
Configurations that differ in what one option's key holds. Layers of two configurations are the same but for values that
are not null at one path (`Json.ButFor`). What that leaves of the merged values is a relation along the path: off the
path both hold the same, and at its end both hold null or both do not (`Json.AlikeOff`). It passes through merges
(`AlikeOff.merge`), so every other option is configured alike, the altered option has a value in both or in none, and
every option has the same origin (`Layered.Altered`).
-/
import TieredOptions.Proofs.Provenance
import TieredOptions.Proofs.Validity

namespace TieredOptions

namespace Json

/-- the same value, or one with something else than null in the place of something else than null at the path -/
def ButFor (path : List String) (v w : Json) : Prop :=
  v = w ∨ ∃ x y, x ≠ .null ∧ y ≠ .null ∧ v.get? path = some x ∧ w = v.set path y

/-- Along the path there are objects that hold the same under every other key. At the end of the path both hold null, or
    both do not. Where the path ends early, the values are the same. -/
def AlikeOff : List String → Json → Json → Prop
  | [], v, w => v = .null ↔ w = .null
  | k :: ks, v, w => v = w ∨ (v.isObject = true ∧ w.isObject = true ∧ (∀ k', k' ≠ k → v.member? k' = w.member? k') ∧
      Option.Rel (AlikeOff ks) (v.member? k) (w.member? k))

theorem AlikeOff.refl (path : List String) (v : Json) : AlikeOff path v v := by
  cases path with
  | nil => exact Iff.rfl
  | cons k ks => exact .inl rfl

/-- related to itself, or absent -/
theorem rel_refl {r : Json → Json → Prop} (hr : ∀ v, r v v) (o : Option Json) : Option.Rel r o o := by
  cases o with
  | none => exact .none
  | some v => exact .some (hr v)

theorem alikeOff_set {v x y : Json} {path : List String} (hx : x ≠ .null) (hy : y ≠ .null)
    (h : v.get? path = some x) : AlikeOff path v (v.set path y) := by
  induction path generalizing v with
  | nil =>
    cases h
    exact iff_of_false hx hy
  | cons k ks ih =>
    obtain ⟨u, hu, h⟩ := Option.bind_eq_some_iff.1 h
    refine .inr ⟨isObject_of_member? hu, rfl, fun k' hk => ?_, ?_⟩
    · exact (lookup_insertField_ne hk _ v.fields).symm
    · have hset : (v.set (k :: ks) y).member? k = some (u.set ks y) := by
        simp only [set, hu, Option.getD_some]
        exact lookup_insertField_self k _ v.fields
      rw [hset, hu]
      exact .some (ih h)

theorem ButFor.alikeOff {v w : Json} {path : List String} (h : ButFor path v w) : AlikeOff path v w := by
  rcases h with rfl | ⟨x, y, hx, hy, hv, rfl⟩
  · exact .refl path v
  · exact alikeOff_set hx hy hv

/-- what the two values hold under each key -/
theorem AlikeOff.members {v w : Json} {k : String} {ks : List String} (h : AlikeOff (k :: ks) v w) :
    v.isObject = w.isObject ∧ (∀ k', k' ≠ k → v.member? k' = w.member? k') ∧
      Option.Rel (AlikeOff ks) (v.member? k) (w.member? k) := by
  rcases h with rfl | ⟨hv, hw, hoff, hon⟩
  · exact ⟨rfl, fun _ _ => rfl, rel_refl (.refl ks) _⟩
  · exact ⟨hv.trans hw.symm, hoff, hon⟩

/-! ## Merges -/

theorem merge_eq_null {base overlay : Json} : merge base overlay = .null ↔ overlay = .null := by
  obtain ⟨w, hw, hn⟩ := overlaid_some (some base) overlay
  cases hw
  exact hn

/-- overlays that are alike, laid over what is alike -/
theorem overlaid_alike {below below' above above' : Option Json} {path : List String}
    (hmerge : ∀ b b' o o', AlikeOff path b b' → AlikeOff path o o' → some o = above → some o' = above' →
      AlikeOff path (merge b o) (merge b' o'))
    (hb : Option.Rel (AlikeOff path) below below') (ho : Option.Rel (AlikeOff path) above above') :
    Option.Rel (AlikeOff path) (overlaid below above) (overlaid below' above') := by
  cases ho with
  | none =>
    rw [overlaid_none_right, overlaid_none_right]
    exact hb
  | some ho =>
    cases hb with
    | none => exact .some ho
    | some hb => exact .some (hmerge _ _ _ _ hb ho rfl rfl)

/-- **Alike off a path, laid over alike off the path.** -/
theorem AlikeOff.merge {b b' o o' : Json} {path : List String} (hb : AlikeOff path b b') (ho : AlikeOff path o o')
    (hord : o.Ordered) (hord' : o'.Ordered) : AlikeOff path (merge b o) (merge b' o') := by
  induction path generalizing b b' o o' with
  | nil => exact merge_eq_null.trans (ho.trans merge_eq_null.symm)
  | cons k ks ih =>
    obtain ⟨-, hboff, hbon⟩ := hb.members
    obtain ⟨hobj, hooff, hoon⟩ := ho.members
    cases hobject : o.isObject with
    | false =>
      have heq : o = o' := ho.resolve_right fun h => by rw [h.1] at hobject; cases hobject
      subst heq
      rw [merge_of_not_object hobject, merge_of_not_object hobject]
      exact .refl _ o
    | true =>
      have hobject' : o'.isObject = true := hobj ▸ hobject
      refine .inr ⟨isObject_merge hobject b, isObject_merge hobject' b', fun k' hk => ?_, ?_⟩
      · rw [member?_merge hord hobject, member?_merge hord' hobject', hboff k' hk, hooff k' hk]
      · rw [member?_merge hord hobject, member?_merge hord' hobject']
        refine overlaid_alike (fun b b' x x' hb hx h h' => ?_) hbon hoon
        exact ih hb hx (hord.member? h.symm) (hord'.member? h'.symm)

theorem alikeOff_mergeLayers {layers layers' : List Json} {path : List String}
    (h : List.Forall₂ (AlikeOff path) layers layers') (ho : ∀ layer ∈ layers, layer.Ordered)
    (ho' : ∀ layer ∈ layers', layer.Ordered) : AlikeOff path (mergeLayers layers) (mergeLayers layers') := by
  have hall (b b' : Json) (hb : AlikeOff path b b') : AlikeOff path (layers.foldl merge b) (layers'.foldl merge b') := by
    induction h generalizing b b' with
    | nil => exact hb
    | cons hlayer _ ih =>
      obtain ⟨hord, hrest⟩ := List.forall_mem_cons.1 ho
      obtain ⟨hord', hrest'⟩ := List.forall_mem_cons.1 ho'
      exact ih hrest hrest' _ _ (hb.merge hlayer hord hord')
  exact hall _ _ (.refl path _)

/-! ## Paths -/

/-- at the path itself both have null, both something else, or both nothing -/
theorem AlikeOff.get?_on {v w : Json} {path : List String} (h : AlikeOff path v w) :
    Option.Rel (fun x y => x = .null ↔ y = .null) (v.get? path) (w.get? path) := by
  induction path generalizing v w with
  | nil => exact .some h
  | cons k ks ih =>
    have hon := h.members.2.2
    rw [get?_cons, get?_cons]
    generalize v.member? k = x at hon
    generalize w.member? k = y at hon
    cases hon with
    | none => exact .none
    | some h => exact ih h

/-- beside the path both have the same -/
theorem AlikeOff.get?_off {v w : Json} {front : List String} {k k' : String} (h : AlikeOff (front ++ [k]) v w)
    (hk : k' ≠ k) : v.get? (front ++ [k']) = w.get? (front ++ [k']) := by
  induction front generalizing v w with
  | nil =>
    have hoff := h.members.2.1 k' hk
    rw [List.nil_append, get?_cons, get?_cons, hoff]
  | cons f front ih =>
    have hon := h.members.2.2
    rw [List.cons_append, get?_cons, get?_cons]
    generalize v.member? f = x at hon
    generalize w.member? f = y at hon
    cases hon with
    | none => rfl
    | some h => exact ih h

end Json

/-! ## Keys -/

/-- there is no dot in an option name, so it is one segment -/
theorem segments_of_isIdentifier {name : String} (h : IsIdentifier name) : Text.segments name = [name] := by
  have hdot : '.' ∉ name.toList := by
    obtain ⟨c, cs, hname, hc, hcs, -⟩ := h
    rw [hname, List.mem_cons, not_or]
    refine ⟨?_, fun hmem => ?_⟩
    · rintro rfl
      exact absurd hc (by decide)
    · exact absurd (hcs _ hmem) (by decide)
  rw [Text.segments, Text.splitDots_of_not_mem hdot, List.map_singleton, String.ofList_toList]

namespace Config.Layered

/-- the segments of the section, if one is set -/
def front (l : Layered) : List String :=
  match l.sect with
  | some s => Text.segments s
  | none => []

theorem segments_key (l : Layered) {name : String} (h : IsIdentifier name) :
    Text.segments (l.key name) = l.front ++ [name] := by
  unfold key front
  cases l.sect with
  | none => exact segments_of_isIdentifier h
  | some s => rw [Text.segments_join, segments_of_isIdentifier h]

/-- the origin depends only on which of the layers have the key -/
theorem originOf_eq_find? (l : Layered) (name : String) :
    l.originOf name = ((((l.layers.map fun v => (v.getKey? (l.key name)).isSome).zip l.sources).reverse.find?
      (·.1)).map (·.2)) := by
  rw [List.zip_map_left, ← List.map_reverse, List.find?_map, Option.map_map]
  rfl

/-- Two configurations with one section and the same sources, alike off the key of an option. -/
structure Altered (l l' : Layered) (name : String) : Prop where
  sect : l.sect = l'.sect
  sources : l.sources = l'.sources
  config : Json.AlikeOff (Text.segments (l.key name)) l.config l'.config
  layers : List.Forall₂ (Json.AlikeOff (Text.segments (l.key name))) l.layers l'.layers

theorem altered_ofLayers {layers layers' : List Json} (sources : List Source) (sect : Option String) {name : String}
    (ho : ∀ layer ∈ layers, layer.Ordered) (ho' : ∀ layer ∈ layers', layer.Ordered)
    (h : List.Forall₂ (Json.ButFor (Text.segments (((ofLayers layers sources).within sect).key name))) layers layers') :
    Altered ((ofLayers layers sources).within sect) ((ofLayers layers' sources).within sect) name := by
  have halike := h.imp fun _ _ h => h.alikeOff
  refine ⟨?_, ?_, ?_, ?_⟩
  · cases sect <;> rfl
  · rw [within_sources, within_sources]
    rfl
  · rw [within_config, within_config]
    exact Json.alikeOff_mergeLayers halike ho ho'
  · rw [within_layers, within_layers]
    exact halike

namespace Altered

variable {l l' : Layered} {name other : String}

theorem key_eq (h : Altered l l' name) (other : String) : l'.key other = l.key other := by
  unfold key
  rw [h.sect]

/-- the key of another option stands beside the altered one -/
theorem getKey?_other {v w : Json} (hv : Json.AlikeOff (Text.segments (l.key name)) v w)
    (hn : IsIdentifier name) (ho : IsIdentifier other) (hne : other ≠ name) :
    v.getKey? (l.key other) = w.getKey? (l.key other) := by
  unfold Json.getKey?
  rw [segments_key l ho]
  rw [segments_key l hn] at hv
  exact hv.get?_off hne

/-- every other option is configured alike -/
theorem raw_other (h : Altered l l' name) (hn : IsIdentifier name) (ho : IsIdentifier other)
    (hne : other ≠ name) : l.raw other = l'.raw other := by
  unfold raw
  rw [h.key_eq, getKey?_other h.config hn ho hne]

/-- the altered option has a value in both or in none -/
theorem raw_isSome (h : Altered l l' name) : (l.raw name).isSome = (l'.raw name).isSome := by
  have hon := h.config.get?_on
  unfold raw Json.getKey?
  rw [h.key_eq]
  generalize l.config.get? (Text.segments (l.key name)) = x at hon
  generalize l'.config.get? (Text.segments (l.key name)) = y at hon
  cases hon with
  | none => rfl
  | @some v w hnull =>
    by_cases hv : v = .null
    · rw [hv, hnull.1 hv]
    · have hw : w ≠ .null := mt hnull.2 hv
      cases v <;> cases w <;> first | rfl | exact absurd rfl hv | exact absurd rfl hw

/-- every option has its value from the same source -/
theorem originOf_eq (h : Altered l l' name) (hn : IsIdentifier name) (ho : IsIdentifier other) :
    l.originOf other = l'.originOf other := by
  have hlayer {v w : Json} (hv : Json.AlikeOff (Text.segments (l.key name)) v w) :
      (v.getKey? (l.key other)).isSome = (w.getKey? (l.key other)).isSome := by
    by_cases hne : other = name
    · subst hne
      have hon := hv.get?_on
      unfold Json.getKey?
      generalize v.get? (Text.segments (l.key other)) = x at hon
      generalize w.get? (Text.segments (l.key other)) = y at hon
      cases hon <;> rfl
    · rw [getKey?_other hv hn ho hne]
  have hmarks : l.layers.map (fun v => (v.getKey? (l.key other)).isSome) =
      l'.layers.map fun v => (v.getKey? (l'.key other)).isSome := by
    rw [h.key_eq]
    have hlayers := h.layers
    generalize l.layers = vs at hlayers ⊢
    generalize l'.layers = ws at hlayers ⊢
    induction hlayers with
    | nil => rfl
    | cons hv _ ih => rw [List.map_cons, List.map_cons, hlayer hv, ih]
  rw [originOf_eq_find?, originOf_eq_find?, hmarks, h.sources]

end Altered

end Config.Layered

end TieredOptions
