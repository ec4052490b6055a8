/-
When the grouping of layers matters. A merge is not associative: a value that is no object takes away the object below
it, but once it is covered by an object there is nothing left to see of it. So where two objects have such a value
between them at one path (`Sandwiched`), it matters which two of the three are merged first. Everywhere else it does not
(`merge_assoc`). From this, step by step along a run of layers, the run can be merged into one layer before it takes its
place among the others (`foldl_merge_eq`).
-/
import Mathlib.Data.List.Induction
import TieredOptions.Proofs.Merge

namespace TieredOptions.Json

/-- an object stands at the path -/
def HasObject (v : Json) (path : List String) : Prop := ∃ w, v.get? path = some w ∧ w.isObject = true

/-- something stands at the path that is no object -/
def HasOther (v : Json) (path : List String) : Prop := ∃ w, v.get? path = some w ∧ w.isObject = false

/-- at some path the first and the last value have an object, and the one between them has something else -/
def Sandwiched (a b c : Json) : Prop := ∃ path, a.HasObject path ∧ b.HasOther path ∧ c.HasObject path

/-! ## Three values -/

theorem hasObject_nil {v : Json} : v.HasObject [] ↔ v.isObject = true := by simp [HasObject]

theorem hasOther_nil {v : Json} : v.HasOther [] ↔ v.isObject = false := by simp [HasOther]

theorem hasObject_cons {v : Json} {k : String} {path : List String} :
    v.HasObject (k :: path) ↔ ∃ w, v.member? k = some w ∧ w.HasObject path := by
  cases h : v.member? k <;> simp [HasObject, h]

theorem hasOther_cons {v : Json} {k : String} {path : List String} :
    v.HasOther (k :: path) ↔ ∃ w, v.member? k = some w ∧ w.HasOther path := by
  cases h : v.member? k <;> simp [HasOther, h]

/-- something is sandwiched at the root, or in the values of one key -/
theorem sandwiched_iff {a b c : Json} : Sandwiched a b c ↔
    (a.isObject = true ∧ b.isObject = false ∧ c.isObject = true) ∨
    ∃ k u v w, a.member? k = some u ∧ b.member? k = some v ∧ c.member? k = some w ∧ Sandwiched u v w := by
  constructor
  · rintro ⟨path, ha, hb, hc⟩
    cases path with
    | nil =>
      exact .inl ⟨hasObject_nil.1 ha, hasOther_nil.1 hb, hasObject_nil.1 hc⟩
    | cons k path =>
      obtain ⟨u, hu, ha⟩ := hasObject_cons.1 ha
      obtain ⟨v, hv, hb⟩ := hasOther_cons.1 hb
      obtain ⟨w, hw, hc⟩ := hasObject_cons.1 hc
      exact .inr ⟨k, u, v, w, hu, hv, hw, path, ha, hb, hc⟩
  · rintro (⟨ha, hb, hc⟩ | ⟨k, u, v, w, hu, hv, hw, path, ha, hb, hc⟩)
    · exact ⟨[], hasObject_nil.2 ha, hasOther_nil.2 hb, hasObject_nil.2 hc⟩
    · exact ⟨k :: path, hasObject_cons.2 ⟨u, hu, ha⟩, hasOther_cons.2 ⟨v, hv, hb⟩, hasObject_cons.2 ⟨w, hw, hc⟩⟩

/-- in one place it does not matter which two of three values are put together first, if it does not when all three
    are there -/
theorem overlaid_assoc {x y z : Option Json}
    (h : ∀ u v w, x = some u → y = some v → z = some w → merge (merge u v) w = merge u (merge v w)) :
    overlaid (overlaid x y) z = overlaid x (overlaid y z) := by
  cases z with
  | none => simp
  | some w =>
    cases y with
    | none => simp
    | some v =>
      cases x with
      | none => simp
      | some u => exact congrArg some (h u v w rfl rfl rfl)

theorem merge_assoc_of_not_object {c : Json} (hc : c.isObject = false) (a b : Json) :
    merge (merge a b) c = merge a (merge b c) := by
  rw [merge_of_not_object hc, merge_of_not_object hc, merge_of_not_object hc]

/-- **Merging is associative where nothing is sandwiched.** -/
theorem merge_assoc {a b c : Json} (ha : a.Ordered) (hb : b.Ordered) (hc : c.Ordered) (h : ¬ Sandwiched a b c) :
    merge (merge a b) c = merge a (merge b c) := by
  induction hc generalizing a b with
  | @object fs hk hfs ih =>
    have hc : (object fs).Ordered := .object hk hfs
    cases hbo : b.isObject with
    | false =>
      have hao : a.isObject = false := Bool.eq_false_iff.2 fun hao => h (sandwiched_iff.2 (.inl ⟨hao, hbo, rfl⟩))
      rw [merge_of_not_object hbo, merge_onto_not_object hbo, merge_onto_not_object hao]
    | true =>
      cases hao : a.isObject with
      | false => rw [merge_onto_not_object hao, merge_onto_not_object hao]
      | true =>
        -- three objects: key by key
        have hbc : (merge b (object fs)).isObject = true := isObject_merge rfl b
        refine ((ha.merge hb).merge hc).ext (ha.merge (hb.merge hc)) (isObject_merge rfl _) (isObject_merge hbc _)
          fun k => ?_
        rw [member?_merge hc rfl, member?_merge hb hbo, member?_merge (hb.merge hc) hbc, member?_merge hc rfl]
        refine overlaid_assoc fun u v w hu hv hw => ?_
        exact ih (k, w) ((lookup_eq_some_iff_mem hk).1 hw) (ha.member? hu) (hb.member? hv) fun hs =>
          h (sandwiched_iff.2 (.inr ⟨k, u, v, w, hu, hv, hw, hs⟩))
  | _ => exact merge_assoc_of_not_object rfl a b

/-! ## Runs of layers -/

theorem isObject_mergeLayers {layers : List Json} (h : ∀ layer ∈ layers, layer.isObject = true) :
    (mergeLayers layers).isObject = true :=
  List.foldlRecOn (motive := fun v => v.isObject = true) layers merge rfl fun base _ layer hl =>
    isObject_merge (h layer hl) base

theorem merge_empty {v : Json} (h : v.isObject = true) : merge v (.object []) = v := by
  cases v with
  | object fs => rfl
  | _ => cases h

/-- in the empty object stands nothing but itself -/
theorem not_hasOther_empty (path : List String) : ¬ (object []).HasOther path := by
  rintro ⟨w, hw, hother⟩
  cases path with
  | nil =>
    cases hw
    cases hother
  | cons k ks => cases hw

/-- what stands in the merge of some layers and is no object, stands in one of them -/
theorem HasOther.of_mergeLayers {layers : List Json} (ho : ∀ layer ∈ layers, layer.Ordered) {path : List String}
    (h : (mergeLayers layers).HasOther path) : ∃ layer ∈ layers, layer.HasOther path := by
  induction layers using List.reverseRecOn with
  | nil => exact absurd h (not_hasOther_empty path)
  | append_singleton layers top ih =>
    obtain ⟨w, hw, hobj⟩ := h
    rw [mergeLayers_append] at hw
    rcases eq_some_of_get?_merge (ho top (by simp)) hw hobj with htop | hbelow
    · exact ⟨top, by simp, w, htop, hobj⟩
    · obtain ⟨layer, hl, hlayer⟩ := ih (fun layer hl => ho layer (by simp [hl])) ⟨w, hbelow, hobj⟩
      exact ⟨layer, by simp [hl], hlayer⟩

/-- **A run of layers can be laid over a base at once**, if no two of its layers sandwich anything with the base. -/
theorem foldl_merge_eq {base : Json} (hb : base.Ordered) (hobj : base.isObject = true) {run : List Json}
    (ho : ∀ layer ∈ run, layer.Ordered) (hp : run.Pairwise fun y z => ¬ Sandwiched base y z) :
    run.foldl merge base = merge base (mergeLayers run) := by
  induction run using List.reverseRecOn with
  | nil => exact (merge_empty hobj).symm
  | append_singleton run top ih =>
    have hrun : ∀ layer ∈ run, layer.Ordered := fun layer hl => ho layer (by simp [hl])
    obtain ⟨hp, -, htop⟩ := List.pairwise_append.1 hp
    -- what the merge of the run has between the base and the top is in one of its layers
    have hclear : ¬ Sandwiched base (mergeLayers run) top := by
      rintro ⟨path, hbase, hmid, hpath⟩
      obtain ⟨layer, hl, hlayer⟩ := hmid.of_mergeLayers hrun
      exact htop layer hl top (by simp) ⟨path, hbase, hlayer, hpath⟩
    calc (run ++ [top]).foldl merge base
        = merge (run.foldl merge base) top := by rw [List.foldl_append]; rfl
      _ = merge (merge base (mergeLayers run)) top := by rw [ih hrun hp]
      _ = merge base (merge (mergeLayers run) top) :=
          merge_assoc hb (Ordered.mergeLayers hrun) (ho top (by simp)) hclear
      _ = merge base (mergeLayers (run ++ [top])) := by rw [mergeLayers_append]; rfl

/-- **Grouping is free** where nothing is sandwiched. Of all ordered values:
- three of them can be merged from the left or from the right, if there is no path at which the first and the last have
  an object and the second has something else;
- of any layers, those at the bottom objects, any run can be merged into one layer that takes its place, if there is no
  path at which the merge of the layers before the run has an object, a layer of the run has something else, and a later
  layer of the run has an object. -/
theorem grouping_free :
    (∀ a b c : Json, a.Ordered → b.Ordered → c.Ordered → ¬ Sandwiched a b c →
      merge (merge a b) c = merge a (merge b c)) ∧
    ∀ before run after : List Json, (∀ layer ∈ before ++ run, layer.Ordered) →
      (∀ layer ∈ before, layer.isObject = true) →
      (run.Pairwise fun y z => ¬ Sandwiched (mergeLayers before) y z) →
      mergeLayers (before ++ mergeLayers run :: after) = mergeLayers (before ++ run ++ after) := by
  refine ⟨fun a b c => merge_assoc, fun before run after ho hobj hp => ?_⟩
  obtain ⟨hbefore, hrun⟩ := List.forall_mem_append.1 ho
  have hgroup : run.foldl merge (mergeLayers before) = merge (mergeLayers before) (mergeLayers run) :=
    foldl_merge_eq (Ordered.mergeLayers hbefore) (isObject_mergeLayers hobj) hrun hp
  unfold mergeLayers at hgroup ⊢
  rw [List.foldl_append, List.foldl_cons, List.foldl_append, List.foldl_append, hgroup]

/-- A server with one setting. -/
def serverWith (name : String) (v : Json) : Json := .object [("server", .object [(name, v)])]

theorem serverWith_ordered {v : Json} (h : v.Ordered) (name : String) : (serverWith name v).Ordered :=
  .single (.single h name) "server"

/-- Two ports over a host: the second port does not come back to anything that the first has covered. -/
theorem ports_not_sandwiched :
    ¬ Sandwiched (serverWith "host" (.string "a")) (serverWith "port" (.number (.int 1)))
      (serverWith "port" (.number (.int 2))) := by
  have honly {k k' : String} {v w : Json} (h : (object [(k, v)]).member? k' = some w) : k' = k ∧ w = v := by
    simpa using (lookup_eq_some_iff_mem (List.pairwise_singleton _ _)).1 h
  rw [sandwiched_iff]
  rintro (⟨-, h, -⟩ | ⟨k, u, v, w, hu, hv, hw, h⟩)
  · cases h
  · obtain ⟨rfl, rfl⟩ := honly hu
    obtain ⟨-, rfl⟩ := honly hv
    obtain ⟨-, rfl⟩ := honly hw
    rcases sandwiched_iff.1 h with ⟨-, h, -⟩ | ⟨k, u, v, w, hu, hv, -, -⟩
    · cases h
    · have hkeys : "host" = "port" := (honly hu).1.symm.trans (honly hv).1
      exact absurd hkeys (by decide)

/-- The host and the two ports can be merged from either side, and the ports can be merged before they are laid over the
    host, with a user on top. -/
theorem ports_grouped :
    ¬ Sandwiched (serverWith "host" (.string "a")) (serverWith "port" (.number (.int 1)))
      (serverWith "port" (.number (.int 2))) ∧
    merge (merge (serverWith "host" (.string "a")) (serverWith "port" (.number (.int 1))))
        (serverWith "port" (.number (.int 2))) =
      merge (serverWith "host" (.string "a"))
        (merge (serverWith "port" (.number (.int 1))) (serverWith "port" (.number (.int 2)))) ∧
    mergeLayers ([serverWith "host" (.string "a")] ++
        mergeLayers [serverWith "port" (.number (.int 1)), serverWith "port" (.number (.int 2))] ::
        [.object [("user", .string "b")]]) =
      mergeLayers ([serverWith "host" (.string "a")] ++
        [serverWith "port" (.number (.int 1)), serverWith "port" (.number (.int 2))] ++
        [.object [("user", .string "b")]]) := by
  have hhost := serverWith_ordered (.string "a") "host"
  have hfirst := serverWith_ordered (.number (.int 1)) "port"
  have hsecond := serverWith_ordered (.number (.int 2)) "port"
  refine ⟨ports_not_sandwiched, grouping_free.1 _ _ _ hhost hfirst hsecond ports_not_sandwiched,
    grouping_free.2 _ _ _ ?_ ?_ ?_⟩
  · simp [hhost, hfirst, hsecond]
  · simp [serverWith, isObject]
  · have hbefore : mergeLayers [serverWith "host" (.string "a")] = serverWith "host" (.string "a") := by decide
    rw [hbefore]
    simpa using ports_not_sandwiched

/-- A text between two tables: merged from the left, nothing of the first table is left. -/
example :
    merge (merge (serverWith "host" (.string "a")) (.object [("server", .string "off")]))
        (serverWith "port" (.number (.int 2))) = serverWith "port" (.number (.int 2)) ∧
      merge (serverWith "host" (.string "a"))
        (merge (.object [("server", .string "off")]) (serverWith "port" (.number (.int 2)))) =
        .object [("server", .object [("host", .string "a"), ("port", .number (.int 2))])] := by decide

end TieredOptions.Json
