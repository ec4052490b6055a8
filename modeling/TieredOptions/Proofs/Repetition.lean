/-
Layers that add nothing. A value laid over itself is itself (`merge_self`), and laying it over a base a second time
changes nothing: nothing is sandwiched between two equal values, so the two can be merged first (`merge_merge_self`).
An empty table laid over an object leaves it (`merge_empty`). So in every list of layers a layer may be repeated after
itself, and among objects an empty table may stand anywhere.

Main statement: `idle_layers`.
-/
import TieredOptions.Proofs.Assignments
import TieredOptions.Proofs.Grouping

namespace TieredOptions

namespace Json

/-! ## Two values -/

theorem overlaid_self {x : Option Json} (h : ∀ v, x = some v → merge v v = v) : overlaid x x = x := by
  cases x with
  | none => rfl
  | some v => exact congrArg some (h v rfl)

/-- a value laid over itself is itself -/
theorem merge_self {v : Json} (h : v.Ordered) : merge v v = v := by
  induction h with
  | @object fs hk hfs ih =>
    have hv : (object fs).Ordered := .object hk hfs
    refine (hv.merge hv).ext hv (isObject_merge rfl _) rfl fun k => ?_
    rw [member?_merge hv rfl]
    refine overlaid_self fun w hw => ?_
    exact ih (k, w) ((lookup_eq_some_iff_mem hk).1 hw)
  | _ => exact merge_of_not_object rfl _

/-- one value does not have an object and something else in one place -/
theorem not_sandwiched_self (a b : Json) : ¬ Sandwiched a b b := by
  rintro ⟨path, -, ⟨v, hv, hother⟩, ⟨w, hw, hobject⟩⟩
  obtain rfl : v = w := Option.some.inj (hv.symm.trans hw)
  rw [hother] at hobject
  cases hobject

/-- **What was laid over a base is absorbed** when it is laid over it again. -/
theorem merge_merge_self {base overlay : Json} (hb : base.Ordered) (ho : overlay.Ordered) :
    merge (merge base overlay) overlay = merge base overlay := by
  calc merge (merge base overlay) overlay
      = merge base (merge overlay overlay) := merge_assoc hb ho ho (not_sandwiched_self base overlay)
    _ = merge base overlay := by rw [merge_self ho]

/-! ## Layers -/

theorem mergeLayers_repeat {before after : List Json} {layer : Json} (hbefore : ∀ v ∈ before, v.Ordered)
    (hlayer : layer.Ordered) :
    mergeLayers (before ++ layer :: layer :: after) = mergeLayers (before ++ layer :: after) := by
  rw [mergeLayers_append, mergeLayers_append, List.foldl_cons, List.foldl_cons, List.foldl_cons,
    merge_merge_self (Ordered.mergeLayers hbefore) hlayer]

theorem mergeLayers_empty {before : List Json} (h : ∀ v ∈ before, v.isObject = true) (after : List Json) :
    mergeLayers (before ++ .object [] :: after) = mergeLayers (before ++ after) := by
  rw [mergeLayers_append, mergeLayers_append, List.foldl_cons, merge_empty (isObject_mergeLayers h)]

end Json

namespace Config

open Json

/-- **Layers that add nothing.** Of all ordered values:
- what is laid over a base a second time changes nothing, and a value laid over itself is itself;
- the merge of any objects is an object, and it stays the same if one of them is repeated after itself, or if an empty
  table is put anywhere among them.

Such objects are the layers that are loaded, whatever the assignments, where every file holds a table; their merge is
the configuration. -/
theorem idle_layers :
    (∀ base overlay : Json, base.Ordered → overlay.Ordered →
      merge (merge base overlay) overlay = merge base overlay ∧ merge overlay overlay = overlay) ∧
    (∀ layers : List Json, (∀ layer ∈ layers, layer.Ordered ∧ layer.isObject = true) →
      (mergeLayers layers).isObject = true ∧
      (∀ before layer after, layers = before ++ layer :: after →
        mergeLayers (before ++ layer :: layer :: after) = mergeLayers layers) ∧
      ∀ before after, layers = before ++ after →
        mergeLayers (before ++ .object [] :: after) = mergeLayers layers) ∧
    ∀ (read : String → Except IoFault (List UInt8)) (paths texts : List String) (l : Layered),
      (∀ path ∈ paths, Layered.HoldsTable read path) → Layered.load read paths texts = .ok l →
      l.config = mergeLayers l.layers ∧ ∀ layer ∈ l.layers, layer.Ordered ∧ layer.isObject = true := by
  refine ⟨?_, ?_, ?_⟩
  · intro base overlay hb ho
    exact ⟨merge_merge_self hb ho, merge_self ho⟩
  · intro layers h
    refine ⟨isObject_mergeLayers fun v hv => (h v hv).2, ?_, ?_⟩
    · rintro before layer after rfl
      obtain ⟨hbefore, hrest⟩ := List.forall_mem_append.1 h
      exact mergeLayers_repeat (fun v hv => (hbefore v hv).1) (hrest layer List.mem_cons_self).1
    · rintro before after rfl
      obtain ⟨hbefore, -⟩ := List.forall_mem_append.1 h
      exact mergeLayers_empty (fun v hv => (hbefore v hv).2) after
  · intro read paths texts l ht h
    exact Layered.load_objects h ht

/-- A text over a table is absorbed, and so is a port over another. An empty table before the user changes nothing, and
    a file and an assignment load as objects. -/
theorem ports_idle :
    (merge (merge (serverWith "host" (.string "a")) (.object [("server", .string "off")]))
        (.object [("server", .string "off")]) =
      merge (serverWith "host" (.string "a")) (.object [("server", .string "off")])) ∧
    (∀ layer ∈ Layered.portLayers, layer.Ordered ∧ layer.isObject = true) ∧
    mergeLayers (Layered.portLayers.take 1 ++ serverWith "port" (.number (.int 2)) ::
        serverWith "port" (.number (.int 2)) :: Layered.portLayers.drop 2) = mergeLayers Layered.portLayers ∧
    mergeLayers (Layered.portLayers.take 2 ++ .object [] :: Layered.portLayers.drop 2) =
      mergeLayers Layered.portLayers ∧
    Layered.HoldsTable (fun _ => .ok Layered.limitsText) "base.toml" ∧
    ∃ l, Layered.load (fun _ => .ok Layered.limitsText) ["base.toml"] ["server=off"] = .ok l ∧
      ∀ layer ∈ l.layers, layer.Ordered ∧ layer.isObject = true := by
  have hoff : (Json.object [("server", .string "off")]).Ordered := .single (.string _) "server"
  have hports : ∀ layer ∈ Layered.portLayers, layer.Ordered ∧ layer.isObject = true := by
    intro layer hl
    refine ⟨Layered.portLayers_ordered layer hl, ?_⟩
    revert layer
    decide
  obtain ⟨hrepeat, hempty⟩ := (idle_layers.2.1 Layered.portLayers hports).2
  have hload : (Layered.load (fun _ => .ok Layered.limitsText) ["base.toml"] ["server=off"]).toOption.isSome = true := by
    decide +kernel
  obtain ⟨l, hl⟩ := Option.isSome_iff_exists.1 hload
  have hl := ok_of_toOption hl
  refine ⟨(idle_layers.1 _ _ (serverWith_ordered (.string "a") "host") hoff).1, hports, hrepeat _ _ _ rfl,
    hempty _ _ rfl, Layered.limitsText_table, l, hl, ?_⟩
  exact (idle_layers.2.2 _ ["base.toml"] _ l (by simpa using Layered.limitsText_table) hl).2

end Config

end TieredOptions
