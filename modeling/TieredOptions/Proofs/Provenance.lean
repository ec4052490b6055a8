/-
Where a configured value comes from. `raw` reads the merged layers, `originOf` goes through the layers as they are; that
the two agree is `raw_agrees_origin`. It compares both with the last layer that has the option's key: the origin is the
source of that layer, and the value is what that layer has, laid over what was below if it is an object, unless the
layer has null or a later layer shadows the key.
-/
import TieredOptions.Config.Layered
import TieredOptions.Proofs.Merge

namespace TieredOptions.Config.Layered

/-- the same layers, with or without a section -/
def within (l : Layered) : Option String → Layered
  | some name => l.withSection name
  | none => l

@[simp] theorem within_config (l : Layered) (sect : Option String) : (l.within sect).config = l.config := by
  cases sect <;> rfl

@[simp] theorem within_layers (l : Layered) (sect : Option String) : (l.within sect).layers = l.layers := by
  cases sect <;> rfl

@[simp] theorem within_sources (l : Layered) (sect : Option String) : (l.within sect).sources = l.sources := by
  cases sect <;> rfl

variable {l : Layered} {name : String}

theorem raw_eq_some {v : Json} : l.raw name = some v ↔ l.config.getKey? (l.key name) = some v ∧ v ≠ .null := by
  unfold raw
  split
  · rename_i h
    rw [h]
    exact ⟨nofun, fun ⟨h, hv⟩ => absurd (Option.some.inj h).symm hv⟩
  · rename_i h
    exact ⟨fun hv => ⟨hv, fun hn => h (hn ▸ hv)⟩, And.left⟩

/-- configurations that hold the same at the keys of two options have the same for them -/
theorem raw_congr {l' : Layered} {name' : String}
    (h : l.config.getKey? (l.key name) = l'.config.getKey? (l'.key name')) : l.raw name = l'.raw name' := by
  unfold raw
  rw [h]

/-- there is no origin exactly if no layer has the key -/
theorem originOf_eq_none (hn : l.layers.length = l.sources.length) :
    l.originOf name = none ↔ ∀ layer ∈ l.layers, layer.getKey? (l.key name) = none := by
  have hfst : (l.layers.zip l.sources).map (·.1) = l.layers := List.map_fst_zip (Nat.le_of_eq hn)
  unfold originOf
  rw [Option.map_eq_none_iff, List.find?_eq_none]
  constructor
  · intro h layer hl
    rw [← hfst] at hl
    obtain ⟨p, hp, rfl⟩ := List.mem_map.1 hl
    simpa using h p (List.mem_reverse.2 hp)
  · intro h p hp
    simpa using h p.1 (List.of_mem_zip (List.mem_reverse.1 hp)).1

/-- the origin is the source of the last layer that has the key -/
theorem originOf_eq_some {before after : List Json} {top : Json} (hl : l.layers = before ++ top :: after)
    (hn : l.layers.length = l.sources.length) (htop : (top.getKey? (l.key name)).isSome)
    (hafter : ∀ layer ∈ after, layer.getKey? (l.key name) = none) :
    ∃ src, l.sources[before.length]? = some src ∧ l.originOf name = some src := by
  have hlt : before.length < l.sources.length := by
    rw [← hn, hl]
    simp
  obtain ⟨front, src, back, hs, hf⟩ : ∃ front src back, l.sources = front ++ src :: back ∧
      before.length = front.length :=
    ⟨l.sources.take before.length, l.sources[before.length], l.sources.drop (before.length + 1), by simp,
      by simp [Nat.le_of_lt hlt]⟩
  refine ⟨src, by simp [hs, hf], ?_⟩
  have hnone : (after.zip back).reverse.find? (fun p => (p.1.getKey? (l.key name)).isSome) = none := by
    refine List.find?_eq_none.2 fun p hp => ?_
    simpa using hafter p.1 (List.of_mem_zip (List.mem_reverse.1 hp)).1
  have hfirst : [(top, src)].find? (fun p => (p.1.getKey? (l.key name)).isSome) = some (top, src) :=
    List.find?_cons_of_pos htop
  unfold originOf
  rw [hl, hs, List.zip_append hf, List.zip_cons_cons, List.reverse_append, List.reverse_cons, List.find?_append,
    List.find?_append, hnone, hfirst]
  rfl

/-- if no layer has the key there is no value -/
theorem raw_eq_none (hc : l.config = Json.mergeLayers l.layers) (ho : ∀ layer ∈ l.layers, layer.Ordered)
    (h : ∀ layer ∈ l.layers, layer.getKey? (l.key name) = none) : l.raw name = none := by
  refine Option.eq_none_iff_forall_ne_some.2 fun w hw => ?_
  have hw := (raw_eq_some.1 hw).1
  rw [hc, Json.getKey?, Json.get?_mergeLayers_of_absent (Text.segments_ne_nil _) ho h] at hw
  cases hw

/-- The value is what the last layer with the key has there, laid over what is below. There is none if that is null, or
    if a later layer shadows the key. -/
theorem raw_eq_some_of_last {before after : List Json} {top v : Json}
    (ho : ∀ layer ∈ before ++ top :: after, layer.Ordered)
    (hc : l.config = Json.mergeLayers (before ++ top :: after)) (hv : top.getKey? (l.key name) = some v)
    (ha : ∀ layer ∈ after, layer.getKey? (l.key name) = none) {w : Json} :
    l.raw name = some w ↔ v ≠ .null ∧ (∀ layer ∈ after, ¬ layer.Shadows (Text.segments (l.key name))) ∧
      Json.overlaid ((Json.mergeLayers before).getKey? (l.key name)) (some v) = some w := by
  obtain ⟨hs, hn⟩ := Json.get?_mergeLayers ho hv ha
  obtain ⟨x, hx, hnull⟩ := Json.overlaid_some ((Json.mergeLayers before).getKey? (l.key name)) v
  rw [raw_eq_some, hc, Json.getKey?]
  by_cases h : ∃ layer ∈ after, layer.Shadows (Text.segments (l.key name))
  · rw [hs h]
    obtain ⟨layer, hl, hls⟩ := h
    exact ⟨nofun, fun ⟨_, hno, _⟩ => absurd hls (hno layer hl)⟩
  · have hno : ∀ layer ∈ after, ¬ layer.Shadows (Text.segments (l.key name)) := fun layer hl hls => h ⟨layer, hl, hls⟩
    rw [hn hno]
    constructor
    · rintro ⟨hw, hne⟩
      have hxw : x = w := Option.some.inj (hx.symm.trans hw)
      exact ⟨fun hv => hne (hxw ▸ hnull.2 hv), hno, hw⟩
    · rintro ⟨hne, -, hw⟩
      have hxw : x = w := Option.some.inj (hx.symm.trans hw)
      exact ⟨hw, fun hw => hne (hnull.1 (hxw.trans hw))⟩

/-- **Provenance agrees with the merged value.** For all layers with a source each, every section or none and every
name:
- if no layer has the key, there is neither an origin nor a value;
- otherwise let `top` be the last layer that has it, and `v` what it has. The origin is the source of `top`. There is a
  value unless `v` is null or a later layer shadows the key. A `v` that is no object is the value itself; an object is
  laid over what the layers before hold there, and all its paths are in the value with whatever is no object at them;
- so what has a value has an origin. -/
theorem raw_agrees_origin (layers : List Json) (sources : List Source) (sect : Option String) (name : String)
    (hn : layers.length = sources.length) (ho : ∀ layer ∈ layers, layer.Ordered) :
    let l := (ofLayers layers sources).within sect
    ((∀ layer ∈ layers, layer.getKey? (l.key name) = none) → l.originOf name = none ∧ l.raw name = none) ∧
    (∀ before top after v, layers = before ++ top :: after → top.getKey? (l.key name) = some v →
      (∀ layer ∈ after, layer.getKey? (l.key name) = none) →
      (∃ src, sources[before.length]? = some src ∧ l.originOf name = some src) ∧
      ((l.raw name).isSome ↔ v ≠ .null ∧ ∀ layer ∈ after, ¬ layer.Shadows (Text.segments (l.key name))) ∧
      (∀ w, l.raw name = some w →
        (v.isObject = false → w = v) ∧
        (v.isObject = true →
          some w = Json.overlaid ((Json.mergeLayers before).getKey? (l.key name)) (some v) ∧ w.isObject = true ∧
          ∀ path u, v.get? path = some u → ∃ x, w.get? path = some x ∧ (u.isObject = false → x = u)))) ∧
    ((l.raw name).isSome → (l.originOf name).isSome) := by
  intro l
  have hlayers : l.layers = layers := within_layers _ sect
  have hsources : l.sources = sources := within_sources _ sect
  have hconfig : l.config = Json.mergeLayers layers := within_config _ sect
  have hlen : l.layers.length = l.sources.length := by rw [hlayers, hsources, hn]
  have habsent (h : ∀ layer ∈ layers, layer.getKey? (l.key name) = none) : l.raw name = none :=
    raw_eq_none (hconfig.trans (congrArg _ hlayers.symm)) (hlayers ▸ ho) (hlayers ▸ h)
  refine ⟨fun h => ⟨(originOf_eq_none hlen).2 (hlayers ▸ h), habsent h⟩, ?_, fun h => ?_⟩
  · intro before top after v hl hv ha
    subst hl
    have hraw {w : Json} := raw_eq_some_of_last (w := w) ho hconfig hv ha
    refine ⟨?_, ?_, fun w hw => ?_⟩
    · rw [← hsources]
      exact originOf_eq_some hlayers hlen (by rw [hv]; rfl) ha
    · rw [Option.isSome_iff_exists]
      obtain ⟨x, hx, -⟩ := Json.overlaid_some ((Json.mergeLayers before).getKey? (l.key name)) v
      exact ⟨fun ⟨w, hw⟩ => ⟨(hraw.1 hw).1, (hraw.1 hw).2.1⟩, fun ⟨hne, hno⟩ => ⟨x, hraw.2 ⟨hne, hno, hx⟩⟩⟩
    · obtain ⟨-, -, hw⟩ := hraw.1 hw
      refine ⟨fun hobj => ?_, fun hobj => ?_⟩
      · rw [Json.overlaid_of_not_object hobj] at hw
        exact (Option.some.inj hw).symm
      · exact ⟨hw.symm, Json.overlaid_of_object ((ho top (by simp)).get? hv) hobj hw⟩
  · refine Option.isSome_iff_ne_none.2 fun hnone => ?_
    rw [originOf_eq_none hlen, hlayers] at hnone
    rw [habsent hnone] at h
    cases h

/-- A table of a host and a port, another port over it, and something else on top. -/
def portLayers : List Json := [
  .object [("server", .object [("host", .string "a"), ("port", .number (.int 1))])],
  .object [("server", .object [("port", .number (.int 2))])],
  .object [("user", .string "b")]]

def portSources : List Source := [⟨.file, some "base.toml", none⟩, ⟨.file, some "local.toml", none⟩, ⟨.cli, none, none⟩]

theorem portLayers_ordered : ∀ layer ∈ portLayers, layer.Ordered := by
  have hone {k : String} {v : Json} (h : v.Ordered) : (Json.object [(k, v)]).Ordered :=
    .object (List.pairwise_singleton _ _) (by simpa using h)
  have htwo : (Json.object [("host", .string "a"), ("port", .number (.int 1))]).Ordered := by
    refine .object (by decide) fun f hf => ?_
    simp only [List.mem_cons, List.not_mem_nil, or_false] at hf
    rcases hf with rfl | rfl
    · exact .string _
    · exact .number _
  simpa [portLayers] using ⟨hone htwo, hone (hone (.number _)), hone (.string _)⟩

/-- The port is that of the second file, and so is its origin. -/
theorem port_origin : (portLayers.length = portSources.length ∧ ∀ layer ∈ portLayers, layer.Ordered) ∧
    (∃ src, portSources[1]? = some src ∧
      ((ofLayers portLayers portSources).within (some "server")).originOf "port" = some src) ∧
    ∀ w, ((ofLayers portLayers portSources).within (some "server")).raw "port" = some w → w = .number (.int 2) := by
  have h := (raw_agrees_origin portLayers portSources (some "server") "port" rfl portLayers_ordered).2.1
    (portLayers.take 1) _ (portLayers.drop 2) (.number (.int 2)) rfl rfl (by decide)
  exact ⟨⟨rfl, portLayers_ordered⟩, h.1, fun w hw => (h.2.2 w hw).1 rfl⟩

end TieredOptions.Config.Layered
