/-
Sections. A key joined to a section is looked up in what stands at the section, and written into it (`getKey?_join`,
`setKey_join`): the segments of the two together are the segments of the one and then of the other, and reading and
writing go along a path part by part. So a configuration with a section answers as one that holds nothing but the table
at the section (`raw_withSection`), whatever dots the section and the names of the options have in them.

Main statement: `sections_scoped`.
-/
import TieredOptions.Proofs.Provenance
import TieredOptions.Proofs.Writing

namespace TieredOptions

namespace Json

/-! ## Keys in two parts -/

/-- what is read at a joined key is read in what stands at its first part -/
theorem getKey?_join (v : Json) (s n : String) : v.getKey? (Text.joinKeys s n) = (v.getKey? s).bind (·.getKey? n) := by
  unfold getKey?
  rw [Text.segments_join, get?_append]

/-- what is written at a joined key is written into what stands at its first part, or into an empty object -/
theorem setKey_join (root : Json) (s n : String) (leaf : Json) :
    root.setKey (Text.joinKeys s n) leaf = root.setKey s (((root.getKey? s).getD (.object [])).setKey n leaf) := by
  unfold setKey getKey?
  rw [Text.segments_join, set_append]

/-! ## A single layer -/

theorem merge_onto_empty {v : Json} (h : v.Ordered) : merge (.object []) v = v := by
  cases hobj : v.isObject with
  | false => exact merge_of_not_object hobj _
  | true =>
    refine (Ordered.empty.merge h).ext h (isObject_merge hobj _) hobj ?_
    intro k
    rw [member?_merge h hobj]
    exact overlaid_none_left _

/-- a layer by itself is what is configured -/
theorem mergeLayers_single {v : Json} (h : v.Ordered) : mergeLayers [v] = v := merge_onto_empty h

end Json

namespace Config.Layered

open Json

variable {l : Layered} {s : String}

/-- With a section, an option is looked up in what stands there. -/
theorem raw_withSection {sub : Json} (hsub : sub.Ordered) (h : l.config.getKey? s = some sub) (sources : List Source)
    (n : String) : (l.withSection s).raw n = (ofLayers [sub] sources).raw n := by
  apply raw_congr
  show l.config.getKey? (Text.joinKeys s n) = (mergeLayers [sub]).getKey? n
  rw [getKey?_join, h, mergeLayers_single hsub]
  rfl

/-- where nothing stands at the section, nothing is configured -/
theorem raw_withSection_of_none (h : l.config.getKey? s = none) (n : String) : (l.withSection s).raw n = none := by
  have hkey : l.config.getKey? (Text.joinKeys s n) = none := by
    rw [getKey?_join, h]
    rfl
  apply Option.eq_none_iff_forall_ne_some.2
  intro v hv
  have hfound : l.config.getKey? (Text.joinKeys s n) = some v := (raw_eq_some.1 hv).1
  rw [hkey] at hfound
  cases hfound

/-- a section in two parts is the second part within the first -/
theorem raw_withSection_join (l : Layered) (s t n : String) :
    (l.withSection (Text.joinKeys s t)).raw n = (l.withSection s).raw (Text.joinKeys t n) := by
  have hkey : Text.joinKeys (Text.joinKeys s t) n = Text.joinKeys s (Text.joinKeys t n) := by
    simp [Text.joinKeys, String.append_assoc]
  apply raw_congr
  show l.config.getKey? (Text.joinKeys (Text.joinKeys s t) n) = l.config.getKey? (Text.joinKeys s (Text.joinKeys t n))
  rw [hkey]

/-- **Sections are tables of their own.** For all texts, with dots anywhere in them:
- what a value holds at a key joined to a section is what stands at the key in what it holds at the section, and nothing
  if it holds nothing there;
- to write at the joined key is to write at the section what comes of a write at the key in what stands there, or in an
  empty object if nothing does;
- whatever is configured by layers, an option in a section is configured as it is, without a section, by the one layer
  that stands at the section, which is then the whole configuration. An option in a section within that section is
  configured as it is in the inner section of this layer. Where nothing stands at the section, nothing is configured. -/
theorem sections_scoped :
    (∀ (v : Json) (s n : String), v.getKey? (Text.joinKeys s n) = (v.getKey? s).bind (·.getKey? n)) ∧
    (∀ (root leaf : Json) (s n : String),
      root.setKey (Text.joinKeys s n) leaf = root.setKey s (((root.getKey? s).getD (.object [])).setKey n leaf)) ∧
    ∀ (layers : List Json) (sources : List Source) (s n : String), (∀ layer ∈ layers, layer.Ordered) →
      (∀ sub, (ofLayers layers sources).config.getKey? s = some sub → ∀ sources',
        (ofLayers [sub] sources').config = sub ∧
        ((ofLayers layers sources).withSection s).raw n = (ofLayers [sub] sources').raw n ∧
        ∀ t, ((ofLayers layers sources).withSection (Text.joinKeys s t)).raw n =
          ((ofLayers [sub] sources').withSection t).raw n) ∧
      ((ofLayers layers sources).config.getKey? s = none →
        ((ofLayers layers sources).withSection s).raw n = none ∧
        ∀ t, ((ofLayers layers sources).withSection (Text.joinKeys s t)).raw n = none) := by
  refine ⟨getKey?_join, fun root leaf s n => setKey_join root s n leaf, ?_⟩
  intro layers sources s n ho
  constructor
  · intro sub hsub sources'
    have hordered : sub.Ordered := (Ordered.mergeLayers ho).get? hsub
    refine ⟨mergeLayers_single hordered, raw_withSection hordered hsub sources' n, ?_⟩
    intro t
    rw [raw_withSection_join]
    exact raw_withSection hordered hsub sources' (Text.joinKeys t n)
  · intro hnone
    refine ⟨raw_withSection_of_none hnone n, ?_⟩
    intro t
    rw [raw_withSection_join]
    exact raw_withSection_of_none hnone (Text.joinKeys t n)

/-- The limits of a server, and over them a text in a table without a name. -/
def limitLayers : List Json := [
  .object [("server", .object [("limits", .object [("width", .number (.int 1))])])],
  .object [("server", .object [("", .object [("limits", .string "off")])])]]

theorem limitLayers_ordered : ∀ layer ∈ limitLayers, layer.Ordered := by
  have hwidth : (Json.object [("width", .number (.int 1))]).Ordered := .single (.number _) "width"
  have hoff : (Json.object [("limits", .string "off")]).Ordered := .single (.string _) "limits"
  simpa [limitLayers] using
    ⟨(hwidth.single "limits").single "server", (hoff.single "").single "server"⟩

/-- The section `server` with the width in its limits, and the section within it that has no name, with a text. -/
theorem server_scoped : (∀ layer ∈ limitLayers, layer.Ordered) ∧
    ∃ sub, (ofLayers limitLayers []).config.getKey? "server" = some sub ∧
      ((ofLayers limitLayers []).withSection "server").raw "limits.width" = (ofLayers [sub] []).raw "limits.width" ∧
      ((ofLayers limitLayers []).withSection "server.").raw "limits" =
        ((ofLayers [sub] []).withSection "").raw "limits" ∧
      ((ofLayers limitLayers []).withSection "client").raw "limits" = none := by
  obtain ⟨hsub, -⟩ := sections_scoped.2.2 limitLayers [] "server" "limits.width" limitLayers_ordered
  obtain ⟨hinner, -⟩ := sections_scoped.2.2 limitLayers [] "server" "limits" limitLayers_ordered
  obtain ⟨-, hnone⟩ := sections_scoped.2.2 limitLayers [] "client" "limits" limitLayers_ordered
  have hserver : (ofLayers limitLayers []).config.getKey? "server" = some (.object [
      ("", .object [("limits", .string "off")]), ("limits", .object [("width", .number (.int 1))])]) := by
    decide +kernel
  have hclient : (ofLayers limitLayers []).config.getKey? "client" = none := by
    decide +kernel
  have hjoin : Text.joinKeys "server" "" = "server." := by
    decide +kernel
  refine ⟨limitLayers_ordered, _, hserver, (hsub _ hserver []).2.1, ?_, (hnone hclient).1⟩
  rw [← hjoin]
  exact (hinner _ hserver []).2.2 ""

end Config.Layered

end TieredOptions
