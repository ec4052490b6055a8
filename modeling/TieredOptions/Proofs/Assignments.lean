/-
What the assignments of a command line come to. They are written one after the other into one layer, which lies on top
of the layers of the files. Writing at one path leaves what stands at another, unless one of the two paths leads along
the other (`Json.get?_set_of_apart`); so an assignment of which no later one writes at, above or below its key is in the
layer as it was given (`getKey?_assignmentLayer`), and no layer is above it (`assignment_wins`).

Every layer that loading makes has the keys of its objects in order (`Ordered`), so that what is said of merges holds
of all that is loaded.
-/
import TieredOptions.Proofs.Evaluation
import TieredOptions.Proofs.Provenance
import TieredOptions.Proofs.Writing

namespace TieredOptions

namespace Toml.Value

mutual

/-- what a document says is ordered, in whatever order it says it -/
theorem toJson_ordered : (v : Value) → v.toJson.Ordered
  | .string s => .string s
  | .integer n => .number (.int n)
  | .float x => by cases x <;> constructor
  | .boolean b => .bool b
  | .datetime d => .string d.text
  | .array items => .array (toJsonItems_ordered items)
  | .table entries => .ofFields (toJsonEntries_ordered entries)

theorem toJsonItems_ordered : (items : List Value) → ∀ v ∈ toJsonItems items, v.Ordered
  | [], _, h => absurd h List.not_mem_nil
  | v :: rest, w, h => by
    rcases List.mem_cons.1 h with rfl | h
    · exact toJson_ordered v
    · exact toJsonItems_ordered rest w h

theorem toJsonEntries_ordered : (entries : List (String × Value)) → ∀ f ∈ toJsonEntries entries, f.2.Ordered
  | [], _, h => absurd h List.not_mem_nil
  | (k, v) :: rest, f, h => by
    rcases List.mem_cons.1 h with rfl | h
    · exact toJson_ordered v
    · exact toJsonEntries_ordered rest f h

end

/-- is the value a table? -/
def isTable : Value → Bool
  | .table _ => true
  | _ => false

theorem isObject_toJson {v : Value} (h : v.isTable = true) : v.toJson.isObject = true := by
  cases v with
  | table entries => rfl
  | _ => cases h

end Toml.Value

namespace Config

open Json

/-! ## The layer of the command line -/

theorem Assignment.scalar_ordered (raw : String) : (scalar raw).Ordered := by
  unfold scalar
  split
  · split
    · exact Toml.Value.toJson_ordered _
    · exact .string raw
  · exact .string raw

theorem Assignment.ofText?_ordered {text : String} {a : Assignment} (h : ofText? text = some a) :
    a.value.Ordered := by
  unfold ofText? at h
  split at h
  · cases h
  · dsimp only at h
    split at h
    · cases h
    · cases h
      exact scalar_ordered _

theorem assignments?_ordered {texts : List String} {as : List Assignment} (h : assignments? texts = .ok as) :
    ∀ a ∈ as, a.value.Ordered := by
  induction texts generalizing as with
  | nil =>
    cases h
    exact fun a ha => absurd ha List.not_mem_nil
  | cons text rest ih =>
    unfold assignments? at h
    split at h
    · cases h
    · rename_i a ha
      cases hrest : assignments? rest with
      | error e =>
        rw [hrest] at h
        cases h
      | ok as' =>
        rw [hrest] at h
        cases h
        exact List.forall_mem_cons.2 ⟨Assignment.ofText?_ordered ha, ih hrest⟩

theorem assignmentLayer_ordered {as : List Assignment} (h : ∀ a ∈ as, a.value.Ordered) :
    (assignmentLayer as).Ordered :=
  List.foldlRecOn as Assignment.apply .empty fun _ hv a ha => hv.set (h a ha) _

theorem assignmentLayer_object (as : List Assignment) : (assignmentLayer as).isObject = true :=
  List.foldlRecOn (motive := fun v => v.isObject = true) as Assignment.apply rfl fun v _ a _ =>
    isObject_set (Text.segments_ne_nil a.key) v a.value

/-- one of the two keys is the other, or leads to it -/
def Assignment.Overlaps (a b : Assignment) : Prop :=
  Text.segments a.key <+: Text.segments b.key ∨ Text.segments b.key <+: Text.segments a.key

instance (a b : Assignment) : Decidable (a.Overlaps b) := inferInstanceAs (Decidable (_ ∨ _))

/-- assignments to other keys leave a key as it is -/
theorem getKey?_foldl_apply {a : Assignment} {as : List Assignment} (h : ∀ b ∈ as, ¬ a.Overlaps b) (v : Json) :
    (as.foldl Assignment.apply v).getKey? a.key = v.getKey? a.key := by
  induction as generalizing v with
  | nil => rfl
  | cons b rest ih =>
    obtain ⟨hb, hrest⟩ := List.forall_mem_cons.1 h
    rw [List.foldl_cons, ih hrest]
    exact get?_set_of_apart (not_or.1 hb) v b.value

/-- **The last assignment to a key is what the layer has there**, whatever the ones before it made of the way to it. -/
theorem getKey?_assignmentLayer {a : Assignment} {after : List Assignment} (h : ∀ b ∈ after, ¬ a.Overlaps b)
    (before : List Assignment) : (assignmentLayer (before ++ a :: after)).getKey? a.key = some a.value := by
  unfold assignmentLayer
  rw [List.foldl_append, List.foldl_cons, getKey?_foldl_apply h]
  exact get?_set _ _ _

namespace Layered

/-! ## Loading -/

theorem loadFile_ordered {read : String → Except IoFault (List UInt8)} {path : String} {layer : Json × String}
    (h : loadFile read path = .ok layer) : layer.1.Ordered := by
  unfold loadFile at h
  split at h
  · cases h
  · split at h
    · cases h
    · split at h
      · cases h
      · cases h
        exact Toml.Value.toJson_ordered _

theorem loadFiles_ordered {read : String → Except IoFault (List UInt8)} {paths : List String}
    {layers : List (Json × Source)} (h : loadFiles read paths = .ok layers) : ∀ layer ∈ layers, layer.1.Ordered := by
  induction paths generalizing layers with
  | nil =>
    cases h
    exact fun layer hl => absurd hl List.not_mem_nil
  | cons path rest ih =>
    unfold loadFiles at h
    obtain ⟨layer, hv, h⟩ := bind_eq_ok.1 h
    obtain ⟨more, hmore, h⟩ := bind_eq_ok.1 h
    cases h
    exact List.forall_mem_cons.2 ⟨loadFile_ordered hv, ih hmore⟩

/-- The document in a file, if there is one, is a table. One that is not stands as a whole for a date-time. -/
def HoldsTable (read : String → Except IoFault (List UInt8)) (path : String) : Prop :=
  ∀ bytes cs v, read path = .ok bytes → Text.Utf8.decode bytes = .ok cs → Toml.value? cs = some v →
    v.isTable = true

theorem holdsTable_of_all {read : String → Except IoFault (List UInt8)} {path : String} {bytes : List UInt8}
    (hr : read path = .ok bytes)
    (h : ((Text.Utf8.decode bytes).toOption.bind Toml.value?).all (·.isTable) = true) : HoldsTable read path := by
  intro bytes' cs v hbytes hcs hv
  rw [hr] at hbytes
  cases hbytes
  simpa [hcs, hv, Except.toOption] using h

theorem loadFile_object {read : String → Except IoFault (List UInt8)} {path : String} {layer : Json × String}
    (h : loadFile read path = .ok layer) (ht : HoldsTable read path) : layer.1.isObject = true := by
  unfold loadFile at h
  split at h
  · cases h
  · rename_i bytes hbytes
    split at h
    · cases h
    · rename_i cs hcs
      split at h
      · cases h
      · rename_i v hv
        cases h
        exact Toml.Value.isObject_toJson (ht bytes cs v hbytes hcs hv)

theorem loadFiles_object {read : String → Except IoFault (List UInt8)} {paths : List String}
    {layers : List (Json × Source)} (h : loadFiles read paths = .ok layers) (ht : ∀ path ∈ paths, HoldsTable read path) :
    ∀ layer ∈ layers, layer.1.isObject = true := by
  induction paths generalizing layers with
  | nil =>
    cases h
    exact fun layer hl => absurd hl List.not_mem_nil
  | cons path rest ih =>
    obtain ⟨ht, hrest⟩ := List.forall_mem_cons.1 ht
    unfold loadFiles at h
    obtain ⟨layer, hv, h⟩ := bind_eq_ok.1 h
    obtain ⟨more, hmore, h⟩ := bind_eq_ok.1 h
    cases h
    exact List.forall_mem_cons.2 ⟨loadFile_object hv ht, ih hmore hrest⟩

/-- the layer of the assignments, if there are any -/
theorem loadAssignments_ok {texts : List String} {layers : List (Json × Source)}
    (h : loadAssignments texts = .ok layers) :
    ∀ layer ∈ layers, ∃ as, assignments? texts = .ok as ∧ layer = (assignmentLayer as, ⟨.cli, none, none⟩) := by
  unfold loadAssignments at h
  split at h
  · cases h
    exact fun layer hl => absurd hl List.not_mem_nil
  · split at h
    · cases h
    · rename_i as has
      cases h
      exact fun layer hl => ⟨as, has, List.mem_singleton.1 hl⟩

theorem loadFiles_layers {read : String → Except IoFault (List UInt8)} {paths : List String}
    {fromFiles : List (Json × Source)} (h : loadFiles read paths = .ok fromFiles)
    (ht : ∀ path ∈ paths, HoldsTable read path) :
    ∀ layer ∈ fromFiles.map (·.1), layer.Ordered ∧ layer.isObject = true := by
  intro layer hl
  obtain ⟨p, hp, rfl⟩ := List.mem_map.1 hl
  exact ⟨loadFiles_ordered h p hp, loadFiles_object h ht p hp⟩

/-- what is loaded is the layers of the files and of the assignments with their merge, all of them ordered objects -/
theorem load_objects {read : String → Except IoFault (List UInt8)} {paths texts : List String} {l : Layered}
    (h : load read paths texts = .ok l) (ht : ∀ path ∈ paths, HoldsTable read path) :
    l.config = mergeLayers l.layers ∧ ∀ layer ∈ l.layers, layer.Ordered ∧ layer.isObject = true := by
  unfold load at h
  obtain ⟨fromFiles, hfiles, h⟩ := bind_eq_ok.1 h
  obtain ⟨fromTexts, htexts, h⟩ := bind_eq_ok.1 h
  cases h
  refine ⟨rfl, fun layer hl => ?_⟩
  rcases List.mem_append.1 (List.map_append ▸ hl) with hl | hl
  · exact loadFiles_layers hfiles ht layer hl
  · obtain ⟨p, hp, rfl⟩ := List.mem_map.1 hl
    obtain ⟨as, has, rfl⟩ := loadAssignments_ok htexts p hp
    exact ⟨assignmentLayer_ordered (assignments?_ordered has), assignmentLayer_object as⟩

/-- what is loaded: the layers of the files, and over them that of the assignments, if there are any -/
theorem load_eq {read : String → Except IoFault (List UInt8)} {paths texts : List String}
    {fromFiles : List (Json × Source)} {as : List Assignment} (hf : loadFiles read paths = .ok fromFiles)
    (ha : assignments? texts = .ok as) (hne : as ≠ []) :
    load read paths texts =
      .ok (ofLayers (fromFiles.map (·.1) ++ [assignmentLayer as]) (fromFiles.map (·.2) ++ [⟨.cli, none, none⟩])) := by
  have htexts : texts ≠ [] := by
    rintro rfl
    cases ha
    exact hne rfl
  have hlayer : loadAssignments texts = .ok [(assignmentLayer as, ⟨.cli, none, none⟩)] := by
    rw [loadAssignments, if_neg htexts, ha]
  simp [load, hf, hlayer, bind, Except.bind, pure, Except.pure]

/-! ## What is configured -/

variable {l : Layered} {name : String}

theorem raw_eq_ite {w : Json} (h : l.config.getKey? (l.key name) = some w) :
    l.raw name = if w = .null then none else some w := by
  split
  · rename_i hw
    simp [raw, h, hw]
  · rename_i hw
    exact raw_eq_some.2 ⟨h, hw⟩

/-- what the topmost layer has is from its source -/
theorem originOf_eq_top {below : List Json} {top : Json} {sources : List Source} {src : Source}
    (hl : l.layers = below ++ [top]) (hs : l.sources = sources ++ [src]) (hn : below.length = sources.length)
    (htop : (top.getKey? (l.key name)).isSome) : l.originOf name = some src := by
  obtain ⟨src', hsrc, ho⟩ := originOf_eq_some hl (by simp [hl, hs, hn]) htop fun _ h => absurd h List.not_mem_nil
  rw [hs, hn, List.getElem?_concat_length] at hsrc
  rw [ho, hsrc]

/-- **Assignments win.** Of all files that load and all assignments that are accepted, and each assignment of which no
later one overlaps: loading succeeds, the last layer holds the assignment's value at its key, and the configuration
holds there
- that value, if it is no object;
- if it is an object, what the files hold there with the value laid over it, if that is an object, too; else the value.

Every option with this key, in whatever section, is configured as this, unless it is null, and its origin is the
command line. -/
theorem assignment_wins (read : String → Except IoFault (List UInt8)) (paths texts : List String)
    {fromFiles : List (Json × Source)} {as : List Assignment} (hf : loadFiles read paths = .ok fromFiles)
    (ha : assignments? texts = .ok as) {before after : List Assignment} {a : Assignment}
    (has : as = before ++ a :: after) (hlast : ∀ b ∈ after, ¬ a.Overlaps b) :
    ∃ l, load read paths texts = .ok l ∧
      l.layers = fromFiles.map (·.1) ++ [assignmentLayer as] ∧
      (assignmentLayer as).getKey? a.key = some a.value ∧
      ∃ w, l.config.getKey? a.key = some w ∧
        (a.value.isObject = false → w = a.value) ∧
        (a.value.isObject = true →
          (∀ f, (mergeLayers (fromFiles.map (·.1))).getKey? a.key = some f → f.isObject = true →
            w = merge f a.value) ∧
          ((∀ f, (mergeLayers (fromFiles.map (·.1))).getKey? a.key = some f → f.isObject = false) → w = a.value)) ∧
        ∀ sect name, (l.within sect).key name = a.key →
          (l.within sect).raw name = (if a.value = .null then none else some w) ∧
          (l.within sect).originOf name = some ⟨.cli, none, none⟩ := by
  have htop : (assignmentLayer as).getKey? a.key = some a.value := by
    rw [has]
    exact getKey?_assignmentLayer hlast before
  have hordered : ∀ layer ∈ fromFiles.map (·.1) ++ assignmentLayer as :: [], layer.Ordered := by
    intro layer hl
    rcases List.mem_append.1 hl with hl | hl
    · obtain ⟨p, hp, rfl⟩ := List.mem_map.1 hl
      exact loadFiles_ordered hf p hp
    · rw [List.mem_singleton.1 hl]
      exact assignmentLayer_ordered (assignments?_ordered ha)
  obtain ⟨w, hw, hnull⟩ := overlaid_some ((mergeLayers (fromFiles.map (·.1))).getKey? a.key) a.value
  have hconfig : (mergeLayers (fromFiles.map (·.1) ++ [assignmentLayer as])).getKey? a.key = some w := by
    rw [← hw]
    exact (get?_mergeLayers hordered htop fun _ h => absurd h List.not_mem_nil).2 fun _ h => absurd h List.not_mem_nil
  refine ⟨_, load_eq hf ha (by simp [has]), rfl, htop, w, hconfig, fun hv => ?_, fun _ => ⟨?_, ?_⟩, ?_⟩
  · rw [overlaid_of_not_object hv] at hw
    exact (Option.some.inj hw).symm
  · intro f hf _
    rw [hf] at hw
    exact (Option.some.inj hw).symm
  · intro hnot
    cases hbelow : (mergeLayers (fromFiles.map (·.1))).getKey? a.key with
    | none =>
      rw [hbelow] at hw
      exact (Option.some.inj hw).symm
    | some f =>
      rw [hbelow] at hw
      exact (Option.some.inj hw).symm.trans (merge_onto_not_object (hnot f hbelow) a.value)
  · intro sect name hkey
    refine ⟨?_, originOf_eq_top (within_layers _ sect) (within_sources _ sect) (by simp) ?_⟩
    · rw [raw_eq_ite (by rw [within_config, hkey]; exact hconfig)]
      simp only [hnull]
    · rw [hkey, htop]
      rfl

/-- A file with a table of limits. -/
def limitsText : List UInt8 := "[server.limits]\nwidth = 1".toList.map fun c => UInt8.ofNat c.toNat

/-- Three assignments. The second needs a table that the first has replaced by a text. -/
def limitsTexts : List String := ["server=off", "server.limits={ depth = 2 }", "server.port=80"]

def limitsFiles : List (Json × Source) :=
  [(.object [("server", .object [("limits", .object [("width", .number (.int 1))])])],
    ⟨.file, some "base.toml", some "28f3e6d8b9a9d9848ce17d26861ba839a9439380da9d197be3e8046eb109fe49"⟩)]

def depthLimit : Assignment := ⟨"server.limits", .object [("depth", .number (.int 2))]⟩

def portAssignment : Assignment := ⟨"server.port", .number (.int 80)⟩

theorem limitsText_table : HoldsTable (fun _ => .ok limitsText) "base.toml" :=
  holdsTable_of_all rfl (by decide +kernel)

/-- The depth goes into the table of the file, and the command line is the origin of the table. -/
theorem limits_win :
    (loadFiles (fun _ => .ok limitsText) ["base.toml"] = .ok limitsFiles ∧
      assignments? limitsTexts = .ok ([⟨"server", .string "off"⟩] ++ depthLimit :: [portAssignment]) ∧
      ∀ b ∈ [portAssignment], ¬ depthLimit.Overlaps b) ∧
    ∃ l, load (fun _ => .ok limitsText) ["base.toml"] limitsTexts = .ok l ∧
      (l.withSection "server").raw "limits" =
        some (.object [("depth", .number (.int 2)), ("width", .number (.int 1))]) ∧
      (l.withSection "server").originOf "limits" = some ⟨.cli, none, none⟩ := by
  have hf : loadFiles (fun _ => .ok limitsText) ["base.toml"] = .ok limitsFiles :=
    ok_of_toOption (by decide +kernel)
  have ha : assignments? limitsTexts = .ok ([⟨"server", .string "off"⟩] ++ depthLimit :: [portAssignment]) :=
    ok_of_toOption (by decide +kernel)
  have hlast : ∀ b ∈ [portAssignment], ¬ depthLimit.Overlaps b := by decide +kernel
  obtain ⟨l, hl, -, -, w, -, -, hobj, hopt⟩ :=
    assignment_wins (fun _ => .ok limitsText) ["base.toml"] limitsTexts hf ha rfl hlast
  have hw : w = .object [("depth", .number (.int 2)), ("width", .number (.int 1))] :=
    ((hobj rfl).1 (.object [("width", .number (.int 1))]) (by decide +kernel) rfl).trans (by decide +kernel)
  have hkey : Text.joinKeys "server" "limits" = "server.limits" := by decide +kernel
  obtain ⟨hraw, horigin⟩ := hopt (some "server") "limits" hkey
  have hnull : depthLimit.value ≠ .null := by decide
  rw [if_neg hnull, hw] at hraw
  exact ⟨⟨hf, ha, hlast⟩, l, hl, hraw, horigin⟩

end Layered

end Config

end TieredOptions
