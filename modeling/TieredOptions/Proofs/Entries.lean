/-
What an option depends on in a configuration. A key is read from its first segment on (`Text.firstSegment`), so of every
layer only the entry under that segment can matter. Two layers that have the same entry there agree on it (`AgreeAt`);
merges and writes keep this agreement, each key by itself (`member?_merge_congr`, `member?_setKey_congr`), and so do folds
of them. The origin goes by which layers have the option's key, which the agreement decides, too.

An assignment whose key begins with another segment leaves the entry as it is (`member?_setKey_of_ne`), wherever among the
assignments it stands. If it is the only one, it adds a layer that has nothing of the option (`answersAs_over`).

Main statement: `unrelated_ignored`.
-/
import TieredOptions.Proofs.Alteration
import TieredOptions.Proofs.Loading

namespace TieredOptions

namespace Text

/-- what stands before the first dot of a key, or all of it if there is no dot -/
def firstSegment (key : String) : String := String.ofList (key.toList.takeWhile (· != '.'))

theorem splitDots_eq_cons (cs : List Char) : ∃ more, splitDots cs = cs.takeWhile (· != '.') :: more := by
  induction cs with
  | nil => exact ⟨[], rfl⟩
  | cons c cs ih =>
    obtain ⟨more, hmore⟩ := ih
    by_cases hc : c = '.'
    · exact ⟨splitDots cs, by simp [splitDots, hc]⟩
    · exact ⟨more, by simp [splitDots, hc, hmore]⟩

theorem segments_eq_cons (key : String) : ∃ more, segments key = firstSegment key :: more := by
  obtain ⟨more, hmore⟩ := splitDots_eq_cons key.toList
  exact ⟨more.map String.ofList, by simp [segments, firstSegment, hmore]⟩

end Text

namespace Json

open Text

/-- both values are objects or neither is, and under the key they have the same or both nothing -/
structure AgreeAt (k : String) (v w : Json) : Prop where
  kind : v.isObject = w.isObject
  entry : v.member? k = w.member? k

theorem AgreeAt.refl (k : String) (v : Json) : AgreeAt k v v := ⟨rfl, rfl⟩

variable {k : String} {v w : Json}

/-! ## Reads and writes -/

/-- what stands at a key is in the entry under its first segment -/
theorem getKey?_congr {key : String} (h : v.member? (firstSegment key) = w.member? (firstSegment key)) :
    v.getKey? key = w.getKey? key := by
  obtain ⟨more, hkey⟩ := segments_eq_cons key
  unfold getKey?
  rw [hkey, get?_cons, get?_cons, h]

theorem getKey?_of_absent {key : String} (h : v.member? (firstSegment key) = none) : v.getKey? key = none := by
  obtain ⟨more, hkey⟩ := segments_eq_cons key
  unfold getKey?
  rw [hkey, get?_cons, h, Option.bind_none]

/-- a write leaves every entry but the one under the first segment of its key -/
theorem member?_setKey_of_ne {key : String} (h : k ≠ firstSegment key) (v leaf : Json) :
    (v.setKey key leaf).member? k = v.member? k := by
  obtain ⟨more, hkey⟩ := segments_eq_cons key
  unfold setKey
  rw [hkey]
  exact member?_set_ne h v more leaf

/-- what a write makes of an entry depends on this entry only -/
theorem member?_setKey_congr (h : v.member? k = w.member? k) (key : String) (leaf : Json) :
    (v.setKey key leaf).member? k = (w.setKey key leaf).member? k := by
  by_cases hk : k = firstSegment key
  · obtain ⟨more, hkey⟩ := segments_eq_cons key
    unfold setKey
    rw [hkey, ← hk, member?_set_self, member?_set_self, h]
  · rw [member?_setKey_of_ne hk, member?_setKey_of_ne hk, h]

/-! ## Merges -/

/-- what a merge makes of an entry depends on this entry only -/
theorem member?_merge_congr {base base' : Json} (hb : base.member? k = base'.member? k) (h : AgreeAt k v w)
    (hv : v.Ordered) (hw : w.Ordered) : (merge base v).member? k = (merge base' w).member? k := by
  cases hobj : v.isObject with
  | false =>
    have hobj' : w.isObject = false := h.kind ▸ hobj
    rw [merge_of_not_object hobj, merge_of_not_object hobj', h.entry]
  | true =>
    have hobj' : w.isObject = true := h.kind ▸ hobj
    rw [member?_merge hv hobj, member?_merge hw hobj', hb, h.entry]

/-- objects agree where they have the same entry -/
theorem agreeAt_of_objects {layers layers' : List Json} (ho : ∀ layer ∈ layers, layer.isObject = true)
    (ho' : ∀ layer ∈ layers', layer.isObject = true)
    (h : List.Forall₂ (fun v w => v.member? k = w.member? k) layers layers') :
    List.Forall₂ (AgreeAt k) layers layers' := by
  induction h with
  | nil => exact .nil
  | cons hlayer _ ih =>
    obtain ⟨hv, hrest⟩ := List.forall_mem_cons.1 ho
    obtain ⟨hw, hrest'⟩ := List.forall_mem_cons.1 ho'
    exact .cons ⟨hv.trans hw.symm, hlayer⟩ (ih hrest hrest')

theorem member?_mergeLayers_congr {layers layers' : List Json} (h : List.Forall₂ (AgreeAt k) layers layers')
    (ho : ∀ layer ∈ layers, layer.Ordered) (ho' : ∀ layer ∈ layers', layer.Ordered) :
    (mergeLayers layers).member? k = (mergeLayers layers').member? k := by
  have hall (base base' : Json) (hb : base.member? k = base'.member? k) :
      (layers.foldl merge base).member? k = (layers'.foldl merge base').member? k := by
    induction h generalizing base base' with
    | nil => exact hb
    | cons hlayer _ ih =>
      obtain ⟨hv, hrest⟩ := List.forall_mem_cons.1 ho
      obtain ⟨hw, hrest'⟩ := List.forall_mem_cons.1 ho'
      exact ih hrest hrest' _ _ (member?_merge_congr hb hlayer hv hw)
  exact hall _ _ rfl

end Json

namespace Config

open Json Text Assignment

/-! ## Assignments -/

theorem member?_foldl_apply_congr {k : String} (as : List Assignment) {v w : Json} (h : v.member? k = w.member? k) :
    (as.foldl Assignment.apply v).member? k = (as.foldl Assignment.apply w).member? k := by
  induction as generalizing v w with
  | nil => exact h
  | cons a rest ih => exact ih (member?_setKey_congr h a.key a.value)

/-- one assignment more, to a key that begins otherwise -/
theorem assignmentLayer_insert {k : String} {a : Assignment} (h : k ≠ firstSegment a.key) (before after : List Assignment) :
    AgreeAt k (assignmentLayer (before ++ after)) (assignmentLayer (before ++ a :: after)) := by
  refine ⟨(assignmentLayer_object _).trans (assignmentLayer_object _).symm, ?_⟩
  unfold assignmentLayer
  rw [List.foldl_append, List.foldl_append, List.foldl_cons]
  exact member?_foldl_apply_congr after (member?_setKey_of_ne h _ a.value).symm

theorem assignments?_insert {before after : List String} {text : String} {as : List Assignment} {a : Assignment}
    (h : assignments? (before ++ after) = .ok as) (ha : Spells text a) :
    ∃ front back, as = front ++ back ∧ assignments? (before ++ text :: after) = .ok (front ++ a :: back) := by
  rw [assignments?_eq_mapM, List.mapM_append] at h
  obtain ⟨front, hfront, h⟩ := bind_eq_ok.1 h
  obtain ⟨back, hback, h⟩ := bind_eq_ok.1 h
  cases h
  refine ⟨front, back, rfl, ?_⟩
  rw [assignments?_eq_mapM, List.mapM_append, List.mapM_cons, hfront, readAssignment_eq_ok.2 ha, hback]
  rfl

namespace Layered

variable {l l' : Layered} {name : String}

/-! ## Answers -/

/-- Two configurations have the same for an option: the value, its origin, and what an accessor gets. -/
structure AnswersAs (l l' : Layered) (name : String) : Prop where
  raw : l.raw name = l'.raw name
  originOf : l.originOf name = l'.originOf name
  ask : ∀ info count, info.name = name → l.lookup.ask info count = l'.lookup.ask info count

theorem opinion_congr {info : AccessorInfo} (h : l.raw info.name = l'.raw info.name) : l.opinion info = l'.opinion info := by
  unfold opinion
  rw [h]

theorem answersAs_of_raw (hraw : l.raw name = l'.raw name) (horigin : l.originOf name = l'.originOf name) :
    AnswersAs l l' name := by
  refine ⟨hraw, horigin, fun info count hname => ?_⟩
  rw [← hname] at hraw
  exact opinion_congr hraw

theorem key_within (l l' : Layered) (hsect : l.sect = l'.sect) (sect : Option String) (name : String) :
    (l'.within sect).key name = (l.within sect).key name := by
  cases sect with
  | none =>
    show l'.key name = l.key name
    unfold key
    rw [hsect]
  | some s => rfl

/-- the origin goes by which layers have the key -/
theorem originOf_congr (hkey : l'.key name = l.key name) (hs : l'.sources = l.sources)
    (h : List.Forall₂ (fun v w => v.getKey? (l.key name) = w.getKey? (l.key name)) l.layers l'.layers) :
    l.originOf name = l'.originOf name := by
  have hmarks : l.layers.map (fun v => (v.getKey? (l.key name)).isSome) =
      l'.layers.map fun v => (v.getKey? (l.key name)).isSome := by
    generalize l.layers = layers at h ⊢
    generalize l'.layers = layers' at h ⊢
    induction h with
    | nil => rfl
    | cons hlayer _ ih => rw [List.map_cons, List.map_cons, hlayer, ih]
  rw [originOf_eq_find?, originOf_eq_find?, hkey, hs, hmarks]

/-- a layer on top that does not have the key is passed over -/
theorem originOf_over {top : Json} {src : Source} (hkey : l'.key name = l.key name) (hl : l'.layers = l.layers ++ [top])
    (hs : l'.sources = l.sources ++ [src]) (hn : l.layers.length = l.sources.length)
    (h : top.getKey? (l.key name) = none) : l.originOf name = l'.originOf name := by
  unfold originOf
  rw [hkey, hl, hs, List.zip_append hn, List.reverse_append, List.find?_append]
  simp [h]

/-- layers that agree on the entry of the option -/
theorem answersAs_of_agree {layers layers' : List Json} {sources : List Source} {sect : Option String}
    (h : List.Forall₂ (AgreeAt (firstSegment (((ofLayers layers sources).within sect).key name))) layers layers')
    (ho : ∀ layer ∈ layers, layer.Ordered) (ho' : ∀ layer ∈ layers', layer.Ordered) :
    AnswersAs ((ofLayers layers sources).within sect) ((ofLayers layers' sources).within sect) name := by
  have hkey := key_within (ofLayers layers sources) (ofLayers layers' sources) rfl sect name
  apply answersAs_of_raw
  · apply raw_congr
    rw [hkey, within_config, within_config]
    exact getKey?_congr (member?_mergeLayers_congr h ho ho')
  · apply originOf_congr hkey
    · rw [within_sources, within_sources]
      rfl
    · rw [within_layers, within_layers]
      exact h.imp fun _ _ hlayer => getKey?_congr hlayer.entry

/-- one layer more, on top, that has nothing of the option -/
theorem answersAs_over {layers : List Json} {sources : List Source} {top : Json} {src : Source} {sect : Option String}
    (hn : layers.length = sources.length) (ho : top.Ordered) (hobj : top.isObject = true)
    (h : top.member? (firstSegment (((ofLayers layers sources).within sect).key name)) = none) :
    AnswersAs ((ofLayers layers sources).within sect) ((ofLayers (layers ++ [top]) (sources ++ [src])).within sect)
      name := by
  have hkey := key_within (ofLayers layers sources) (ofLayers (layers ++ [top]) (sources ++ [src])) rfl sect name
  apply answersAs_of_raw
  · apply raw_congr
    rw [hkey, within_config, within_config]
    apply getKey?_congr
    show (mergeLayers layers).member? _ = (mergeLayers (layers ++ [top])).member? _
    rw [mergeLayers_append, List.foldl_cons, List.foldl_nil, member?_merge ho hobj, h, overlaid_none_right]
  · apply originOf_over hkey
    · rw [within_layers, within_layers]
      rfl
    · rw [within_sources, within_sources]
      rfl
    · rw [within_layers, within_sources]
      exact hn
    · exact getKey?_of_absent h

/-! ## Loading one assignment more -/

/-- the layers of files that load are ordered -/
theorem ordered_of_holds {read : String → Except IoFault (List UInt8)} {paths : List String}
    {fromFiles : List (Json × Source)} (h : List.Forall₂ (HoldsLayer read) paths fromFiles) :
    ∀ layer ∈ fromFiles.map (·.1), layer.Ordered := by
  intro layer hl
  obtain ⟨p, hp, rfl⟩ := List.mem_map.1 hl
  exact loadFiles_ordered (loadFiles_eq_ok.2 h) p hp

/-- **An assignment to another entry changes nothing**, wherever it is put in. -/
theorem load_insert {read : String → Except IoFault (List UInt8)} {paths before after : List String} {text : String}
    {a : Assignment} (ha : Spells text a) (h : load read paths (before ++ after) = .ok l) :
    ∃ l', load read paths (before ++ text :: after) = .ok l' ∧
      ∀ sect name, firstSegment a.key ≠ firstSegment ((l.within sect).key name) →
        AnswersAs (l.within sect) (l'.within sect) name := by
  obtain ⟨fromFiles, as, hfiles, has, rfl⟩ := load_eq_ok.1 h
  obtain ⟨front, back, rfl, hinserted⟩ := assignments?_insert (assignments?_eq_ok.2 has) ha
  have hfilesOrdered := ordered_of_holds hfiles
  have hlayer : (assignmentLayer (front ++ a :: back)).Ordered := assignmentLayer_ordered (assignments?_ordered hinserted)
  have hcommandLine : commandLine (before ++ text :: after) (front ++ a :: back) =
      [(assignmentLayer (front ++ a :: back), ⟨.cli, none, none⟩)] := if_neg (by simp)
  refine ⟨_, load_eq_ok.2 ⟨fromFiles, _, hfiles, assignments?_eq_ok.1 hinserted, rfl⟩, fun sect name hne => ?_⟩
  by_cases htexts : before ++ after = []
  · -- the assignment is the only one, and its layer is new
    have hnone (as : List Assignment) : commandLine (before ++ after) as = [] := if_pos htexts
    rw [htexts, List.forall₂_nil_left_iff] at has
    obtain ⟨rfl, rfl⟩ := List.append_eq_nil_iff.1 has
    simp only [hnone, hcommandLine, List.map_append, List.map_cons, List.map_nil, List.append_nil] at hne ⊢
    exact answersAs_over (by simp) hlayer (assignmentLayer_object _) (member?_setKey_of_ne hne.symm _ a.value)
  · have hsome : commandLine (before ++ after) (front ++ back) =
        [(assignmentLayer (front ++ back), ⟨.cli, none, none⟩)] := if_neg htexts
    have hold : (assignmentLayer (front ++ back)).Ordered :=
      assignmentLayer_ordered (assignments?_ordered (assignments?_eq_ok.2 has))
    simp only [hsome, hcommandLine, List.map_append, List.map_cons, List.map_nil] at hne ⊢
    apply answersAs_of_agree
    · refine List.rel_append (List.forall₂_same.2 fun layer _ => .refl _ layer) (.cons ?_ .nil)
      exact assignmentLayer_insert hne.symm front back
    · exact List.forall_mem_append.2 ⟨hfilesOrdered, List.forall_mem_singleton.2 hold⟩
    · exact List.forall_mem_append.2 ⟨hfilesOrdered, List.forall_mem_singleton.2 hlayer⟩

/-- **Entries that an option is not in do not matter to it.** For every option, in a section or in none:
- two configurations with the same sources, whose layers are objects that, one by one, have the same under the first
  segment of the option's key or both have nothing there, answer alike: the option has the same value in both, with the
  same origin, and every accessor of its name gets the same;
- of any files and assignments that load, one more assignment that is accepted can be put in anywhere, also as the first
  one. If the first segment of its key is another than that of the option's, the option is answered as before. -/
theorem unrelated_ignored :
    (∀ (layers layers' : List Json) (sources : List Source) (sect : Option String) (name : String),
      (∀ layer ∈ layers ++ layers', layer.Ordered ∧ layer.isObject = true) →
      List.Forall₂ (fun v w =>
        v.member? (firstSegment (((ofLayers layers sources).within sect).key name)) =
          w.member? (firstSegment (((ofLayers layers sources).within sect).key name))) layers layers' →
      AnswersAs ((ofLayers layers sources).within sect) ((ofLayers layers' sources).within sect) name) ∧
    ∀ (read : String → Except IoFault (List UInt8)) (paths before after : List String) (text : String)
      (a : Assignment) (l : Layered), load read paths (before ++ after) = .ok l → Spells text a →
      ∃ l', load read paths (before ++ text :: after) = .ok l' ∧
        ∀ sect name, firstSegment a.key ≠ firstSegment ((l.within sect).key name) →
          AnswersAs (l.within sect) (l'.within sect) name := by
  constructor
  · intro layers layers' sources sect name hlayers h
    obtain ⟨hl, hl'⟩ := List.forall_mem_append.1 hlayers
    refine answersAs_of_agree ?_ (fun layer hlayer => (hl layer hlayer).1) fun layer hlayer => (hl' layer hlayer).1
    exact agreeAt_of_objects (fun layer hlayer => (hl layer hlayer).2) (fun layer hlayer => (hl' layer hlayer).2) h
  · intro read paths before after text a l h ha
    exact load_insert ha h

/-- The layers of a server, and another entry beside it on top. -/
def sparePortLayers : List Json := portLayers.take 2 ++ [.object [("group", .string "c")]]

theorem sparePortLayers_ordered : ∀ layer ∈ sparePortLayers, layer.Ordered := by
  intro layer hl
  rcases List.mem_append.1 hl with hl | hl
  · exact portLayers_ordered layer (List.mem_of_mem_take hl)
  · rw [List.mem_singleton.1 hl]
    exact .single (.string _) "group"

/-- The port of the server is the same in both; and where a file has limits of the server, the first assignment, one for
    a client, leaves them and their origin as they are. -/
theorem port_unmoved :
    ((∀ layer ∈ portLayers ++ sparePortLayers, layer.Ordered ∧ layer.isObject = true) ∧
      List.Forall₂ (fun v w => v.member? "server" = w.member? "server") portLayers sparePortLayers ∧
      AnswersAs ((ofLayers portLayers portSources).within (some "server"))
        ((ofLayers sparePortLayers portSources).within (some "server")) "port") ∧
    Spells "client.port=80" ⟨"client.port", .number (.int 80)⟩ ∧
    ∃ l l', load limitsDisk ["base.toml"] [] = .ok l ∧ load limitsDisk ["base.toml"] ["client.port=80"] = .ok l' ∧
      AnswersAs (l.within (some "server")) (l'.within (some "server")) "limits" := by
  have hobjects : ∀ layer ∈ portLayers ++ sparePortLayers, layer.isObject = true := by decide
  have hall : ∀ layer ∈ portLayers ++ sparePortLayers, layer.Ordered ∧ layer.isObject = true := fun layer hl =>
    ⟨List.forall_mem_append.2 ⟨portLayers_ordered, sparePortLayers_ordered⟩ layer hl, hobjects layer hl⟩
  have hagree : List.Forall₂ (fun v w => v.member? "server" = w.member? "server") portLayers sparePortLayers :=
    .cons rfl (.cons rfl (.cons (by decide +kernel) .nil))
  have hport : firstSegment (((ofLayers portLayers portSources).within (some "server")).key "port") = "server" := by
    decide +kernel
  have hloaded : load limitsDisk ["base.toml"] [] =
      .ok (ofLayers (limitsFiles.map (·.1)) (limitsFiles.map (·.2))) := ok_of_toOption (by decide +kernel)
  have hspells : Spells "client.port=80" ⟨"client.port", .number (.int 80)⟩ :=
    ofText?_eq_some_iff.1 (by decide +kernel)
  obtain ⟨l', hl', hanswers⟩ := unrelated_ignored.2 limitsDisk ["base.toml"] [] [] _ _ _ hloaded hspells
  refine ⟨⟨hall, hagree, unrelated_ignored.1 _ _ _ (some "server") "port" hall ?_⟩, hspells, _, l', hloaded, hl',
    hanswers (some "server") "limits" (by decide +kernel)⟩
  rw [hport]
  exact hagree

end Layered

end Config

end TieredOptions
