/-
Assignments one by one, or all at once. A value that is no object is written along a path exactly as the tree that has
nothing but this value at the path is laid over (`set_eq_merge`). The layer of the command line is such writes into an
empty object, so to lay it over a base is to lay the trees of all assignments over each other first. That comes to the
same as to lay them over the base in turn, if nothing is sandwiched on the way (`merge_assoc`): the layer has something
that is no object only at the keys that were assigned (`hasOther_foldl_apply`), and a later tree has objects only on the
way to its own key (`HasObject.of_alone`), so it is enough that no key leads to a later one.

Main statement: `assigned_stepwise`.
-/
import TieredOptions.Proofs.Assignments
import TieredOptions.Proofs.Grouping

namespace TieredOptions

namespace Json

/-! ## A value alone at a path -/

/-- the tree that has nothing but a value at a path -/
def alone : List String → Json → Json
  | [], leaf => leaf
  | k :: ks, leaf => .object [(k, alone ks leaf)]

theorem set_empty (path : List String) (leaf : Json) : (object []).set path leaf = alone path leaf := by
  induction path with
  | nil => rfl
  | cons k ks ih => rw [alone, ← ih]; rfl

theorem alone_ordered {leaf : Json} (h : leaf.Ordered) (path : List String) : (alone path leaf).Ordered := by
  rw [← set_empty]
  exact Ordered.empty.set h path

/-- **A write is a merge.** What is no object is written along a path by laying it, alone at the path, over the value. -/
theorem set_eq_merge {leaf : Json} (h : leaf.isObject = false) (path : List String) (v : Json) :
    v.set path leaf = merge v (alone path leaf) := by
  induction path generalizing v with
  | nil => exact (merge_of_not_object h v).symm
  | cons k ks ih =>
    cases v with
    | object fs =>
      cases hm : fs.lookup k with
      | none => simp [set, alone, merge, mergeFields, member?, fields, hm, set_empty]
      | some w => simp [set, alone, merge, mergeFields, member?, fields, hm, ih w]
    | _ => simp [set, alone, merge, member?, fields, insertField, set_empty]

/-! ## What stands where after a write -/

/-- what is no object has nothing in it -/
theorem eq_of_get?_of_not_object {v w : Json} (h : v.isObject = false) {path : List String}
    (hw : v.get? path = some w) : path = [] ∧ w = v := by
  cases path with
  | nil => exact ⟨rfl, (Option.some.inj hw).symm⟩
  | cons k ks =>
    rw [get?_cons, member?_of_not_object h] at hw
    cases hw

/-- after a write, what is no object was there before or is a part of what was written -/
theorem HasOther.of_set {v leaf : Json} {p path : List String} (h : (v.set p leaf).HasOther path) :
    v.HasOther path ∨ ∃ rest, path = p ++ rest ∧ leaf.HasOther rest := by
  obtain ⟨w, hw, hother⟩ := h
  rcases prefix_or_apart p path with ⟨rest, rfl⟩ | ⟨hfront, hne⟩ | hapart
  · rw [get?_set_append] at hw
    exact .inr ⟨rest, rfl, w, hw, hother⟩
  · -- on the way to what was written stand objects
    obtain ⟨x, hx, hobject⟩ := get?_set_of_prefix hfront hne v leaf
    rw [hw] at hx
    cases hx
    rw [hother] at hobject
    cases hobject
  · rw [get?_set_of_apart hapart.symm] at hw
    exact .inl ⟨w, hw, hother⟩

/-- a value that is no object, alone at a path, has objects only on the way to it -/
theorem HasObject.of_alone {leaf : Json} (hl : leaf.isObject = false) {p path : List String}
    (h : (alone p leaf).HasObject path) : path <+: p ∧ path ≠ p := by
  induction p generalizing path with
  | nil =>
    obtain ⟨w, hw, hobject⟩ := h
    obtain ⟨-, rfl⟩ := eq_of_get?_of_not_object hl hw
    rw [hl] at hobject
    cases hobject
  | cons k p ih =>
    cases path with
    | nil => exact ⟨List.nil_prefix, by simp⟩
    | cons l path =>
      obtain ⟨w, hw, hpath⟩ := hasObject_cons.1 h
      have hfield : (l, w) ∈ [(k, alone p leaf)] := (lookup_eq_some_iff_mem (List.pairwise_singleton _ _)).1 hw
      cases List.mem_singleton.1 hfield
      obtain ⟨hfront, hne⟩ := ih hpath
      exact ⟨List.cons_prefix_cons.2 ⟨rfl, hfront⟩, by simpa using hne⟩

end Json

namespace Config

open Json

/-! ## Assignments in turn -/

/-- the key of the first assignment leads to that of the second, and is not the same -/
def Assignment.LeadsTo (a b : Assignment) : Prop :=
  Text.segments a.key <+: Text.segments b.key ∧ Text.segments a.key ≠ Text.segments b.key

instance (a b : Assignment) : Decidable (a.LeadsTo b) := inferInstanceAs (Decidable (_ ∧ _))

/-- after assignments of values that are no objects, what is no object was there before or has the key of one of them -/
theorem hasOther_foldl_apply {as : List Assignment} (hv : ∀ a ∈ as, a.value.isObject = false) {v : Json}
    {path : List String} (h : (as.foldl Assignment.apply v).HasOther path) :
    v.HasOther path ∨ ∃ a ∈ as, Text.segments a.key = path := by
  induction as generalizing v with
  | nil => exact .inl h
  | cons a rest ih =>
    obtain ⟨ha, hrest⟩ := List.forall_mem_cons.1 hv
    rcases ih hrest h with h | ⟨b, hb, hkey⟩
    · rcases HasOther.of_set h with h | ⟨below, rfl, w, hw, -⟩
      · exact .inl h
      · obtain ⟨rfl, -⟩ := eq_of_get?_of_not_object ha hw
        exact .inr ⟨a, List.mem_cons_self, (List.append_nil _).symm⟩
    · exact .inr ⟨b, List.mem_cons_of_mem _ hb, hkey⟩

theorem assignmentLayer_concat (as : List Assignment) (a : Assignment) :
    assignmentLayer (as ++ [a]) = (assignmentLayer as).setKey a.key a.value := by
  unfold assignmentLayer
  rw [List.foldl_append]
  rfl

/-- nothing comes back over what was assigned, if no key leads to the next one -/
theorem not_sandwiched_alone {as : List Assignment} {a : Assignment} (hv : ∀ b ∈ as, b.value.isObject = false)
    (ha : a.value.isObject = false) (hp : ∀ b ∈ as, ¬ b.LeadsTo a) (c : Json) :
    ¬ Sandwiched c (assignmentLayer as) (alone (Text.segments a.key) a.value) := by
  rintro ⟨path, -, hmid, htop⟩
  obtain ⟨hfront, hne⟩ := htop.of_alone ha
  rcases hasOther_foldl_apply hv hmid with hempty | ⟨b, hb, rfl⟩
  · exact not_hasOther_empty path hempty
  · exact hp b hb ⟨hfront, hne⟩

/-- **The layer of the assignments is what they do one by one**, if none of them assigns an object and no key leads to
    a later one. -/
theorem merge_assignmentLayer {c : Json} (hc : c.Ordered) (hobj : c.isObject = true) {as : List Assignment}
    (ho : ∀ a ∈ as, a.value.Ordered) (hv : ∀ a ∈ as, a.value.isObject = false)
    (hp : as.Pairwise fun a b => ¬ a.LeadsTo b) : merge c (assignmentLayer as) = as.foldl Assignment.apply c := by
  induction as using List.reverseRecOn with
  | nil => exact merge_empty hobj
  | append_singleton as a ih =>
    obtain ⟨ho, hoa⟩ := List.forall_mem_append.1 ho
    obtain ⟨hv, hva⟩ := List.forall_mem_append.1 hv
    obtain ⟨hp, -, hpa⟩ := List.pairwise_append.1 hp
    have hoa : a.value.Ordered := hoa a (List.mem_singleton_self a)
    have hva : a.value.isObject = false := hva a (List.mem_singleton_self a)
    have hclear := not_sandwiched_alone hv hva (fun b hb => hpa b hb a (List.mem_singleton_self a)) c
    calc merge c (assignmentLayer (as ++ [a]))
        = merge c (merge (assignmentLayer as) (alone (Text.segments a.key) a.value)) := by
          rw [assignmentLayer_concat, setKey, set_eq_merge hva]
      _ = merge (merge c (assignmentLayer as)) (alone (Text.segments a.key) a.value) :=
          (merge_assoc hc (assignmentLayer_ordered ho) (alone_ordered hoa _) hclear).symm
      _ = merge (as.foldl Assignment.apply c) (alone (Text.segments a.key) a.value) := by rw [ih ho hv hp]
      _ = (as.foldl Assignment.apply c).setKey a.key a.value := (set_eq_merge hva _ _).symm
      _ = (as ++ [a]).foldl Assignment.apply c := by rw [List.foldl_append]; rfl

/-- What is configured after loading is what the files hold with the layer of the assignments over it. -/
theorem Layered.load_config {read : String → Except IoFault (List UInt8)} {paths texts : List String}
    {fromFiles : List (Json × Source)} {as : List Assignment} (hf : loadFiles read paths = .ok fromFiles)
    (ha : assignments? texts = .ok as) (hne : as ≠ []) :
    ∃ l, load read paths texts = .ok l ∧
      l.config = merge (mergeLayers (fromFiles.map (·.1))) (assignmentLayer as) :=
  ⟨_, load_eq hf ha hne, mergeLayers_append _ _⟩

/-- **Merging the layer of the assignments is the same as to carry them out one by one.**
- For every object and all assignments, none of an object and none with a key that leads to the key of a later one, the
  layer of the assignments laid over the object is the object after the assignments, from the first to the last.
- For every value, whatever its shape, a single assignment of what is no object is the tree that has nothing but this
  at the key, laid over the value.
- So if all files hold tables and such assignments are given, what is configured is what the files hold together after
  the assignments. -/
theorem assigned_stepwise :
    (∀ (c : Json) (as : List Assignment), c.Ordered → c.isObject = true →
      (∀ a ∈ as, a.value.Ordered ∧ a.value.isObject = false) → (as.Pairwise fun a b => ¬ a.LeadsTo b) →
      merge c (assignmentLayer as) = as.foldl Assignment.apply c) ∧
    (∀ (root v : Json) (p : String), v.isObject = false →
      root.setKey p v = merge root (alone (Text.segments p) v)) ∧
    ∀ (read : String → Except IoFault (List UInt8)) (paths texts : List String) (fromFiles : List (Json × Source))
      (as : List Assignment), Layered.loadFiles read paths = .ok fromFiles → assignments? texts = .ok as → as ≠ [] →
      (∀ path ∈ paths, Layered.HoldsTable read path) → (∀ a ∈ as, a.value.isObject = false) →
      (as.Pairwise fun a b => ¬ a.LeadsTo b) →
      ∃ l, Layered.load read paths texts = .ok l ∧
        l.config = as.foldl Assignment.apply (mergeLayers (fromFiles.map (·.1))) := by
  refine ⟨?_, ?_, ?_⟩
  · intro c as hc hobj has hp
    exact merge_assignmentLayer hc hobj (fun a ha => (has a ha).1) (fun a ha => (has a ha).2) hp
  · intro root v p hv
    exact set_eq_merge hv _ root
  · intro read paths texts fromFiles as hf ha hne ht hv hp
    obtain ⟨l, hl, hconfig⟩ := Layered.load_config hf ha hne
    have hlayers := Layered.loadFiles_layers hf ht
    have hordered : (mergeLayers (fromFiles.map (·.1))).Ordered := .mergeLayers fun v hv => (hlayers v hv).1
    have hobject : (mergeLayers (fromFiles.map (·.1))).isObject = true := isObject_mergeLayers fun v hv => (hlayers v hv).2
    refine ⟨l, hl, ?_⟩
    rw [hconfig, merge_assignmentLayer hordered hobject (assignments?_ordered ha) hv hp]

/-- A depth below the limits, a port, a text in place of the limits, and another port. -/
def closingTexts : List String := ["server.limits.depth=2", "server.port=80", "server.limits=off", "server.port=81"]

def closing : List Assignment := [
  ⟨"server.limits.depth", .number (.int 2)⟩, ⟨"server.port", .number (.int 80)⟩,
  ⟨"server.limits", .string "off"⟩, ⟨"server.port", .number (.int 81)⟩]

/-- A text closes the limits after their depth was set: so it does over a table and over what a file holds, and by
    itself over a text. -/
theorem closing_stepwise :
    (∀ a ∈ closing, a.value.Ordered ∧ a.value.isObject = false) ∧ (closing.Pairwise fun a b => ¬ a.LeadsTo b) ∧
    merge (serverWith "limits" (.object [("width", .number (.int 1))])) (assignmentLayer closing) =
      closing.foldl Assignment.apply (serverWith "limits" (.object [("width", .number (.int 1))])) ∧
    (Json.string "none").setKey "server.limits" (.string "off") =
      merge (.string "none") (alone ["server", "limits"] (.string "off")) ∧
    ∃ l, Layered.load (fun _ => .ok Layered.limitsText) ["base.toml"] closingTexts = .ok l ∧
      l.config = closing.foldl Assignment.apply (mergeLayers (Layered.limitsFiles.map (·.1))) := by
  have hvalues : ∀ a ∈ closing, a.value.Ordered ∧ a.value.isObject = false := by
    simp [closing, Ordered.number, Ordered.string, isObject]
  have hp : closing.Pairwise fun a b => ¬ a.LeadsTo b := by decide +kernel
  have hf : Layered.loadFiles (fun _ => .ok Layered.limitsText) ["base.toml"] = .ok Layered.limitsFiles :=
    ok_of_toOption (by decide +kernel)
  have ha : assignments? closingTexts = .ok closing := ok_of_toOption (by decide +kernel)
  have hbase := serverWith_ordered (.single (.number (.int 1)) "width") "limits"
  obtain ⟨hmerge, hone, hload⟩ := assigned_stepwise
  refine ⟨hvalues, hp, hmerge _ closing hbase rfl hvalues hp, hone _ _ _ rfl, ?_⟩
  exact hload _ ["base.toml"] _ _ _ hf ha (by decide) (by simpa using Layered.limitsText_table) (fun a h => (hvalues a h).2) hp

/-- A text in the way of a later key: one by one it takes the host away, in the layer it is gone before it is merged. -/
example :
    let as : List Assignment := [⟨"server", .string "off"⟩, ⟨"server.port", .number (.int 80)⟩]
    merge (serverWith "host" (.string "a")) (assignmentLayer as) =
        .object [("server", .object [("host", .string "a"), ("port", .number (.int 80))])] ∧
      as.foldl Assignment.apply (serverWith "host" (.string "a")) = serverWith "port" (.number (.int 80)) := by
  decide +kernel

end Config

end TieredOptions
