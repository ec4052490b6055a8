/-
What loads, and what is the error where something does not. Files and assignments are each gone through in order, up to
the first that fails (`mapM_eq_error`). What a file must be is `HoldsLayer`, what can be wrong with it `FileFault`. An
assignment is taken apart at its first equals sign (`Parts`); `Spells` says what it assigns, and `Malformed` why it is
none. Both are said of the text as it stands: a key is what is left of it without white space at either end
(`Text.Trimmed`), and a segment is what stands between two dots or ends of the key (`Text.Segment`).

Main statement: `load_all_or_nothing`.
-/
import Mathlib.Data.List.Forall2
import Mathlib.Data.List.TakeWhile
import TieredOptions.Proofs.Assignments
import TieredOptions.Proofs.Grouping

namespace TieredOptions

/-! ## The first failure -/

section FirstFailure

variable {α β ε : Type} {f : α → Except ε β} {xs : List α}

theorem exists_forall₂_iff {r : α → β → Prop} :
    (∃ ys, List.Forall₂ r xs ys) ↔ ∀ x ∈ xs, ∃ y, r x y := by
  constructor
  · rintro ⟨ys, h⟩
    induction h with
    | nil => exact List.forall_mem_nil _
    | cons hxy _ ih => exact List.forall_mem_cons.2 ⟨⟨_, hxy⟩, ih⟩
  · intro h
    induction xs with
    | nil => exact ⟨[], .nil⟩
    | cons x rest ih =>
      obtain ⟨⟨y, hy⟩, hrest⟩ := List.forall_mem_cons.1 h
      obtain ⟨ys, hys⟩ := ih hrest
      exact ⟨y :: ys, .cons hy hys⟩

theorem mapM_eq_ok {ys : List β} : xs.mapM f = .ok ys ↔ List.Forall₂ (fun x y => f x = .ok y) xs ys := by
  induction xs generalizing ys with
  | nil => cases ys <;> simp [pure, Except.pure]
  | cons x rest ih =>
    rw [List.mapM_cons, List.forall₂_cons_left_iff]
    constructor
    · intro h
      obtain ⟨y, hy, h⟩ := bind_eq_ok.1 h
      obtain ⟨more, hmore, h⟩ := bind_eq_ok.1 h
      cases h
      exact ⟨y, more, hy, ih.1 hmore, rfl⟩
    · rintro ⟨y, more, hy, hmore, rfl⟩
      rw [hy, ih.2 hmore]
      rfl

/-- the error of the whole is that of the first that fails -/
theorem mapM_eq_error {e : ε} : xs.mapM f = .error e ↔
    ∃ before x after, xs = before ++ x :: after ∧ (∀ y ∈ before, ∃ b, f y = .ok b) ∧ f x = .error e := by
  induction xs with
  | nil => simp [pure, Except.pure]
  | cons x rest ih =>
    rw [List.mapM_cons]
    cases hx : f x with
    | error e' =>
      constructor
      · intro h
        cases h
        exact ⟨[], x, rest, rfl, List.forall_mem_nil _, hx⟩
      · rintro ⟨before, y, after, hsplit, hbefore, hy⟩
        cases before with
        | nil =>
          cases hsplit
          rw [hx] at hy
          cases hy
          rfl
        | cons z before =>
          cases hsplit
          obtain ⟨b, hb⟩ := hbefore x List.mem_cons_self
          rw [hx] at hb
          cases hb
    | ok b =>
      have hrest : (Except.ok b >>= fun b => do return b :: (← rest.mapM f)) = .error e ↔ rest.mapM f = .error e := by
        cases rest.mapM f <;> simp [bind, Except.bind, pure, Except.pure]
      rw [hrest, ih]
      constructor
      · rintro ⟨before, y, after, rfl, hbefore, hy⟩
        exact ⟨x :: before, y, after, rfl, List.forall_mem_cons.2 ⟨⟨b, hx⟩, hbefore⟩, hy⟩
      · rintro ⟨before, y, after, hsplit, hbefore, hy⟩
        cases before with
        | nil =>
          cases hsplit
          rw [hx] at hy
          cases hy
        | cons z before =>
          cases hsplit
          exact ⟨before, y, after, rfl, (List.forall_mem_cons.1 hbefore).2, hy⟩

end FirstFailure

namespace Text

/-! ## White space at the ends -/

/-- The second text is the first without the white space at its ends. -/
structure Trimmed (cs key : List Char) : Prop where
  between : ∃ front back, cs = front ++ key ++ back ∧ (∀ c ∈ front, isBlank c = true) ∧ ∀ c ∈ back, isBlank c = true
  head : ∀ c ∈ key.head?, isBlank c = false
  last : ∀ c ∈ key.getLast?, isBlank c = false

/-- at the front of what is left nothing is to be dropped -/
theorem dropWhile_of_head {p : Char → Bool} {cs : List Char} (h : ∀ c ∈ cs.head?, p c = false) :
    cs.dropWhile p = cs := by
  cases cs with
  | nil => rfl
  | cons c cs =>
    have hc : p c = false := h c rfl
    simp [hc]

/-- what is left begins with something that is not dropped -/
theorem head_dropWhile {p : Char → Bool} {cs : List Char} : ∀ c ∈ (cs.dropWhile p).head?, p c = false := by
  intro c hc
  have hfirst := List.head?_dropWhile_not p cs
  rw [Option.mem_def.1 hc] at hfirst
  exact hfirst

theorem Trimmed.trimChars_eq {cs key : List Char} (h : Trimmed cs key) : trimChars cs = key := by
  obtain ⟨⟨front, back, rfl, hfront, hback⟩, hhead, hlast⟩ := h
  unfold trimChars
  rw [List.append_assoc, List.dropWhile_append_of_pos hfront]
  cases key with
  | nil =>
    have hnil : back.dropWhile isBlank = [] := List.dropWhile_eq_nil_iff.2 hback
    simp [hnil]
  | cons c key =>
    have hkeep : ((c :: key) ++ back).dropWhile isBlank = (c :: key) ++ back := dropWhile_of_head (by simpa using hhead)
    have hreverse : (c :: key).reverse.dropWhile isBlank = (c :: key).reverse :=
      dropWhile_of_head (by rwa [List.head?_reverse])
    rw [hkeep, List.reverse_append, List.dropWhile_append_of_pos (by simpa using hback), hreverse, List.reverse_reverse]

theorem trimmed_trimChars (cs : List Char) : Trimmed cs (trimChars cs) := by
  -- what is left once the front is dropped, and then what is left of that from behind
  obtain ⟨front, hfront⟩ : ∃ rest, rest = cs.dropWhile isBlank := ⟨_, rfl⟩
  have hkey : trimChars cs = (front.reverse.dropWhile isBlank).reverse := by rw [hfront]; rfl
  have hcs : cs = cs.takeWhile isBlank ++ front := by rw [hfront, List.takeWhile_append_dropWhile]
  have hrest : front = trimChars cs ++ (front.reverse.takeWhile isBlank).reverse := by
    rw [hkey, ← List.reverse_append, List.takeWhile_append_dropWhile, List.reverse_reverse]
  refine ⟨⟨cs.takeWhile isBlank, (front.reverse.takeWhile isBlank).reverse, ?_, ?_, ?_⟩, ?_, ?_⟩
  · rw [List.append_assoc, ← hrest]
    exact hcs
  · exact fun c hc => List.mem_takeWhile_imp hc
  · exact fun c hc => List.mem_takeWhile_imp (List.mem_reverse.1 hc)
  · intro c hc
    have hfirst : front.head? = some c := by rw [hrest, List.head?_append, Option.mem_def.1 hc, Option.some_or]
    rw [hfront] at hfirst
    exact head_dropWhile c hfirst
  · intro c hc
    rw [hkey, List.getLast?_reverse] at hc
    exact head_dropWhile c hc

theorem trimmed_iff {cs key : List Char} : Trimmed cs key ↔ trimChars cs = key := by
  constructor
  · exact Trimmed.trimChars_eq
  · rintro rfl
    exact trimmed_trimChars cs

/-! ## Segments -/

/-- The text is a segment of the key: there is no dot in it, and on either side of it a dot or the end of the key. -/
def Segment (key word : List Char) : Prop :=
  '.' ∉ word ∧ ∃ before after, key = before ++ word ++ after ∧ (before = [] ∨ ∃ front, before = front ++ ['.']) ∧
    (after = [] ∨ ∃ back, after = '.' :: back)

/-- **A key is cut into its segments.** -/
theorem mem_splitDots {key word : List Char} : word ∈ splitDots key ↔ Segment key word := by
  constructor
  · intro h
    induction hn : key.length using Nat.strong_induction_on generalizing key with
    | _ n ih =>
      by_cases hdot : '.' ∈ key
      · obtain ⟨first, rest, rfl, hfirst⟩ := List.eq_append_cons_of_mem hdot
        rw [splitDots_append_dot, splitDots_of_not_mem hfirst] at h
        rcases List.mem_cons.1 h with rfl | h
        · exact ⟨hfirst, [], '.' :: rest, rfl, .inl rfl, .inr ⟨rest, rfl⟩⟩
        · obtain ⟨hword, before, after, rfl, hbefore, hafter⟩ := ih _ (by simp at hn; omega) h rfl
          refine ⟨hword, first ++ '.' :: before, after, by simp, .inr ?_, hafter⟩
          rcases hbefore with rfl | ⟨front, rfl⟩
          · exact ⟨first, rfl⟩
          · exact ⟨first ++ '.' :: front, by simp⟩
      · rw [splitDots_of_not_mem hdot] at h
        rw [List.mem_singleton.1 h]
        exact ⟨hdot, [], [], by simp, .inl rfl, .inl rfl⟩
  · rintro ⟨hword, before, after, rfl, hbefore, hafter⟩
    have hrest : word ∈ splitDots (word ++ after) := by
      rcases hafter with rfl | ⟨back, rfl⟩
      · simp [splitDots_of_not_mem hword]
      · simp [splitDots_append_dot, splitDots_of_not_mem hword]
    rcases hbefore with rfl | ⟨front, rfl⟩
    · simpa using hrest
    · have hfront : front ++ ['.'] ++ word ++ after = front ++ '.' :: (word ++ after) := by simp
      rw [hfront, splitDots_append_dot]
      exact List.mem_append_right _ hrest

end Text

namespace Config

open Text Json

namespace Assignment

/-! ## Assignments -/

/-- The text in two parts, cut at its first equals sign. -/
def Parts (text : String) (before raw : List Char) : Prop := text.toList = before ++ '=' :: raw ∧ '=' ∉ before

/-- The text assigns a value to a key: what stands before the first equals sign is the key, with no empty segment in it,
    and what stands after it is on one line. -/
def Spells (text : String) (a : Assignment) : Prop :=
  ∃ before key raw value, Parts text before raw ∧ Trimmed before key ∧ key ≠ [] ∧ ¬ Segment key [] ∧
    '\n' ∉ raw ∧ '\r' ∉ raw ∧ Trimmed raw value ∧ a = ⟨String.ofList key, scalar (String.ofList value)⟩

/-- why a text is no assignment -/
inductive Malformed (text : String) : Prop where
  | noEquals (h : '=' ∉ text.toList)
  | noKey {before raw : List Char} (h : Parts text before raw) (hk : Trimmed before [])
  | emptySegment {before raw key : List Char} (h : Parts text before raw) (hk : Trimmed before key)
      (hs : Segment key [])
  | lineBreak {before raw : List Char} (h : Parts text before raw) (hb : '\n' ∈ raw ∨ '\r' ∈ raw)

variable {text : String} {before raw : List Char}

theorem split?_of_parts (h : Parts text before raw) : split? text = some (before, raw) := by
  have hbefore : ∀ c ∈ before, (c != '=') = true := fun c hc => bne_iff_ne.2 fun he => h.2 (he ▸ hc)
  unfold split?
  rw [h.1, List.dropWhile_append_of_pos hbefore, List.takeWhile_append_of_pos hbefore]
  simp

theorem parts_or_noEquals (text : String) : (∃ before raw, Parts text before raw) ∨ '=' ∉ text.toList := by
  by_cases h : '=' ∈ text.toList
  · obtain ⟨before, raw, htext, hbefore⟩ := List.eq_append_cons_of_mem h
    exact .inl ⟨before, raw, htext, hbefore⟩
  · exact .inr h

theorem Parts.equals_mem (h : Parts text before raw) : '=' ∈ text.toList := by
  rw [h.1]
  exact List.mem_append_right before List.mem_cons_self

theorem Parts.unique {before' raw' : List Char} (h : Parts text before raw) (h' : Parts text before' raw') :
    before' = before ∧ raw' = raw := by
  have hsome : some (before', raw') = some (before, raw) := (split?_of_parts h').symm.trans (split?_of_parts h)
  cases hsome
  exact ⟨rfl, rfl⟩

theorem breaksLine_iff {cs : List Char} : breaksLine cs = true ↔ '\n' ∈ cs ∨ '\r' ∈ cs := by
  simp only [breaksLine, List.any_eq_true, Bool.or_eq_true, beq_iff_eq]
  constructor
  · rintro ⟨c, hc, rfl | rfl⟩
    · exact .inl hc
    · exact .inr hc
  · rintro (h | h)
    · exact ⟨_, h, .inl rfl⟩
    · exact ⟨_, h, .inr rfl⟩

theorem ofText?_of_parts (h : Parts text before raw) :
    ofText? text = if trimChars before = [] ∨ [] ∈ splitDots (trimChars before) ∨ breaksLine raw then none
      else some ⟨String.ofList (trimChars before), scalar (String.ofList (trimChars raw))⟩ := by
  unfold ofText?
  rw [split?_of_parts h]

theorem ofText?_of_noEquals (h : '=' ∉ text.toList) : ofText? text = none := by
  have hnone : text.toList.dropWhile (· != '=') = [] :=
    List.dropWhile_eq_nil_iff.2 fun c hc => bne_iff_ne.2 fun he => h (he ▸ hc)
  unfold ofText? split?
  rw [hnone]

/-- what is wrong with a text that has an equals sign -/
theorem malformed_of_parts (h : Parts text before raw) :
    Malformed text ↔ trimChars before = [] ∨ [] ∈ splitDots (trimChars before) ∨ breaksLine raw = true := by
  rw [mem_splitDots, breaksLine_iff]
  constructor
  · rintro (hno | ⟨hp, hk⟩ | ⟨hp, hk, hs⟩ | ⟨hp, hb⟩)
    · exact absurd h.equals_mem hno
    · obtain ⟨rfl, rfl⟩ := h.unique hp
      exact .inl hk.trimChars_eq
    · obtain ⟨rfl, rfl⟩ := h.unique hp
      rw [hk.trimChars_eq]
      exact .inr (.inl hs)
    · obtain ⟨rfl, rfl⟩ := h.unique hp
      exact .inr (.inr hb)
  · rintro (hk | hs | hb)
    · exact .noKey h (trimmed_iff.2 hk)
    · exact .emptySegment h (trimmed_trimChars before) hs
    · exact .lineBreak h hb

theorem ofText?_eq_none_iff : ofText? text = none ↔ Malformed text := by
  rcases parts_or_noEquals text with ⟨before, raw, h⟩ | h
  · rw [ofText?_of_parts h, malformed_of_parts h]
    simp only [ite_eq_left_iff, reduceCtorEq, imp_false, not_not]
  · exact iff_of_true (ofText?_of_noEquals h) (.noEquals h)

theorem ofText?_eq_some_iff {a : Assignment} : ofText? text = some a ↔ Spells text a := by
  rcases parts_or_noEquals text with ⟨before, raw, h⟩ | h
  · rw [ofText?_of_parts h, Option.ite_none_left_eq_some, mem_splitDots, breaksLine_iff]
    constructor
    · rintro ⟨hok, ha⟩
      obtain ⟨hkey, hok⟩ := not_or.1 hok
      obtain ⟨hsegment, hok⟩ := not_or.1 hok
      obtain ⟨hn, hr⟩ := not_or.1 hok
      exact ⟨before, trimChars before, raw, trimChars raw, h, trimmed_trimChars before, hkey, hsegment, hn, hr,
        trimmed_trimChars raw, (Option.some.inj ha).symm⟩
    · rintro ⟨before', key, raw', value, hp, hk, hkey, hsegment, hn, hr, hv, rfl⟩
      obtain ⟨rfl, rfl⟩ := h.unique hp
      rw [hk.trimChars_eq, hv.trimChars_eq]
      exact ⟨not_or.2 ⟨hkey, not_or.2 ⟨hsegment, not_or.2 ⟨hn, hr⟩⟩⟩, rfl⟩
  · rw [ofText?_of_noEquals h]
    refine ⟨nofun, ?_⟩
    rintro ⟨before, key, raw, value, hp, -⟩
    exact absurd hp.equals_mem h

end Assignment

open Assignment

/-- an assignment, or the text that is none -/
def readAssignment (text : String) : Except String Assignment :=
  match ofText? text with
  | none => .error text
  | some a => .ok a

theorem readAssignment_eq_ok {text : String} {a : Assignment} : readAssignment text = .ok a ↔ Spells text a := by
  rw [← ofText?_eq_some_iff]
  unfold readAssignment
  cases ofText? text <;> simp

theorem readAssignment_eq_error {text text' : String} :
    readAssignment text = .error text' ↔ Malformed text ∧ text' = text := by
  rw [← ofText?_eq_none_iff]
  unfold readAssignment
  cases ofText? text <;> simp [eq_comm]

theorem readAssignment_isOk {text : String} : (∃ a, readAssignment text = .ok a) ↔ ¬ Malformed text := by
  rw [← ofText?_eq_none_iff]
  unfold readAssignment
  cases ofText? text <;> simp

theorem assignments?_eq_mapM (texts : List String) : assignments? texts = texts.mapM readAssignment := by
  induction texts with
  | nil => rfl
  | cons text rest ih =>
    rw [List.mapM_cons, assignments?, ih, readAssignment]
    cases ofText? text with
    | none => rfl
    | some a => cases rest.mapM readAssignment <;> rfl

theorem assignments?_eq_ok {texts : List String} {as : List Assignment} :
    assignments? texts = .ok as ↔ List.Forall₂ Spells texts as := by
  rw [assignments?_eq_mapM, mapM_eq_ok]
  exact ⟨fun h => h.imp fun _ _ => readAssignment_eq_ok.1, fun h => h.imp fun _ _ => readAssignment_eq_ok.2⟩

theorem assignments?_eq_error {texts : List String} {text : String} : assignments? texts = .error text ↔
    ∃ before after, texts = before ++ text :: after ∧ (∀ t ∈ before, ¬ Malformed t) ∧ Malformed text := by
  rw [assignments?_eq_mapM, mapM_eq_error]
  simp only [readAssignment_isOk, readAssignment_eq_error]
  constructor
  · rintro ⟨before, _, after, hsplit, hbefore, hm, rfl⟩
    exact ⟨before, after, hsplit, hbefore, hm⟩
  · rintro ⟨before, after, hsplit, hbefore, hm⟩
    exact ⟨before, text, after, hsplit, hbefore, hm, rfl⟩

namespace Layered

/-! ## Files -/

section Files

variable {read : String → Except IoFault (List UInt8)} {path : String} {paths : List String}

/-- The file holds a document. That is the layer; the source is the path, with the digest of the bytes. -/
def HoldsLayer (read : String → Except IoFault (List UInt8)) (path : String) (layer : Json × Source) : Prop :=
  ∃ bytes cs v, read path = .ok bytes ∧ Utf8.decode bytes = .ok cs ∧ Toml.value? cs = some v ∧
    layer = (v.toJson, ⟨.file, some path, some (Digest.Sha256.digest bytes)⟩)

/-- what is wrong with a file -/
inductive FileFault (read : String → Except IoFault (List UInt8)) (path : String) : LoadError → Prop where
  | unreadable {fault : IoFault} (h : read path = .error fault) : FileFault read path (.unreadable path fault)
  | notUtf8 {bytes : List UInt8} {fault : Utf8.Fault} (h : read path = .ok bytes) (hd : Utf8.decode bytes = .error fault) :
    FileFault read path (.notUtf8 path fault)
  | notToml {bytes : List UInt8} {cs : List Char} (h : read path = .ok bytes) (hd : Utf8.decode bytes = .ok cs)
      (ht : Toml.value? cs = none) : FileFault read path (.notToml path)

/-- the layer of a file with its source -/
def fileLayer (read : String → Except IoFault (List UInt8)) (path : String) : Except LoadError (Json × Source) :=
  (loadFile read path).map fun (v, digest) => (v, ⟨.file, some path, some digest⟩)

theorem fileLayer_eq_ok {layer : Json × Source} : fileLayer read path = .ok layer ↔ HoldsLayer read path layer := by
  constructor
  · intro h
    unfold fileLayer loadFile at h
    split at h
    · cases h
    · rename_i bytes hbytes
      split at h
      · cases h
      · rename_i cs hcs
        split at h
        · cases h
        · rename_i v hv
          cases h
          exact ⟨bytes, cs, v, hbytes, hcs, hv, rfl⟩
  · rintro ⟨bytes, cs, v, hbytes, hcs, hv, rfl⟩
    simp [fileLayer, loadFile, hbytes, hcs, hv, Except.map]

theorem fileLayer_eq_error {e : LoadError} : fileLayer read path = .error e ↔ FileFault read path e := by
  constructor
  · intro h
    unfold fileLayer loadFile at h
    split at h
    · rename_i fault hread
      cases h
      exact .unreadable hread
    · rename_i bytes hbytes
      split at h
      · rename_i fault hcs
        cases h
        exact .notUtf8 hbytes hcs
      · rename_i cs hcs
        split at h
        · rename_i hv
          cases h
          exact .notToml hbytes hcs hv
        · cases h
  · rintro (h | ⟨h, hd⟩ | ⟨h, hd, ht⟩)
    · simp [fileLayer, loadFile, h, Except.map]
    · simp [fileLayer, loadFile, h, hd, Except.map]
    · simp [fileLayer, loadFile, h, hd, ht, Except.map]

theorem loadFiles_eq_mapM (read : String → Except IoFault (List UInt8)) (paths : List String) :
    loadFiles read paths = paths.mapM (fileLayer read) := by
  induction paths with
  | nil => rfl
  | cons path rest ih =>
    rw [List.mapM_cons, loadFiles, ih, fileLayer]
    cases loadFile read path <;> rfl

theorem loadFiles_eq_ok {layers : List (Json × Source)} :
    loadFiles read paths = .ok layers ↔ List.Forall₂ (HoldsLayer read) paths layers := by
  rw [loadFiles_eq_mapM, mapM_eq_ok]
  exact ⟨fun h => h.imp fun _ _ => fileLayer_eq_ok.1, fun h => h.imp fun _ _ => fileLayer_eq_ok.2⟩

theorem loadFiles_eq_error {e : LoadError} : loadFiles read paths = .error e ↔
    ∃ before path after, paths = before ++ path :: after ∧ (∀ p ∈ before, ∃ layer, HoldsLayer read p layer) ∧
      FileFault read path e := by
  rw [loadFiles_eq_mapM, mapM_eq_error]
  simp only [fileLayer_eq_ok, fileLayer_eq_error]

/-- where a layer of a file came from -/
theorem HoldsLayer.source {layer : Json × Source} (h : HoldsLayer read path layer) :
    layer.2.origin = .file ∧ layer.2.path = some path := by
  obtain ⟨bytes, cs, v, -, -, -, rfl⟩ := h
  exact ⟨rfl, rfl⟩

theorem sources_of_files {fromFiles : List (Json × Source)} (h : List.Forall₂ (HoldsLayer read) paths fromFiles) :
    (fromFiles.map (·.2)).map (fun s => (s.origin, s.path)) = paths.map fun path => (.file, some path) := by
  induction h with
  | nil => rfl
  | cons hlayer _ ih =>
    obtain ⟨horigin, hpath⟩ := hlayer.source
    simp only [List.map_cons, ih, horigin, hpath]

end Files

/-! ## All or nothing -/

/-- What assignments add to the layers, with its source: one layer, or none if there are no assignments. Each of them is
    written over what the ones before it left of an empty object. -/
def commandLine (texts : List String) (as : List Assignment) : List (Json × Source) :=
  if texts = [] then [] else [(as.foldl (fun v a => v.setKey a.key a.value) (.object []), ⟨.cli, none, none⟩)]

theorem loadAssignments_eq_ok {texts : List String} {layers : List (Json × Source)} :
    loadAssignments texts = .ok layers ↔ ∃ as, List.Forall₂ Spells texts as ∧ layers = commandLine texts as := by
  unfold loadAssignments commandLine
  by_cases htexts : texts = []
  · simp [htexts, eq_comm]
  · rw [if_neg htexts]
    simp only [if_neg htexts]
    cases ha : assignments? texts with
    | error text =>
      refine ⟨nofun, ?_⟩
      rintro ⟨as, has, -⟩
      rw [assignments?_eq_ok.2 has] at ha
      cases ha
    | ok as =>
      constructor
      · intro h
        cases h
        exact ⟨as, assignments?_eq_ok.1 ha, rfl⟩
      · rintro ⟨as', has, rfl⟩
        rw [assignments?_eq_ok.2 has] at ha
        cases ha
        rfl

theorem loadAssignments_eq_error {texts : List String} {e : LoadError} : loadAssignments texts = .error e ↔
    ∃ before text after, texts = before ++ text :: after ∧ (∀ t ∈ before, ¬ Malformed t) ∧ Malformed text ∧
      e = .invalidAssignment text := by
  unfold loadAssignments
  by_cases htexts : texts = []
  · simp [htexts]
  · rw [if_neg htexts]
    cases ha : assignments? texts with
    | ok as =>
      refine ⟨nofun, ?_⟩
      rintro ⟨before, text, after, hsplit, hbefore, hm, -⟩
      rw [assignments?_eq_error.2 ⟨before, after, hsplit, hbefore, hm⟩] at ha
      cases ha
    | error text =>
      constructor
      · intro h
        cases h
        obtain ⟨before, after, hsplit, hbefore, hm⟩ := assignments?_eq_error.1 ha
        exact ⟨before, text, after, hsplit, hbefore, hm, rfl⟩
      · rintro ⟨before, text', after, hsplit, hbefore, hm, rfl⟩
        rw [assignments?_eq_error.2 ⟨before, after, hsplit, hbefore, hm⟩] at ha
        cases ha
        rfl

section Load

variable {read : String → Except IoFault (List UInt8)} {paths texts : List String}

theorem load_eq_ok {l : Layered} : load read paths texts = .ok l ↔
    ∃ fromFiles as, List.Forall₂ (HoldsLayer read) paths fromFiles ∧ List.Forall₂ Spells texts as ∧
      l = ofLayers ((fromFiles ++ commandLine texts as).map (·.1)) ((fromFiles ++ commandLine texts as).map (·.2)) := by
  unfold load
  constructor
  · intro h
    obtain ⟨fromFiles, hfiles, h⟩ := bind_eq_ok.1 h
    obtain ⟨fromTexts, htexts, h⟩ := bind_eq_ok.1 h
    obtain ⟨as, has, rfl⟩ := loadAssignments_eq_ok.1 htexts
    cases h
    exact ⟨fromFiles, as, loadFiles_eq_ok.1 hfiles, has, rfl⟩
  · rintro ⟨fromFiles, as, hfiles, has, rfl⟩
    exact bind_eq_ok.2 ⟨fromFiles, loadFiles_eq_ok.2 hfiles,
      bind_eq_ok.2 ⟨_, loadAssignments_eq_ok.2 ⟨as, has, rfl⟩, rfl⟩⟩

theorem load_eq_error {e : LoadError} : load read paths texts = .error e ↔
    loadFiles read paths = .error e ∨
      (∃ fromFiles, loadFiles read paths = .ok fromFiles) ∧ loadAssignments texts = .error e := by
  unfold load
  cases loadFiles read paths with
  | error e' => simp [bind, Except.bind]
  | ok fromFiles => cases loadAssignments texts <;> simp [bind, Except.bind, pure, Except.pure]

theorem spells_iff_not_malformed {text : String} : (∃ a, Spells text a) ↔ ¬ Malformed text := by
  simp only [← readAssignment_isOk, readAssignment_eq_ok]

end Load

/-- **All or nothing.** Of all files, in whatever state, and all texts of assignments:
- loading fails exactly with the error of the first file that cannot be read, is no UTF-8 or is no TOML, or, if all files
  are in order, with the first text that is no assignment;
- otherwise it succeeds. The sources are then the files in order, each with its path, and after them that of the command
  line if there is any assignment. There is one layer for each source: what the files say, and what the assignments come
  to if they are written in order, each over what the ones before it left, into an empty object. The configuration is
  their merge. If the documents in the files are tables, all of these are objects. -/
theorem load_all_or_nothing (read : String → Except IoFault (List UInt8)) (paths texts : List String) :
    (∀ e, load read paths texts = .error e ↔
      (∃ before path after, paths = before ++ path :: after ∧ (∀ p ∈ before, ∃ layer, HoldsLayer read p layer) ∧
        FileFault read path e) ∨
      (∀ path ∈ paths, ∃ layer, HoldsLayer read path layer) ∧
        ∃ before text after, texts = before ++ text :: after ∧ (∀ t ∈ before, ¬ Malformed t) ∧ Malformed text ∧
          e = .invalidAssignment text) ∧
    ((∃ l, load read paths texts = .ok l) ↔
      (∀ path ∈ paths, ∃ layer, HoldsLayer read path layer) ∧ ∀ text ∈ texts, ¬ Malformed text) ∧
    ∀ l, load read paths texts = .ok l →
      ∃ fromFiles as, List.Forall₂ (HoldsLayer read) paths fromFiles ∧ List.Forall₂ Spells texts as ∧
        l.layers = fromFiles.map (·.1) ++
          (if texts = [] then [] else [as.foldl (fun v a => v.setKey a.key a.value) (.object [])]) ∧
        l.sources = fromFiles.map (·.2) ++ (if texts = [] then [] else [⟨.cli, none, none⟩]) ∧
        l.sources.map (fun s => (s.origin, s.path)) =
          paths.map (fun path => (.file, some path)) ++ (if texts = [] then [] else [(.cli, none)]) ∧
        l.layers.length = l.sources.length ∧ l.config = mergeLayers l.layers ∧ l.sect = none ∧
        ((∀ path ∈ paths, HoldsTable read path) →
          (∀ layer ∈ l.layers, layer.isObject = true) ∧ l.config.isObject = true) := by
  refine ⟨fun e => ?_, ?_, fun l hl => ?_⟩
  · rw [load_eq_error, loadFiles_eq_error, loadAssignments_eq_error]
    simp only [loadFiles_eq_ok, exists_forall₂_iff]
  · rw [← exists_forall₂_iff]
    simp only [← spells_iff_not_malformed, ← exists_forall₂_iff, load_eq_ok]
    constructor
    · rintro ⟨l, fromFiles, as, hfiles, has, -⟩
      exact ⟨⟨fromFiles, hfiles⟩, as, has⟩
    · rintro ⟨⟨fromFiles, hfiles⟩, as, has⟩
      exact ⟨_, fromFiles, as, hfiles, has, rfl⟩
  · obtain ⟨fromFiles, as, hfiles, has, rfl⟩ := load_eq_ok.1 hl
    refine ⟨fromFiles, as, hfiles, has, ?_, ?_, ?_, by simp [ofLayers], rfl, rfl, fun htables => ?_⟩
    · simp only [ofLayers, commandLine, List.map_append]
      split <;> rfl
    · simp only [ofLayers, commandLine, List.map_append]
      split <;> rfl
    · rw [← sources_of_files hfiles]
      simp only [ofLayers, commandLine, List.map_append]
      split <;> rfl
    · obtain ⟨hconfig, hlayers⟩ := load_objects hl htables
      have hobjects := fun layer hlayer => (hlayers layer hlayer).2
      refine ⟨hobjects, ?_⟩
      rw [hconfig]
      exact isObject_mergeLayers hobjects

/-- A disk with one file. -/
def limitsDisk (path : String) : Except IoFault (List UInt8) :=
  if path = "base.toml" then .ok limitsText else .error .notFound

theorem limitsDisk_table : HoldsTable limitsDisk "base.toml" :=
  holdsTable_of_all (if_pos rfl) (by decide +kernel)

theorem limitsDisk_files : loadFiles limitsDisk ["base.toml"] = .ok limitsFiles :=
  ok_of_toOption (by decide +kernel)

/-- A file that is not there goes before a text that is no assignment; of two such texts the first is the error; and
    without either there is a layer for the file and one for both assignments. -/
theorem limits_loaded :
    load limitsDisk ["base.toml", "gone.toml"] ["=80"] = .error (.unreadable "gone.toml" .notFound) ∧
    load limitsDisk ["base.toml"] ["server=off", " server..port =80", "=80"] =
      .error (.invalidAssignment " server..port =80") ∧
    HoldsTable limitsDisk "base.toml" ∧
    ∃ l, load limitsDisk ["base.toml"] ["server=off", " server.port =80"] = .ok l ∧
      l.sources.map (fun s => (s.origin, s.path)) = [(.file, some "base.toml"), (.cli, none)] ∧
      l.layers.length = l.sources.length ∧ l.config.isObject = true := by
  have hbase : ∀ path ∈ ["base.toml"], ∃ layer, HoldsLayer limitsDisk path layer :=
    exists_forall₂_iff.1 ⟨limitsFiles, loadFiles_eq_ok.1 limitsDisk_files⟩
  have hoff : ¬ Malformed "server=off" := mt ofText?_eq_none_iff.2 (by decide +kernel)
  have hport : ¬ Malformed " server.port =80" := mt ofText?_eq_none_iff.2 (by decide +kernel)
  have hdots : Malformed " server..port =80" := ofText?_eq_none_iff.1 (by decide +kernel)
  obtain ⟨hgone, -⟩ := load_all_or_nothing limitsDisk ["base.toml", "gone.toml"] ["=80"]
  obtain ⟨hbad, -⟩ := load_all_or_nothing limitsDisk ["base.toml"] ["server=off", " server..port =80", "=80"]
  obtain ⟨-, hok, hloaded⟩ := load_all_or_nothing limitsDisk ["base.toml"] ["server=off", " server.port =80"]
  refine ⟨(hgone _).2 (.inl ⟨["base.toml"], "gone.toml", [], rfl, hbase, .unreadable rfl⟩),
    (hbad _).2 (.inr ⟨hbase, ["server=off"], _, _, rfl, List.forall_mem_singleton.2 hoff, hdots, rfl⟩),
    limitsDisk_table, ?_⟩
  obtain ⟨l, hl⟩ := hok.2 ⟨hbase, List.forall_mem_cons.2 ⟨hoff, List.forall_mem_singleton.2 hport⟩⟩
  obtain ⟨fromFiles, as, -, -, -, -, hsources, hlengths, -, -, hobjects⟩ := hloaded l hl
  exact ⟨l, hl, hsources, hlengths, (hobjects (List.forall_mem_singleton.2 limitsDisk_table)).2⟩

end Layered

end Config

end TieredOptions
