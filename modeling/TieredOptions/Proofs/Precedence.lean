/-
The order of the tiers, in every attempt at an option. An attempt begins where an option is entered and ends where it is
left; in between, other attempts may be made, at other options or, on other threads, at the same one. `own` takes from
the events after the beginning those that are the attempt's own: the runs of sources between its two ends that are in no
other attempt. What these can be is `Instance.Course`.

A run is followed by what it adds to the journal (`Instance.Stretch`): whole attempts, each with its course, and beside
them some events of the attempt that is under way. A value that is stored came from a source before. What is noted of
the end of a source is what the source gave (`Gives`): the lookup answered so to that many questions, and an override or
a default was evaluated, from the note of its start on, and came to this. Two stretches make one (`Stretch.append`), and
a stretch with the right events beside it makes an attempt (`Stretch.attempt`). What a read adds has nothing beside it,
so whatever the sources of an attempt read, the events of the attempt are its own (`resolve_quiet`, by induction on the
depth).
-/
import TieredOptions.Proofs.History

namespace TieredOptions

/-! ## Attempts -/

/-- the start or the end of a run of a source -/
def Event.ofSource {n : Nat} : Event n → Bool
  | .ran _ _ | .returned _ _ _ | .failed _ _ _ => true
  | _ => false

/-- The events of sources, oldest first, that belong to the attempt under way: not those inside the attempts that begin
    later, of which `inner` are open, and up to where the attempt ends. -/
def own {n : Nat} : Nat → List (Event n) → List (Event n)
  | _, [] => []
  | inner, .entered _ _ :: es => own (inner + 1) es
  | 0, .left _ _ :: _ => []
  | inner + 1, .left _ _ :: es => own inner es
  | 0, e :: es => if e.ofSource then e :: own 0 es else own 0 es
  | inner + 1, _ :: es => own (inner + 1) es

/-- the options that the lookup was asked for, latest first -/
def asks {n : Nat} (events : List (Event n)) : List (Fin n) :=
  events.filterMap fun
    | .ran s .lookup => some s
    | _ => none

theorem asks_append {n : Nat} (late early : List (Event n)) : asks (late ++ early) = asks late ++ asks early :=
  List.filterMap_append

/-- One run of a source: with a value, with a failure, or without an end, where resolutions nest without end. -/
inductive Consulted {n : Nat} (s : Fin n) (t : Tier) : List (Event n) → Prop where
  | value (v : Value) : Consulted s t [.ran s t, .returned s t (some v)]
  | failure (e : ResolveError) : Consulted s t [.ran s t, .failed s t e]
  | unending : Consulted s t [.ran s t]

namespace Instance

/-- the default is run once, if there is one -/
def Fallback (i : Instance) (s : i.contract.Slot) (es : List (Event i.size)) : Prop :=
  match (i.contract.accessor s).default with
  | some _ => Consulted s .default es
  | none => es = []

/-- What an attempt at an option does itself. An override is run and nothing else. Without one, the lookup is asked
    once, if there is one, and its value or its error is the last that happens; the default is gone back to where there
    is no lookup, or where it has no opinion. -/
def Course (i : Instance) (s : i.contract.Slot) (es : List (Event i.size)) : Prop :=
  match i.override? s, i.lookup with
  | some _, _ => Consulted s .override es
  | none, none => i.Fallback s es
  | none, some _ =>
    (∃ v, es = [.ran s .lookup, .returned s .lookup (some v)]) ∨ (∃ e, es = [.ran s .lookup, .failed s .lookup e]) ∨
      ∃ rest, es = .ran s .lookup :: .returned s .lookup none :: rest ∧ i.Fallback s rest

/-- every attempt among some events, oldest first, takes its course -/
def Orderly (i : Instance) : List (Event i.size) → Prop
  | [] => True
  | .entered _ s :: es => (∀ rest, i.Course s (own 0 (es ++ rest))) ∧ i.Orderly es
  | _ :: es => i.Orderly es

/-- every value that is stored was returned before by a run of the source at its tier; newest event first -/
def Sourced (i : Instance) : List (Event i.size) → Prop
  | [] => True
  | .stored s r :: earlier => .returned s r.tier (some r.value) ∈ earlier ∧ i.Sourced earlier
  | _ :: earlier => i.Sourced earlier

/-- the option comes to this tier -/
def Reaches (i : Instance) (s : i.contract.Slot) : Tier → Prop
  | .override => (i.override? s).isSome
  | .lookup => i.override? s = none ∧ i.lookup.isSome
  | .default => i.override? s = none ∧ (i.contract.accessor s).default.isSome

/-- The lookup gives this answer to the last question about the option, of those that were asked. -/
def Hears (i : Instance) (asked : List i.contract.Slot) (s : i.contract.Slot) (answer : Opinion) : Prop :=
  ∃ l before, i.lookup = some l ∧ asked.count s = before + 1 ∧ l.ask (i.contract.accessor s).info before = answer

/-- An expression was evaluated and came to this end. It was begun right after the note that the source at the tier is
    run, and what it noted itself is the latest in the journal. -/
def Evaluates (i : Instance) (first : Place → Run i.size Bool) (source : Source) (s : i.contract.Slot) (t : Tier)
    (journal : List (Event i.size)) (outcome : Opinion) : Prop :=
  ∃ depth thread m m', m.journal.head? = some (.ran s t) ∧ m'.journal <+: journal ∧
    i.evalSource ⟨i.resolve depth, first⟩ thread source m = (Run.outcome outcome, m')

/-- The source of an option at a tier comes to this end: an override or a default is evaluated, and the lookup has been
    asked for the options `asked` by then. -/
inductive Gives (i : Instance) (asked : List i.contract.Slot) (journal : List (Event i.size)) (s : i.contract.Slot) :
    Tier → Opinion → Prop where
  | override {source : Source} {outcome : Opinion} (bound : i.override? s = some source)
    (run : i.Evaluates (i.firstOwn s) source s .override journal outcome) : Gives i asked journal s .override outcome
  | lookup {answer : Opinion} (heard : i.Hears asked s answer) : Gives i asked journal s .lookup answer
  | default {source : Source} {outcome : Opinion} (declared : (i.contract.accessor s).source? = some source)
    (run : i.Evaluates (i.firstShared s) source s .default journal outcome) : Gives i asked journal s .default outcome

/-- A source is run at a tier that its option comes to, and what is noted of its end is what it gave; `asked` are the
    options that the lookup was asked for by then, and `journal` is what was noted before. -/
def Truthful (i : Instance) (asked : List i.contract.Slot) (journal : List (Event i.size)) : Event i.size → Prop
  | .ran s t => i.Reaches s t
  | .returned s t o => i.Reaches s t ∧ i.Gives asked journal s t (.ok o)
  | .failed s t e => i.Reaches s t ∧ i.Gives asked journal s t (.error e)
  | _ => True

/-- every event is truthful at its moment; newest event first, where before them the lookup was asked for the options
    `before`, and the journal was `past` -/
def Faithful (i : Instance) (before : List i.contract.Slot) (past : List (Event i.size)) : List (Event i.size) → Prop
  | [] => True
  | e :: earlier => i.Truthful (asks earlier ++ before) (earlier ++ past) e ∧ i.Faithful before past earlier

/-! ## Stretches of the journal -/

/-- Some events, newest first, that are whole attempts with `es`, oldest first, beside them; before them the lookup was
    asked for the options `before`, and the journal was `past`. -/
structure Stretch (i : Instance) (before : List i.contract.Slot) (past new es : List (Event i.size)) : Prop where
  beside : ∀ rest, own 0 (new.reverse ++ rest) = es ++ own 0 rest
  inside : ∀ inner rest, own (inner + 1) (new.reverse ++ rest) = own (inner + 1) rest
  orderly : i.Orderly new.reverse
  sourced : i.Sourced new
  faithful : i.Faithful before past new
  listed : ∀ e ∈ es, e ∈ new

variable {i : Instance} {before : List i.contract.Slot} {past : List (Event i.size)}

theorem Orderly.append {early late : List (Event i.size)} (h₁ : i.Orderly early) (h₂ : i.Orderly late) :
    i.Orderly (early ++ late) := by
  induction early with
  | nil => exact h₂
  | cons e early ih =>
    cases e with
    | entered thread s =>
      refine ⟨fun rest => ?_, ih h₁.2⟩
      show i.Course s (own 0 ((early ++ late) ++ rest))
      rw [List.append_assoc]
      exact h₁.1 (late ++ rest)
    | _ => exact ih h₁

theorem Orderly.course {front after : List (Event i.size)} {thread : Nat} {s : i.contract.Slot}
    (h : i.Orderly (front ++ .entered thread s :: after)) : i.Course s (own 0 after) := by
  induction front with
  | nil => simpa using h.1 []
  | cons e front ih =>
    cases e with
    | entered thread s => exact ih h.2
    | _ => exact ih h

theorem Sourced.append {late early : List (Event i.size)} (h₁ : i.Sourced late) (h₂ : i.Sourced early) :
    i.Sourced (late ++ early) := by
  induction late with
  | nil => exact h₂
  | cons e late ih =>
    cases e with
    | stored s r => exact ⟨List.mem_append_left _ h₁.1, ih h₁.2⟩
    | _ => exact ih h₁

theorem Sourced.suffix {late early : List (Event i.size)} (h : i.Sourced (late ++ early)) : i.Sourced early := by
  induction late with
  | nil => exact h
  | cons e late ih =>
    cases e with
    | stored s r => exact ih h.2
    | _ => exact ih h

theorem Sourced.returned {events : List (Event i.size)} (h : i.Sourced events) {s : i.contract.Slot} {r : Resolved}
    (hr : Event.stored s r ∈ events) : .returned s r.tier (some r.value) ∈ events := by
  obtain ⟨late, early, rfl⟩ := List.append_of_mem hr
  exact List.mem_append_right _ (List.mem_cons_of_mem _ h.suffix.1)

theorem faithful_append {late early : List (Event i.size)} :
    i.Faithful before past (late ++ early) ↔
      i.Faithful (asks early ++ before) (early ++ past) late ∧ i.Faithful before past early := by
  induction late with
  | nil => exact ⟨fun h => ⟨trivial, h⟩, And.right⟩
  | cons e late ih =>
    rw [List.cons_append, Faithful, Faithful, ih, asks_append, List.append_assoc, List.append_assoc, and_assoc]

/-- every event was truthful at its moment -/
theorem Faithful.truthful {late early : List (Event i.size)} {e : Event i.size}
    (h : i.Faithful before past (late ++ e :: early)) : i.Truthful (asks early ++ before) (early ++ past) e :=
  (faithful_append.1 h).2.1

theorem Gives.mono {asked : List i.contract.Slot} {journal journal' : List (Event i.size)} {s : i.contract.Slot}
    {t : Tier} {outcome : Opinion} (h : i.Gives asked journal s t outcome) (hj : journal <+: journal') :
    i.Gives asked journal' s t outcome := by
  cases h with
  | override bound run =>
    obtain ⟨depth, thread, m, m', hm, hm', heval⟩ := run
    exact .override bound ⟨depth, thread, m, m', hm, hm'.trans hj, heval⟩
  | lookup heard => exact .lookup heard
  | default declared run =>
    obtain ⟨depth, thread, m, m', hm, hm', heval⟩ := run
    exact .default declared ⟨depth, thread, m, m', hm, hm'.trans hj, heval⟩

theorem Gives.hears {asked : List i.contract.Slot} {journal : List (Event i.size)} {s : i.contract.Slot}
    {answer : Opinion} (h : i.Gives asked journal s .lookup answer) : i.Hears asked s answer := by
  cases h with
  | lookup heard => exact heard

/-- what was noted still further back makes no difference -/
theorem Faithful.mono {past' events : List (Event i.size)} (h : i.Faithful before past events) (hp : past <+: past') :
    i.Faithful before past' events := by
  induction events with
  | nil => trivial
  | cons e earlier ih =>
    have hj : earlier ++ past <+: earlier ++ past' := (List.prefix_append_right_inj earlier).2 hp
    refine ⟨?_, ih h.2⟩
    cases e with
    | returned s t o => exact ⟨h.1.1, h.1.2.mono hj⟩
    | failed s t e => exact ⟨h.1.1, h.1.2.mono hj⟩
    | _ => exact h.1

namespace Stretch

theorem nil : i.Stretch before past [] [] := ⟨fun _ => rfl, fun _ _ => rfl, trivial, trivial, trivial, by simp⟩

theorem mono {past' new es : List (Event i.size)} (h : i.Stretch before past new es) (hp : past <+: past') :
    i.Stretch before past' new es :=
  { h with faithful := h.faithful.mono hp }

/-- one stretch after another -/
theorem append {late early es es' : List (Event i.size)} (h : i.Stretch before past early es)
    (h' : i.Stretch (asks early ++ before) (early ++ past) late es') :
    i.Stretch before past (late ++ early) (es ++ es') := by
  refine ⟨fun rest => ?_, fun inner rest => ?_, ?_, h'.sourced.append h.sourced, ?_, ?_⟩
  · rw [List.reverse_append, List.append_assoc, h.beside, h'.beside, List.append_assoc]
  · rw [List.reverse_append, List.append_assoc, h.inside, h'.inside]
  · rw [List.reverse_append]
    exact h.orderly.append h'.orderly
  · exact faithful_append.2 ⟨h'.faithful, h.faithful⟩
  · intro e he
    rcases List.mem_append.1 he with he | he
    · exact List.mem_append_right _ (h.listed e he)
    · exact List.mem_append_left _ (h'.listed e he)

/-- the start or the end of a run of a source stands beside whatever attempts there are -/
theorem ofSource {e : Event i.size} (he : e.ofSource = true) (ht : i.Truthful before past e) :
    i.Stretch before past [e] [e] := by
  cases e with
  | ran s t => exact ⟨fun _ => rfl, fun _ _ => rfl, trivial, trivial, ⟨ht, trivial⟩, by simp⟩
  | returned s t o => exact ⟨fun _ => rfl, fun _ _ => rfl, trivial, trivial, ⟨ht, trivial⟩, by simp⟩
  | failed s t e => exact ⟨fun _ => rfl, fun _ _ => rfl, trivial, trivial, ⟨ht, trivial⟩, by simp⟩
  | _ => cases he

/-- a note of a read has nothing beside it -/
theorem answered (thread : Nat) (s : i.contract.Slot) (v : Value) : i.Stretch before past [.answered thread s v] [] :=
  ⟨fun _ => rfl, fun _ _ => rfl, trivial, trivial, ⟨trivial, trivial⟩, by simp⟩

theorem reentered (thread : Nat) (s : i.contract.Slot) : i.Stretch before past [.reentered thread s] [] :=
  ⟨fun _ => rfl, fun _ _ => rfl, trivial, trivial, ⟨trivial, trivial⟩, by simp⟩

/-- a value may be stored that a run of its source came back with -/
theorem stored {new es : List (Event i.size)} (h : i.Stretch before past new es) {s : i.contract.Slot} {r : Resolved}
    (hr : .returned s r.tier (some r.value) ∈ es) : i.Stretch before past (.stored s r :: new) es := by
  refine ⟨fun rest => ?_, fun inner rest => ?_, ?_, ⟨h.listed _ hr, h.sourced⟩, ⟨trivial, h.faithful⟩, ?_⟩
  · rw [List.reverse_cons, List.append_assoc, h.beside]
    rfl
  · rw [List.reverse_cons, List.append_assoc, h.inside]
    rfl
  · rw [List.reverse_cons]
    exact h.orderly.append trivial
  · exact fun e he => List.mem_cons_of_mem _ (h.listed e he)

/-- **A stretch makes an attempt** if what is beside its attempts is the course of the option. -/
theorem attempt {new es : List (Event i.size)} {thread : Nat} {s : i.contract.Slot}
    (h : i.Stretch before (.entered thread s :: past) new es) (hs : i.Course s es) :
    i.Stretch before past (.left thread s :: (new ++ [.entered thread s])) [] := by
  have hreverse : (Event.left thread s :: (new ++ [.entered thread s])).reverse =
      .entered thread s :: (new.reverse ++ [.left thread s]) := by simp
  refine ⟨fun rest => ?_, fun inner rest => ?_, ?_, ?_, ⟨trivial, ?_⟩, by simp⟩
  · rw [hreverse, List.cons_append, List.append_assoc]
    show own 1 (new.reverse ++ _) = _
    rw [h.inside]
    rfl
  · rw [hreverse, List.cons_append, List.append_assoc]
    show own (inner + 2) (new.reverse ++ _) = _
    rw [h.inside]
    rfl
  · rw [hreverse]
    refine ⟨fun rest => ?_, h.orderly.append trivial⟩
    rw [List.append_assoc, h.beside]
    simpa [own] using hs
  · have hlast : i.Sourced (new ++ [.entered thread s]) := h.sourced.append trivial
    exact hlast
  · exact faithful_append.2 ⟨h.faithful, trivial, trivial⟩

end Stretch

/-! ## Runs -/

/-- what happens between two memories is a stretch with `es` beside it -/
def Adds (i : Instance) (es : List (Event i.size)) (m m' : Memory i.size) : Prop :=
  ∃ new, m'.journal = new ++ m.journal ∧ m'.asked = asks new ++ m.asked ∧ i.Stretch m.asked m.journal new es

theorem Adds.trans {es es' : List (Event i.size)} {m m' m'' : Memory i.size} (h : i.Adds es m m')
    (h' : i.Adds es' m' m'') : i.Adds (es ++ es') m m'' := by
  obtain ⟨new, hj, ha, hs⟩ := h
  obtain ⟨new', hj', ha', hs'⟩ := h'
  refine ⟨new' ++ new, ?_, ?_, hs.append (ha ▸ hj ▸ hs')⟩
  · rw [hj', hj, List.append_assoc]
  · rw [ha', ha, asks_append, List.append_assoc]

/-- a change outside the journal and what the lookup was asked -/
theorem Adds.of_same {m m' : Memory i.size} (hj : m'.journal = m.journal) (ha : m'.asked = m.asked) :
    i.Adds [] m m' := ⟨[], hj, ha, .nil⟩

/-- nothing is beside the attempts -/
def Quiet (i : Instance) : Memory i.size → Memory i.size → Prop := i.Adds []

instance : IsPreorder (Memory i.size) i.Quiet where
  refl _ := .of_same rfl rfl
  trans _ _ _ h h' := h.trans h'

/-- what a run adds, and how it ends -/
def Leaves {α : Type} (i : Instance) (P : Except Halt α → List (Event i.size) → Prop) (x : Run i.size α) : Prop :=
  ∀ m, ∃ es, i.Adds es m (x m).2 ∧ P (x m).1 es

theorem Leaves.mono {α : Type} {P Q : Except Halt α → List (Event i.size) → Prop} {x : Run i.size α}
    (hx : i.Leaves P x) (h : ∀ r es, P r es → Q r es) : i.Leaves Q x := by
  intro m
  obtain ⟨es, ha, hp⟩ := hx m
  exact ⟨es, ha, h _ _ hp⟩

/-! ## Sources -/

/-- A source at a tier comes to this end with these events. -/
def Ends {n : Nat} (s : Fin n) (t : Tier) : Except Halt (Option Value) → List (Event n) → Prop
  | .ok o, es => es = [.ran s t, .returned s t o]
  | .error (.failed e), es => es = [.ran s t, .failed s t e]
  | .error .unending, es => es = [.ran s t]

theorem Ends.consulted {n : Nat} {s : Fin n} {t : Tier} {r : Except Halt (Option Value)} {es : List (Event n)}
    (h : Ends s t r es) (hr : r ≠ .ok none) : Consulted s t es := by
  rcases r with (e | _) | _ | v
  · cases h; exact .failure e
  · cases h; exact .unending
  · exact absurd rfl hr
  · cases h; exact .value v

/-- An expression is run at its tier, and what it comes to is noted; whatever it reads adds attempts only. -/
theorem runSource_leaves {s : i.contract.Slot} {t : Tier} (ht : t ≠ .lookup) (hr : i.Reaches s t)
    {opinion : Run i.size (Option Value)} (ho : Run.Keeps i.Quiet opinion) (hv : ∀ m, (opinion m).1 ≠ .ok none)
    (hg : ∀ m m' o, m.journal.head? = some (.ran s t) → opinion m = (Run.outcome o, m') →
      i.Gives m'.asked m'.journal s t o) :
    i.Leaves (fun r es => Ends s t r es ∧ r ≠ .ok none) (i.runSource s t opinion) := by
  intro m
  have hran : i.Adds [.ran s t] m (m.record (.ran s t)) := by
    refine ⟨[.ran s t], rfl, ?_, .ofSource rfl hr⟩
    cases t <;> first | rfl | exact absurd rfl ht
  have hquiet := hran.trans (ho (m.record (.ran s t)))
  have hend (m' : Memory i.size) (e : Event i.size) (he : e.ofSource = true)
      (htrue : i.Truthful m'.asked m'.journal e) (hask : asks [e] = []) : i.Adds [e] m' (m'.record e) :=
    ⟨[e], rfl, by rw [hask]; rfl, .ofSource he htrue⟩
  show ∃ es, i.Adds es m (Run.noting opinion _ _ (m.record (.ran s t))).2 ∧
    Ends s t (Run.noting opinion _ _ (m.record (.ran s t))).1 es ∧
    (Run.noting opinion (.returned s t) (.failed s t) (m.record (.ran s t))).1 ≠ .ok none
  have hv := hv (m.record (.ran s t))
  rcases hx : opinion (m.record (.ran s t)) with ⟨(e | _) | o, m'⟩ <;> rw [hx] at hquiet hv <;>
    simp only [Run.noting, hx]
  · exact ⟨_, hquiet.trans (hend m' _ rfl ⟨hr, hg _ m' (.error e) rfl hx⟩ rfl), rfl, by simp⟩
  · exact ⟨_, hquiet, rfl, by simp⟩
  · exact ⟨_, hquiet.trans (hend m' _ rfl ⟨hr, hg _ m' (.ok o) rfl hx⟩ rfl), rfl, hv⟩

/-- the lookup is asked: it answers or fails, and nothing else happens -/
theorem consult_leaves {s : i.contract.Slot} {l : Lookup} (hl : i.lookup = some l) (ho : i.override? s = none) :
    i.Leaves (fun r es => Ends s .lookup r es ∧ r ≠ .error .unending) (i.runSource s .lookup (i.consult l s)) := by
  intro m
  have hr : i.Reaches s .lookup := ⟨ho, by rw [hl]; rfl⟩
  have hgives {answer : Opinion} (ha : l.ask (i.contract.accessor s).info (m.asked.count s) = answer) :
      i.Gives (s :: m.asked) (.ran s .lookup :: m.journal) s .lookup answer :=
    .lookup ⟨l, m.asked.count s, hl, List.count_cons_self, ha⟩
  have hadds (e : Event i.size) (he : e.ofSource = true) (hask : asks [e] = [])
      (htrue : i.Truthful (s :: m.asked) (.ran s .lookup :: m.journal) e) :
      i.Adds [.ran s .lookup, e] m (m.consulted s e) := by
    have hran : i.Stretch m.asked m.journal [.ran s .lookup] [.ran s .lookup] :=
      .ofSource rfl (show i.Truthful m.asked m.journal (.ran s .lookup) from hr)
    refine ⟨[e] ++ [.ran s .lookup], rfl, ?_, hran.append (.ofSource he htrue)⟩
    rw [asks_append, hask]
    rfl
  rw [ask_apply]
  cases ha : l.ask (i.contract.accessor s).info (m.asked.count s) with
  | error e => exact ⟨_, hadds _ rfl rfl ⟨hr, hgives ha⟩, rfl, nofun⟩
  | ok o => exact ⟨_, hadds _ rfl rfl ⟨hr, hgives ha⟩, rfl, nofun⟩

theorem evalSource_ne_none (a : Access i.contract) (thread : Nat) (source : Source) (m : Memory i.size) :
    (i.evalSource a thread source m).1 ≠ .ok none := by
  intro h
  obtain ⟨x, -, hx, -⟩ := Run.of_bind_ok h
  cases hx

section Depth

variable {depth : Nat}

/-- the opinion of an override -/
theorem override_leaves (hr : ∀ thread s, Run.Keeps i.Quiet (i.resolve depth thread s)) {s : i.contract.Slot}
    {source : Source} (ho : i.override? s = some source) (thread : Nat) :
    i.Leaves (fun r es => Ends s .override r es ∧ r ≠ .ok none) (i.opinion (i.resolve depth) thread s .override) := by
  simp only [opinion, ho]
  have hf := firstOwn_keeps (R := i.Quiet) (fun m nodes => .of_same rfl rfl) s
  have he : Run.Keeps i.Quiet (i.evalSource ⟨i.resolve depth, i.firstOwn s⟩ thread source) :=
    evalSource_keeps (fun s _ thread => hr thread s) hf thread
  have hreach : i.Reaches s .override := by rw [Reaches, ho]; rfl
  refine runSource_leaves (by decide) hreach he (evalSource_ne_none _ thread source) fun m m' o hm heval => ?_
  exact .override ho ⟨depth, thread, m, m', hm, List.prefix_rfl, heval⟩

/-- the opinion of a default -/
theorem default_leaves (hr : ∀ thread s, Run.Keeps i.Quiet (i.resolve depth thread s)) {s : i.contract.Slot}
    {e : Expr (i.contract.accessor s).type} (ho : i.override? s = none)
    (hd : (i.contract.accessor s).default = some e) (thread : Nat) :
    i.Leaves (fun r es => Ends s .default r es ∧ r ≠ .ok none) (i.opinion (i.resolve depth) thread s .default) := by
  have hsource : (i.contract.accessor s).source? = some ⟨_, e⟩ := by rw [Accessor.source?, hd]; rfl
  simp only [opinion, hsource]
  have hf := firstShared_keeps (R := i.Quiet) (fun m nodes => .of_same rfl rfl) s
  have he : Run.Keeps i.Quiet (i.evalSource ⟨i.resolve depth, i.firstShared s⟩ thread ⟨_, e⟩) :=
    evalSource_keeps (fun s _ thread => hr thread s) hf thread
  have hreach : i.Reaches s .default := ⟨ho, by rw [hd]; rfl⟩
  refine runSource_leaves (by decide) hreach he (evalSource_ne_none _ thread _) fun m m' o hm heval => ?_
  exact .default hsource ⟨depth, thread, m, m', hm, List.prefix_rfl, heval⟩

/-! ## Tiers -/

/-- the first opinion of some tiers: that of the first tier, or else of the others -/
theorem firstOpinion_leaves {read : Nat → i.contract.Slot → Run i.size Value} {thread : Nat} {s : i.contract.Slot}
    {t : Tier} {rest : List Tier} {P : Except Halt (Option Value) → List (Event i.size) → Prop}
    {Q : Except Halt Resolved → List (Event i.size) → Prop}
    (ho : i.Leaves P (i.opinion read thread s t)) (herror : ∀ h es, P (.error h) es → Q (.error h) es)
    (hsome : ∀ v es, P (.ok (some v)) es → Q (.ok ⟨v, t⟩) es)
    (hnone : ∀ es, P (.ok none) es → i.Leaves (fun r es' => Q r (es ++ es')) (i.firstOpinion read thread s rest)) :
    i.Leaves Q (i.firstOpinion read thread s (t :: rest)) := by
  intro m
  obtain ⟨es, ha, hp⟩ := ho m
  unfold firstOpinion
  rcases hx : i.opinion read thread s t m with ⟨h | _ | v, m'⟩ <;> rw [hx] at ha hp
  · rw [Run.bind_error hx]
    exact ⟨es, ha, herror h es hp⟩
  · rw [Run.bind_ok hx]
    obtain ⟨es', ha', hq⟩ := hnone es hp m'
    exact ⟨es ++ es', ha.trans ha', hq⟩
  · rw [Run.bind_ok hx]
    exact ⟨es, ha, hsome v es hp⟩

/-- a value that was computed is one that a source came back with, and where a source failed this is the outcome -/
structure Yielded (s : i.contract.Slot) (r : Except Halt Resolved) (es : List (Event i.size)) : Prop where
  value : ∀ res, r = .ok res → .returned s res.tier (some res.value) ∈ es
  failure : ∀ t e, .failed s t e ∈ es → r = .error (.failed e)

theorem Ends.yielded {s : i.contract.Slot} {t : Tier} {v : Value} {es : List (Event i.size)}
    (h : Ends s t (.ok (some v)) es) : Yielded s (.ok ⟨v, t⟩) es := by
  cases h
  refine ⟨fun res hres => ?_, fun t e he => by simp at he⟩
  cases hres
  exact List.mem_cons_of_mem _ List.mem_cons_self

theorem Ends.yielded_error {s : i.contract.Slot} {t : Tier} {h : Halt} {es : List (Event i.size)}
    (hes : Ends s t (.error h) es) : Yielded s (.error h) es := by
  refine ⟨nofun, fun t' e he => ?_⟩
  cases h with
  | failed e' =>
    cases hes
    obtain ⟨-, rfl⟩ : t' = t ∧ e = e' := by simpa using he
    rfl
  | unending =>
    cases hes
    simp at he

theorem fallback_leaves (hr : ∀ thread s, Run.Keeps i.Quiet (i.resolve depth thread s)) {s : i.contract.Slot}
    (ho : i.override? s = none) (thread : Nat) :
    i.Leaves (fun r es => i.Fallback s es ∧ Yielded s r es)
      (i.firstOpinion (i.resolve depth) thread s [.default]) := by
  unfold Fallback
  cases hd : (i.contract.accessor s).default with
  | none =>
    intro m
    have hsource : (i.contract.accessor s).source? = none := by rw [Accessor.source?, hd]; rfl
    simp only [firstOpinion, opinion, hsource]
    exact ⟨[], .of_same rfl rfl, rfl, nofun, fun _ _ he => nomatch he⟩
  | some e =>
    refine firstOpinion_leaves (default_leaves hr ho hd thread) ?_ ?_ ?_
    · exact fun h es he => ⟨he.1.consulted nofun, he.1.yielded_error⟩
    · exact fun v es he => ⟨he.1.consulted nofun, he.1.yielded⟩
    · exact fun es he => absurd rfl he.2

/-- **The tiers take their course**: an attempt consults them in order of precedence. -/
theorem compute_leaves (hr : ∀ thread s, Run.Keeps i.Quiet (i.resolve depth thread s)) (thread : Nat)
    (s : i.contract.Slot) :
    i.Leaves (fun r es => i.Course s es ∧ Yielded s r es) (i.compute (i.resolve depth) thread s) := by
  unfold compute Course Tier.all
  cases ho : i.override? s with
  | some source =>
    refine firstOpinion_leaves (override_leaves hr ho thread) ?_ ?_ ?_
    · exact fun h es he => ⟨he.1.consulted nofun, he.1.yielded_error⟩
    · exact fun v es he => ⟨he.1.consulted nofun, he.1.yielded⟩
    · exact fun es he => absurd rfl he.2
  | none =>
    have hskip : i.Leaves (fun r es => r = .ok none ∧ es = []) (i.opinion (i.resolve depth) thread s .override) := by
      simp only [opinion, ho]
      exact fun m => ⟨[], .of_same rfl rfl, rfl, rfl⟩
    refine firstOpinion_leaves hskip (by simp) (by simp) fun es hes => ?_
    rw [hes.2]
    cases hl : i.lookup with
    | none =>
      have hskip : i.Leaves (fun r es => r = .ok none ∧ es = []) (i.opinion (i.resolve depth) thread s .lookup) := by
        simp only [opinion, hl]
        exact fun m => ⟨[], .of_same rfl rfl, rfl, rfl⟩
      refine firstOpinion_leaves hskip (by simp) (by simp) fun es hes => ?_
      rw [hes.2]
      exact fallback_leaves hr ho thread
    | some l =>
      have hask : i.Leaves (fun r es => Ends s .lookup r es ∧ r ≠ .error .unending)
          (i.opinion (i.resolve depth) thread s .lookup) := by
        simp only [opinion, hl]
        exact consult_leaves hl ho
      refine firstOpinion_leaves hask ?_ ?_ ?_
      · intro h es he
        cases h with
        | failed e => exact ⟨.inr (.inl ⟨e, he.1⟩), he.1.yielded_error⟩
        | unending => exact absurd rfl he.2
      · exact fun v es he => ⟨.inl ⟨v, he.1⟩, he.1.yielded⟩
      · intro es he
        cases he.1
        refine (fallback_leaves hr ho thread).mono fun r rest hrest => ⟨.inr (.inr ⟨rest, rfl, hrest.1⟩), ?_, ?_⟩
        · exact fun res hres => List.mem_cons_of_mem _ (List.mem_cons_of_mem _ (hrest.2.value res hres))
        · exact fun t e he => hrest.2.failure t e (by simpa using he)

end Depth

/-! ## Attempts and reads -/

theorem Adds.store {es : List (Event i.size)} {m m' : Memory i.size} (h : i.Adds es m m') {s : i.contract.Slot}
    {r : Resolved} (hr : .returned s r.tier (some r.value) ∈ es) : i.Adds es m (m'.store s r) := by
  cases hs : m'.resolved? s with
  | some r₀ =>
    rw [store_of_some hs]
    exact h
  | none =>
    obtain ⟨new, hj, ha, hst⟩ := h
    refine ⟨.stored s r :: new, ?_, ?_, hst.stored hr⟩
    · rw [(store_of_none hs r).1, hj]
      rfl
    · simp only [Memory.store, hs]
      exact ha

theorem Adds.keep {es : List (Event i.size)} {m m' : Memory i.size} (h : i.Adds es m m') {s : i.contract.Slot}
    {r : Resolved} (hr : .returned s r.tier (some r.value) ∈ es) : i.Adds es m (i.keep s r m').2 := by
  rw [keep_apply]
  split
  · exact h.store hr
  · exact h

theorem Adds.answered {es : List (Event i.size)} {m m' : Memory i.size} (h : i.Adds es m m') (thread : Nat)
    (s : i.contract.Slot) (v : Value) : i.Adds es m (m'.record (.answered thread s v)) := by
  have hnote : i.Adds [] m' (m'.record (.answered thread s v)) :=
    ⟨[.answered thread s v], rfl, rfl, .answered thread s v⟩
  simpa using h.trans hnote

/-- Between its two ends an attempt takes its course, and it fails where a source does. -/
theorem settle_leaves {depth : Nat} (hr : ∀ thread s, Run.Keeps i.Quiet (i.resolve depth thread s)) (thread : Nat)
    (s : i.contract.Slot) :
    i.Leaves (fun r es => i.Course s es ∧ ∀ t e, .failed s t e ∈ es → r = .error (.failed e))
      (i.settle (i.resolve depth) thread s) := by
  intro m
  obtain ⟨es, ha, hc, hy⟩ := compute_leaves hr thread s m
  unfold settle
  rcases hx : i.compute (i.resolve depth) thread s m with ⟨h | r, m₁⟩ <;> rw [hx] at ha hy
  · rw [Run.bind_error hx]
    refine ⟨es, ha, hc, fun t e he => ?_⟩
    cases hy.failure t e he
    rfl
  refine ⟨es, ?_, hc, fun t e he => nomatch hy.failure t e he⟩
  rw [Run.bind_ok hx]
  have hk := ha.keep (hy.value r rfl)
  rcases hkx : i.keep s r m₁ with ⟨h | v, m₂⟩ <;> rw [hkx] at hk
  · rw [Run.bind_error hkx]
    exact hk
  · rw [Run.bind_ok hkx, answer_apply]
    exact hk.answered thread s v

theorem Adds.attempt {es : List (Event i.size)} {m m' : Memory i.size} {thread : Nat} {s : i.contract.Slot}
    (h : i.Adds es (m.enter thread s) m') (hs : i.Course s es) : i.Quiet m (m'.leave thread s) := by
  obtain ⟨new, hj, ha, hst⟩ := h
  refine ⟨_, ?_, ?_, hst.attempt hs⟩
  · show .left thread s :: m'.journal = _
    rw [hj]
    simp [Memory.enter, Memory.record]
  · show m'.asked = asks ([.left thread s] ++ (new ++ [.entered thread s])) ++ m.asked
    rw [ha, asks_append, asks_append]
    simp [asks, Memory.enter, Memory.record]

/-- **Every read adds whole attempts only**, each with its course: from whatever memory, on whatever thread, however
    deep it nests and however it ends. -/
theorem resolve_quiet (depth thread : Nat) (s : i.contract.Slot) : Run.Keeps i.Quiet (i.resolve depth thread s) := by
  induction depth generalizing thread s with
  | zero => exact .throw _
  | succ depth ih =>
    intro m
    cases hs : m.resolved? s with
    | some r =>
      rw [resolve_cached hs]
      exact ⟨_, rfl, rfl, .answered thread s r.value⟩
    | none =>
      by_cases hc : m.chain thread s = []
      · rw [resolve_entered hs hc]
        obtain ⟨es, ha, hcourse, -⟩ := settle_leaves ih thread s (m.enter thread s)
        exact ha.attempt hcourse
      · rw [resolve_reentered hs hc]
        exact ⟨_, rfl, rfl, .reentered thread s⟩

/-! ## Sessions -/

theorem turn_stretch (m : Memory i.size) (t : Turn) :
    i.Stretch m.asked [] (i.turn m t).2.journal [] ∧ (i.turn m t).2.asked = asks (i.turn m t).2.journal ++ m.asked := by
  obtain ⟨new, hj, ha, hst⟩ := answer_keeps (R := i.Quiet) (fun thread s => resolve_quiet _ thread s) t.config t.thread
    t.request { m with shared := t.shared, journal := [] }
  have hj : (i.turn m t).2.journal = new := hj.trans (List.append_nil new)
  rw [hj]
  exact ⟨hst, ha⟩

theorem historyFrom_stretch (m : Memory i.size) (past : List (Event i.size)) (ts : List Turn) :
    i.Stretch m.asked past (i.historyFrom m ts) [] ∧
      (ts.foldl (fun m t => (i.turn m t).2) m).asked = asks (i.historyFrom m ts) ++ m.asked := by
  induction ts generalizing m past with
  | nil => exact ⟨.nil, rfl⟩
  | cons t ts ih =>
    obtain ⟨hst, ha⟩ := turn_stretch m t
    obtain ⟨ihst, iha⟩ := ih (i.turn m t).2 ((i.turn m t).2.journal ++ past)
    refine ⟨(hst.mono (List.nil_prefix)).append (ha ▸ ihst), ?_⟩
    rw [historyFrom, asks_append, List.append_assoc, ← ha]
    exact iha

/-- **A session is a stretch of whole attempts**, and its journal says what the lookup was asked for. -/
theorem history_stretch (ts : List Turn) :
    i.Stretch [] [] (i.history ts) [] ∧ (i.memoryAfter ts).asked = asks (i.history ts) := by
  obtain ⟨hst, ha⟩ := historyFrom_stretch (Memory.fresh i.size []) [] ts
  exact ⟨hst, ha.trans (List.append_nil _)⟩

/-- what is cached at a moment was stored before -/
theorem stored_of_cacheAt {events : List (Event i.size)} {s : i.contract.Slot} {r : Resolved}
    (h : i.cacheAt events s = some r) : .stored s r ∈ events := by
  induction events with
  | nil => cases h
  | cons e earlier ih =>
    cases e with
    | stored s' r' =>
      by_cases hs : s = s'
      · subst hs
        have hr : r' = r := by simpa [cacheAt, Cache.apply] using h
        rw [hr]
        exact List.mem_cons_self
      · exact List.mem_cons_of_mem _ (ih (by simpa [cacheAt, Cache.apply, hs] using h))
    | _ => exact List.mem_cons_of_mem _ (ih h)

end Instance

end TieredOptions
