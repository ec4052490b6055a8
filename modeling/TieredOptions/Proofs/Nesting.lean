/-
What is under way. The journal says at every moment which options are being resolved, on which threads: those that were
entered and not yet left (`underWay`). A law says of an event what must hold at its moment, given what is under way and
what happened just before; a stretch of the journal heeds a law if all its events do (`Law.Heeded`).

A read gives back what is under way as it found it, and heeds every law that its single steps obey
(`Obeys.resolve_returns`), and so does a session (`Obeys.history`). One such law is `nesting`: an option is entered on a
thread only if it is not under way there, it is refused only if it is, and what is left is what was entered last. So no
option is ever under way twice on a thread (`Law.Heeded.nodup`). While a read goes on, what it found under way stays so,
and all else that is under way was entered later (`resolve_stays`).
-/
import Mathlib.Data.Fintype.Card
import Mathlib.Data.List.TakeWhile
import TieredOptions.Proofs.History

namespace TieredOptions

/-! ## Chains -/

namespace Memory

variable {n : Nat} {m : Memory n}

/-- nothing leads back to an option that is not under way -/
theorem chain_eq_nil {thread : Nat} {s : Fin n} (h : (thread, s) ∉ m.active) : m.chain thread s = [] := by
  have hd : m.active.dropWhile (· != (thread, s)) = [] := by
    rw [List.dropWhile_eq_nil_iff]
    intro p hp
    simpa using fun he : p = (thread, s) => h (he ▸ hp)
  simp [chain, hd]

/-- what leads back to an option that is under way begins with it -/
theorem chain_eq_cons {thread : Nat} {s : Fin n} (h : (thread, s) ∈ m.active) :
    ∃ rest, m.chain thread s = s :: rest := by
  cases hd : m.active.dropWhile (· != (thread, s)) with
  | nil =>
    rw [List.dropWhile_eq_nil_iff] at hd
    exact absurd (hd _ h) (by simp)
  | cons p rest =>
    have hp := List.head?_dropWhile_not (· != (thread, s)) m.active
    rw [hd] at hp
    have hp : p = (thread, s) := by simpa using hp
    subst hp
    exact ⟨_, by rw [chain, hd, List.filter_cons_of_pos (by simp), List.map_cons]⟩

theorem chain_eq_nil_iff {thread : Nat} {s : Fin n} : m.chain thread s = [] ↔ (thread, s) ∉ m.active := by
  refine ⟨fun h hm => ?_, chain_eq_nil⟩
  obtain ⟨rest, hr⟩ := chain_eq_cons hm
  rw [hr] at h
  cases h

/-- leaving takes back entering -/
theorem leave_active {active : List (Nat × Fin n)} {thread : Nat} {s : Fin n}
    (h : m.active = active ++ [(thread, s)]) : (m.leave thread s).active = active := by
  simp [leave, record, h]

@[simp] theorem store_active {s : Fin n} {r : Resolved} : (m.store s r).active = m.active := by
  unfold store
  split <;> rfl

end Memory

/-! ## Moments -/

/-- what is under way after something happened, oldest first -/
def Event.bear {n : Nat} (active : List (Nat × Fin n)) : Event n → List (Nat × Fin n)
  | .entered thread s => active ++ [(thread, s)]
  | .left thread s => (active.reverse.erase (thread, s)).reverse
  | _ => active

/-- what is under way after some events, newest first, if it was `before` -/
def underWay {n : Nat} (before : List (Nat × Fin n)) (events : List (Event n)) : List (Nat × Fin n) :=
  events.foldr (fun e active => e.bear active) before

@[simp] theorem underWay_nil {n : Nat} (before : List (Nat × Fin n)) : underWay before [] = before := rfl

@[simp] theorem underWay_cons {n : Nat} (before : List (Nat × Fin n)) (e : Event n) (earlier : List (Event n)) :
    underWay before (e :: earlier) = e.bear (underWay before earlier) := rfl

theorem underWay_append {n : Nat} (before : List (Nat × Fin n)) (late early : List (Event n)) :
    underWay before (late ++ early) = underWay (underWay before early) late := by
  simp [underWay]

theorem Event.bear_left {n : Nat} (active : List (Nat × Fin n)) (thread : Nat) (s : Fin n) :
    (Event.left thread s).bear (active ++ [(thread, s)]) = active := by
  simp [bear]

/-- What is allowed to happen, given what is under way and what happened before, newest first. What happened longer ago
    takes nothing back. -/
structure Law (n : Nat) where
  Allows : List (Nat × Fin n) → List (Event n) → Event n → Prop
  extend : ∀ active recent earlier e, Allows active recent e → Allows active (recent ++ earlier) e

namespace Law

variable {n : Nat} {law : Law n} {before : List (Nat × Fin n)}

/-- every event is allowed at its moment -/
def Heeded (law : Law n) (before : List (Nat × Fin n)) : List (Event n) → Prop
  | [] => True
  | e :: earlier => law.Allows (underWay before earlier) earlier e ∧ law.Heeded before earlier

theorem Heeded.append {late early : List (Event n)} (hl : law.Heeded (underWay before early) late)
    (he : law.Heeded before early) : law.Heeded before (late ++ early) := by
  induction late with
  | nil => exact he
  | cons e late ih =>
    refine ⟨?_, ih hl.2⟩
    show law.Allows (underWay before (late ++ early)) (late ++ early) e
    rw [underWay_append]
    exact law.extend _ _ _ _ hl.1

theorem Heeded.suffix {late early : List (Event n)} (h : law.Heeded before late) (he : early <:+ late) :
    law.Heeded before early := by
  induction late with
  | nil => rwa [List.suffix_nil.1 he]
  | cons e late ih =>
    rcases List.suffix_cons_iff.1 he with rfl | he
    · exact h
    · exact ih h.2 he

/-- events that heed a law heed every other that follows from it for each of them -/
theorem Heeded.imp {law' : Law n} {events : List (Event n)} (h : law.Heeded before events)
    (hl : ∀ active recent, ∀ e ∈ events, law.Allows active recent e → law'.Allows active recent e) :
    law'.Heeded before events := by
  induction events with
  | nil => trivial
  | cons e earlier ih =>
    refine ⟨hl _ _ e List.mem_cons_self h.1, ih h.2 fun active recent e he => ?_⟩
    exact hl active recent e (List.mem_cons_of_mem _ he)

/-- **How attempts nest.** An option is entered on a thread if it is not under way there, and refused if it is; it is
left when nothing that was entered later is under way. -/
def nesting (n : Nat) : Law n where
  Allows active _
    | .entered thread s => (thread, s) ∉ active
    | .reentered thread s => (thread, s) ∈ active
    | .left thread s => active.getLast? = some (thread, s)
    | _ => True
  extend _ _ _ e h := by cases e <;> exact h

/-- what is under way goes on being so, and what else is under way was entered later -/
def beneath {n : Nat} (base : List (Nat × Fin n)) : Law n where
  Allows active _ _ := base <+: active
  extend _ _ _ _ h := h

/-- no option is under way twice on a thread -/
theorem Heeded.nodup {events : List (Event n)} (h : (nesting n).Heeded before events) (hb : before.Nodup) :
    (underWay before events).Nodup := by
  induction events with
  | nil => exact hb
  | cons e earlier ih =>
    have hearlier := ih h.2
    cases e with
    | entered thread s =>
      have hnew : (thread, s) ∉ underWay before earlier := h.1
      exact hearlier.append (List.nodup_singleton _) (by simpa using hnew)
    | left thread s => exact List.nodup_reverse.2 ((List.nodup_reverse.2 hearlier).erase _)
    | _ => exact hearlier

end Law

/-- at most all options are under way on one thread -/
theorem length_le_of_thread {n thread : Nat} {active : List (Nat × Fin n)} (hd : active.Nodup)
    (ht : ∀ p ∈ active, p.1 = thread) : active.length ≤ n := by
  have hslots : (active.map (·.2)).Nodup := by
    refine hd.map_on fun p hp q hq h => Prod.ext ?_ h
    rw [ht p hp, ht q hq]
  simpa using hslots.length_le_card

/-! ## Runs that return to what was under way -/

/-- What is under way is the same again, and everything in between heeded the law. -/
def Memory.Returns {n : Nat} (law : Law n) (m m' : Memory n) : Prop :=
  m'.active = m.active ∧
    ∃ new, m'.journal = new ++ m.journal ∧ underWay m.active new = m.active ∧ law.Heeded m.active new

namespace Memory.Returns

variable {n : Nat} {law : Law n} {m m' : Memory n}

instance : IsPreorder (Memory n) (Memory.Returns law) where
  refl m := ⟨rfl, [], rfl, rfl, trivial⟩
  trans := by
    rintro m m' m'' ⟨ha, new, hj, hu, hl⟩ ⟨ha', new', hj', hu', hl'⟩
    rw [ha] at hu' hl'
    refine ⟨ha'.trans ha, new' ++ new, by rw [hj', hj, List.append_assoc], ?_, .append (by rwa [hu]) hl⟩
    rw [underWay_append, hu, hu']

/-- a change outside the journal and what is under way -/
theorem of_same (hj : m'.journal = m.journal) (ha : m'.active = m.active) : Returns law m m' :=
  ⟨ha, [], hj, rfl, trivial⟩

/-- a note of something that is allowed and changes nothing that is under way -/
theorem note {e : Event n} (hj : m'.journal = e :: m.journal) (ha : m'.active = m.active)
    (he : e.bear m.active = m.active) (hl : law.Allows m.active [] e) : Returns law m m' :=
  ⟨ha, [e], hj, he, hl, trivial⟩

/-- an attempt: an option is entered, what is under way returns to that, and the option is left -/
theorem attempt {thread : Nat} {s : Fin n} (h : Returns law (m.enter thread s) m')
    (hentered : law.Allows m.active [] (.entered thread s))
    (hleft : ∀ earlier, law.Allows (m.active ++ [(thread, s)]) earlier (.left thread s)) :
    Returns law m (m'.leave thread s) := by
  obtain ⟨ha, new, hj, hu, hl⟩ := h
  have henter : (m.enter thread s).active = m.active ++ [(thread, s)] := rfl
  have hbefore : underWay m.active [.entered thread s] = m.active ++ [(thread, s)] := rfl
  rw [henter] at ha hu hl
  have hstretch : underWay m.active (new ++ [.entered thread s]) = m.active ++ [(thread, s)] := by
    rw [underWay_append, hbefore, hu]
  refine ⟨leave_active ha, .left thread s :: (new ++ [.entered thread s]), ?_, ?_, ?_, ?_⟩
  · show .left thread s :: m'.journal = _
    rw [hj]
    simp [enter, record]
  · rw [underWay_cons, hstretch, Event.bear_left]
  · rw [hstretch]
    exact hleft _
  · exact .append (by rwa [hbefore]) ⟨hentered, trivial⟩

end Memory.Returns

namespace Instance

open Memory

variable {i : Instance}

/-! ## Reads -/

/-- A law that has nothing against sources, read by read: beside the reads of a source there are only its own events. -/
theorem Returns.bookkeeping {law : Law i.size} (hran : ∀ active s tier, law.Allows active [] (.ran s tier))
    (hreturned : ∀ active s tier o, law.Allows active [] (.returned s tier o))
    (hfailed : ∀ active s tier e, law.Allows active [] (.failed s tier e)) : Bookkeeping (Returns law) where
  ran m s tier := .note rfl rfl rfl (hran m.active s tier)
  returned m s tier o := .note rfl rfl rfl (hreturned m.active s tier o)
  failed m s tier e := .note rfl rfl rfl (hfailed m.active s tier e)
  spent _ _ := .of_same rfl rfl
  shared _ _ := .of_same rfl rfl
  asked _ _ := .of_same rfl rfl

theorem Returns.store {law : Law i.size} {m : Memory i.size} {s : i.contract.Slot} {r : Resolved}
    (hl : law.Allows m.active [] (.stored s r)) : Returns law m (m.store s r) := by
  cases hs : m.resolved? s with
  | some r₀ =>
    rw [store_of_some hs]
    exact refl_of (Returns law) m
  | none => exact .note (store_of_none hs r).1 store_active rfl hl

/-- Every single step of a read is allowed, given what is known where it is taken: an option that is entered is not
under way, one that is refused is, what is stored has its option's type, and what is left was entered last. -/
structure Obeys (i : Instance) (law : Law i.size) : Prop where
  entered : ∀ active thread s, (thread, s) ∉ active → law.Allows active [] (.entered thread s)
  reentered : ∀ active thread s, (thread, s) ∈ active → law.Allows active [] (.reentered thread s)
  ran : ∀ active s tier, law.Allows active [] (.ran s tier)
  returned : ∀ active s tier o, law.Allows active [] (.returned s tier o)
  failed : ∀ active s tier e, law.Allows active [] (.failed s tier e)
  stored : ∀ active s r, (i.contract.accessor s).info.accepts r.value = true → law.Allows active [] (.stored s r)
  answered : ∀ active thread s v, law.Allows active [] (.answered thread s v)
  left : ∀ active earlier thread s, law.Allows (active ++ [(thread, s)]) earlier (.left thread s)

/-- **Every read returns to what was under way**, from whatever memory, on whatever thread, however deep it nests and
    however it ends; and on the way it heeds the laws that its steps obey. -/
theorem Obeys.resolve_returns {law : Law i.size} (h : i.Obeys law) (depth thread : Nat) (s : i.contract.Slot) :
    Run.Keeps (Returns law) (i.resolve depth thread s) := by
  refine resolve_keeps (Returns.bookkeeping h.ran h.returned h.failed) ?_ ?_ ?_ ?_ depth thread s
  · exact fun m s r ha => Returns.store (h.stored _ s r ha)
  · exact fun m thread s v => .note rfl rfl rfl (h.answered _ thread s v)
  · intro m thread s hc
    exact .note rfl rfl rfl (h.reentered _ thread s (by_contra fun hm => hc (chain_eq_nil hm)))
  · intro m m' thread s hc hr
    exact hr.attempt (h.entered _ thread s (chain_eq_nil_iff.1 hc)) fun earlier => h.left _ earlier thread s

theorem nesting_obeyed (i : Instance) : i.Obeys (Law.nesting i.size) where
  entered _ _ _ h := h
  reentered _ _ _ h := h
  ran _ _ _ := trivial
  returned _ _ _ _ := trivial
  failed _ _ _ _ := trivial
  stored _ _ _ _ := trivial
  answered _ _ _ _ := trivial
  left _ _ _ _ := List.getLast?_concat

/-- Where the given attempts are the outer ones under way, what is under way is the same again, and they were the outer
    ones all the time. -/
def Stays (base : List (Nat × i.contract.Slot)) (m m' : Memory i.size) : Prop :=
  base <+: m.active → Returns (Law.beneath base) m m'

instance (base : List (Nat × i.contract.Slot)) : IsPreorder (Memory i.size) (Stays base) where
  refl m _ := refl_of (Returns _) m
  trans _ _ _ h h' hb := trans_of (Returns _) (h hb) (h' ((h hb).1 ▸ hb))

theorem stays_bookkeeping (base : List (Nat × i.contract.Slot)) : Bookkeeping (Stays base) where
  ran _ _ _ hb := .note rfl rfl rfl hb
  returned _ _ _ _ hb := .note rfl rfl rfl hb
  failed _ _ _ _ hb := .note rfl rfl rfl hb
  spent _ _ _ := .of_same rfl rfl
  shared _ _ _ := .of_same rfl rfl
  asked _ _ _ := .of_same rfl rfl

/-- **A read takes nothing from under what it finds**: at no moment of it has an attempt ended that was under way
    before. -/
theorem resolve_stays (base : List (Nat × i.contract.Slot)) (depth thread : Nat) (s : i.contract.Slot) :
    Run.Keeps (Stays base) (i.resolve depth thread s) := by
  refine resolve_keeps (stays_bookkeeping base) ?_ ?_ ?_ ?_ depth thread s
  · exact fun m s r _ hb => Returns.store hb
  · exact fun m thread s v hb => .note rfl rfl rfl hb
  · exact fun m thread s _ hb => .note rfl rfl rfl hb
  · intro m m' thread s _ hr hb
    have hlonger : base <+: m.active ++ [(thread, s)] := hb.trans (List.prefix_append ..)
    exact (hr hlonger).attempt hb fun _ => hlonger

theorem settle_stays (base : List (Nat × i.contract.Slot)) (depth thread : Nat) (s : i.contract.Slot) :
    Run.Keeps (Stays base) (i.settle (i.resolve depth) thread s) := by
  have hnotes : Notes (Stays base) s := (stays_bookkeeping base).notes s
  have hcompute : Run.Keeps (Stays base) (i.compute (i.resolve depth) thread s) :=
    compute_keeps hnotes (fun _ _ _ x _ thread => resolve_stays base depth thread x) thread
  exact settle_keeps hcompute (fun _ _ _ hb => Returns.store hb) fun _ _ hb => .note rfl rfl rfl hb

/-! ## Sessions -/

/-- A session heeds a law if every turn does that begins with nothing under way. -/
theorem history_heeds {law : Law i.size}
    (hturn : ∀ (m : Memory i.size) (t : Turn), m.active = [] →
      Returns law { m with shared := t.shared, journal := [] } (i.turn m t).2) (ts : List Turn) :
    (i.memoryAfter ts).active = [] ∧ underWay [] (i.history ts) = [] ∧ law.Heeded [] (i.history ts) := by
  unfold memoryAfter history
  have hfresh : (Memory.fresh i.size []).active = [] := rfl
  generalize Memory.fresh i.size [] = m at hfresh
  induction ts generalizing m with
  | nil => exact ⟨hfresh, rfl, trivial⟩
  | cons t ts ih =>
    obtain ⟨ha, new, hj, hu, hl⟩ := hturn m t hfresh
    have hj : (i.turn m t).2.journal = new := hj.trans (List.append_nil new)
    have hbefore : ({ m with shared := t.shared, journal := [] } : Memory i.size).active = [] := hfresh
    rw [hbefore] at ha hu hl
    obtain ⟨iha, ihu, ihl⟩ := ih _ ha
    rw [historyFrom, hj]
    exact ⟨iha, by rw [underWay_append, hu, ihu], .append (by rwa [hu]) hl⟩

/-- a session heeds the laws that the steps of its reads obey -/
theorem Obeys.history {law : Law i.size} (h : i.Obeys law) (ts : List Turn) : law.Heeded [] (i.history ts) := by
  refine (history_heeds (fun m t _ => ?_) ts).2.2
  exact answer_keeps (fun thread s => h.resolve_returns _ thread s) t.config t.thread t.request _

end Instance

end TieredOptions
