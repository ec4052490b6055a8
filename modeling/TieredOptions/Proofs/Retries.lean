/-
Retries. No failure is kept: an option whose read fails is not cached afterwards, and the next read of it runs its
sources again. A value is kept for good. So what happens to an option in a session without threads is a number of
attempts in vain, perhaps one that bears fruit, and from then on answers from the cache (`Retried`).

This is a fact about runs of the machine (`Steps.phase`): for the option at hand every moment is in one of a few phases,
each of which says what has happened to it so far, and `Phase.step` says how a step leads from one to the next. With all
that is under way on one thread, an option is not entered while it is under way, and nothing but its own attempt stores
a value for it.
-/
import TieredOptions.Proofs.Ending
import TieredOptions.Proofs.Moments
import TieredOptions.Proofs.Stability
import TieredOptions.Proofs.Typing

namespace TieredOptions

/-! ## What happens to one option -/

/-- a source is run, comes back or fails, or a read is refused -/
def Event.isTrial {n : Nat} : Event n → Bool
  | .reentered .. => true
  | e => e.ofSource

/-- an attempt is at its own option -/
theorem Stage.Step.slot {n : Nat} {cache : Cache n} {thread : Nat} {s : Fin n} {stage stage' : Stage} {e : Event n}
    (h : stage.Step cache thread s e stage') : e.slot = s := by
  cases h <;> rfl

namespace Moment

variable {n : Nat}

/-- what happened to an option, oldest first -/
def about (s : Fin n) (events : List (Event n)) : List (Event n) := (events.filter (·.slot = s)).reverse

/-- The beginning of an attempt: the option is entered, a source of it is run, and there may be more trials. -/
def Trial (s : Fin n) (thread : Nat) (events : List (Event n)) : Prop :=
  ∃ tier rest, events = .entered thread s :: .ran s tier :: rest ∧ ∀ e ∈ rest, e.isTrial = true

/-- an attempt in vain: the option is left after the trials -/
def Vain (s : Fin n) (events : List (Event n)) : Prop :=
  ∃ thread trial, Trial s thread trial ∧ events = trial ++ [.left thread s]

/-- an attempt that bears fruit: a value is stored after the trials and answered, and the option is left -/
def Fruitful (s : Fin n) (r : Resolved) (events : List (Event n)) : Prop :=
  ∃ thread trial, Trial s thread trial ∧ events = trial ++ [.stored s r, .answered thread s r.value, .left thread s]

/-- some attempts in vain, one after the other -/
def Tried (s : Fin n) (events : List (Event n)) : Prop :=
  ∃ attempts : List (List (Event n)), (∀ attempt ∈ attempts, Vain s attempt) ∧ events = attempts.flatten

/-- After some attempts in vain there may be one that bears fruit, and after that the value is answered and nothing
    else happens. -/
def Retried (s : Fin n) (events : List (Event n)) : Prop :=
  Tried s events ∨ ∃ r past fruit answers, Tried s past ∧ Fruitful s r fruit ∧
    (∀ e ∈ answers, ∃ thread, e = .answered thread s r.value) ∧ events = past ++ fruit ++ answers

variable {s : Fin n} {thread : Nat} {past events : List (Event n)} {e : Event n}

theorem Tried.nil : Tried s [] := ⟨[], by simp, rfl⟩

theorem Tried.append (h : Tried s past) {attempt : List (Event n)} (ha : Vain s attempt) :
    Tried s (past ++ attempt) := by
  obtain ⟨attempts, hv, rfl⟩ := h
  refine ⟨attempts ++ [attempt], ?_, by simp⟩
  simpa [or_imp, forall_and] using ⟨hv, ha⟩

theorem Trial.append (h : Trial s thread events) (he : e.isTrial = true) : Trial s thread (events ++ [e]) := by
  obtain ⟨tier, rest, rfl, hrest⟩ := h
  refine ⟨tier, rest ++ [e], rfl, ?_⟩
  simpa [or_imp, forall_and] using ⟨hrest, he⟩

/-- The first that happens to an option is that it is entered and a source of it run. -/
def Begins (s : Fin n) (events : List (Event n)) : Prop :=
  events = [] ∨ ∃ thread tier rest, events = .entered thread s :: .ran s tier :: rest

theorem Vain.begins_append {attempt : List (Event n)} (h : Vain s attempt) (rest : List (Event n)) :
    Begins s (attempt ++ rest) := by
  obtain ⟨thread, trial, ht, rfl⟩ := h
  obtain ⟨tier, more, rfl, -⟩ := ht
  exact .inr ⟨thread, tier, more ++ (.left thread s :: rest), by simp⟩

theorem Fruitful.begins_append {r : Resolved} {fruit : List (Event n)} (h : Fruitful s r fruit)
    (rest : List (Event n)) : Begins s (fruit ++ rest) := by
  obtain ⟨thread, trial, ht, rfl⟩ := h
  obtain ⟨tier, more, rfl, -⟩ := ht
  exact .inr ⟨thread, tier, more ++ (.stored s r :: .answered thread s r.value :: .left thread s :: rest), by simp⟩

theorem Retried.begins (h : Retried s events) : Begins s events := by
  rcases h with ⟨attempts, hv, rfl⟩ | ⟨r, _, fruit, answers, ⟨attempts, hv, rfl⟩, hf, -, rfl⟩
  · cases attempts with
    | nil => exact .inl rfl
    | cons attempt attempts => exact (hv attempt List.mem_cons_self).begins_append _
  · rw [List.append_assoc]
    cases attempts with
    | nil => exact hf.begins_append _
    | cons attempt attempts =>
      rw [List.flatten_cons, List.append_assoc]
      exact (hv attempt List.mem_cons_self).begins_append _

/-! ## Steps, seen from one option -/

theorem about_cons (s : Fin n) (e : Event n) (events : List (Event n)) :
    about s (e :: events) = about s events ++ about s [e] := by
  by_cases he : e.slot = s <;> simp [about, he]

theorem about_of_slot (he : e.slot = s) : about s [e] = [e] := by simp [about, he]

theorem about_of_ne (he : e.slot ≠ s) : about s [e] = [] := by simp [about, he]

/-- none of the attempts is at the option -/
def Apart (s : Fin n) (attempts : List (Attempt n)) : Prop := ∀ a ∈ attempts, a.slot ≠ s

theorem Apart.nil : Apart s [] := List.forall_mem_nil _

/-- What a step may be to an option that none of the inner attempts is at. -/
inductive Seen (s : Fin n) (inner tail : List (Attempt n)) (cache : Cache n) : Event n → Moment n → Prop where
  | elsewhere {e : Event n} (inner' : List (Attempt n)) {cache' : Cache n} (ne : e.slot ≠ s) (apart : Apart s inner')
    (same : cache' s = cache s) : Seen s inner tail cache e ⟨inner' ++ tail, cache'⟩
  | entered (thread : Nat) (new : ∀ a ∈ inner ++ tail, a.key ≠ (thread, s)) (unfilled : cache s = none) :
    Seen s inner tail cache (.entered thread s) ⟨⟨thread, s, .fresh⟩ :: (inner ++ tail), cache⟩
  | refused (thread : Nat) (old : ∃ a ∈ inner ++ tail, a.key = (thread, s)) (unfilled : cache s = none) :
    Seen s inner tail cache (.reentered thread s) ⟨inner ++ tail, cache⟩
  | recalled (thread : Nat) (r : Resolved) (cached : cache s = some r) :
    Seen s inner tail cache (.answered thread s r.value) ⟨inner ++ tail, cache⟩
  | within {thread : Nat} {x : Fin n} {stage stage' : Stage} {outer : List (Attempt n)} {e : Event n} (hi : inner = [])
    (ht : tail = ⟨thread, x, stage⟩ :: outer) (h : stage.Step cache thread x e stage') :
    Seen s inner tail cache e ⟨⟨thread, x, stage'⟩ :: outer, cache.apply e⟩
  | left {thread : Nat} {x : Fin n} {stage : Stage} {outer : List (Attempt n)} (hi : inner = [])
    (ht : tail = ⟨thread, x, stage⟩ :: outer) (tried : stage ≠ .fresh) (told : stage ≠ .stored) :
    Seen s inner tail cache (.left thread x) ⟨outer, cache⟩

theorem Step.seen {attempts inner tail : List (Attempt n)} {cache : Cache n} {o' : Moment n}
    (h : Step ⟨attempts, cache⟩ e o') (ho : attempts = inner ++ tail) (ha : Apart s inner) :
    Seen s inner tail cache e o' := by
  cases h with
  | @entered _ _ thread x busy new unfilled =>
    cases ho
    by_cases hx : x = s
    · subst hx
      exact .entered thread new unfilled
    · exact .elsewhere (⟨thread, x, .fresh⟩ :: inner) hx (List.forall_mem_cons.2 ⟨hx, ha⟩) rfl
  | @reentered _ _ thread x busy old unfilled =>
    cases ho
    by_cases hx : x = s
    · subst hx
      exact .refused thread old unfilled
    · exact .elsewhere inner hx ha rfl
  | @recalled _ _ thread x r busy cached =>
    cases ho
    by_cases hx : x = s
    · subst hx
      exact .recalled thread r cached
    · exact .elsewhere inner hx ha rfl
  | @within outer _ thread x stage stage' e h =>
    cases inner with
    | nil => exact .within rfl ho.symm h
    | cons b inner =>
      cases ho
      obtain ⟨hx, hinner⟩ := List.forall_mem_cons.1 ha
      have he : e.slot ≠ s := h.slot ▸ hx
      exact .elsewhere (⟨thread, x, stage'⟩ :: inner) he (List.forall_mem_cons.2 ⟨hx, hinner⟩) (cache.apply_of_ne he)
  | @left outer _ thread x stage tried told =>
    cases inner with
    | nil => exact .left rfl ho.symm tried told
    | cons b inner =>
      cases ho
      obtain ⟨hx, hinner⟩ := List.forall_mem_cons.1 ha
      exact .elsewhere inner hx hinner rfl

/-- an attempt none of whose sources is running goes on itself, or ends -/
theorem Step.of_pausing {o' : Moment n} {stage : Stage} {outer : List (Attempt n)} {cache : Cache n}
    (h : Step ⟨⟨thread, s, stage⟩ :: outer, cache⟩ e o') (hstage : ∀ tier, stage ≠ .running tier) :
    (∃ stage', stage.Step cache thread s e stage' ∧ o' = ⟨⟨thread, s, stage'⟩ :: outer, cache.apply e⟩) ∨
      e = .left thread s ∧ stage ≠ .fresh ∧ stage ≠ .stored ∧ o' = ⟨outer, cache⟩ := by
  have hbusy : ¬ Busy (⟨thread, s, stage⟩ :: outer) := fun hb => by
    obtain ⟨tier, ht⟩ := hb _ List.mem_cons_self
    exact hstage tier ht
  cases h with
  | entered busy => exact absurd busy hbusy
  | reentered busy => exact absurd busy hbusy
  | recalled busy => exact absurd busy hbusy
  | within h => exact .inl ⟨_, h, rfl⟩
  | left tried told => exact .inr ⟨rfl, tried, told, rfl⟩

/-! ## Phases -/

/-- Where an option is, and what has happened to it so far, oldest first. -/
inductive Phase (s : Fin n) : Moment n → List (Event n) → Prop where
  /-- It is not cached and not under way. -/
  | resting {attempts : List (Attempt n)} {cache : Cache n} {past : List (Event n)} (apart : Apart s attempts)
    (unfilled : cache s = none) (tried : Tried s past) : Phase s ⟨attempts, cache⟩ past
  /-- It was just entered. -/
  | begun {thread : Nat} {outer : List (Attempt n)} {cache : Cache n} {past : List (Event n)} (apart : Apart s outer)
    (unfilled : cache s = none) (tried : Tried s past) :
    Phase s ⟨⟨thread, s, .fresh⟩ :: outer, cache⟩ (past ++ [.entered thread s])
  /-- Its sources are tried. -/
  | trying {thread : Nat} {inner outer : List (Attempt n)} {stage : Stage} {cache : Cache n}
    {past tries : List (Event n)} (within : Apart s inner) (apart : Apart s outer)
    (ongoing : stage = .between ∨ ∃ tier, stage = .running tier) (unfilled : cache s = none) (tried : Tried s past)
    (trial : Trial s thread tries) :
    Phase s ⟨inner ++ ⟨thread, s, stage⟩ :: outer, cache⟩ (past ++ tries)
  /-- It has its value. -/
  | stored {thread : Nat} {outer : List (Attempt n)} {cache : Cache n} {r : Resolved} {past tries : List (Event n)}
    (apart : Apart s outer) (cached : cache s = some r) (tried : Tried s past) (trial : Trial s thread tries) :
    Phase s ⟨⟨thread, s, .stored⟩ :: outer, cache⟩ (past ++ (tries ++ [.stored s r]))
  /-- Its value was answered. -/
  | answered {thread : Nat} {outer : List (Attempt n)} {cache : Cache n} {r : Resolved} {past tries : List (Event n)}
    (apart : Apart s outer) (cached : cache s = some r) (tried : Tried s past) (trial : Trial s thread tries) :
    Phase s ⟨⟨thread, s, .answered⟩ :: outer, cache⟩ (past ++ (tries ++ [.stored s r, .answered thread s r.value]))
  /-- It is answered from the cache. -/
  | filled {attempts : List (Attempt n)} {cache : Cache n} {r : Resolved} {past fruit answers : List (Event n)}
    (apart : Apart s attempts) (cached : cache s = some r) (tried : Tried s past) (fruitful : Fruitful s r fruit)
    (answered : ∀ e ∈ answers, ∃ thread, e = .answered thread s r.value) :
    Phase s ⟨attempts, cache⟩ (past ++ fruit ++ answers)

/-- The sources of an option are tried, or it is left in vain, or it gets its value. -/
theorem Phase.of_trying {inner outer : List (Attempt n)} {stage : Stage} {cache : Cache n} {tries : List (Event n)}
    {o' : Moment n} (within : Apart s inner) (apart : Apart s outer)
    (ongoing : stage = .between ∨ ∃ tier, stage = .running tier) (unfilled : cache s = none) (tried : Tried s past)
    (trial : Trial s thread tries) (hs : Step ⟨inner ++ ⟨thread, s, stage⟩ :: outer, cache⟩ e o')
    (alone : ∀ thread' x, e = .entered thread' x → thread = thread') :
    Phase s o' (past ++ tries ++ about s [e]) := by
  cases hs.seen rfl within with
  | elsewhere inner' ne within same =>
    rw [about_of_ne ne, List.append_nil]
    exact .trying within apart ongoing (same.trans unfilled) tried trial
  | entered thread' new =>
    -- the option is under way on this thread, so it is refused
    have hthread := alone thread' s rfl
    subst hthread
    exact absurd rfl (new ⟨thread, s, stage⟩ (by simp))
  | refused thread' =>
    rw [about_of_slot (s := s) rfl, List.append_assoc]
    exact .trying within apart ongoing unfilled tried (trial.append rfl)
  | recalled thread' r cached =>
    rw [unfilled] at cached
    cases cached
  | within hi ht h =>
    cases hi
    cases ht
    rw [about_of_slot h.slot, List.append_assoc]
    cases h with
    | ran tier => exact .trying .nil apart (.inr ⟨tier, rfl⟩) unfilled tried (trial.append rfl)
    | returned tier o => exact .trying .nil apart (.inl rfl) unfilled tried (trial.append rfl)
    | failed tier e => exact .trying .nil apart (.inl rfl) unfilled tried (trial.append rfl)
    | stored r => exact .stored apart (if_pos rfl) tried trial
    | answered untold cached =>
      rw [unfilled] at cached
      cases cached
  | left hi ht =>
    cases hi
    cases ht
    rw [about_of_slot (s := s) rfl, List.append_assoc]
    exact .resting apart unfilled (tried.append ⟨thread, tries, trial, rfl⟩)

/-- **How an option goes from phase to phase**, where nothing is entered while something is under way on another
    thread. -/
theorem Phase.step {o o' : Moment n} (h : Phase s o events) (hs : Step o e o')
    (alone : ∀ thread x, e = .entered thread x → ∀ a ∈ o.attempts, a.thread = thread) :
    Phase s o' (events ++ about s [e]) := by
  cases h with
  | resting apart unfilled tried =>
    cases hs.seen (List.append_nil _).symm apart with
    | elsewhere inner' ne apart same =>
      simp only [about_of_ne ne, List.append_nil]
      exact .resting apart (same.trans unfilled) tried
    | entered thread new unfilled =>
      simp only [about_of_slot (s := s) (e := .entered thread s) rfl, List.append_nil]
      exact .begun apart unfilled tried
    | refused thread old =>
      obtain ⟨a, ha, hk⟩ := old
      exact absurd (congrArg Prod.snd hk) (apart a ((List.append_nil _).subst ha))
    | recalled thread r cached =>
      rw [unfilled] at cached
      cases cached
    | within hi ht => cases ht
    | left hi ht => cases ht
  | begun apart unfilled tried =>
    rcases hs.of_pausing (by simp) with ⟨stage', h, rfl⟩ | ⟨-, htried, -⟩
    · rw [about_of_slot h.slot, List.append_assoc]
      cases h with
      | ran tier =>
        exact .trying .nil apart (.inr ⟨tier, rfl⟩) unfilled tried ⟨tier, [], rfl, by simp⟩
      | answered untold => simp at untold
    · exact absurd rfl htried
  | trying within apart ongoing unfilled tried trial =>
    exact .of_trying within apart ongoing unfilled tried trial hs fun thread' x he =>
      alone thread' x he ⟨_, s, _⟩ (List.mem_append_right _ List.mem_cons_self)
  | stored apart cached tried trial =>
    rcases hs.of_pausing (by simp) with ⟨stage', h, rfl⟩ | ⟨-, -, htold, -⟩
    · rw [about_of_slot h.slot, List.append_assoc, List.append_assoc]
      cases h with
      | ran tier ready => simp at ready
      | answered untold cached' =>
        cases cached.symm.trans cached'
        exact .answered apart cached tried trial
    · exact absurd rfl htold
  | @answered thread outer cache r past tries apart cached tried trial =>
    rcases hs.of_pausing (by simp) with ⟨stage', h, rfl⟩ | ⟨rfl, -, -, rfl⟩
    · cases h with
      | ran tier ready => simp at ready
      | answered untold => simp at untold
    · rw [about_of_slot (s := s) rfl, List.append_assoc, List.append_assoc]
      have hfruit : Fruitful s r (tries ++ [.stored s r, .answered thread s r.value, .left thread s]) :=
        ⟨thread, tries, trial, rfl⟩
      have hfilled : Phase s ⟨outer, cache⟩ _ := .filled apart cached tried hfruit (List.forall_mem_nil _)
      simpa using hfilled
  | filled apart cached tried fruitful answered =>
    cases hs.seen (List.append_nil _).symm apart with
    | elsewhere inner' ne apart same =>
      simp only [about_of_ne ne, List.append_nil]
      exact .filled apart (same.trans cached) tried fruitful answered
    | entered thread new unfilled =>
      rw [unfilled] at cached
      cases cached
    | refused thread old unfilled =>
      rw [unfilled] at cached
      cases cached
    | recalled thread r cached' =>
      cases cached.symm.trans cached'
      simp only [about_of_slot (s := s) (e := .answered thread s _) rfl, List.append_assoc, List.append_nil]
      rw [← List.append_assoc]
      exact .filled apart cached tried fruitful (by simpa [or_imp, forall_and] using answered)
    | within hi ht => cases ht
    | left hi ht => cases ht

/-- an option is entered only while nothing is under way on other threads -/
def Alone (before : List (Nat × Fin n)) (events : List (Event n)) : Prop :=
  ∀ thread x earlier, .entered thread x :: earlier <:+ events → ∀ p ∈ underWay before earlier, p.1 = thread

/-- a run that finds an option in a phase leaves it in one -/
theorem Steps.phase {o o' : Moment n} (h : Steps o events o') (ho : Phase s o past) (alone : Alone o.active events) :
    Phase s o' (past ++ about s events) := by
  induction h with
  | nil => simpa [about] using ho
  | @cons o' o'' e earlier before last ih =>
    rw [about_cons, ← List.append_assoc]
    refine (ih fun thread x more he => alone thread x more (he.trans (List.suffix_cons ..))).step last ?_
    rintro thread x rfl a ha
    refine alone thread x earlier (List.suffix_refl _) a.key ?_
    rw [← before.active.1]
    exact List.mem_reverse.2 (List.mem_map_of_mem ha)

/-- where nothing is under way an attempt is over -/
theorem Phase.retried {o : Moment n} (h : Phase s o events) (ho : o.attempts = []) : Retried s events := by
  cases h with
  | resting _ _ tried => exact .inl tried
  | trying => simp at ho
  | filled _ _ tried fruitful answered => exact .inr ⟨_, _, _, _, tried, fruitful, answered, rfl⟩
  | _ => cases ho

/-- **What happens to an option that is not cached**, on one thread. -/
theorem Steps.retried {cache cache' : Cache n} (h : Steps ⟨[], cache⟩ events ⟨[], cache'⟩) (hs : cache s = none)
    (alone : Alone [] events) : Retried s (about s events) := by
  have hrest : Phase s ⟨[], cache⟩ [] := .resting .nil hs .nil
  exact (h.phase hrest alone).retried rfl

end Moment

namespace Instance

open Memory Moment

variable {i : Instance}

/-! ## Sessions in parts -/

theorem historyFrom_append (m : Memory i.size) (ts ts' : List Turn) :
    i.historyFrom m (ts ++ ts') =
      i.historyFrom (ts.foldl (fun m t => (i.turn m t).2) m) ts' ++ i.historyFrom m ts := by
  induction ts generalizing m with
  | nil => simp [historyFrom]
  | cons t ts ih => simp [historyFrom, ih]

/-- what happens in later turns comes after what has happened -/
theorem history_append (i : Instance) (ts ts' : List Turn) :
    i.history (ts ++ ts') = i.historyFrom (i.memoryAfter ts) ts' ++ i.history ts := historyFrom_append _ ts ts'

theorem memoryAfter_concat (i : Instance) (ts : List Turn) (t : Turn) :
    i.memoryAfter (ts ++ [t]) = (i.turn (i.memoryAfter ts) t).2 := by
  simp [memoryAfter]

/-- what is cached stays in later turns -/
theorem memoryAfter_kept (i : Instance) (ts ts' : List Turn) :
    Cache.Kept (i.memoryAfter ts).resolved? (i.memoryAfter (ts ++ ts')).resolved? := by
  rw [(history_lawful ts).1, (history_lawful (ts ++ ts')).1]
  exact cacheAt_kept ⟨_, (i.history_append ts ts').symm⟩ (List.suffix_refl _)

/-- where no source starts a thread, everything happens on one -/
theorem history_alone (h : i.Unthreaded) (ts : List Turn) :
    underWay [] (i.history ts) = [] ∧ (Law.alone i.size).Heeded [] (i.history ts) :=
  (history_heeds (fun _ t hm => (turn_answers h hm t).choose_spec.2) ts).2

/-- **What later turns do to an option that is not cached**, where no source starts a thread. -/
theorem later_retried (hi : i.Provided) (h : i.Unthreaded) (ts ts' : List Turn) {s : i.contract.Slot}
    (hs : (i.memoryAfter ts).resolved? s = none) : Retried s (about s (i.historyFrom (i.memoryAfter ts) ts')) := by
  refine (historyFrom_steps hi (i.memoryAfter_active ts) ts').retried hs fun thread x earlier he => ?_
  obtain ⟨late, hlate⟩ := he
  have hmoment : .entered thread x :: (earlier ++ i.history ts) <:+ i.history (ts ++ ts') := by
    rw [history_append, ← hlate]
    exact ⟨late, by simp⟩
  have halone := ((history_alone h (ts ++ ts')).2.suffix hmoment).1
  rwa [underWay_append, (history_alone h ts).1] at halone

/-! ## Reads that fail -/

variable {depth thread : Nat} {s : i.contract.Slot} {m m' : Memory i.size} {e : ResolveError}

/-- **A read that fails leaves its option without a value.** The sources may store other values, but not this one: while
    they run the option is refused, not resolved. -/
theorem resolve_failed (h : i.Unthreaded) (hm : m.active = []) (hdepth : i.size < depth)
    (hfail : i.resolve depth thread s m = (.error (.failed e), m')) : m'.resolved? s = none := by
  cases depth with
  | zero => cases hfail
  | succ depth =>
    cases hs : m.resolved? s with
    | some r =>
      rw [resolve_cached hs] at hfail
      cases hfail
    | none =>
      have hopen := Open.of_idle hm thread
      rw [resolve_entered hs (hopen.chain_eq_nil_iff.2 List.not_mem_nil)] at hfail
      have hread (x : i.contract.Slot) : i.Concur thread [s] (i.resolve depth thread x) (i.resolve depth thread x) :=
        resolve_concur h (List.nodup_singleton s) (by simpa using hdepth) (by simpa using hdepth) x
      obtain ⟨-, -, hcomputed, -⟩ := compute_concur h hread s _ (hopen.enter hs)
      rcases hc : i.compute (i.resolve depth) thread s (m.enter thread s) with ⟨e' | r, m₁⟩ <;> rw [hc] at hcomputed
      · rw [settle, Run.bind_error hc] at hfail
        cases hfail
        exact hcomputed.pending s (by simp)
      · have hnone := hcomputed.pending s (by simp)
        rw [settle, Run.bind_ok hc, keep_answer_apply hnone] at hfail
        split at hfail <;> cases hfail
        exact hnone

/-- **How the journal tells success from failure**: the last event before an option is left. -/
theorem resolve_ends (hi : i.Checked) (hs : m.resolved? s = none) (hc : (thread, s) ∉ m.active) :
    (∀ v, i.resolve depth thread s m = (.ok v, m') →
      ∃ earlier, m'.journal = .left thread s :: .answered thread s v :: earlier) ∧
    (∀ e, i.resolve depth thread s m = (.error (.failed e), m') →
      ∃ last earlier, m'.journal = .left thread s :: last :: earlier ∧ last.isTrial = true ∧ last.slot = s) := by
  refine ⟨fun v hv => ?_, fun e he => ?_⟩
  · cases depth with
    | zero => cases hv
    | succ depth =>
      rw [resolve_entered hs (chain_eq_nil hc)] at hv
      obtain ⟨hok, rfl⟩ := Prod.mk.inj hv
      obtain ⟨r, -, hkeep, hm⟩ := Run.of_bind_ok hok
      obtain ⟨w, -, hw, hm'⟩ := Run.of_bind_ok hkeep
      rw [answer_apply] at hw hm'
      cases hw
      rw [show (i.settle (i.resolve depth) thread s (m.enter thread s)).2 = _ from hm.trans hm']
      exact ⟨_, rfl⟩
  · rcases resolve_fails hi he with hcause | ⟨tier, earlier, -, hj⟩ | hcause | hcause
    · exact absurd (chain_eq_nil hc) hcause.underWay
    · exact ⟨_, earlier, hj, rfl, rfl⟩
    · rw [hcause.left]
      exact ⟨_, _, rfl, rfl, rfl⟩
    · obtain ⟨l, v, -, -, -, hm⟩ := hcause.asked
      rw [hm]
      exact ⟨_, _, rfl, rfl, rfl⟩

/-! ## Requests for one option -/

variable {name : String} {type : ValueType}

theorem getValue_eq (hs : i.contract.slot? name = some s) (thread : Nat) :
    i.getValue thread name = i.resolve i.depth thread s := by
  unfold getValue Access.readName
  rw [hs]
  rfl

/-- a read at a type of an option that is not cached afterwards has failed for want of a value, any other that fails for
    the type -/
theorem get_failed (h : i.Unthreaded) (hm : m.active = []) (htyped : i.WellTyped m.resolved?)
    (hs : i.contract.slot? name = some s) (hfail : i.get thread type name m = (.error (.failed e), m')) :
    m'.resolved? s = none ∨ ∃ tier x, m'.resolved? s = some ⟨⟨(i.contract.accessor s).type, x⟩, tier⟩ ∧
      type ≠ (i.contract.accessor s).type ∧ e = .typeMismatch name type := by
  have hread : i.getValue thread name m = i.resolve i.depth thread s m := congrFun (getValue_eq hs thread) m
  rcases hv : i.getValue thread name m with ⟨(e' | _) | v, m₁⟩
  · have hget : i.get thread type name m = (.error (.failed e'), m₁) := Run.bind_error hv _
    cases hget.symm.trans hfail
    exact .inl (resolve_failed h hm i.size_lt_depth (hread ▸ hv))
  · have hget : i.get thread type name m = (.error .unending, m₁) := Run.bind_error hv _
    cases hget.symm.trans hfail
  · obtain ⟨s', x, hs', rfl, hget, hother⟩ := get_of_getValue htyped hv
    cases hs.symm.trans hs'
    obtain ⟨-, tier, hcached⟩ := resolve_answered (i := i) (congrArg Prod.fst (hread ▸ hv))
    rw [← hread, hv] at hcached
    by_cases ht : type = (i.contract.accessor s).type
    · subst ht
      rw [hget] at hfail
      cases hfail
    · cases (hother type ht).symm.trans hfail
      exact .inr ⟨tier, x, hcached, ht, rfl⟩

variable {ts : List Turn} {t : Turn} {a : Answer}

/-- the memory that a request finds -/
def found (i : Instance) (ts : List Turn) (t : Turn) : Memory i.size :=
  { i.memoryAfter ts with shared := t.shared, journal := [] }

/-- an answer is a value or a failure that was attempted -/
theorem of_answer {x : Run i.size Value}
    (h : (do return .value (← Run.attempt x) : Run i.size Answer) m = (.ok a, m')) :
    ∃ r, a = .value r ∧ x m = (Run.outcome r, m') := by
  rcases hx : x m with ⟨(e | _) | v, m₁⟩
  · rw [Run.bind_ok (Run.attempt_failed hx)] at h
    cases h
    exact ⟨.error e, rfl, rfl⟩
  · rw [Run.bind_error (Run.attempt_unending hx)] at h
    cases h
  · rw [Run.bind_ok (Run.attempt_ok hx)] at h
    cases h
    exact ⟨.ok v, rfl, rfl⟩

theorem of_map {α β : Type} {x : Run i.size α} {f : α → β} {r : Except ResolveError β}
    (h : (do return f (← x) : Run i.size β) m = (Run.outcome r, m')) :
    ∃ r' : Except ResolveError α, r = r'.map f ∧ x m = (Run.outcome r', m') := by
  rcases hx : x m with ⟨(e | _) | v, m₁⟩
  · rw [Run.bind_error hx] at h
    cases r <;> cases h
    exact ⟨.error e, rfl, rfl⟩
  · rw [Run.bind_error hx] at h
    cases r <;> cases h
  · rw [Run.bind_ok hx] at h
    cases r <;> cases h
    exact ⟨.ok v, rfl, rfl⟩

theorem get_memory (i : Instance) (thread : Nat) (type : ValueType) (name : String) (m : Memory i.size) :
    (i.get thread type name m).2 = (i.getValue thread name m).2 := by
  rcases hv : i.getValue thread name m with ⟨e | v, m'⟩
  · exact congrArg Prod.snd (Run.bind_error hv _)
  · refine (congrArg Prod.snd (Run.bind_ok hv _)).trans ?_
    cases v.as? type <;> rfl

theorem of_turn_getValue (ht : t.request = .getValue name) (h : i.turn (i.memoryAfter ts) t = (.ok a, m')) :
    ∃ r, a = .value r ∧ i.getValue t.thread name (i.found ts t) = (Run.outcome r, m') := by
  rw [turn, ht] at h
  exact of_answer h

theorem of_turn_get (ht : t.request = .get type name) (h : i.turn (i.memoryAfter ts) t = (.ok a, m')) :
    ∃ r : Except ResolveError type.Carrier, a = .value (r.map fun x => ⟨type, x⟩) ∧
      i.get t.thread type name (i.found ts t) = (Run.outcome r, m') := by
  rw [turn, ht] at h
  obtain ⟨r, rfl, hr⟩ := of_answer h
  obtain ⟨r', rfl, hr'⟩ := of_map hr
  exact ⟨r', rfl, hr'⟩

/-- a request for an option that is not cached makes an attempt at it -/
theorem turn_about (h : i.Unthreaded) (hs : i.contract.slot? name = some s)
    (hnone : (i.memoryAfter ts).resolved? s = none)
    (ht : t.request = .getValue name ∨ ∃ type, t.request = .get type name) :
    about s (i.turn (i.memoryAfter ts) t).2.journal ≠ [] := by
  obtain ⟨a, ha, -⟩ := turn_answers h (i.memoryAfter_active ts) t
  have hturn : i.turn (i.memoryAfter ts) t = (.ok a, (i.turn (i.memoryAfter ts) t).2) := Prod.ext ha rfl
  have hmemory : (i.turn (i.memoryAfter ts) t).2 = (i.getValue t.thread name (i.found ts t)).2 := by
    rcases ht with ht | ⟨type, ht⟩
    · obtain ⟨r, -, hr⟩ := of_turn_getValue ht hturn
      rw [hr]
    · obtain ⟨r, -, hr⟩ := of_turn_get ht hturn
      rw [← get_memory, hr]
  have hchain : (i.found ts t).chain t.thread s = [] := chain_eq_nil (by simp [found, memoryAfter_active])
  have hleft : .left t.thread s ∈ (i.getValue t.thread name (i.found ts t)).2.journal := by
    rw [getValue_eq hs, depth, resolve_entered (m := i.found ts t) hnone hchain]
    exact List.mem_cons_self
  have hmem : .left t.thread s ∈ about s (i.turn (i.memoryAfter ts) t).2.journal := by
    rw [hmemory]
    simpa [about, Event.slot] using hleft
  exact List.ne_nil_of_mem hmem

/-- a request for a cached option at its own type -/
theorem turn_get_cached (hs : i.contract.slot? name = some s) {tier : Tier} {x : type.Carrier}
    (hr : (i.memoryAfter ts).resolved? s = some ⟨⟨type, x⟩, tier⟩) (ht : t.request = .get type name) :
    (i.turn (i.memoryAfter ts) t).1 = .ok (.value (.ok ⟨type, x⟩)) := by
  have hget : i.get t.thread type name (i.found ts t) =
      (.ok x, (i.found ts t).record (.answered t.thread s ⟨type, x⟩)) := by
    rw [get_cached (m := i.found ts t) hs hr, Value.as?_self]
    rfl
  rw [turn, ht]
  exact congrArg Prod.fst (Run.bind_ok (Run.attempt_ok (Run.bind_ok hget _)) _)

/-- **No failure is kept.** Of every instance that was built without threads in its sources, after every sequence of
requests, and of every option:
- if the option is asked for and fails, it is not cached afterwards, and all that was cached is as it was. The next read
  of the option, in whatever request it is made, enters the option and runs a source of it, and there is such a read in
  every request for the option;
- if it is asked for at a type and fails, it is not cached afterwards, or else it is cached with a value of its own
  type, the type asked for is another, and the error says so; and asked for at its own type later it is answered with
  the value;
- all that has happened to the option is some attempts in vain, each with a source run, and perhaps one that bore fruit,
  after which it was only answered;
- an attempt is in vain if it fails, and bears fruit if it succeeds. -/
theorem failures_retried {c : Contract} {lookup : Option Lookup} {overrides : List Override} {i : Instance}
    (hb : build c lookup overrides = .ok i) (h : i.Unthreaded) (ts : List Turn) (name : String) (s : i.contract.Slot)
    (hs : i.contract.slot? name = some s) :
    (∀ t e, t.request = .getValue name → (i.turn (i.memoryAfter ts) t).1 = .ok (.value (.error e)) →
      (i.memoryAfter (ts ++ [t])).resolved? s = none ∧
      Cache.Kept (i.memoryAfter ts).resolved? (i.memoryAfter (ts ++ [t])).resolved? ∧
      (∀ ts', Begins s (about s (i.historyFrom (i.memoryAfter (ts ++ [t])) ts'))) ∧
      ∀ t', (t'.request = .getValue name ∨ ∃ type, t'.request = .get type name) →
        about s (i.turn (i.memoryAfter (ts ++ [t])) t').2.journal ≠ []) ∧
    (∀ t type e, t.request = .get type name → (i.turn (i.memoryAfter ts) t).1 = .ok (.value (.error e)) →
      (i.memoryAfter (ts ++ [t])).resolved? s = none ∨
      ∃ tier x, (i.memoryAfter (ts ++ [t])).resolved? s = some ⟨⟨(i.contract.accessor s).type, x⟩, tier⟩ ∧
        type ≠ (i.contract.accessor s).type ∧ e = .typeMismatch name type ∧
        ∀ ts' t', t'.request = .get (i.contract.accessor s).type name →
          (i.turn (i.memoryAfter (ts ++ [t] ++ ts')) t').1 = .ok (.value (.ok ⟨(i.contract.accessor s).type, x⟩))) ∧
    Retried s (about s (i.history ts)) ∧
    ∀ depth thread m, m.resolved? s = none → (thread, s) ∉ m.active →
      (∀ v m', i.resolve depth thread s m = (.ok v, m') →
        ∃ earlier, m'.journal = .left thread s :: .answered thread s v :: earlier) ∧
      ∀ e m', i.resolve depth thread s m = (.error (.failed e), m') →
        ∃ last earlier, m'.journal = .left thread s :: last :: earlier ∧ last.isTrial = true ∧ last.slot = s := by
  have hchecked := checked_of_build hb
  refine ⟨fun t e ht hfail => ?_, fun t type e ht hfail => ?_, ?_, fun depth thread m hnone hc => ?_⟩
  · have hturn : i.turn (i.memoryAfter ts) t = (_, i.memoryAfter (ts ++ [t])) :=
      Prod.ext hfail (i.memoryAfter_concat ts t).symm
    obtain ⟨r, hr, hread⟩ := of_turn_getValue ht hturn
    cases hr
    rw [getValue_eq hs] at hread
    have hnone := resolve_failed (m := i.found ts t) h (i.memoryAfter_active ts) i.size_lt_depth hread
    refine ⟨hnone, i.memoryAfter_kept ts [t], fun ts' => ?_, fun t' ht' => turn_about h hs hnone ht'⟩
    exact (later_retried hchecked.provided h _ ts' hnone).begins
  · have hturn : i.turn (i.memoryAfter ts) t = (_, i.memoryAfter (ts ++ [t])) :=
      Prod.ext hfail (i.memoryAfter_concat ts t).symm
    obtain ⟨r, hr, hread⟩ := of_turn_get ht hturn
    cases r with
    | ok x => cases hr
    | error e' =>
      cases hr
      have htyped : i.WellTyped (i.memoryAfter ts).resolved? := by
        rw [(history_lawful ts).1]
        exact cacheAt_typed (List.suffix_refl _)
      refine (get_failed (m := i.found ts t) h (i.memoryAfter_active ts) htyped hs hread).imp id ?_
      rintro ⟨tier, x, hcached, hne, herror⟩
      refine ⟨tier, x, hcached, hne, herror, fun ts' t' ht' => ?_⟩
      exact turn_get_cached hs (i.memoryAfter_kept (ts ++ [t]) ts' s _ hcached) ht'
  · exact later_retried hchecked.provided h [] ts (congrFun (resolved?_fresh _ _) s)
  · exact ⟨fun v m' => (resolve_ends hchecked hnone hc).1 v, fun e m' => (resolve_ends hchecked hnone hc).2 e⟩

/-- A poster whose typeface comes from a server. -/
def posterContract : Contract := ⟨"Poster", [⟨"typeface", [], .string, some (.const "Courier")⟩]⟩

/-- the server answers the second time -/
def typefaceServer : Override :=
  ⟨some "typeface", .string, .once (.fail (.ofMessage "unavailable")) (.const "Helvetica")⟩

def poster : Instance := ⟨posterContract, Vector.replicate 1 (some typefaceServer.source), none⟩

/-- the typeface is asked for -/
def typefaceTurn : Turn := ⟨[], none, 0, .getValue "typeface"⟩

example : (poster.turn (poster.memoryAfter [typefaceTurn]) typefaceTurn).1 =
    .ok (.value (.ok ⟨.string, "Helvetica"⟩)) := by
  rfl

/-- That the server was unavailable is not kept. -/
theorem poster_retried : build posterContract none [typefaceServer] = .ok poster ∧ poster.Unthreaded ∧
    (poster.turn (poster.memoryAfter []) typefaceTurn).1 = .ok (.value (.error (.ofMessage "unavailable"))) ∧
    (poster.memoryAfter [typefaceTurn]).resolved? (0 : Fin 1) = none ∧
    Retried (0 : Fin 1) (about 0 (poster.history [typefaceTurn, typefaceTurn])) := by
  have hbuild : build posterContract none [typefaceServer] = .ok poster := by rfl
  have hthreads : poster.Unthreaded := by
    unfold Unthreaded
    decide
  have hfails : (poster.turn (poster.memoryAfter []) typefaceTurn).1 =
      .ok (.value (.error (.ofMessage "unavailable"))) := by
    rfl
  obtain ⟨hvalue, -, -, -⟩ := failures_retried hbuild hthreads [] "typeface" (0 : Fin 1) rfl
  obtain ⟨-, -, hretried, -⟩ := failures_retried hbuild hthreads [typefaceTurn, typefaceTurn] "typeface" (0 : Fin 1) rfl
  exact ⟨hbuild, hthreads, hfails, (hvalue typefaceTurn _ rfl hfails).1, hretried⟩

end Instance

end TieredOptions
