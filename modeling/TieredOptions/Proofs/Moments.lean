/-
A session as a run of a small machine. The state of the machine is a moment: the attempts that are open, innermost
first, each with the stage that it has come to, and what is cached. `Moment.Step` says of every kind of event when it
may happen, and what the moment is after it:
- an option that is not cached is entered if it is not under way on the thread and refused if it is, and both only while
  a source of every open attempt is running;
- a source is run, comes back or fails, a value is stored and a read answered, in the innermost attempt only;
- what is left is the innermost attempt, and neither before a source of it was run nor between storing its value and
  answering with it.

If construction has left no option without a source (`Instance.Provided`), whatever a read adds to the journal is a run
of the machine that returns to the open attempts (`Instance.resolve_traced`, by induction on the depth), and so is the
history of a session (`Instance.history_steps`). What holds of all runs of the machine holds of all sessions:
`Steps.active`, `Steps.nodup`, `Steps.entry`.
-/
import TieredOptions.Proofs.Failure
import TieredOptions.Proofs.Nesting

namespace TieredOptions

/-! ## Moments -/

/-- how far an attempt has come -/
inductive Stage where
  /-- no source was run yet -/
  | fresh
  | running (tier : Tier)
  /-- the last source came back or failed, and nothing is stored -/
  | between
  /-- the value was stored and not answered yet -/
  | stored
  | answered
  deriving DecidableEq

/-- what may happen in the innermost attempt itself, and the stage after it -/
inductive Stage.Step {n : Nat} (cache : Cache n) (thread : Nat) (s : Fin n) : Stage → Event n → Stage → Prop where
  | ran {stage : Stage} (tier : Tier) (ready : stage = .fresh ∨ stage = .between) :
    Step cache thread s stage (.ran s tier) (.running tier)
  | returned (tier : Tier) (o : Option Value) : Step cache thread s (.running tier) (.returned s tier o) .between
  | failed (tier : Tier) (e : ResolveError) : Step cache thread s (.running tier) (.failed s tier e) .between
  | stored (r : Resolved) (unfilled : cache s = none) : Step cache thread s .between (.stored s r) .stored
  | answered {stage : Stage} {r : Resolved} (untold : stage = .between ∨ stage = .stored) (cached : cache s = some r) :
    Step cache thread s stage (.answered thread s r.value) .answered

/-- an attempt does not leave itself -/
theorem Stage.Step.ne_left {n : Nat} {cache : Cache n} {thread : Nat} {s : Fin n} {stage stage' : Stage} {e : Event n}
    (h : stage.Step cache thread s e stage') (thread' : Nat) (s' : Fin n) : e ≠ .left thread' s' := by
  cases h <;> simp

/-- an option that is under way -/
structure Attempt (n : Nat) where
  thread : Nat
  slot : Fin n
  stage : Stage
  deriving DecidableEq

/-- the thread and the option of an attempt -/
abbrev Attempt.key {n : Nat} (a : Attempt n) : Nat × Fin n := (a.thread, a.slot)

/-- a source of every one of the attempts is running -/
def Busy {n : Nat} (attempts : List (Attempt n)) : Prop := ∀ a ∈ attempts, ∃ tier, a.stage = .running tier

/-- what is under way, innermost first, and what is cached -/
structure Moment (n : Nat) where
  attempts : List (Attempt n)
  cache : Cache n

namespace Moment

variable {n : Nat}

/-- nothing under way, and nothing cached -/
def start : Moment n := ⟨[], fun _ => none⟩

/-- what is under way, oldest first -/
def active (o : Moment n) : List (Nat × Fin n) := (o.attempts.map Attempt.key).reverse

/-- what may happen at a moment, and the moment after it -/
inductive Step : Moment n → Event n → Moment n → Prop where
  | entered {outer : List (Attempt n)} {cache : Cache n} {thread : Nat} {s : Fin n} (busy : Busy outer)
    (new : ∀ a ∈ outer, a.key ≠ (thread, s)) (unfilled : cache s = none) :
    Step ⟨outer, cache⟩ (.entered thread s) ⟨⟨thread, s, .fresh⟩ :: outer, cache⟩
  | reentered {attempts : List (Attempt n)} {cache : Cache n} {thread : Nat} {s : Fin n} (busy : Busy attempts)
    (old : ∃ a ∈ attempts, a.key = (thread, s)) (unfilled : cache s = none) :
    Step ⟨attempts, cache⟩ (.reentered thread s) ⟨attempts, cache⟩
  | recalled {attempts : List (Attempt n)} {cache : Cache n} {thread : Nat} {s : Fin n} {r : Resolved}
    (busy : Busy attempts) (cached : cache s = some r) :
    Step ⟨attempts, cache⟩ (.answered thread s r.value) ⟨attempts, cache⟩
  | within {outer : List (Attempt n)} {cache : Cache n} {thread : Nat} {s : Fin n} {stage stage' : Stage} {e : Event n}
    (h : stage.Step cache thread s e stage') :
    Step ⟨⟨thread, s, stage⟩ :: outer, cache⟩ e ⟨⟨thread, s, stage'⟩ :: outer, cache.apply e⟩
  | left {outer : List (Attempt n)} {cache : Cache n} {thread : Nat} {s : Fin n} {stage : Stage}
    (tried : stage ≠ .fresh) (told : stage ≠ .stored) :
    Step ⟨⟨thread, s, stage⟩ :: outer, cache⟩ (.left thread s) ⟨outer, cache⟩

/-- some steps, newest event first -/
inductive Steps : Moment n → List (Event n) → Moment n → Prop where
  | nil (o : Moment n) : Steps o [] o
  | cons {o o' o'' : Moment n} {e : Event n} {earlier : List (Event n)} (before : Steps o earlier o')
    (last : Step o' e o'') : Steps o (e :: earlier) o''

/-! ## What a step does -/

/-- The journal says of each step what is under way after it, and what is cached. -/
theorem Step.bear {o o' : Moment n} {e : Event n} (h : Step o e o') :
    o'.active = e.bear o.active ∧ o'.cache = o.cache.apply e := by
  cases h with
  | entered => exact ⟨by simp [active, Event.bear], rfl⟩
  | reentered => exact ⟨rfl, rfl⟩
  | recalled => exact ⟨rfl, rfl⟩
  | within h => exact ⟨by cases h <;> rfl, rfl⟩
  | left => exact ⟨by simp [active, Event.bear], rfl⟩

namespace Steps

variable {o o' o'' : Moment n} {events early late : List (Event n)}

theorem single {e : Event n} (h : Step o e o') : Steps o [e] o' := .cons (.nil o) h

theorem append (h : Steps o early o') (h' : Steps o' late o'') : Steps o (late ++ early) o'' := by
  induction h' with
  | nil => exact h
  | cons _ last ih => exact .cons ih last

theorem split (h : Steps o (late ++ early) o'') : ∃ o', Steps o early o' ∧ Steps o' late o'' := by
  induction late generalizing o'' with
  | nil => exact ⟨o'', h, .nil o''⟩
  | cons e late ih =>
    cases h with
    | cons before last =>
      obtain ⟨o', h, h'⟩ := ih before
      exact ⟨o', h, .cons h' last⟩

/-- every earlier moment is a moment of the run -/
theorem suffix (h : Steps o events o'') (he : early <:+ events) : ∃ o', Steps o early o' := by
  obtain ⟨late, rfl⟩ := he
  obtain ⟨o', h, -⟩ := h.split
  exact ⟨o', h⟩

theorem active (h : Steps o events o') :
    o'.active = underWay o.active events ∧ o'.cache = o.cache.after events := by
  induction h with
  | nil => exact ⟨rfl, rfl⟩
  | cons _ last ih =>
    rw [last.bear.1, last.bear.2, ih.1, ih.2]
    exact ⟨rfl, rfl⟩

/-- no option is under way twice on a thread -/
theorem nodup (h : Steps o events o') (ho : (o.attempts.map Attempt.key).Nodup) :
    (o'.attempts.map Attempt.key).Nodup := by
  induction h with
  | nil => exact ho
  | cons _ last ih =>
    cases last with
    | entered _ new => exact List.nodup_cons.2 ⟨by simpa using new, ih⟩
    | left => exact (List.nodup_cons.1 ih).2
    | _ => exact ih

/-- The attempt was entered when those around it were all that was open, with sources of them all running, and was not
    left since. -/
def Entry (o : Moment n) (events : List (Event n)) (a : Attempt n) (outer : List (Attempt n)) : Prop :=
  Busy outer ∧ ∃ since earlier cache, events = since ++ .entered a.thread a.slot :: earlier ∧
    .left a.thread a.slot ∉ since ∧ Steps o earlier ⟨outer, cache⟩

theorem Entry.later {a : Attempt n} {outer : List (Attempt n)} (h : Entry o events a outer) {e : Event n}
    (he : e ≠ .left a.thread a.slot) : Entry o (e :: events) a outer := by
  obtain ⟨busy, since, earlier, cache, rfl, hleft, h⟩ := h
  refine ⟨busy, e :: since, earlier, cache, rfl, fun hm => ?_, h⟩
  rcases List.mem_cons.1 hm with he' | hm
  · exact he he'.symm
  · exact hleft hm

/-- **How an attempt came to be open**, where nothing was open before. -/
theorem entry (h : Steps o events o') (ho : o.attempts = []) {inner outer : List (Attempt n)} {a : Attempt n}
    (ha : o'.attempts = inner ++ a :: outer) : Entry o events a outer := by
  induction h generalizing inner a with
  | nil =>
    rw [ho] at ha
    cases inner <;> cases ha
  | cons before last ih =>
    cases last with
    | entered busy =>
      cases inner with
      | nil =>
        cases ha
        exact ⟨busy, [], _, _, rfl, List.not_mem_nil, before⟩
      | cons b inner =>
        cases ha
        exact (ih rfl).later (by simp)
    | reentered => exact (ih ha).later (by simp)
    | recalled => exact (ih ha).later (by simp)
    | within h =>
      cases inner with
      | nil =>
        cases ha
        -- the attempt itself has come to another stage
        exact (ih (List.nil_append _).symm).later (h.ne_left _ _)
      | cons b inner =>
        cases ha
        exact (ih (List.cons_append ..).symm).later (h.ne_left _ _)
    | left =>
      cases ha
      refine (ih (List.cons_append ..).symm).later fun he => ?_
      -- what is left is another attempt, since no option is under way twice
      cases he
      have hopen := before.nodup (by simp [ho])
      simp at hopen

end Steps

end Moment

/-! ## Runs -/

open Moment

/-- nothing is cached to begin with -/
theorem Memory.resolved?_fresh (n : Nat) (shared : List Node) : (Memory.fresh n shared).resolved? = fun _ => none := by
  funext s
  simp [Memory.resolved?, Memory.fresh]

/-- What happens between two memories are steps of the machine, from whatever attempts are under way in the first, with
    sources of them all running, and back to them. -/
def Memory.Traced {n : Nat} (m m' : Memory n) : Prop :=
  m'.active = m.active ∧ ∃ new, m'.journal = new ++ m.journal ∧ ∀ attempts, Busy attempts →
    Moment.active ⟨attempts, m.resolved?⟩ = m.active → Steps ⟨attempts, m.resolved?⟩ new ⟨attempts, m'.resolved?⟩

namespace Memory.Traced

variable {n : Nat} {m m' : Memory n}

instance : IsPreorder (Memory n) Memory.Traced where
  refl m := ⟨rfl, [], rfl, fun _ _ _ => .nil _⟩
  trans := by
    rintro m m' m'' ⟨ha, new, hj, hs⟩ ⟨ha', new', hj', hs'⟩
    refine ⟨ha'.trans ha, new' ++ new, by rw [hj', hj, List.append_assoc], fun attempts hb h => ?_⟩
    exact (hs attempts hb h).append (hs' attempts hb (h.trans ha.symm))

/-- a change outside the cache, the journal and what is under way -/
theorem of_same (hj : m'.journal = m.journal) (ha : m'.active = m.active) (hc : m'.cache = m.cache) : m.Traced m' := by
  have hresolved : m'.resolved? = m.resolved? := by
    funext s
    rw [resolved?, resolved?, hc]
  exact ⟨ha, [], hj, fun attempts _ _ => hresolved ▸ .nil _⟩

/-- a note of a step -/
theorem note {e : Event n} (h : ∀ attempts, Busy attempts → Moment.active ⟨attempts, m.resolved?⟩ = m.active →
    Step ⟨attempts, m.resolved?⟩ e ⟨attempts, m.resolved?⟩) : m.Traced (m.record e) :=
  ⟨rfl, [e], rfl, fun attempts hb ha => .single (h attempts hb ha)⟩

end Memory.Traced

/-- From a memory with the attempt under way, innermost and at the first stage, the run takes steps of the machine in
    the attempt, and the stage that it comes to is one for its outcome. -/
def Run.Advances {n : Nat} {α : Type} (thread : Nat) (s : Fin n) (stage : Stage) (P : Except Halt α → Stage → Prop)
    (x : Run n α) : Prop :=
  ∀ m, (x m).2.active = m.active ∧ ∃ new stage', P (x m).1 stage' ∧ (x m).2.journal = new ++ m.journal ∧
    ∀ outer, Busy outer → Moment.active ⟨⟨thread, s, stage⟩ :: outer, m.resolved?⟩ = m.active →
      Steps ⟨⟨thread, s, stage⟩ :: outer, m.resolved?⟩ new ⟨⟨thread, s, stage'⟩ :: outer, (x m).2.resolved?⟩

namespace Run.Advances

variable {n : Nat} {α β : Type} {thread : Nat} {s : Fin n} {stage : Stage} {x : Run n α}

/-- nothing happens -/
theorem stay {P : Except Halt α → Stage → Prop} (hx : ∀ m, (x m).2 = m) (hP : ∀ m, P (x m).1 stage) :
    Advances thread s stage P x := by
  intro m
  rw [hx m]
  exact ⟨rfl, [], stage, hP m, rfl, fun _ _ _ => .nil _⟩

theorem bind {P : Except Halt α → Stage → Prop} {Q : Except Halt β → Stage → Prop} {f : α → Run n β}
    (hx : Advances thread s stage P x) (hf : ∀ a, Advances thread s .between Q (f a))
    (hok : ∀ a stage, P (.ok a) stage → stage = .between)
    (herror : ∀ h stage, P (.error h) stage → Q (.error h) stage) : Advances thread s stage Q (x >>= f) := by
  intro m
  obtain ⟨ha, new, stage', hp, hj, hs⟩ := hx m
  rcases hxm : x m with ⟨h | a, m'⟩ <;> rw [hxm] at ha hp hj hs
  · rw [bind_error hxm]
    exact ⟨ha, new, stage', herror h stage' hp, hj, hs⟩
  · rw [bind_ok hxm]
    have hstage := hok a stage' hp
    subst hstage
    obtain ⟨ha', new', stage'', hq, hj', hs'⟩ := hf a m'
    refine ⟨ha'.trans ha, new' ++ new, stage'', hq, by rw [hj', hj, List.append_assoc], fun outer hb h => ?_⟩
    exact (hs outer hb h).append (hs' outer hb (h.trans ha.symm))

end Run.Advances

namespace Instance

open Run Memory

variable {i : Instance}

/-! ## Sources -/

/-- a source stands behind the option at the tier -/
def HasSource (i : Instance) (s : i.contract.Slot) : Tier → Prop
  | .override => i.override? s ≠ none
  | .lookup => i.lookup ≠ none
  | .default => (i.contract.accessor s).source? ≠ none

/-- a source stands behind every option -/
def Provided (i : Instance) : Prop := ∀ s, ∃ tier, i.HasSource s tier

/-- construction leaves no option without a source -/
theorem Checked.provided (hi : i.Checked) : i.Provided := by
  intro s
  by_cases hl : i.lookup = none
  · by_cases ho : i.override? s = none
    · exact ⟨.default, mt source?_eq_none.1 (hi.served hl s ho)⟩
    · exact ⟨.override, ho⟩
  · exact ⟨.lookup, hl⟩

/-- no source is running any more, or one that nests without end -/
def Pauses {α : Type} (r : Except Halt α) (stage : Stage) : Prop :=
  stage = .between ∨ r = .error .unending ∧ ∃ tier, stage = .running tier

/-- a source that makes traced reads only is run between two notes -/
theorem runSource_advances {thread : Nat} {s : i.contract.Slot} {tier : Tier} {opinion : Run i.size (Option Value)}
    (ho : Keeps Traced opinion) {stage : Stage} (hstage : stage = .fresh ∨ stage = .between) :
    Advances thread s stage Pauses (i.runSource s tier opinion) := by
  intro m
  obtain ⟨ha, new, hj, hs⟩ := ho (m.record (.ran s tier))
  -- with the source running all attempts are busy, and its reads return to them
  have hran : ∀ outer, Busy outer → Moment.active ⟨⟨thread, s, stage⟩ :: outer, m.resolved?⟩ = m.active →
      Steps ⟨⟨thread, s, stage⟩ :: outer, m.resolved?⟩ (new ++ [.ran s tier])
        ⟨⟨thread, s, .running tier⟩ :: outer, (opinion (m.record (.ran s tier))).2.resolved?⟩ := by
    intro outer hb h
    have hfirst : Step ⟨⟨thread, s, stage⟩ :: outer, m.resolved?⟩ (.ran s tier)
        ⟨⟨thread, s, .running tier⟩ :: outer, m.resolved?⟩ := .within (.ran tier hstage)
    exact (Steps.single hfirst).append (hs _ (List.forall_mem_cons.2 ⟨⟨tier, rfl⟩, hb⟩) h)
  have hjournal : (opinion (m.record (.ran s tier))).2.journal = (new ++ [.ran s tier]) ++ m.journal := by
    rw [hj]
    simp [record]
  rw [show i.runSource s tier opinion m =
    Run.noting opinion (.returned s tier) (.failed s tier) (m.record (.ran s tier)) from rfl]
  rcases hx : opinion (m.record (.ran s tier)) with ⟨(e | _) | o, m'⟩ <;> rw [hx] at ha hran hjournal <;>
    simp only [Run.noting, hx]
  · refine ⟨ha, .failed s tier e :: (new ++ [.ran s tier]), .between, .inl rfl, congrArg _ hjournal, ?_⟩
    exact fun outer hb h => .cons (hran outer hb h) (.within (.failed tier e))
  · exact ⟨ha, _, .running tier, .inr ⟨rfl, tier, rfl⟩, hjournal, hran⟩
  · refine ⟨ha, .returned s tier o :: (new ++ [.ran s tier]), .between, .inl rfl, congrArg _ hjournal, ?_⟩
    exact fun outer hb h => .cons (hran outer hb h) (.within (.returned tier o))

variable {read : Nat → i.contract.Slot → Run i.size Value}

theorem consult_traced (l : Lookup) (s : i.contract.Slot) : Keeps Traced (i.consult l s) := by
  intro m
  rw [consult_apply]
  exact .of_same rfl rfl rfl

/-- where a source stands at the tier it is run -/
theorem opinion_advances (hr : ∀ thread s, Keeps Traced (read thread s)) {thread : Nat} {s : i.contract.Slot}
    {tier : Tier} (hsource : i.HasSource s tier) {stage : Stage} (hstage : stage = .fresh ∨ stage = .between) :
    Advances thread s stage Pauses (i.opinion read thread s tier) := by
  unfold opinion
  cases tier with
  | override =>
    obtain ⟨source, ho⟩ := Option.ne_none_iff_exists'.1 hsource
    have hf := firstOwn_keeps (i := i) (R := Traced) (fun _ _ => .of_same rfl rfl rfl) s
    simp only [ho]
    exact runSource_advances (evalSource_keeps (fun s _ thread => hr thread s) hf thread) hstage
  | lookup =>
    obtain ⟨l, hl⟩ := Option.ne_none_iff_exists'.1 hsource
    simp only [hl]
    exact runSource_advances (consult_traced l s) hstage
  | default =>
    obtain ⟨source, hd⟩ := Option.ne_none_iff_exists'.1 hsource
    have hf := firstShared_keeps (i := i) (R := Traced) (fun _ _ => .of_same rfl rfl rfl) s
    simp only [hd]
    exact runSource_advances (evalSource_keeps (fun s _ thread => hr thread s) hf thread) hstage

/-- where none stands nothing is done -/
theorem opinion_of_not_hasSource {s : i.contract.Slot} {tier : Tier} (h : ¬ i.HasSource s tier) (thread : Nat) :
    i.opinion read thread s tier = pure none := by
  cases tier with
  | override => simp only [opinion, not_not.1 h]
  | lookup => simp only [opinion, not_not.1 h]
  | default => simp only [opinion, not_not.1 h]

theorem Pauses.of_ok {α : Type} {a : α} {stage : Stage} (h : Pauses (.ok a) stage) : stage = .between :=
  h.elim id fun h => nomatch h.1

theorem Pauses.of_error {α β : Type} {e : Halt} {stage : Stage} (h : Pauses (.error e : Except Halt α) stage) :
    Pauses (.error e : Except Halt β) stage :=
  h.imp id fun ⟨he, ht⟩ => ⟨by cases he; rfl, ht⟩

/-- Of some tiers, one with a source or after a source was run. -/
theorem firstOpinion_advances (hr : ∀ thread s, Keeps Traced (read thread s)) (thread : Nat) (s : i.contract.Slot)
    {tiers : List Tier} {stage : Stage}
    (h : stage = .between ∨ stage = .fresh ∧ ∃ tier ∈ tiers, i.HasSource s tier) :
    Advances thread s stage Pauses (i.firstOpinion read thread s tiers) := by
  induction tiers generalizing stage with
  | nil =>
    rcases h with rfl | ⟨-, tier, ht, -⟩
    · exact .stay (fun _ => rfl) fun _ => .inl rfl
    · cases ht
  | cons tier rest ih =>
    by_cases hsource : i.HasSource s tier
    · have hstage : stage = .fresh ∨ stage = .between := h.symm.imp (·.1) id
      refine .bind (opinion_advances hr hsource hstage) (fun o => ?_) (fun _ _ h => h.of_ok) fun _ _ h => h.of_error
      cases o with
      | none => exact ih (.inl rfl)
      | some v => exact .stay (fun _ => rfl) fun _ => .inl rfl
    · have hrest : i.firstOpinion read thread s (tier :: rest) = i.firstOpinion read thread s rest := by
        rw [firstOpinion, opinion_of_not_hasSource hsource, pure_bind]
      rw [hrest]
      refine ih ?_
      rcases h with h | ⟨hfresh, tier', ht, hs⟩
      · exact .inl h
      · have hrest : tier' ∈ rest := (List.mem_cons.1 ht).resolve_left fun he => hsource (he ▸ hs)
        exact .inr ⟨hfresh, tier', hrest, hs⟩

/-! ## Attempts and reads -/

/-- the read has its answer, or there is nothing to answer -/
def Closes (r : Except Halt Value) (stage : Stage) : Prop :=
  (∃ v, r = .ok v ∧ stage = .answered) ∨ ∃ e, r = .error e ∧ stage ≠ .fresh ∧ stage ≠ .stored

theorem Closes.left {r : Except Halt Value} {stage : Stage} (h : Closes r stage) :
    stage ≠ .fresh ∧ stage ≠ .stored := by
  rcases h with ⟨v, -, rfl⟩ | ⟨e, -, h⟩
  · simp
  · exact h

/-- a value of the option's type is stored, if none is there, and what is there is answered -/
theorem keep_answer_advances (thread : Nat) (s : i.contract.Slot) (r : Resolved) :
    Advances thread s .between Closes (i.keep s r >>= i.answer thread s) := by
  intro m
  have hkeep := keep_apply m s r
  by_cases ha : (i.contract.accessor s).info.accepts r.value = true
  · rw [if_pos ha] at hkeep
    rw [bind_ok hkeep, answer_apply]
    have hcached := resolved?_store m s r
    refine ⟨store_active, ?_⟩
    cases hs : m.resolved? s with
    | some r₀ =>
      rw [store_of_some hs]
      refine ⟨_, .answered, .inl ⟨_, rfl, rfl⟩, rfl, fun outer _ _ => .single (.within (.answered (.inl rfl) hs))⟩
    | none =>
      obtain ⟨hj, hc⟩ := store_of_none hs r
      refine ⟨[.answered thread s r.value, .stored s r], .answered, .inl ⟨_, rfl, rfl⟩, ?_, fun outer _ _ => ?_⟩
      · show .answered thread s _ :: (m.store s r).journal = _
        rw [hj]
        rfl
      · have hstored : Cache.apply m.resolved? (.stored s r) s = some r := by simp [Cache.apply]
        show Steps _ _ ⟨_, (m.store s r).resolved?⟩
        rw [hc]
        exact .cons (.single (.within (.stored r hs))) (.within (.answered (.inr rfl) hstored))
  · rw [if_neg ha] at hkeep
    rw [bind_error hkeep]
    exact ⟨rfl, [], .between, .inr ⟨_, rfl, by simp⟩, rfl, fun _ _ _ => .nil _⟩

theorem settle_advances (hi : i.Provided) (hr : ∀ thread s, Keeps Traced (read thread s)) (thread : Nat)
    (s : i.contract.Slot) : Advances thread s .fresh Closes (i.settle read thread s) := by
  have hsource : ∃ tier ∈ Tier.all, i.HasSource s tier := by
    obtain ⟨tier, h⟩ := hi s
    exact ⟨tier, by cases tier <;> decide, h⟩
  refine .bind (firstOpinion_advances hr thread s (.inr ⟨rfl, hsource⟩)) (keep_answer_advances thread s)
    (fun _ _ h => h.of_ok) ?_
  intro e stage h
  refine .inr ⟨e, rfl, ?_⟩
  rcases h with rfl | ⟨-, tier, rfl⟩ <;> simp

/-- **What a read does are steps of the machine**, from whatever memory, on whatever thread, however deep it nests and
however it ends. -/
theorem resolve_traced (hi : i.Provided) (depth thread : Nat) (s : i.contract.Slot) :
    Keeps Traced (i.resolve depth thread s) := by
  induction depth generalizing thread s with
  | zero => exact .throw _
  | succ depth ih =>
    intro m
    cases hs : m.resolved? s with
    | some r =>
      rw [resolve_cached hs]
      exact .note fun _ hb _ => .recalled hb hs
    | none =>
      have hkeys {attempts : List (Attempt i.size)} (h : Moment.active ⟨attempts, m.resolved?⟩ = m.active) :
          (∃ a ∈ attempts, a.key = (thread, s)) ↔ (thread, s) ∈ m.active := by
        rw [← h, Moment.active, List.mem_reverse, List.mem_map]
      by_cases hc : m.chain thread s = []
      · rw [resolve_entered hs hc]
        obtain ⟨ha, new, stage, hclose, hj, hsteps⟩ := settle_advances hi ih thread s (m.enter thread s)
        refine ⟨leave_active ha, .left thread s :: (new ++ [.entered thread s]), ?_, fun attempts hb h => ?_⟩
        · show .left thread s :: (i.settle _ thread s (m.enter thread s)).2.journal = _
          rw [hj]
          simp [enter, record]
        · have hnew : ∀ a ∈ attempts, a.key ≠ (thread, s) := fun a ha hk =>
            chain_eq_nil_iff.1 hc ((hkeys h).1 ⟨a, ha, hk⟩)
          have henter : Moment.active ⟨⟨thread, s, .fresh⟩ :: attempts, m.resolved?⟩ = (m.enter thread s).active := by
            show _ = m.active ++ [(thread, s)]
            rw [← h]
            simp [Moment.active]
          exact .cons ((Steps.single (.entered hb hnew hs)).append (hsteps attempts hb henter))
            (.left hclose.left.1 hclose.left.2)
      · rw [resolve_reentered hs hc]
        have hmem : (thread, s) ∈ m.active := by_contra fun hm => hc (chain_eq_nil hm)
        exact .note fun attempts hb h => .reentered hb ((hkeys h).2 hmem) hs

/-! ## Sessions -/

/-- a turn heeds the law of nesting -/
theorem turn_nests (m : Memory i.size) (t : Turn) :
    Returns (Law.nesting i.size) { m with shared := t.shared, journal := [] } (i.turn m t).2 :=
  answer_keeps (fun thread s => i.nesting_obeyed.resolve_returns _ thread s) t.config t.thread t.request _

/-- between turns nothing is under way -/
theorem memoryAfter_active (i : Instance) (ts : List Turn) : (i.memoryAfter ts).active = [] :=
  (history_heeds (fun m t _ => turn_nests m t) ts).1

/-- a turn goes from a moment with nothing under way to another -/
theorem turn_steps (hi : i.Provided) {m : Memory i.size} (hm : m.active = []) (t : Turn) :
    (i.turn m t).2.active = [] ∧
      Steps ⟨[], m.resolved?⟩ (i.turn m t).2.journal ⟨[], (i.turn m t).2.resolved?⟩ := by
  obtain ⟨ha, new, hj, hs⟩ := answer_keeps (R := Traced) (fun thread s => resolve_traced hi _ thread s) t.config
    t.thread t.request { m with shared := t.shared, journal := [] }
  have hj : (i.turn m t).2.journal = new := hj.trans (List.append_nil new)
  rw [hj]
  exact ⟨ha.trans hm, hs [] (by simp [Busy]) hm.symm⟩

/-- **What happens in some turns is a run of the machine**, from what is cached before to what is cached after. -/
theorem historyFrom_steps (hi : i.Provided) {m : Memory i.size} (hm : m.active = []) (ts : List Turn) :
    Steps ⟨[], m.resolved?⟩ (i.historyFrom m ts) ⟨[], (ts.foldl (fun m t => (i.turn m t).2) m).resolved?⟩ := by
  induction ts generalizing m with
  | nil => exact .nil _
  | cons t ts ih =>
    obtain ⟨ha, hs⟩ := turn_steps hi hm t
    exact hs.append (ih ha)

/-- **The history of a session is a run of the machine**, from the start to what is cached. -/
theorem history_steps (hi : i.Provided) (ts : List Turn) :
    Steps .start (i.history ts) ⟨[], (i.memoryAfter ts).resolved?⟩ := by
  have hsteps := historyFrom_steps hi (m := .fresh i.size []) rfl ts
  rw [resolved?_fresh] at hsteps
  exact hsteps

end Instance

end TieredOptions
