/-
Resolutions that start no threads come to an end. On one thread an option that is under way is not resolved anew, so
resolutions nest no deeper than there are options, whatever their sources are made of: mutually dependent options,
alternatives and error texts that go on after a cycle, sources that change from run to run.

The depth that `Instance.resolve` is given plays no part in this. Two resolutions whose depths both exceed what is left
to resolve are the same run, and that run does not stop for want of depth (`Run.Concur`, `resolve_concur`, by induction
on the depth; the options under way are one more in each step). The invariant is `Instance.Open`: what is under way is
on this thread, and none of it is cached. So an option that is asked for while it is under way is refused, not answered
(`Law.alone`).

Main statement: `resolution_ends`.
-/
import TieredOptions.Proofs.Nesting

namespace TieredOptions

/-! ## Runs that agree and end -/

namespace Run

variable {n : Nat} {α β : Type}

theorem ok_ne_unending (a : α) : (.ok a : Except Halt α) ≠ .error .unending := fun h => by cases h

theorem failed_ne_unending (e : ResolveError) : (.error (.failed e) : Except Halt α) ≠ .error .unending :=
  fun h => by cases h

/-- From every memory with `I` the two runs are the same, and come to an end; `I` holds again, and the memory stands in
    `R` to the one before. -/
def Concur (I : Memory n → Prop) (R : Memory n → Memory n → Prop) (x y : Run n α) : Prop :=
  ∀ m, I m → x m = y m ∧ (x m).1 ≠ .error .unending ∧ I (x m).2 ∧ R m (x m).2

/-- from every memory with `I` there is an answer -/
def Answers (I : Memory n → Prop) (R : Memory n → Memory n → Prop) (x : Run n α) : Prop :=
  ∀ m, I m → ∃ a m', x m = (.ok a, m') ∧ I m' ∧ R m m'

namespace Concur

variable {I : Memory n → Prop} {R : Memory n → Memory n → Prop} [IsPreorder (Memory n) R] {x y : Run n α}

theorem pure (a : α) : Concur I R (Pure.pure a : Run n α) (Pure.pure a) :=
  fun m hm => ⟨rfl, ok_ne_unending a, hm, refl_of R m⟩

theorem fail (e : ResolveError) : Concur I R (Run.fail e : Run n α) (Run.fail e) :=
  fun m hm => ⟨rfl, failed_ne_unending e, hm, refl_of R m⟩

theorem memory : Concur I R (Run.memory : Run n (Memory n)) Run.memory :=
  fun m hm => ⟨rfl, ok_ne_unending m, hm, refl_of R m⟩

omit [IsPreorder (Memory n) R] in
theorem update {change : Memory n → Memory n} (hI : ∀ m, I m → I (change m)) (hR : ∀ m, I m → R m (change m)) :
    Concur I R (Run.update change) (Run.update change) :=
  fun m hm => ⟨rfl, ok_ne_unending (), hI m hm, hR m hm⟩

theorem bind {f g : α → Run n β} (hx : Concur I R x y) (hf : ∀ a, Concur I R (f a) (g a)) :
    Concur I R (x >>= f) (y >>= g) := by
  intro m hm
  obtain ⟨heq, hend, hI, hR⟩ := hx m hm
  rcases hxm : x m with ⟨h | a, m'⟩
  · rw [hxm] at heq hend hI hR
    rw [bind_error hxm, bind_error heq.symm]
    exact ⟨rfl, fun h => hend (by cases h; rfl), hI, hR⟩
  · rw [hxm] at heq hI hR
    rw [bind_ok hxm, bind_ok heq.symm]
    obtain ⟨heq', hend', hI', hR'⟩ := hf a m' hI
    exact ⟨heq', hend', hI', trans_of R hR hR'⟩

theorem orElse {f g : ResolveError → Run n α} (hx : Concur I R x y) (hf : ∀ e, Concur I R (f e) (g e)) :
    Concur I R (Run.orElse x f) (Run.orElse y g) := by
  intro m hm
  obtain ⟨heq, hend, hI, hR⟩ := hx m hm
  rcases hxm : x m with ⟨(e | _) | a, m'⟩ <;> rw [hxm] at heq hend hI hR <;> simp only [Run.orElse, hxm, ← heq]
  · obtain ⟨heq', hend', hI', hR'⟩ := hf e m' hI
    exact ⟨heq', hend', hI', trans_of R hR hR'⟩
  · exact absurd rfl hend
  · exact ⟨trivial, ok_ne_unending a, hI, hR⟩

theorem noting {returned : α → Event n} {failed : ResolveError → Event n} (hx : Concur I R x y)
    (hI : ∀ m e, I m → I (m.record e)) (hr : ∀ a m, R m (m.record (returned a)))
    (hf : ∀ e m, R m (m.record (failed e))) :
    Concur I R (Run.noting x returned failed) (Run.noting y returned failed) := by
  intro m hm
  obtain ⟨heq, hend, hm', hR⟩ := hx m hm
  rcases hxm : x m with ⟨(e | _) | a, m'⟩ <;> rw [hxm] at heq hend hm' hR <;> simp only [Run.noting, hxm, ← heq]
  · exact ⟨trivial, failed_ne_unending e, hI _ _ hm', trans_of R hR (hf e m')⟩
  · exact absurd rfl hend
  · exact ⟨trivial, ok_ne_unending a, hI _ _ hm', trans_of R hR (hr a m')⟩

omit [IsPreorder (Memory n) R] in
/-- an attempt at a run that comes to an end has an answer: its value, or its failure -/
theorem attempt (hx : Concur I R x y) : Answers I R (Run.attempt x) := by
  intro m hm
  obtain ⟨-, hend, hI, hR⟩ := hx m hm
  rcases hxm : x m with ⟨(e | _) | a, m'⟩ <;> rw [hxm] at hend hI hR
  · exact ⟨_, _, attempt_failed hxm, hI, hR⟩
  · exact absurd rfl hend
  · exact ⟨_, _, attempt_ok hxm, hI, hR⟩

end Concur

namespace Answers

variable {I : Memory n → Prop} {R : Memory n → Memory n → Prop} [IsPreorder (Memory n) R] {x : Run n α}

theorem pure (a : α) : Answers I R (Pure.pure a : Run n α) := fun m hm => ⟨a, m, rfl, hm, refl_of R m⟩

theorem memory : Answers I R (Run.memory : Run n (Memory n)) := fun m hm => ⟨m, m, rfl, hm, refl_of R m⟩

theorem bind {f : α → Run n β} (hx : Answers I R x) (hf : ∀ a, Answers I R (f a)) : Answers I R (x >>= f) := by
  intro m hm
  obtain ⟨a, m', hxm, hI, hR⟩ := hx m hm
  obtain ⟨b, m'', hfm, hI', hR'⟩ := hf a m' hI
  exact ⟨b, m'', by rw [bind_ok hxm, hfm], hI', trans_of R hR hR'⟩

end Answers

end Run

/-! ## Sources -/

section Sources

open Run

variable {c : Contract} {a a' : Access c} {I : Memory c.size → Prop} {R : Memory c.size → Memory c.size → Prop}
  [IsPreorder (Memory c.size) R] {thread : Nat} (hr : ∀ s, Concur I R (a.read thread s) (a'.read thread s))

include hr

theorem Access.readName_concur (name : String) : Concur I R (a.readName thread name) (a'.readName thread name) := by
  unfold readName
  cases c.slot? name with
  | none => exact .fail _
  | some s => exact hr s

theorem Access.get_concur (t : ValueType) (name : String) :
    Concur I R (a.get thread t name) (a'.get thread t name) := by
  refine .bind (readName_concur hr name) fun v => ?_
  cases v.as? t with
  | none => exact .fail _
  | some x => exact .pure x

theorem Access.readAll_concur : Concur I R (a.readAll thread) (a'.readAll thread) := by
  unfold readAll
  induction c.slots with
  | nil => exact .pure ()
  | cons s rest ih => exact .bind (.bind (hr s) fun _ => .pure _) fun _ => ih

/-- **A source without threads comes to an end if its reads do.** All its reads are made on the thread that it is
    evaluated on. -/
theorem Expr.eval_concur (hf : ∀ place, Concur I R (a.first place) (a'.first place)) {t : ValueType} (e : Expr t)
    (he : e.spawnCount = 0) (place : Place) : Concur I R (e.eval a thread place) (e.eval a' thread place) := by
  induction e generalizing place with
  | const v => exact .pure v
  | get name => exact a.get_concur hr _ name
  | display name => exact .bind (a.readName_concur hr name) fun _ => .pure _
  | tier name => exact .bind .memory fun _ => .pure _
  | fail e => exact .fail e
  | once first later ih₁ ih₂ =>
    simp only [spawnCount, Nat.add_eq_zero_iff] at he
    refine .bind (hf place) fun b => ?_
    cases b with
    | true => exact ih₁ he.1 _
    | false => exact ih₂ he.2 _
  | orElse e fallback ih₁ ih₂ =>
    simp only [spawnCount, Nat.add_eq_zero_iff] at he
    exact .orElse (ih₁ he.1 _) fun _ => ih₂ he.2 _
  | add how x y ih₁ ih₂ =>
    simp only [spawnCount, Nat.add_eq_zero_iff] at he
    exact .bind (ih₁ he.1 _) fun _ => .bind (ih₂ he.2 _) fun _ => .pure _
  | cond name yes no ih₁ ih₂ =>
    simp only [spawnCount, Nat.add_eq_zero_iff] at he
    refine .bind (a.get_concur hr _ name) fun b => ?_
    cases b with
    | true => exact ih₁ he.1 _
    | false => exact ih₂ he.2 _
  | errorText e ih => exact .orElse (.bind (ih he _) fun _ => .pure _) fun _ => .pure _
  | resolveAll e ih => exact .bind (a.readAll_concur hr) fun _ => ih he _
  | spawn e ih => simp [spawnCount] at he
  | apply f e ih =>
    refine .bind (ih he _) fun v => ?_
    cases f v with
    | ok w => exact .pure w
    | error e => exact .fail e

end Sources

/-! ## One thread -/

/-- **What happens on one thread.** An option is entered only while nothing is under way on other threads. A read of an
option under way is answered only where the option's own value has just been stored: that is the answer of its own
resolution. -/
def Law.alone (n : Nat) : Law n where
  Allows active earlier
    | .entered thread _ => ∀ p ∈ active, p.1 = thread
    | .answered thread s v => (thread, s) ∈ active → ∃ r rest, earlier = .stored s r :: rest ∧ r.value = v
    | _ => True
  extend active recent earlier e h := by
    cases e with
    | answered thread s v =>
      intro hs
      obtain ⟨r, rest, rfl, hv⟩ := h hs
      exact ⟨r, rest ++ earlier, rfl, hv⟩
    | _ => exact h

/-- all that is under way is on one thread -/
theorem Law.Heeded.thread {n : Nat} {events : List (Event n)} (h : (Law.alone n).Heeded [] events) :
    ∃ thread, ∀ p ∈ underWay [] events, p.1 = thread := by
  induction events with
  | nil => exact ⟨0, by simp⟩
  | cons e earlier ih =>
    obtain ⟨thread, ht⟩ := ih h.2
    cases e with
    | entered thread' s =>
      refine ⟨thread', fun p hp => ?_⟩
      rcases List.mem_append.1 hp with hp | hp
      · exact h.1 p hp
      · rw [List.mem_singleton.1 hp]
    | left thread' s =>
      refine ⟨thread, fun p hp => ht p ?_⟩
      exact List.mem_reverse.1 (List.mem_of_mem_erase (List.mem_reverse.1 hp))
    | _ => exact ⟨thread, ht⟩

namespace Instance

open Run Memory

variable {i : Instance}

/-- no source hands work to another thread -/
def Unthreaded (i : Instance) : Prop := ∀ src ∈ i.sources, src.expr.spawnCount = 0

/-- What is under way are these options, on this thread, and none of them is cached. -/
structure Open (i : Instance) (thread : Nat) (active : List i.contract.Slot) (m : Memory i.size) : Prop where
  threaded : m.active = active.map (thread, ·)
  pending : ∀ s ∈ active, m.resolved? s = none

/-- with these options under way on the thread, the two runs are the same and come to an end -/
abbrev Concur {α : Type} (i : Instance) (thread : Nat) (active : List i.contract.Slot) (x y : Run i.size α) : Prop :=
  Run.Concur (i.Open thread active) (Returns (Law.alone i.size)) x y

namespace Open

variable {thread : Nat} {active : List i.contract.Slot} {m m' : Memory i.size}

/-- a change outside the cache and what is under way -/
theorem of_same (h : i.Open thread active m) (hc : m'.cache = m.cache) (ha : m'.active = m.active) :
    i.Open thread active m' :=
  ⟨ha.trans h.threaded, fun s hs => by rw [Memory.resolved?, hc]; exact h.pending s hs⟩

theorem of_idle (h : m.active = []) (thread : Nat) : i.Open thread [] m := ⟨h, by simp⟩

theorem mem_iff (h : i.Open thread active m) {s : i.contract.Slot} : (thread, s) ∈ m.active ↔ s ∈ active := by
  rw [h.threaded]
  simp

theorem chain_eq_nil_iff (h : i.Open thread active m) {s : i.contract.Slot} :
    m.chain thread s = [] ↔ s ∉ active := by
  rw [Memory.chain_eq_nil_iff, h.mem_iff]

theorem enter (h : i.Open thread active m) {s : i.contract.Slot} (hs : m.resolved? s = none) :
    i.Open thread (active ++ [s]) (m.enter thread s) := by
  refine ⟨?_, fun x hx => ?_⟩
  · show m.active ++ [(thread, s)] = _
    rw [h.threaded]
    simp
  · rcases List.mem_append.1 hx with hx | hx
    · exact h.pending x hx
    · rw [List.mem_singleton.1 hx]
      exact hs

end Open

theorem alone_bookkeeping : Bookkeeping (Returns (Law.alone i.size)) :=
  Returns.bookkeeping (fun _ _ _ => trivial) (fun _ _ _ _ => trivial) fun _ _ _ _ => trivial

section Computing

variable {thread : Nat} {active : List i.contract.Slot} {read read' : Nat → i.contract.Slot → Run i.size Value}

theorem firstOwn_concur (s : i.contract.Slot) (place : Place) :
    i.Concur thread active (i.firstOwn s place) (i.firstOwn s place) := by
  refine .bind .memory fun m => ?_
  split
  · exact .pure _
  · refine .bind (.update ?_ ?_) fun _ => .pure _
    · exact fun m hm => hm.of_same rfl rfl
    · exact fun m _ => alone_bookkeeping.spent m _

theorem firstShared_concur (s : i.contract.Slot) (place : Place) :
    i.Concur thread active (i.firstShared s place) (i.firstShared s place) := by
  refine .bind .memory fun m => ?_
  split
  · exact .pure _
  · refine .bind (.update ?_ ?_) fun _ => .pure _
    · exact fun m hm => hm.of_same rfl rfl
    · exact fun m _ => alone_bookkeeping.shared m _

theorem runSource_concur (s : i.contract.Slot) (tier : Tier) {x y : Run i.size (Option Value)}
    (h : i.Concur thread active x y) : i.Concur thread active (i.runSource s tier x) (i.runSource s tier y) := by
  refine .bind (.update ?_ ?_) fun _ => .noting h ?_ ?_ ?_
  · exact fun m hm => hm.of_same rfl rfl
  · exact fun m _ => alone_bookkeeping.ran m s tier
  · exact fun m e hm => hm.of_same rfl rfl
  · exact fun o m => alone_bookkeeping.returned m s tier o
  · exact fun e m => alone_bookkeeping.failed m s tier e

theorem consult_concur (l : Lookup) (s : i.contract.Slot) :
    i.Concur thread active (i.consult l s) (i.consult l s) := by
  intro m hm
  rw [consult_apply]
  refine ⟨rfl, ?_, hm.of_same rfl rfl, alone_bookkeeping.asked m _⟩
  cases l.ask (i.contract.accessor s).info (m.asked.count s) with
  | error e => exact failed_ne_unending e
  | ok o => exact ok_ne_unending o

variable (h : i.Unthreaded) (hr : ∀ s, i.Concur thread active (read thread s) (read' thread s))

include hr

theorem evalSource_concur {first : Place → Run i.size Bool}
    (hf : ∀ place, i.Concur thread active (first place) (first place)) {source : Source}
    (hs : source.expr.spawnCount = 0) :
    i.Concur thread active (i.evalSource ⟨read, first⟩ thread source) (i.evalSource ⟨read', first⟩ thread source) :=
  .bind (source.expr.eval_concur hr hf hs []) fun _ => .pure _

include h

theorem opinion_concur (s : i.contract.Slot) (tier : Tier) :
    i.Concur thread active (i.opinion read thread s tier) (i.opinion read' thread s tier) := by
  unfold opinion
  cases tier with
  | override =>
    cases ho : i.override? s with
    | none => exact .pure _
    | some source =>
      have hs := h source (mem_sources_of_override ho)
      exact runSource_concur s _ (evalSource_concur hr (firstOwn_concur s) hs)
  | lookup =>
    cases i.lookup with
    | none => exact .pure _
    | some l => exact runSource_concur s _ (consult_concur l s)
  | default =>
    cases hd : (i.contract.accessor s).source? with
    | none => exact .pure _
    | some source =>
      have hs := h source (mem_sources_of_default hd)
      exact runSource_concur s _ (evalSource_concur hr (firstShared_concur s) hs)

theorem compute_concur (s : i.contract.Slot) :
    i.Concur thread active (i.compute read thread s) (i.compute read' thread s) := by
  unfold compute
  induction Tier.all with
  | nil => exact .fail _
  | cons tier rest ih =>
    refine .bind (opinion_concur h hr s tier) fun o => ?_
    cases o with
    | none => exact ih
    | some v => exact .pure _

end Computing

/-! ## Attempts and reads -/

/-- A value for an option that is under way and not cached is stored and answered, if it has the option's type. -/
theorem keep_answer_apply {m : Memory i.size} {s : i.contract.Slot} (hs : m.resolved? s = none) (r : Resolved)
    (thread : Nat) :
    (i.keep s r >>= i.answer thread s) m =
      if (i.contract.accessor s).info.accepts r.value then
        (.ok r.value, (m.store s r).record (.answered thread s r.value))
      else (.error (.failed (.typeMismatch (i.contract.accessor s).name (i.contract.accessor s).type)), m) := by
  have hkeep := keep_apply m s r
  split
  · rename_i ha
    rw [if_pos ha, hs] at hkeep
    rw [bind_ok hkeep, answer_apply]
    rfl
  · rename_i ha
    rw [if_neg ha] at hkeep
    rw [bind_error hkeep]

theorem keep_answer_concur {thread : Nat} {active : List i.contract.Slot} {s : i.contract.Slot} (hs : s ∉ active)
    {m : Memory i.size} (hm : i.Open thread (active ++ [s]) m) (r : Resolved) :
    ((i.keep s r >>= i.answer thread s) m).1 ≠ .error .unending ∧
      (∀ x ∈ active, ((i.keep s r >>= i.answer thread s) m).2.resolved? x = none) ∧
      Returns (Law.alone i.size) m ((i.keep s r >>= i.answer thread s) m).2 := by
  have hnone := hm.pending s (by simp)
  have hpending (x : i.contract.Slot) (hx : x ∈ active) : m.resolved? x = none := hm.pending x (by simp [hx])
  rw [keep_answer_apply hnone]
  split
  · obtain ⟨hj, hc⟩ := store_of_none hnone r
    refine ⟨ok_ne_unending _, fun x hx => ?_, store_active, [.answered thread s r.value, .stored s r], ?_, rfl, ?_⟩
    · have hne : x ≠ s := by
        rintro rfl
        exact hs hx
      show (m.store s r).resolved? x = none
      rw [hc]
      simpa [Cache.apply, hne] using hpending x hx
    · show .answered thread s r.value :: (m.store s r).journal = _
      rw [hj]
      rfl
    · exact ⟨fun _ => ⟨r, [], rfl, rfl⟩, trivial, trivial⟩
  · exact ⟨failed_ne_unending _, hpending, refl_of (Returns (Law.alone i.size)) m⟩

variable {thread : Nat} {active : List i.contract.Slot} {s : i.contract.Slot} {m : Memory i.size}

/-- **An attempt at an option comes to an end** if the reads of its sources do while it is under way, too. -/
theorem attempt_concur (h : i.Unthreaded) {read read' : Nat → i.contract.Slot → Run i.size Value}
    (hr : ∀ x, i.Concur thread (active ++ [s]) (read thread x) (read' thread x)) (hm : i.Open thread active m)
    (hs : s ∉ active) (hnone : m.resolved? s = none) :
    i.settle read thread s (m.enter thread s) = i.settle read' thread s (m.enter thread s) ∧
      (i.settle read thread s (m.enter thread s)).1 ≠ .error .unending ∧
      i.Open thread active ((i.settle read thread s (m.enter thread s)).2.leave thread s) ∧
      Returns (Law.alone i.size) m ((i.settle read thread s (m.enter thread s)).2.leave thread s) := by
  have hentered : (Law.alone i.size).Allows m.active [] (.entered thread s) := by
    intro p hp
    rw [hm.threaded] at hp
    obtain ⟨x, -, rfl⟩ := List.mem_map.1 hp
    rfl
  -- what is left to show once the memory before the option is left is known
  have hleave {m' : Memory i.size} (hp : ∀ x ∈ active, m'.resolved? x = none)
      (hret : Returns (Law.alone i.size) (m.enter thread s) m') :
      i.Open thread active (m'.leave thread s) ∧ Returns (Law.alone i.size) m (m'.leave thread s) := by
    refine ⟨⟨leave_active ?_, hp⟩, hret.attempt hentered fun _ => trivial⟩
    rw [hret.1, ← hm.threaded]
    rfl
  obtain ⟨heq, hend, hopen, hret⟩ := compute_concur h hr s _ (hm.enter hnone)
  unfold settle
  rcases hc : i.compute read thread s (m.enter thread s) with ⟨e | r, m'⟩ <;> rw [hc] at heq hend hopen hret
  · rw [bind_error hc, bind_error heq.symm]
    have hp (x : i.contract.Slot) (hx : x ∈ active) : m'.resolved? x = none := hopen.pending x (by simp [hx])
    exact ⟨rfl, fun he => hend (by cases he; rfl), hleave hp hret⟩
  · rw [bind_ok hc, bind_ok heq.symm]
    obtain ⟨hend', hp, hret'⟩ := keep_answer_concur hs hopen r
    exact ⟨rfl, hend', hleave hp (trans_of (Returns (Law.alone i.size)) hret hret')⟩

/-- **Reads come to an end**, and how deep they may nest makes no difference, as long as it is deeper than there are
    options that are not under way. -/
theorem resolve_concur (h : i.Unthreaded) {depth depth' : Nat} (hd : active.Nodup)
    (hdepth : i.size < depth + active.length) (hdepth' : i.size < depth' + active.length) (s : i.contract.Slot) :
    i.Concur thread active (i.resolve depth thread s) (i.resolve depth' thread s) := by
  have hlen : active.length ≤ i.size := by simpa using hd.length_le_card
  induction depth generalizing active depth' s with
  | zero => omega
  | succ depth ih =>
    cases depth' with
    | zero => omega
    | succ depth' =>
      intro m hm
      cases hs : m.resolved? s with
      | some r =>
        rw [resolve_cached hs, resolve_cached hs]
        have hnot : (thread, s) ∉ m.active := fun hmem => by
          rw [hm.pending s (hm.mem_iff.1 hmem)] at hs
          cases hs
        exact ⟨rfl, ok_ne_unending _, hm.of_same rfl rfl, .note rfl rfl rfl fun hmem => absurd hmem hnot⟩
      | none =>
        by_cases hc : s ∈ active
        · have hchain : m.chain thread s ≠ [] := fun hnil => hm.chain_eq_nil_iff.1 hnil hc
          rw [resolve_reentered hs hchain, resolve_reentered hs hchain]
          exact ⟨rfl, failed_ne_unending _, hm.of_same rfl rfl, .note rfl rfl rfl trivial⟩
        · have hchain := hm.chain_eq_nil_iff.2 hc
          rw [resolve_entered hs hchain, resolve_entered hs hchain]
          have hd' : (active ++ [s]).Nodup := hd.append (List.nodup_singleton s) (by simpa using hc)
          have hlen' : (active ++ [s]).length = active.length + 1 := by simp
          have hread (x : i.contract.Slot) :
              i.Concur thread (active ++ [s]) (i.resolve depth thread x) (i.resolve depth' thread x) :=
            ih hd' (by omega) (by omega) x (by simpa using hd'.length_le_card)
          obtain ⟨heq, hend, hopen, hret⟩ := attempt_concur h hread hm hc hs
          exact ⟨by rw [heq], hend, hopen, hret⟩

/-! ## Requests -/

theorem access_concur (h : i.Unthreaded) (thread : Nat) (s : i.contract.Slot) :
    i.Concur thread [] (i.access.read thread s) (i.access.read thread s) :=
  resolve_concur h List.nodup_nil i.size_lt_depth i.size_lt_depth s

theorem reportEntries_answers (h : i.Unthreaded) (config : Option Config.Layered) (infos : List AccessorInfo) :
    Answers (i.Open thread []) (Returns (Law.alone i.size)) (i.reportEntries thread config infos) := by
  induction infos with
  | nil => exact .pure _
  | cons info rest ih =>
    have hvalue := (i.access.readName_concur (access_concur h thread) info.name).attempt
    refine .bind (.bind hvalue fun v => ?_) fun e => .bind ih fun es => .pure _
    cases v with
    | ok v => exact .bind .memory fun m => .pure _
    | error e => exact .pure _

/-- **Every request has an answer.** -/
theorem answer_answers (h : i.Unthreaded) (config : Option Config.Layered) (r : Request) :
    Answers (i.Open thread []) (Returns (Law.alone i.size)) (r.answer i config thread) := by
  have hread := access_concur h thread
  have htry (t : ValueType) (name : String) :
      Answers (i.Open thread []) (Returns (Law.alone i.size)) (i.tryGet thread t name) :=
    (Run.Concur.bind (i.access.get_concur hread t name) fun _ => .pure _).attempt
  cases r with
  | get t name => exact .bind (htry t name) fun _ => .pure _
  | getTwice t name => exact .bind (htry t name) fun _ => .bind (htry t name) fun _ => .pure _
  | getValue name => exact .bind (i.access.readName_concur hread name).attempt fun _ => .pure _
  | resolveAll => exact .bind (i.access.readAll_concur hread).attempt fun _ => .pure _
  | tier name => exact .bind .memory fun _ => .pure _
  | overridden _ | hasLookup => exact .pure _
  | explain => exact .bind .memory fun _ => .pure _
  | report withConfig createdAt =>
    exact .bind (.bind (reportEntries_answers h _ _) fun _ => .pure _) fun _ => .pure _

theorem turn_answers (h : i.Unthreaded) {m : Memory i.size} (hm : m.active = []) (t : Turn) :
    ∃ a, (i.turn m t).1 = .ok a ∧
      Returns (Law.alone i.size) { m with shared := t.shared, journal := [] } (i.turn m t).2 := by
  have hopen : i.Open t.thread [] { m with shared := t.shared, journal := [] } :=
    (Open.of_idle hm t.thread).of_same rfl rfl
  obtain ⟨a, m', hturn, -, hret⟩ := answer_answers h t.config t.request _ hopen
  have hturn : i.turn m t = (.ok a, m') := hturn
  rw [hturn]
  exact ⟨a, rfl, hret⟩

/-- **Resolution ends.** Of every instance in which no source starts a thread, and every session with it:
- every request is answered;
- between requests nothing is under way. From there every read comes to an end, with nothing under way again, and it is
  one and the same run for all depths greater than the number of options;
- at every moment what is under way is on one thread, no option twice, and so no more than there are options;
- an option is entered only if it is not under way; asked for while it is under way it is answered only by its own
  resolution, with the value that was stored just before;
- a read of an option that is under way on the thread, and not cached, fails at once with the cycle that leads back to
  the option, and is only noted. -/
theorem resolution_ends (i : Instance) (h : i.Unthreaded) (ts : List Turn) :
    (∀ t, ∃ a, (i.turn (i.memoryAfter ts) t).1 = .ok a) ∧
    ((i.memoryAfter ts).active = [] ∧ ∀ (m : Memory i.size) (depth thread : Nat) (s : i.contract.Slot),
      m.active = [] → i.size < depth →
        (i.resolve depth thread s m).1 ≠ .error .unending ∧ (i.resolve depth thread s m).2.active = [] ∧
          i.resolve depth thread s m = i.access.read thread s m) ∧
    (∀ events, events <:+ i.history ts →
      (underWay [] events).Nodup ∧ (∃ thread, ∀ p ∈ underWay [] events, p.1 = thread) ∧
        (underWay [] events).length ≤ i.contract.size) ∧
    (∀ thread s earlier, .entered thread s :: earlier <:+ i.history ts → (thread, s) ∉ underWay [] earlier) ∧
    (∀ thread s v earlier, .answered thread s v :: earlier <:+ i.history ts → (thread, s) ∈ underWay [] earlier →
      ∃ r rest, earlier = .stored s r :: rest ∧ r.value = v) ∧
    ∀ (m : Memory i.size) (depth thread : Nat) (s : i.contract.Slot), (thread, s) ∈ m.active → m.resolved? s = none →
      i.resolve (depth + 1) thread s m =
        (.error (.failed (.cycle ((m.chain thread s ++ [s]).map fun x => (i.contract.accessor x).name))),
          m.record (.reentered thread s)) := by
  have hnesting := i.nesting_obeyed.history ts
  obtain ⟨hidle, -, halone⟩ := history_heeds (fun m t hm => (turn_answers h hm t).choose_spec.2) ts
  refine ⟨fun t => ?_, ⟨hidle, ?_⟩, ?_, ?_, ?_, ?_⟩
  · obtain ⟨a, ha, -⟩ := turn_answers h hidle t
    exact ⟨a, ha⟩
  · intro m depth thread s hm hdepth
    obtain ⟨heq, hend, hopen, -⟩ :=
      resolve_concur h List.nodup_nil (by simpa using hdepth) i.size_lt_depth s m (.of_idle hm thread)
    exact ⟨hend, hopen.threaded, heq⟩
  · intro events hevents
    have hd := (hnesting.suffix hevents).nodup List.nodup_nil
    obtain ⟨thread, ht⟩ := (halone.suffix hevents).thread
    exact ⟨hd, ⟨thread, ht⟩, length_le_of_thread hd ht⟩
  · intro thread s earlier hevents
    exact (hnesting.suffix hevents).1
  · intro thread s v earlier hevents
    exact (halone.suffix hevents).1
  · intro m depth thread s hmem hs
    exact resolve_reentered hs (fun hc => chain_eq_nil_iff.1 hc hmem) depth

/-- Two options that lead to each other. One makes do without the other, which shows the error that it gets. -/
def entangledContract : Contract := ⟨"Entangled", [
  ⟨"left", [], .string, some (.orElse (.get "right") (.const "alone"))⟩,
  ⟨"right", [], .string, some (.add .string (.errorText (.get (t := .string) "left")) (.get "left"))⟩]⟩

def entangled : Instance := ⟨entangledContract, Vector.replicate 2 none, none⟩

theorem entangled_unthreaded : entangled.Unthreaded := by
  unfold Unthreaded
  decide

example : (entangled.turn (.fresh 2 []) ⟨[], none, 0, .getValue "left"⟩).1 = .ok (.value (.ok ⟨.string, "alone"⟩)) := by
  rfl

/-- Whatever of the two was asked for, all options can be asked for next. -/
theorem entangled_ends : entangled.Unthreaded ∧
    ∃ a, (entangled.turn (entangled.memoryAfter [⟨[], none, 0, .getValue "right"⟩, ⟨[], none, 1, .getValue "left"⟩])
      ⟨[], none, 0, .resolveAll⟩).1 = .ok a :=
  ⟨entangled_unthreaded, (resolution_ends entangled entangled_unthreaded _).1 _⟩

end Instance

end TieredOptions
