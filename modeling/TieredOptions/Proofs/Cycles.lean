/-
Cycles. A read is refused where its option is not cached and already under way on the same thread, and there only
(`refused_iff`); a cycle that it fails of otherwise was passed on by a source. The error names what is under way on the
thread from the option on, and the option once more. This is a loop of reads: each was made from the source of the one
before it, which was running and innermost on the thread (`Steps.read_from`, from the way in which attempts come to be
open).

A read leaves under way what it found there, however it ends, so that nothing is refused for the sake of a read that is
over (`underWay_restored`).
-/
import TieredOptions.Proofs.Ending
import TieredOptions.Proofs.Failure
import TieredOptions.Proofs.Moments

namespace TieredOptions

/-! ## What is cut out -/

/-- no option is in a chain twice -/
theorem Memory.chain_nodup {n : Nat} {m : Memory n} (hd : m.active.Nodup) (thread : Nat) (s : Fin n) :
    (m.chain thread s).Nodup := by
  have hsub : ((m.active.dropWhile (· != (thread, s))).filter (·.1 == thread)).Sublist m.active :=
    List.filter_sublist.trans (List.dropWhile_sublist _)
  refine (hd.sublist hsub).map_on fun p hp q hq h => Prod.ext ?_ h
  have hthread {p : Nat × Fin n} (hp : p ∈ (m.active.dropWhile (· != (thread, s))).filter (·.1 == thread)) :
      p.1 = thread := beq_iff_eq.1 (List.mem_filter.1 hp).2
  rw [hthread hp, hthread hq]

/-- The chain is what is under way on the thread from the option on. -/
theorem Memory.chain_cut {n : Nat} {m : Memory n} (hd : m.active.Nodup) {thread : Nat} {s : Fin n}
    (h : (thread, s) ∈ m.active) : ∃ before since, m.active = before ++ (thread, s) :: since ∧
      (thread, s) ∉ before ++ since ∧ m.chain thread s = s :: (since.filter (·.1 == thread)).map (·.2) := by
  obtain ⟨before, since, ha⟩ := List.append_of_mem h
  rw [ha] at hd
  have hnew : (thread, s) ∉ before ++ since := (List.nodup_middle.1 hd).notMem
  refine ⟨before, since, ha, hnew, ?_⟩
  have hbefore : ∀ p ∈ before, (p != (thread, s)) = true := by
    intro p hp
    simpa using fun he : p = (thread, s) => hnew (List.mem_append_left _ (he ▸ hp))
  rw [chain, ha, List.dropWhile_append_of_pos hbefore, List.dropWhile_cons_of_neg (by simp),
    List.filter_cons_of_pos (by simp), List.map_cons]

/-! ## Reads within reads -/

namespace Moment

variable {n : Nat} {o o' : Moment n} {events : List (Event n)} {attempts : List (Attempt n)} {thread : Nat}
  {x y : Fin n}

/-- the options of the attempts on a thread, oldest first -/
def onThread (attempts : List (Attempt n)) (thread : Nat) : List (Fin n) :=
  ((attempts.filter (·.thread == thread)).map (·.slot)).reverse

theorem onThread_eq (o : Moment n) (thread : Nat) :
    onThread o.attempts thread = (o.active.filter (·.1 == thread)).map (·.2) := by
  simp [onThread, active, List.filter_map, Function.comp_def]

/-- an attempt on a thread, with those within it and those around it -/
theorem of_onThread {front back : List (Fin n)} (h : onThread attempts thread = front ++ x :: back) :
    ∃ inner stage outer, attempts = inner ++ ⟨thread, x, stage⟩ :: outer ∧ onThread inner thread = back ∧
      onThread outer thread = front := by
  have h : (attempts.filter (·.thread == thread)).map (·.slot) = back.reverse ++ x :: front.reverse := by
    rw [← List.reverse_inj]
    simpa [onThread] using h
  obtain ⟨within, rest, hfilter, hwithin, hrest⟩ := List.map_eq_append_iff.1 h
  obtain ⟨a, around, rfl, rfl, haround⟩ := List.map_eq_cons_iff.1 hrest
  obtain ⟨inner, rest, rfl, hinner, hfilter⟩ := List.filter_eq_append_iff.1 hfilter
  obtain ⟨skipped, outer, rfl, hskipped, ha, houter⟩ := List.filter_eq_cons_iff.1 hfilter
  have hthread : a.thread = thread := beq_iff_eq.1 ha
  subst hthread
  refine ⟨inner ++ skipped, a.stage, outer, by simp, ?_, ?_⟩
  · have hnone : skipped.filter (·.thread == a.thread) = [] := List.filter_eq_nil_iff.2 hskipped
    simp [onThread, hnone, hinner, hwithin]
  · simp [onThread, houter, haround]

/-- A source of the option is running on the thread, and the option is the innermost there. -/
def Runs (o : Moment n) (thread : Nat) (x : Fin n) : Prop :=
  ∃ inner tier outer, o.attempts = inner ++ ⟨thread, x, .running tier⟩ :: outer ∧ onThread inner thread = []

/-- where a source of every attempt is running, one of the innermost option is -/
theorem runs_of_busy (hb : Busy o.attempts) {front : List (Fin n)} (h : onThread o.attempts thread = front ++ [x]) :
    o.Runs thread x := by
  obtain ⟨inner, stage, outer, ho, hinner, -⟩ := of_onThread h
  obtain ⟨tier, hs⟩ := hb ⟨thread, x, stage⟩ (by simp [ho])
  have hs : stage = .running tier := hs
  subst hs
  exact ⟨inner, tier, outer, ho, hinner⟩

/-- The option `y` was read from a source of `x`, which was running and innermost on the thread. The read is one that is
    still open, or it was refused and that was the last that happened. -/
def ReadFrom (events : List (Event n)) (thread : Nat) (x y : Fin n) : Prop :=
  ∃ since e earlier o, events = since ++ e :: earlier ∧
    (e = .entered thread y ∧ .left thread y ∉ since ∨ e = .reentered thread y ∧ since = []) ∧
    Steps .start earlier o ∧ o.Runs thread x

/-- **Of what is under way on a thread, each was read from the one before.** -/
theorem Steps.read_from (h : Steps .start events o) {front back : List (Fin n)}
    (ho : onThread o.attempts thread = front ++ x :: y :: back) : ReadFrom events thread x y := by
  rw [List.append_cons] at ho
  obtain ⟨inner, stage, outer, hattempts, -, houter⟩ := of_onThread ho
  obtain ⟨busy, since, earlier, cache, he, hleft, hs⟩ := h.entry rfl hattempts
  exact ⟨since, _, earlier, _, he, .inl ⟨rfl, hleft⟩, hs, runs_of_busy busy houter⟩

/-- a read is refused in the midst of sources, where its option is under way and not cached -/
theorem Step.of_reentered (h : Step o (.reentered thread x) o') :
    o' = o ∧ Busy o.attempts ∧ (thread, x) ∈ o.active ∧ o.cache x = none := by
  cases h with
  | reentered busy old unfilled => exact ⟨rfl, busy, List.mem_reverse.2 (List.mem_map.2 old), unfilled⟩
  | within h => cases h

end Moment

namespace Instance

open Memory Moment

variable {i : Instance}

/-! ## Refusals -/

/-- The read is refused with the chain as its error, and beside the note of this nothing happens. -/
def Refused (i : Instance) (depth thread : Nat) (s : i.contract.Slot) (m : Memory i.size) (chain : List String) :
    Prop :=
  i.resolve depth thread s m = (.error (.failed (.cycle chain)), m.record (.reentered thread s))

/-- **Where a read is refused.** -/
theorem refused_iff {m : Memory i.size} {s : i.contract.Slot} (hs : m.resolved? s = none) (depth thread : Nat) :
    (∃ chain, i.Refused (depth + 1) thread s m chain) ↔ (thread, s) ∈ m.active := by
  constructor
  · rintro ⟨chain, h⟩
    by_contra hm
    -- an attempt ends with leaving, so the last event tells the two apart
    rw [Refused, resolve_entered hs (chain_eq_nil hm)] at h
    have hj := congrArg (·.2.journal) h
    simp [leave, record] at hj
  · exact fun hm => ⟨_, resolve_reentered hs (fun hc => chain_eq_nil_iff.1 hc hm) depth⟩

/-- The options lead back to `s` on the thread: what is under way there from `s` on, each read from a source of the one
    before, and `s`, refused, from a source of the last. -/
structure Loop (i : Instance) (events : List (Event i.size)) (thread : Nat) (s : i.contract.Slot)
    (chain : List i.contract.Slot) : Prop where
  cut : ∃ before since, underWay [] events = before ++ (thread, s) :: since ∧ (thread, s) ∉ before ++ since ∧
    chain = s :: (since.filter (·.1 == thread)).map (·.2)
  distinct : (chain.map fun x => (i.contract.accessor x).name).Nodup
  nested : ∀ front x y back, chain ++ [s] = front ++ x :: y :: back → ReadFrom events thread x y
  length : 2 ≤ (chain ++ [s]).length ∧ (chain ++ [s]).length ≤ i.size + 1

/-- **A refusal closes a loop**, and what leads around it is the chain of the error. -/
theorem loop_of_reentered (hc : i.contract.WellFormed) (hi : i.Provided) {ts : List Turn} {thread : Nat}
    {s : i.contract.Slot} {earlier : List (Event i.size)} (h : .reentered thread s :: earlier <:+ i.history ts)
    {m : Memory i.size} (hm : m.active = underWay [] earlier) :
    i.cacheAt earlier s = none ∧ (thread, s) ∈ m.active ∧
      i.Loop (.reentered thread s :: earlier) thread s (m.chain thread s) := by
  obtain ⟨o, hsteps⟩ := (history_steps hi ts).suffix h
  obtain ⟨busy, before, hmem, hunfilled⟩ : Busy o.attempts ∧ Steps .start earlier o ∧ (thread, s) ∈ o.active ∧
      o.cache s = none := by
    cases hsteps with
    | cons before last =>
      obtain ⟨rfl, busy, hmem, hunfilled⟩ := last.of_reentered
      exact ⟨busy, before, hmem, hunfilled⟩
  have hactive : o.active = m.active := before.active.1.trans hm.symm
  have hd : m.active.Nodup := hactive ▸ List.nodup_reverse.2 (before.nodup List.nodup_nil)
  rw [hactive] at hmem
  obtain ⟨around, since, hcut, hnew, hchain⟩ := chain_cut hd hmem
  have hdistinct := chain_nodup hd thread s
  have hthread : onThread o.attempts thread = (around.filter (·.1 == thread)).map (·.2) ++ m.chain thread s := by
    rw [onThread_eq, hactive, hcut, hchain]
    simp
  refine ⟨hunfilled ▸ congrFun before.active.2.symm s, hmem, ?_, ?_, ?_, ?_⟩
  · exact ⟨around, since, hm ▸ hcut, hnew, hchain⟩
  · exact hdistinct.map_on fun x _ y _ h => hc.name_inj h
  · intro front x y back hsplit
    rcases List.eq_nil_or_concat back with rfl | ⟨back, z, rfl⟩
    · -- the last read of all is the one that is refused
      have hsplit : m.chain thread s ++ [s] = (front ++ [x]) ++ [y] := by simpa using hsplit
      obtain ⟨hfront, hy⟩ := List.append_inj' hsplit rfl
      cases hy
      rw [hfront, ← List.append_assoc] at hthread
      exact ⟨[], _, earlier, o, rfl, .inr ⟨rfl, rfl⟩, before, runs_of_busy busy hthread⟩
    · have hsplit : m.chain thread s ++ [s] = (front ++ x :: y :: back) ++ [z] := by simpa using hsplit
      rw [(List.append_inj' hsplit rfl).1, ← List.append_assoc] at hthread
      exact hsteps.read_from hthread
  · have hle := hdistinct.length_le_card
    rw [hchain] at hle ⊢
    simp at hle ⊢
    omega

/-- **Cycles.** Of every instance that was built:
- a read of an option that is cached is answered, on whatever thread it is made and whatever is under way. A read of one
  that is not is refused exactly if the option is under way on the thread, and then nothing else is done. A read that
  comes back with a cycle was refused, or one of its sources failed with that cycle;
- where a read was refused in a session, its option was under way on the thread and not cached, and the chain of the
  error leads back to it: what is under way on the thread from the option on, under names that differ, each read from a
  source of the one before, and the option once more. -/
theorem refused_in_loop {c : Contract} {lookup : Option Lookup} {overrides : List Override} {i : Instance}
    (h : build c lookup overrides = .ok i) :
    (∀ depth thread s m,
      (∀ r, m.resolved? s = some r →
        i.resolve (depth + 1) thread s m = (.ok r.value, m.record (.answered thread s r.value))) ∧
      (m.resolved? s = none → ((∃ chain, i.Refused (depth + 1) thread s m chain) ↔ (thread, s) ∈ m.active)) ∧
      ∀ chain m', i.resolve depth thread s m = (.error (.failed (.cycle chain)), m') →
        i.Refused depth thread s m chain ∨ i.PassesOn thread s (.cycle chain) m') ∧
    ∀ ts thread s earlier, .reentered thread s :: earlier <:+ i.history ts →
      i.cacheAt earlier s = none ∧ ∃ chain, i.Loop (.reentered thread s :: earlier) thread s chain ∧
        ∀ depth m, m.active = underWay [] earlier → m.resolved? = i.cacheAt earlier →
          i.Refused (depth + 1) thread s m ((chain ++ [s]).map fun x => (i.contract.accessor x).name) := by
  have hchecked := checked_of_build h
  obtain ⟨hadmits, rfl⟩ := build_ok h
  refine ⟨fun depth thread s m => ⟨fun r hr => resolve_cached hr depth thread, ?_, ?_⟩, ?_⟩
  · exact fun hs => refused_iff hs depth thread
  · intro chain m' hfail
    rcases resolve_fails hchecked hfail with hc | hc | hc | hc
    · refine .inl ?_
      rw [Refused, hfail, hc.left]
    · exact .inr hc
    · cases hc.error
    · cases hc.error
  · intro ts thread s earlier hearlier
    let m : Memory c.size := { Memory.fresh c.size [] with active := underWay [] earlier }
    obtain ⟨hunfilled, -, hloop⟩ := loop_of_reentered hadmits.wellFormed hchecked.provided hearlier (m := m) rfl
    refine ⟨hunfilled, _, hloop, fun depth m' ha hc => ?_⟩
    obtain ⟨-, hmem, -⟩ := loop_of_reentered hadmits.wellFormed hchecked.provided hearlier ha
    have hchain : m'.chain thread s = m.chain thread s := by rw [chain, ha]; rfl
    rw [← hchain]
    exact resolve_reentered (hc ▸ hunfilled) (fun h => chain_eq_nil_iff.1 h hmem) depth

/-- what happens while the one of the two is read that makes do without the other, up to the first refusal -/
def entangledEvents : List (Event 2) :=
  [.reentered 0 0, .ran 1 .default, .entered 0 1, .ran 0 .default, .entered 0 0]

/-- The two are a loop. -/
theorem entangled_loop : build entangledContract none [] = .ok entangled ∧
    entangledEvents <:+ entangled.history [⟨[], none, 0, .getValue "left"⟩] ∧
    ∃ chain, entangled.Loop entangledEvents 0 (0 : Fin 2) chain := by
  have hbuild : build entangledContract none [] = .ok entangled := by rfl
  have hhistory : entangledEvents <:+ entangled.history [⟨[], none, 0, .getValue "left"⟩] :=
    List.drop_suffix 7 (entangled.history [⟨[], none, 0, .getValue "left"⟩])
  obtain ⟨-, chain, hloop, -⟩ := (refused_in_loop hbuild).2 _ 0 (0 : Fin 2) _ hhistory
  exact ⟨hbuild, hhistory, chain, hloop⟩

/-! ## What is restored -/

/-- **What is under way is restored.** For every instance:
- a read leaves under way what it found, in the same order, from whatever memory it is made, on whatever thread, and
  however it ends; so an option that is not cached is refused afterwards exactly if it was under way before. Where no
  option was under way twice on a thread, none ever is while the read goes on, and what is refused meanwhile is under
  way at that moment;
- between the requests of a session, also of several instances, nothing is under way; at no moment is an option under
  way twice on a thread; and what is refused during a request is under way because of that request, whatever failed
  before. -/
theorem underWay_restored (i : Instance) :
    (∀ depth thread s m,
      (i.resolve depth thread s m).2.active = m.active ∧
      (∀ depth' thread' s', (i.resolve depth thread s m).2.resolved? s' = none →
        ((∃ chain, i.Refused (depth' + 1) thread' s' (i.resolve depth thread s m).2 chain) ↔
          (thread', s') ∈ m.active)) ∧
      ∃ new, (i.resolve depth thread s m).2.journal = new ++ m.journal ∧
        (m.active.Nodup → ∀ early, early <:+ new → (underWay m.active early).Nodup) ∧
        ∀ thread' s' early, .reentered thread' s' :: early <:+ new → (thread', s') ∈ underWay m.active early) ∧
    (∀ ts, (i.memoryAfter ts).active = [] ∧
      (∀ events, events <:+ i.history ts → (underWay [] events).Nodup) ∧
      ∀ t thread s early, .reentered thread s :: early <:+ (i.turn (i.memoryAfter ts) t).2.journal →
        (thread, s) ∈ underWay [] early) ∧
    ∀ actions member, some member ∈ (Session.run actions).members → member.memory.active = [] := by
  refine ⟨fun depth thread s m => ?_, fun ts => ⟨i.memoryAfter_active ts, ?_, ?_⟩, ?_⟩
  · obtain ⟨ha, new, hj, -, hl⟩ := i.nesting_obeyed.resolve_returns depth thread s m
    refine ⟨ha, fun depth' thread' s' hs => ?_, new, hj, fun hd early he => ?_, fun thread' s' early he => ?_⟩
    · exact ha ▸ refused_iff hs depth' thread'
    · exact (hl.suffix he).nodup hd
    · exact (hl.suffix he).1
  · exact fun events he => ((i.nesting_obeyed.history ts).suffix he).nodup List.nodup_nil
  · intro t thread s early he
    obtain ⟨-, new, hj, -, hl⟩ := turn_nests (i.memoryAfter ts) t
    have hnew : .reentered thread s :: early <:+ new := by
      rwa [hj.trans (List.append_nil new)] at he
    have hrefused : (thread, s) ∈ underWay (i.memoryAfter ts).active early := (hl.suffix hnew).1
    rwa [memoryAfter_active] at hrefused
  · intro actions member hm
    obtain ⟨-, ts, hmemory⟩ := Session.run_served actions member hm
    exact hmemory ▸ member.inst.memoryAfter_active ts

end Instance

end TieredOptions
