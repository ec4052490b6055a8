/-
Laws of runs. A run takes a memory to an outcome and a memory. Two ways to say what one does:
- `Keeps R x`: whatever the outcome, the memory after `x` stands to the memory before it in the relation `R`.
- `Yields I x r`: from every memory with `I`, `x` ends with the value or the error `r`, and `I` holds again. The outcome
  does not depend on the memory.

Both pass through every way in which runs are put together. So what a source can do follows from what the reads it is
given do (`Expr.eval_keeps`, `Instance.compute_keeps`): a source is nothing but reads, first evaluations of nodes, and
the ways to combine them.
-/
import Mathlib.Order.Defs.Unbundled
import TieredOptions.Instance.Resolve

namespace TieredOptions

namespace Run

variable {n : Nat} {α β : Type}

/-! ## What runs do to a memory -/

@[simp] theorem pure_apply (a : α) (m : Memory n) : (pure a : Run n α) m = (.ok a, m) := rfl

theorem bind_ok {x : Run n α} {m m' : Memory n} {a : α} (h : x m = (.ok a, m')) (f : α → Run n β) :
    (x >>= f) m = f a m' := by
  simp only [bind, ExceptT.bind, ExceptT.mk, StateT.bind, h]
  rfl

theorem bind_error {x : Run n α} {m m' : Memory n} {e : Halt} (h : x m = (.error e, m')) (f : α → Run n β) :
    (x >>= f) m = (.error e, m') := by
  simp only [bind, ExceptT.bind, ExceptT.mk, StateT.bind, h]
  rfl

@[simp] theorem memory_bind_apply (f : Memory n → Run n β) (m : Memory n) : (memory >>= f) m = f m m := rfl

@[simp] theorem update_bind_apply (change : Memory n → Memory n) (f : Unit → Run n β) (m : Memory n) :
    (update change >>= f) m = f () (change m) := rfl

theorem of_noting_ok {x : Run n α} {returned : α → Event n} {failed : ResolveError → Event n} {m : Memory n} {a : α}
    (h : (noting x returned failed m).1 = .ok a) :
    (x m).1 = .ok a ∧ (noting x returned failed m).2 = (x m).2.record (returned a) := by
  unfold noting at h ⊢
  rcases hx : x m with ⟨(e | _) | b, m'⟩ <;> rw [hx] at h <;> cases h
  exact ⟨rfl, rfl⟩

/-- a run of two parts that succeeds: both parts do -/
theorem of_bind_ok {x : Run n α} {f : α → Run n β} {m : Memory n} {b : β} (h : ((x >>= f) m).1 = .ok b) :
    ∃ a, (x m).1 = .ok a ∧ (f a (x m).2).1 = .ok b ∧ ((x >>= f) m).2 = (f a (x m).2).2 := by
  rcases hx : x m with ⟨a | a, m'⟩
  · rw [bind_error hx] at h; cases h
  · rw [bind_ok hx] at h ⊢; exact ⟨a, rfl, h, rfl⟩

theorem attempt_ok {x : Run n α} {m m' : Memory n} {a : α} (h : x m = (.ok a, m')) :
    attempt x m = (.ok (.ok a), m') := by
  simp only [attempt, orElse, bind_ok h, pure_apply]

theorem attempt_failed {x : Run n α} {m m' : Memory n} {e : ResolveError} (h : x m = (.error (.failed e), m')) :
    attempt x m = (.ok (.error e), m') := by
  simp only [attempt, orElse, bind_error h]
  rfl

theorem attempt_unending {x : Run n α} {m m' : Memory n} (h : x m = (.error .unending, m')) :
    attempt x m = (.error .unending, m') := by
  simp only [attempt, orElse, bind_error h]

theorem attempt_memory (x : Run n α) (m : Memory n) : (attempt x m).2 = (x m).2 := by
  rcases h : x m with ⟨(e | _) | a, m'⟩
  · rw [attempt_failed h]
  · rw [attempt_unending h]
  · rw [attempt_ok h]

theorem return_memory (x : Run n α) (f : α → β) (m : Memory n) : ((do return f (← x) : Run n β) m).2 = (x m).2 := by
  rcases h : x m with ⟨e | a, m'⟩
  · rw [bind_error h]
  · rw [bind_ok h]
    rfl

/-! ## Relations between the memory before and after -/

/-- the memory after the run stands in `R` to the memory before -/
def Keeps (R : Memory n → Memory n → Prop) (x : Run n α) : Prop := ∀ m, R m (x m).2

theorem Keeps.update {R : Memory n → Memory n → Prop} {change : Memory n → Memory n} (h : ∀ m, R m (change m)) :
    Keeps R (update change) := h

namespace Keeps

variable {R : Memory n → Memory n → Prop} [IsPreorder (Memory n) R] {x : Run n α}

theorem pure (a : α) : Keeps R (Pure.pure a : Run n α) := fun m => refl_of R m

theorem throw (h : Halt) : Keeps R (MonadExcept.throw h : Run n α) := fun m => refl_of R m

theorem fail (e : ResolveError) : Keeps R (Run.fail e : Run n α) := fun m => refl_of R m

theorem memory : Keeps R (Run.memory : Run n (Memory n)) := fun m => refl_of R m

theorem bind {f : α → Run n β} (hx : Keeps R x) (hf : ∀ a, Keeps R (f a)) : Keeps R (x >>= f) := by
  intro m
  have h := hx m
  rcases hm : x m with ⟨a | a, m'⟩ <;> rw [hm] at h
  · rw [bind_error hm]; exact h
  · rw [bind_ok hm]; exact trans_of R h (hf a m')

theorem orElse {handle : ResolveError → Run n α} (hx : Keeps R x) (hh : ∀ e, Keeps R (handle e)) :
    Keeps R (Run.orElse x handle) := by
  intro m
  have h := hx m
  rcases hm : x m with ⟨(e | _) | a, m'⟩ <;> rw [hm] at h <;> simp only [Run.orElse, hm]
  · exact trans_of R h (hh e m')
  · exact h
  · exact h

theorem noting {returned : α → Event n} {failed : ResolveError → Event n} (hx : Keeps R x)
    (hr : ∀ a m, R m (m.record (returned a))) (hf : ∀ e m, R m (m.record (failed e))) :
    Keeps R (Run.noting x returned failed) := by
  intro m
  have h := hx m
  rcases hm : x m with ⟨(e | _) | a, m'⟩ <;> rw [hm] at h <;> simp only [Run.noting, hm]
  · exact trans_of R h (hf e m')
  · exact h
  · exact trans_of R h (hr a m')

theorem attempt (hx : Keeps R x) : Keeps R (Run.attempt x) :=
  orElse (bind hx fun _ => pure _) fun _ => pure _

end Keeps

/-! ## Outcomes that do not depend on the memory -/

/-- an outcome as a run has it -/
def outcome : Except ResolveError α → Except Halt α
  | .ok a => .ok a
  | .error e => .error (.failed e)

/-- a run comes to a value or a failure, or it does not end -/
theorem outcome_or_unending (x : Run n α) (m : Memory n) :
    (∃ r m', x m = (outcome r, m')) ∨ ∃ m', x m = (.error .unending, m') := by
  rcases x m with ⟨(e | _) | a, m'⟩
  · exact .inl ⟨.error e, m', rfl⟩
  · exact .inr ⟨m', rfl⟩
  · exact .inl ⟨.ok a, m', rfl⟩

/-- from every memory with `I` the run ends with `r`, in a memory with `I` -/
def Yields (I : Memory n → Prop) (x : Run n α) (r : Except ResolveError α) : Prop :=
  ∀ m, I m → (x m).1 = outcome r ∧ I (x m).2

namespace Yields

variable {I : Memory n → Prop} {x : Run n α} {r : Except ResolveError α}

theorem pure (a : α) : Yields I (Pure.pure a : Run n α) (.ok a) := fun _ hm => ⟨rfl, hm⟩

theorem fail (e : ResolveError) : Yields I (Run.fail e : Run n α) (.error e) := fun _ hm => ⟨rfl, hm⟩

theorem update {change : Memory n → Memory n} (h : ∀ m, I m → I (change m)) : Yields I (Run.update change) (.ok ()) :=
  fun m hm => ⟨rfl, h m hm⟩

theorem ok_bind {a : α} {f : α → Run n β} {o : Except ResolveError β} (hx : Yields I x (.ok a))
    (hf : Yields I (f a) o) : Yields I (x >>= f) o := by
  intro m hm
  obtain ⟨h1, h2⟩ := hx m hm
  rw [bind_ok (Prod.ext h1 rfl)]
  exact hf _ h2

theorem error_bind {e : ResolveError} {f : α → Run n β} (hx : Yields I x (.error e)) :
    Yields I (x >>= f) (.error e) := by
  intro m hm
  obtain ⟨h1, h2⟩ := hx m hm
  rw [bind_error (Prod.ext h1 rfl)]
  exact ⟨rfl, h2⟩

theorem bind {f : α → Run n β} {g : α → Except ResolveError β} (hx : Yields I x r)
    (hf : ∀ a, r = .ok a → Yields I (f a) (g a)) : Yields I (x >>= f) (r >>= g) := by
  cases r with
  | error e => exact error_bind hx
  | ok a => exact ok_bind hx (hf a rfl)

theorem orElse {handle : ResolveError → Run n α} {k : ResolveError → Except ResolveError α} (hx : Yields I x r)
    (hh : ∀ e, r = .error e → Yields I (handle e) (k e)) : Yields I (Run.orElse x handle) (tryCatch r k) := by
  intro m hm
  obtain ⟨h1, h2⟩ := hx m hm
  rcases hxm : x m with ⟨o, m'⟩
  rw [hxm] at h1 h2
  simp only at h1 h2
  subst h1
  cases r with
  | error e => simp only [Run.orElse, hxm, outcome]; exact hh e rfl m' h2
  | ok a => simp only [Run.orElse, hxm, outcome]; exact ⟨rfl, h2⟩

theorem noting {returned : α → Event n} {failed : ResolveError → Event n} (hx : Yields I x r)
    (hr : ∀ e m, I m → I (m.record e)) : Yields I (Run.noting x returned failed) r := by
  intro m hm
  obtain ⟨h1, h2⟩ := hx m hm
  rcases hxm : x m with ⟨o, m'⟩
  rw [hxm] at h1 h2
  simp only at h1 h2
  subst h1
  cases r with
  | error e => simp only [Run.noting, hxm, outcome]; exact ⟨trivial, hr _ m' h2⟩
  | ok a => simp only [Run.noting, hxm, outcome]; exact ⟨trivial, hr _ m' h2⟩

theorem attempt (hx : Yields I x r) : Yields I (Run.attempt x) (.ok r) := by
  have h := orElse (bind hx fun a _ => pure (Except.ok a)) fun e _ => pure (Except.error e)
  cases r <;> exact h

end Yields

end Run

/-! ## Sources -/

/-- reads of the given names, or of all options, ask for the option -/
def Contract.Asked (c : Contract) (names : List String) (all : Bool) (s : c.Slot) : Prop :=
  all = true ∨ ∃ name ∈ names, c.slot? name = some s

namespace Contract.Asked

variable {c : Contract} {name : String} {names names' : List String} {all all' : Bool} {s : c.Slot}

theorem named (hn : name ∈ names) (hs : c.slot? name = some s) : c.Asked names all s := .inr ⟨name, hn, hs⟩

theorem cons (h : c.Asked names all s) : c.Asked (name :: names) all s :=
  h.imp_right fun ⟨name, hn, hs⟩ => ⟨name, List.mem_cons_of_mem _ hn, hs⟩

theorem append_left (h : c.Asked names all s) : c.Asked (names ++ names') (all || all') s :=
  h.imp (fun h => Bool.or_eq_true_iff.2 (.inl h)) fun ⟨name, hn, hs⟩ => ⟨name, List.mem_append_left _ hn, hs⟩

theorem append_right (h : c.Asked names' all' s) : c.Asked (names ++ names') (all || all') s :=
  h.imp (fun h => Bool.or_eq_true_iff.2 (.inr h)) fun ⟨name, hn, hs⟩ => ⟨name, List.mem_append_right _ hn, hs⟩

end Contract.Asked

section Sources

variable {c : Contract} {a : Access c} {R : Memory c.size → Memory c.size → Prop} [IsPreorder (Memory c.size) R]

theorem Access.readName_keeps {thread : Nat} {name : String}
    (hr : ∀ s, c.slot? name = some s → Run.Keeps R (a.read thread s)) : Run.Keeps R (a.readName thread name) := by
  unfold readName
  cases h : c.slot? name with
  | none => exact .fail _
  | some s => exact hr s h

theorem Access.get_keeps {thread : Nat} {name : String}
    (hr : ∀ s, c.slot? name = some s → Run.Keeps R (a.read thread s)) (t : ValueType) :
    Run.Keeps R (a.get thread t name) := by
  refine .bind (readName_keeps hr) fun v => ?_
  cases v.as? t with
  | none => exact .fail _
  | some x => exact .pure x

theorem Access.readAll_keeps {thread : Nat} (hr : ∀ s, Run.Keeps R (a.read thread s)) :
    Run.Keeps R (a.readAll thread) := by
  unfold readAll
  induction c.slots with
  | nil => exact .pure ()
  | cons s rest ih => exact .bind (.bind (hr s) fun _ => .pure _) fun _ => ih

/-- **A source does what its reads do.** A relation that every read that it may make and every first evaluation of a
node keeps is kept by the whole expression. -/
theorem Expr.eval_keeps {t : ValueType} (e : Expr t)
    (hr : ∀ s, c.Asked e.reads e.surveys s → ∀ thread, Run.Keeps R (a.read thread s))
    (hf : ∀ place, Run.Keeps R (a.first place)) (thread : Nat) (place : Place) :
    Run.Keeps R (e.eval a thread place) := by
  induction e generalizing thread place with
  | const v => exact .pure v
  | get name => exact Access.get_keeps (fun s hs => hr s (.named List.mem_cons_self hs) thread) _
  | display name =>
    exact .bind (Access.readName_keeps fun s hs => hr s (.named List.mem_cons_self hs) thread) fun _ => .pure _
  | tier name => exact .bind .memory fun _ => .pure _
  | fail e => exact .fail e
  | once first later ih₁ ih₂ =>
    refine .bind (hf place) fun b => ?_
    cases b with
    | true => exact ih₁ (fun s hs => hr s hs.append_left) thread _
    | false => exact ih₂ (fun s hs => hr s hs.append_right) thread _
  | orElse e fallback ih₁ ih₂ =>
    exact .orElse (ih₁ (fun s hs => hr s hs.append_left) thread _) fun _ =>
      ih₂ (fun s hs => hr s hs.append_right) thread _
  | add how x y ih₁ ih₂ =>
    exact .bind (ih₁ (fun s hs => hr s hs.append_left) thread _) fun _ =>
      .bind (ih₂ (fun s hs => hr s hs.append_right) thread _) fun _ => .pure _
  | cond name yes no ih₁ ih₂ =>
    refine .bind (Access.get_keeps (fun s hs => hr s (.named List.mem_cons_self hs) thread) _) fun b => ?_
    cases b with
    | true => exact ih₁ (fun s hs => hr s hs.append_left.cons) thread _
    | false => exact ih₂ (fun s hs => hr s hs.append_right.cons) thread _
  | errorText e ih => exact .orElse (.bind (ih hr thread _) fun _ => .pure _) fun _ => .pure _
  | resolveAll e ih =>
    exact .bind (Access.readAll_keeps fun s => hr s (.inl rfl) thread) fun _ => ih (fun s _ => hr s (.inl rfl)) thread _
  | spawn e ih => exact ih hr (thread + 1) _
  | apply f e ih =>
    refine .bind (ih hr thread _) fun v => ?_
    cases f v with
    | ok w => exact .pure w
    | error e => exact .fail e

/-- what a source leaves behind besides what its reads do: notes in the journal, nodes that were evaluated, and that
    the lookup was asked -/
structure Bookkeeping {n : Nat} (R : Memory n → Memory n → Prop) : Prop where
  ran : ∀ m s tier, R m (m.record (.ran s tier))
  returned : ∀ m s tier opinion, R m (m.record (.returned s tier opinion))
  failed : ∀ m s tier e, R m (m.record (.failed s tier e))
  spent : ∀ m nodes, R m { m with spent := nodes }
  shared : ∀ m nodes, R m { m with shared := nodes }
  asked : ∀ m slots, R m { m with asked := slots }

/-- the part of it that the sources of one option leave -/
structure Notes {n : Nat} (R : Memory n → Memory n → Prop) (s : Fin n) : Prop where
  ran : ∀ m tier, R m (m.record (.ran s tier))
  returned : ∀ m tier opinion, R m (m.record (.returned s tier opinion))
  failed : ∀ m tier e, R m (m.record (.failed s tier e))
  spent : ∀ m nodes, R m { m with spent := nodes }
  shared : ∀ m nodes, R m { m with shared := nodes }
  asked : ∀ m slots, R m { m with asked := slots }

theorem Bookkeeping.notes {n : Nat} {R : Memory n → Memory n → Prop} (hb : Bookkeeping R) (s : Fin n) : Notes R s :=
  ⟨fun m => hb.ran m s, fun m => hb.returned m s, fun m => hb.failed m s, hb.spent, hb.shared, hb.asked⟩

end Sources

/-- the memory after the lookup was asked for an option and came back in the given way -/
def Memory.consulted {n : Nat} (m : Memory n) (s : Fin n) (e : Event n) : Memory n :=
  { m with asked := s :: m.asked, journal := e :: .ran s .lookup :: m.journal }

namespace Instance

variable {i : Instance} {R : Memory i.size → Memory i.size → Prop} [IsPreorder (Memory i.size) R]

theorem firstOwn_keeps (h : ∀ m nodes, R m { m with spent := nodes }) (s : i.contract.Slot) (place : Place) :
    Run.Keeps R (i.firstOwn s place) := by
  refine .bind .memory fun m => ?_
  split
  · exact .pure _
  · exact .bind (.update fun m => h m _) fun _ => .pure _

theorem firstShared_keeps (h : ∀ m nodes, R m { m with shared := nodes }) (s : i.contract.Slot) (place : Place) :
    Run.Keeps R (i.firstShared s place) := by
  refine .bind .memory fun m => ?_
  split
  · exact .pure _
  · exact .bind (.update fun m => h m _) fun _ => .pure _

/-- the lookup is asked, with the number of questions before, and that it was is remembered -/
theorem consult_apply (l : Lookup) (s : i.contract.Slot) (m : Memory i.size) :
    i.consult l s m =
      (Run.outcome (l.ask (i.contract.accessor s).info (m.asked.count s)), { m with asked := s :: m.asked }) := by
  simp only [consult, Run.memory_bind_apply, Run.update_bind_apply]
  generalize l.ask (i.contract.accessor s).info (m.asked.count s) = answer
  cases answer <;> rfl

/-- Asking the lookup: it answers or fails, nothing else is run, and it counts as asked once more. -/
theorem ask_apply (l : Lookup) (s : i.contract.Slot) (m : Memory i.size) :
    i.runSource s .lookup (i.consult l s) m =
      match l.ask (i.contract.accessor s).info (m.asked.count s) with
      | .ok o => (.ok o, m.consulted s (.returned s .lookup o))
      | .error e => (.error (.failed e), m.consulted s (.failed s .lookup e)) := by
  have hcount : (m.record (.ran s .lookup)).asked = m.asked := rfl
  show Run.noting (i.consult l s) _ _ (m.record (.ran s .lookup)) = _
  simp only [Run.noting, consult_apply, hcount]
  cases l.ask (i.contract.accessor s).info (m.asked.count s) <;> rfl

theorem consult_keeps {s : i.contract.Slot} (hn : Notes R s) (l : Lookup) : Run.Keeps R (i.consult l s) := by
  refine .bind .memory fun m => .bind (.update fun m => hn.asked m _) fun _ => ?_
  split
  · exact .pure _
  · exact .fail _

theorem runSource_keeps {s : i.contract.Slot} (hn : Notes R s) (tier : Tier) {opinion : Run i.size (Option Value)}
    (ho : Run.Keeps R opinion) : Run.Keeps R (i.runSource s tier opinion) :=
  .bind (.update fun m => hn.ran m tier) fun _ =>
    .noting ho (fun o m => hn.returned m tier o) fun e m => hn.failed m tier e

theorem evalSource_keeps {a : Access i.contract} {source : Source}
    (hr : ∀ s, i.contract.Asked source.expr.reads source.expr.surveys s → ∀ thread, Run.Keeps R (a.read thread s))
    (hf : ∀ place, Run.Keeps R (a.first place)) (thread : Nat) : Run.Keeps R (i.evalSource a thread source) :=
  .bind (source.expr.eval_keeps hr hf thread []) fun _ => .pure _

/-- the expression that stands behind an option at a tier -/
def sourceAt (i : Instance) (s : i.contract.Slot) : Tier → Option Source
  | .override => i.override? s
  | .lookup => none
  | .default => (i.contract.accessor s).source?

variable {read : Nat → i.contract.Slot → Run i.size Value}

theorem opinion_keeps {s : i.contract.Slot} (hn : Notes R s) {tier : Tier}
    (hr : ∀ src, i.sourceAt s tier = some src → ∀ x, i.contract.Asked src.expr.reads src.expr.surveys x →
      ∀ thread, Run.Keeps R (read thread x))
    (thread : Nat) : Run.Keeps R (i.opinion read thread s tier) := by
  unfold opinion
  cases tier with
  | override =>
    cases h : i.override? s with
    | none => exact .pure _
    | some source =>
      exact runSource_keeps hn _ (evalSource_keeps (hr source h) (firstOwn_keeps hn.spent s) thread)
  | lookup =>
    cases i.lookup with
    | none => exact .pure _
    | some l => exact runSource_keeps hn _ (consult_keeps hn l)
  | default =>
    cases h : (i.contract.accessor s).source? with
    | none => exact .pure _
    | some source =>
      exact runSource_keeps hn _ (evalSource_keeps (hr source h) (firstShared_keeps hn.shared s) thread)

/-- **The tiers do what the reads of their sources do**, apart from their bookkeeping. -/
theorem compute_keeps {s : i.contract.Slot} (hn : Notes R s)
    (hr : ∀ tier src, i.sourceAt s tier = some src → ∀ x, i.contract.Asked src.expr.reads src.expr.surveys x →
      ∀ thread, Run.Keeps R (read thread x))
    (thread : Nat) : Run.Keeps R (i.compute read thread s) := by
  unfold compute
  induction Tier.all with
  | nil => exact .fail _
  | cons tier rest ih =>
    refine .bind (opinion_keeps hn (hr tier) thread) fun o => ?_
    cases o with
    | none => exact ih
    | some v => exact .pure _

/-! ## Sources of the instance -/

theorem mem_sources_of_override {s : i.contract.Slot} {src : Source} (h : i.override? s = some src) :
    src ∈ i.sources := by
  refine List.mem_append_left _ (List.mem_filterMap.2 ⟨some src, ?_, rfl⟩)
  rw [← h]
  exact Vector.mem_toList_iff.2 (Vector.getElem_mem _)

theorem mem_sources_of_default {s : i.contract.Slot} {src : Source} (h : (i.contract.accessor s).source? = some src) :
    src ∈ i.sources :=
  List.mem_append_right _ (List.mem_filterMap.2 ⟨_, List.get_mem _ _, h⟩)

/-- reads from outside start deeper than there are options -/
theorem size_lt_depth (i : Instance) : i.size < i.depth := by
  unfold depth
  exact Nat.lt_succ_of_le (Nat.le_mul_of_pos_right _ (by omega))

/-! ## Resolutions, case by case -/

theorem resolve_cached {m : Memory i.size} {s : i.contract.Slot} {r : Resolved} (h : m.resolved? s = some r)
    (depth thread : Nat) :
    i.resolve (depth + 1) thread s m = (.ok r.value, m.record (.answered thread s r.value)) := by
  simp only [resolve, Run.memory_bind_apply, h]
  rfl

theorem resolve_reentered {m : Memory i.size} {s : i.contract.Slot} {thread : Nat} (h : m.resolved? s = none)
    (hc : m.chain thread s ≠ []) (depth : Nat) :
    i.resolve (depth + 1) thread s m =
      (.error (.failed (.cycle ((m.chain thread s ++ [s]).map fun x => (i.contract.accessor x).name))),
        m.record (.reentered thread s)) := by
  simp only [resolve, Run.memory_bind_apply, h, if_pos hc]
  rfl

theorem resolve_entered {m : Memory i.size} {s : i.contract.Slot} {thread : Nat} (h : m.resolved? s = none)
    (hc : m.chain thread s = []) (depth : Nat) :
    i.resolve (depth + 1) thread s m =
      ((i.settle (i.resolve depth) thread s (m.enter thread s)).1,
        (i.settle (i.resolve depth) thread s (m.enter thread s)).2.leave thread s) := by
  simp only [resolve, Run.memory_bind_apply, h, if_neg (not_not_intro hc)]
  rfl

theorem answer_apply (thread : Nat) (s : i.contract.Slot) (v : Value) (m : Memory i.size) :
    i.answer thread s v m = (.ok v, m.record (.answered thread s v)) := rfl

/-- what is computed is stored, if it has the option's type, and answered -/
theorem settle_keeps {thread : Nat} {s : i.contract.Slot} (hcompute : Run.Keeps R (i.compute read thread s))
    (hstored : ∀ m r, (i.contract.accessor s).info.accepts r.value = true → R m (m.store s r))
    (hanswered : ∀ m v, R m (m.record (.answered thread s v))) : Run.Keeps R (i.settle read thread s) := by
  have hkeep (r : Resolved) : Run.Keeps R (i.keep s r) := by
    unfold keep
    split
    · rename_i ha
      exact .bind (.update fun m => hstored m r ha) fun _ => .bind .memory fun _ => .pure _
    · exact .fail _
  exact .bind hcompute fun r => .bind (hkeep r) fun v => .bind (.update fun m => hanswered m v) fun _ => .pure v

/-- **A resolution does what its steps do**: of some options, if what the tiers of each of them do is kept where the
    reads of these options are, then what the other steps at these options all keep, a resolution of one of them keeps.
    An attempt counts as one step, from before the option is entered to after it is left. -/
theorem resolve_keeps_within {A : i.contract.Slot → Prop}
    (hcompute : ∀ read, (∀ thread s, A s → Run.Keeps R (read thread s)) →
      ∀ thread s, A s → Run.Keeps R (i.compute read thread s))
    (hstored : ∀ m s r, A s → (i.contract.accessor s).info.accepts r.value = true → R m (m.store s r))
    (hanswered : ∀ m thread s v, A s → R m (m.record (.answered thread s v)))
    (hreentered : ∀ m thread s, A s → m.chain thread s ≠ [] → R m (m.record (.reentered thread s)))
    (hattempt : ∀ m m' thread s, A s → m.chain thread s = [] → R (m.enter thread s) m' → R m (m'.leave thread s))
    (depth thread : Nat) (s : i.contract.Slot) (hA : A s) : Run.Keeps R (i.resolve depth thread s) := by
  induction depth generalizing thread s with
  | zero => exact .throw _
  | succ depth ih =>
    have hsettle : Run.Keeps R (i.settle (i.resolve depth) thread s) :=
      settle_keeps (hcompute _ ih thread s hA) (fun m r => hstored m s r hA) fun m v => hanswered m thread s v hA
    intro m
    cases hs : m.resolved? s with
    | some r =>
      rw [resolve_cached hs]
      exact hanswered m thread s r.value hA
    | none =>
      by_cases hc : m.chain thread s = []
      · rw [resolve_entered hs hc]
        exact hattempt m _ thread s hA hc (hsettle _)
      · rw [resolve_reentered hs hc]
        exact hreentered m thread s hA hc

/-- in particular, what all the steps at all options keep -/
theorem resolve_keeps (hb : Bookkeeping R)
    (hstored : ∀ m s r, (i.contract.accessor s).info.accepts r.value = true → R m (m.store s r))
    (hanswered : ∀ m thread s v, R m (m.record (.answered thread s v)))
    (hreentered : ∀ m thread s, m.chain thread s ≠ [] → R m (m.record (.reentered thread s)))
    (hattempt : ∀ m m' thread s, m.chain thread s = [] → R (m.enter thread s) m' → R m (m'.leave thread s))
    (depth thread : Nat) (s : i.contract.Slot) : Run.Keeps R (i.resolve depth thread s) :=
  resolve_keeps_within (A := fun _ => True)
    (fun _ hr thread s _ => compute_keeps (hb.notes s) (fun _ _ _ x _ thread => hr thread x trivial) thread)
    (fun m s r _ => hstored m s r) (fun m thread s v _ => hanswered m thread s v)
    (fun m thread s _ => hreentered m thread s) (fun m m' thread s _ => hattempt m m' thread s) depth thread s trivial

end Instance

end TieredOptions
