/-
Resolving all options. The options are read in the order of their declaration, each from where the reads before it have
left the memory, up to the first that fails (`ReadThrough`, `readSlots_cases`). A read that succeeds leaves its option
cached, and one that fails does not, so what is cached afterwards says how far it came. Sources run only within the
attempts at these options, and only where such an option leads (`Led`).

Once all options are cached, the cache is all that a session still needs (`Memory.Rests`): every request is answered
from it, and no source is run any more (`answer_rests`).
-/
import TieredOptions.Proofs.Laziness
import TieredOptions.Proofs.Retries

namespace TieredOptions

/-- the cache is as given, and no source has run -/
structure Memory.Rests {n : Nat} (cache : Cache n) (m : Memory n) : Prop where
  cached : m.resolved? = cache
  quiet : m.trace = []

theorem Memory.Rests.record {n : Nat} {cache : Cache n} {m : Memory n} (h : m.Rests cache) (thread : Nat) (s : Fin n)
    (v : Value) : (m.record (.answered thread s v)).Rests cache where
  cached := h.cached
  quiet := by
    have hquiet := h.quiet
    simp only [trace, Memory.record, List.reverse_cons, List.filterMap_append] at hquiet ⊢
    rw [hquiet]
    rfl

/-- what a read at a type gets of the value that an option is cached with -/
def Resolved.readAs (r : Resolved) (t : ValueType) (name : String) : Except ResolveError Value :=
  if r.value.type = t then .ok r.value else .error (.typeMismatch name t)

theorem Resolved.readAs_eq (r : Resolved) (t : ValueType) (name : String) :
    r.readAs t name = (do return ⟨t, ← Expr.readAt (fun _ => .ok r.value) t name⟩) := by
  obtain ⟨⟨t', x⟩, tier⟩ := r
  by_cases ht : t' = t
  · subst ht
    have hat : Expr.readAt (fun _ => .ok ⟨t', x⟩) t' name = .ok x := Expr.readAt_ok.2 ⟨_, rfl, Value.as?_self t' x⟩
    rw [hat]
    exact if_pos rfl
  · have hnone : (Value.mk t' x).as? t = none := dif_neg ht
    have hat : Expr.readAt (fun _ => .ok ⟨t', x⟩) t name = .error (.typeMismatch name t) := by
      simp only [Expr.readAt, bind, Except.bind, hnone]
      rfl
    rw [hat]
    exact if_neg ht

/-- Is a request answered from what the options are cached with? A read of an option gets its value, and nothing fails
    but a read at a type that is not the value's. -/
def Request.Recalled (i : Instance) (cache : Cache i.size) : Request → Answer → Prop
  | get t name, a => ∀ s, i.contract.slot? name = some s → ∃ r, cache s = some r ∧ a = .value (r.readAs t name)
  | getTwice t name, a =>
    ∀ s, i.contract.slot? name = some s → ∃ r, cache s = some r ∧ a = .values (r.readAs t name) (r.readAs t name)
  | getValue name, a => ∀ s, i.contract.slot? name = some s → ∃ r, cache s = some r ∧ a = .value (.ok r.value)
  | resolveAll, a => a = .done (.ok ())
  | tier name, a => ∀ s, i.contract.slot? name = some s → ∃ r, cache s = some r ∧ a = .tier (some r.tier)
  | overridden name, a => a = .flag (i.isOverridden name)
  | hasLookup, a => a = .flag i.lookup.isSome
  | explain, a => ∃ es, a = .explained es ∧ ∀ e ∈ es, e.tier.isSome ∧ e.value.isSome
  | report _ _, a => ∃ r, a = .report r ∧ r.isComplete = true

namespace Instance

open Run Memory

variable {i : Instance}

/-! ## One option after the other -/

/-- Some options are read one after the other, all with success, and the memory goes from the first to the second. -/
inductive ReadThrough (i : Instance) (thread : Nat) : Memory i.size → List i.contract.Slot → Memory i.size → Prop where
  | nil (m : Memory i.size) : ReadThrough i thread m [] m
  | cons {m m₁ m' : Memory i.size} {s : i.contract.Slot} {rest : List i.contract.Slot} {v : Value}
    (read : i.access.read thread s m = (.ok v, m₁)) (through : ReadThrough i thread m₁ rest m') :
    ReadThrough i thread m (s :: rest) m'

variable {thread : Nat} {m m' : Memory i.size} {slots : List i.contract.Slot}

theorem ReadThrough.keeps {R : Memory i.size → Memory i.size → Prop} [IsPreorder (Memory i.size) R]
    (h : i.ReadThrough thread m slots m') (hr : ∀ s ∈ slots, Run.Keeps R (i.access.read thread s)) : R m m' := by
  induction h with
  | nil m => exact refl_of R m
  | @cons m m₁ m' s rest v hread _ ih =>
    obtain ⟨hs, hrest⟩ := List.forall_mem_cons.1 hr
    have hm := hs m
    rw [hread] at hm
    exact trans_of R hm (ih hrest)

/-- and one read more, however it ends -/
theorem ReadThrough.keeps_next {R : Memory i.size → Memory i.size → Prop} [IsPreorder (Memory i.size) R]
    (h : i.ReadThrough thread m slots m') {s : i.contract.Slot}
    (hr : ∀ x ∈ slots ++ [s], Run.Keeps R (i.access.read thread x)) : R m (i.access.read thread s m').2 := by
  obtain ⟨hslots, hs⟩ := List.forall_mem_append.1 hr
  exact trans_of R (h.keeps hslots) (hs s List.mem_cons_self m')

/-- the options that were read have their values -/
theorem ReadThrough.filled (h : i.ReadThrough thread m slots m') : ∀ s ∈ slots, ∃ r, m'.resolved? s = some r := by
  induction h with
  | nil m => exact List.forall_mem_nil _
  | @cons m m₁ m' s rest v hread through ih =>
    refine List.forall_mem_cons.2 ⟨?_, ih⟩
    obtain ⟨-, tier, hcached⟩ := resolve_answered (i := i) (congrArg Prod.fst hread)
    rw [show i.resolve i.depth thread s m = _ from hread] at hcached
    have hgrows : Memory.Grows m₁ m' := through.keeps fun s _ m => (resolve_follows _ thread s m).grows
    exact ⟨_, hgrows s _ hcached⟩

/-- reading some options, as it is done for all of them -/
abbrev readSlots (i : Instance) (thread : Nat) (slots : List i.contract.Slot) : Run i.size Unit :=
  slots.forM fun s => discard (i.access.read thread s)

theorem readSlots_cons_ok {s : i.contract.Slot} {v : Value} (h : i.access.read thread s m = (.ok v, m'))
    (rest : List i.contract.Slot) : i.readSlots thread (s :: rest) m = i.readSlots thread rest m' := by
  have hd : (discard (i.access.read thread s) : Run i.size Unit) m = (.ok (), m') := Run.bind_ok h _
  exact Run.bind_ok hd _

theorem readSlots_cons_error {s : i.contract.Slot} {e : Halt} (h : i.access.read thread s m = (.error e, m'))
    (rest : List i.contract.Slot) : i.readSlots thread (s :: rest) m = (.error e, m') := by
  have hd : (discard (i.access.read thread s) : Run i.size Unit) m = (.error e, m') := Run.bind_error h _
  exact Run.bind_error hd _

theorem ReadThrough.readSlots_eq (h : i.ReadThrough thread m slots m') : i.readSlots thread slots m = (.ok (), m') := by
  induction h with
  | nil m => rfl
  | cons hread _ ih => rw [readSlots_cons_ok hread, ih]

/-- **All are read, or those before the first that fails**, and its failure is that of the whole. -/
theorem readSlots_cases (thread : Nat) (slots : List i.contract.Slot) (m : Memory i.size) :
    (∃ m', i.ReadThrough thread m slots m' ∧ i.readSlots thread slots m = (.ok (), m')) ∨
    ∃ before s after m₁ e m', slots = before ++ s :: after ∧ i.ReadThrough thread m before m₁ ∧
      i.access.read thread s m₁ = (.error e, m') ∧ i.readSlots thread slots m = (.error e, m') := by
  induction slots generalizing m with
  | nil => exact .inl ⟨m, .nil m, rfl⟩
  | cons s rest ih =>
    rcases hread : i.access.read thread s m with ⟨e | v, m₁⟩
    · exact .inr ⟨[], s, rest, m, e, m₁, rfl, .nil m, hread, readSlots_cons_error hread rest⟩
    · rw [readSlots_cons_ok hread]
      rcases ih m₁ with ⟨m', hall, heq⟩ | ⟨before, x, after, m₂, e, m', rfl, hbefore, hx, heq⟩
      · exact .inl ⟨m', .cons hread hall, heq⟩
      · exact .inr ⟨s :: before, x, after, m₂, e, m', rfl, .cons hread hbefore, hx, heq⟩

/-! ## Where sources run -/

/-- A source runs only within an attempt at one of the given options, on the thread and next to what was under way
    before, and its own option is one that this option leads to. -/
def led (i : Instance) (thread : Nat) (A : i.contract.Slot → Prop) (before : List (Nat × i.contract.Slot)) :
    Law i.size where
  Allows active _
    | .ran x _ => ∃ y, A y ∧ before ++ [(thread, y)] <+: active ∧ i.Leads y x
    | _ => True
  extend _ _ _ e h := by cases e <;> exact h

/-- what is under way is the same again, and in between sources ran only within attempts at the given options -/
def Led (i : Instance) (thread : Nat) (A : i.contract.Slot → Prop) (m m' : Memory i.size) : Prop :=
  Returns (i.led thread A m.active) m m'

instance (thread : Nat) (A : i.contract.Slot → Prop) : IsPreorder (Memory i.size) (i.Led thread A) where
  refl m := refl_of (Returns _) m
  trans _ _ _ h h' := by
    unfold Led at h'
    rw [h.1] at h'
    exact trans_of (Returns _) h h'

theorem resolve_led {A : i.contract.Slot → Prop} {s : i.contract.Slot} (hs : A s) (depth thread : Nat) :
    Run.Keeps (i.Led thread A) (i.resolve depth thread s) := by
  intro m
  cases depth with
  | zero => exact refl_of (i.Led thread A) m
  | succ depth =>
    cases hr : m.resolved? s with
    | some r =>
      rw [resolve_cached hr]
      exact .note rfl rfl rfl trivial
    | none =>
      by_cases hc : m.chain thread s = []
      · rw [resolve_entered hr hc]
        -- within the attempt the option stays on top of what was under way, and all that happens it leads to
        have hbase : m.active ++ [(thread, s)] <+: (m.enter thread s).active := List.prefix_refl _
        obtain ⟨ha, new, hj, hu, hl⟩ := settle_stays _ depth thread s (m.enter thread s) hbase
        obtain ⟨⟨new', hj', hslots⟩, -⟩ := settle_lazy depth thread s (m.enter thread s)
        have hnew : new = new' := List.append_cancel_right (hj.symm.trans hj')
        subst hnew
        refine Returns.attempt ⟨ha, new, hj, hu, hl.imp fun active recent e he hb => ?_⟩ trivial fun _ => trivial
        cases e with
        | ran x tier => exact ⟨s, hs, hb, hslots _ he⟩
        | _ => trivial
      · rw [resolve_reentered hr hc]
        exact .note rfl rfl rfl trivial

/-! ## With all options cached -/

section Cached

variable {cache : Cache i.size} {s : i.contract.Slot} {r : Resolved} {name : String}

theorem access_rests (hr : cache s = some r) (thread : Nat) :
    Run.Yields (Rests cache) (i.access.read thread s) (.ok r.value) := by
  intro m hm
  have hcached : m.resolved? s = some r := by rw [hm.cached, hr]
  rw [show i.access.read thread s m = _ from resolve_cached hcached _ thread]
  exact ⟨rfl, hm.record thread s r.value⟩

theorem recalled_eq (hs : i.contract.slot? name = some s) (hr : cache s = some r) :
    i.contract.recalled cache name = .ok r.value := Contract.recalled_ok.2 ⟨s, r, hs, hr, rfl⟩

theorem getValue_rests (hfull : ∀ s, ∃ r, cache s = some r) (thread : Nat) (name : String) :
    Run.Yields (Rests cache) (i.getValue thread name) (i.contract.recalled cache name) := by
  cases hs : i.contract.slot? name with
  | none =>
    simp only [getValue, Access.readName, Contract.recalled, hs]
    exact .fail _
  | some s =>
    obtain ⟨r, hr⟩ := hfull s
    rw [getValue_eq hs, recalled_eq hs hr]
    exact access_rests hr thread

theorem tryGet_rests (hfull : ∀ s, ∃ r, cache s = some r) (thread : Nat) (t : ValueType) (name : String) :
    Run.Yields (Rests cache) (i.tryGet thread t name)
      (.ok (do return ⟨t, ← Expr.readAt (i.contract.recalled cache) t name⟩)) :=
  .attempt (.bind (Access.get_yields (getValue_rests hfull thread name) t) fun _ _ => .pure _)

theorem readAt_recalled (hs : i.contract.slot? name = some s) (hr : cache s = some r) (t : ValueType) :
    (do return ⟨t, ← Expr.readAt (i.contract.recalled cache) t name⟩) = r.readAs t name := by
  rw [r.readAs_eq, Expr.readAt, recalled_eq hs hr]
  rfl

theorem readSlots_rests {slots : List i.contract.Slot} (hfull : ∀ s ∈ slots, ∃ r, cache s = some r) (thread : Nat) :
    Run.Yields (Rests cache) (i.readSlots thread slots) (.ok ()) := by
  induction slots with
  | nil => exact .pure ()
  | cons s rest ih =>
    obtain ⟨⟨r, hr⟩, hrest⟩ := List.forall_mem_cons.1 hfull
    exact .ok_bind (.ok_bind (access_rests hr thread) (.pure _)) (ih hrest)

theorem tierOf_rests {m : Memory i.size} (hm : m.Rests cache) (hs : i.contract.slot? name = some s)
    (hr : cache s = some r) : i.tierOf m name = some r.tier := by
  simp only [tierOf, hs, Option.bind_some, tier?, hm.cached, hr, Option.map_some]

theorem reportEntry_rests (hfull : ∀ s, ∃ r, cache s = some r) {info : AccessorInfo}
    (hname : info.name ∈ i.contract.names) (thread : Nat) (config : Option Config.Layered) :
    ∃ r, r.entry.error = none ∧ Run.Yields (Rests cache) (i.reportEntry thread config info) (.ok r) := by
  obtain ⟨s, hs⟩ := Option.ne_none_iff_exists'.1 (mt Contract.slot?_eq_none.1 (not_not_intro hname))
  obtain ⟨r, hr⟩ := hfull s
  have hvalue := getValue_rests hfull thread info.name
  rw [recalled_eq hs hr] at hvalue
  refine ⟨⟨⟨info.name, info.type.name, some r.tier, originIn config (some r.tier) info.name,
    some (if isSecret info.name then redacted else info.describe r.value), none⟩,
    if isSecret info.name then some info.name else none⟩, rfl, ?_⟩
  refine .ok_bind (.attempt hvalue) fun m hm => ?_
  simp only [Run.memory_bind_apply, tierOf_rests hm hs hr]
  exact ⟨rfl, hm⟩

theorem reportEntries_rests (hfull : ∀ s, ∃ r, cache s = some r) (thread : Nat) (config : Option Config.Layered)
    {infos : List AccessorInfo} (hinfos : ∀ info ∈ infos, info.name ∈ i.contract.names) :
    ∃ rs, (∀ r ∈ rs, r.entry.error = none) ∧
      Run.Yields (Rests cache) (i.reportEntries thread config infos) (.ok rs) := by
  induction infos with
  | nil => exact ⟨[], List.forall_mem_nil _, .pure []⟩
  | cons info rest ih =>
    obtain ⟨hname, hrest⟩ := List.forall_mem_cons.1 hinfos
    obtain ⟨r, hr, hentry⟩ := reportEntry_rests hfull hname thread config
    obtain ⟨rs, hrs, hentries⟩ := ih hrest
    exact ⟨r :: rs, List.forall_mem_cons.2 ⟨hr, hrs⟩, .ok_bind hentry (.ok_bind hentries (.pure _))⟩

theorem explain_rests (hfull : ∀ s, ∃ r, cache s = some r) {m : Memory i.size} (hm : m.Rests cache) :
    ∀ e ∈ i.explain m, e.tier.isSome ∧ e.value.isSome := by
  intro e he
  obtain ⟨s, -, rfl⟩ := List.mem_map.1 he
  obtain ⟨r, hr⟩ := hfull s
  simp [tier?, hm.cached, hr]

/-- **With all options cached, requests are answered from the cache**, and the memory stays at rest. -/
theorem answer_rests (hfull : ∀ s, ∃ r, cache s = some r) (config : Option Config.Layered) (thread : Nat)
    (request : Request) {m : Memory i.size} (hm : m.Rests cache) :
    ∃ a m', request.answer i config thread m = (.ok a, m') ∧ m'.Rests cache ∧ request.Recalled i cache a := by
  have of_yields {a : Answer} (h : Run.Yields (Rests cache) (request.answer i config thread) (.ok a))
      (ha : request.Recalled i cache a) :
      ∃ a m', request.answer i config thread m = (.ok a, m') ∧ m'.Rests cache ∧ request.Recalled i cache a :=
    ⟨a, _, Prod.ext (h m hm).1 rfl, (h m hm).2, ha⟩
  cases request with
  | get t name =>
    refine of_yields (.ok_bind (tryGet_rests hfull thread t name) (.pure _)) fun s hs => ?_
    obtain ⟨r, hr⟩ := hfull s
    exact ⟨r, hr, congrArg _ (readAt_recalled hs hr t)⟩
  | getTwice t name =>
    have hget := tryGet_rests hfull thread t name
    refine of_yields (.ok_bind hget (.ok_bind hget (.pure _))) fun s hs => ?_
    obtain ⟨r, hr⟩ := hfull s
    exact ⟨r, hr, by rw [readAt_recalled hs hr t]⟩
  | getValue name =>
    refine of_yields (.ok_bind (.attempt (getValue_rests hfull thread name)) (.pure _)) fun s hs => ?_
    obtain ⟨r, hr⟩ := hfull s
    exact ⟨r, hr, congrArg _ (recalled_eq hs hr)⟩
  | resolveAll => exact of_yields (.ok_bind (.attempt (readSlots_rests (fun s _ => hfull s) thread)) (.pure _)) rfl
  | tier name =>
    refine ⟨_, m, rfl, hm, fun s hs => ?_⟩
    obtain ⟨r, hr⟩ := hfull s
    exact ⟨r, hr, congrArg _ (tierOf_rests hm hs hr)⟩
  | overridden _ | hasLookup => exact ⟨_, m, rfl, hm, rfl⟩
  | explain => exact ⟨_, m, rfl, hm, _, rfl, explain_rests hfull hm⟩
  | report withConfig createdAt =>
    have hinfos : ∀ info ∈ i.contract.accessors.map (·.info), info.name ∈ i.contract.names := by
      intro info hinfo
      obtain ⟨a, ha, rfl⟩ := List.mem_map.1 hinfo
      exact List.mem_map_of_mem ha
    obtain ⟨rs, hrs, hentries⟩ := reportEntries_rests hfull thread (if withConfig then config else none) hinfos
    refine of_yields (.ok_bind (.ok_bind hentries (.pure _)) (.pure _)) ⟨_, rfl, List.all_eq_true.2 fun e he => ?_⟩
    obtain ⟨r, hr, rfl⟩ := List.mem_map.1 he
    rw [hrs r hr]
    rfl

end Cached

/-! ## Requests for all options -/

/-- After the turns every option is cached, with a value of its type. From then on this does not change, every request
    is answered from it, and no source runs. -/
structure Completed (i : Instance) (ts : List Turn) : Prop where
  filled : ∀ s, ∃ r, (i.memoryAfter ts).resolved? s = some r ∧ r.value.type = (i.contract.accessor s).type
  later : ∀ ts' t, (i.memoryAfter (ts ++ ts')).resolved? = (i.memoryAfter ts).resolved? ∧
    (i.turn (i.memoryAfter (ts ++ ts')) t).2.trace = [] ∧
    ∃ a, (i.turn (i.memoryAfter (ts ++ ts')) t).1 = .ok a ∧ t.request.Recalled i (i.memoryAfter ts).resolved? a

/-- In the turn some options were read, one after the other, and the next failed with the error. The former are cached
    afterwards, and the latter is not. Whenever a source ran, one of these options was the first of what was under way,
    and led to the option of the source. What none of them leads to is as it was. -/
structure StoppedAt (i : Instance) (ts : List Turn) (t : Turn) (before : List i.contract.Slot) (s : i.contract.Slot)
    (e : ResolveError) : Prop where
  failed : ∃ m, i.ReadThrough t.thread (i.found ts t) before m ∧
    i.access.read t.thread s m = (.error (.failed e), i.memoryAfter (ts ++ [t]))
  filled : ∀ x ∈ before, ∃ r, (i.memoryAfter (ts ++ [t])).resolved? x = some r
  unfilled : (i.memoryAfter (ts ++ [t])).resolved? s = none
  ran : ∀ x tier early, .ran x tier :: early <:+ (i.turn (i.memoryAfter ts) t).2.journal →
    ∃ y ∈ before ++ [s], (underWay [] early).head? = some (t.thread, y) ∧ i.Leads y x
  others : ∀ x, (∀ y ∈ before ++ [s], ¬ i.Leads y x) →
    (i.memoryAfter (ts ++ [t])).resolved? x = (i.memoryAfter ts).resolved? x

variable {ts : List Turn} {t : Turn}

theorem completed_of_filled (hfull : ∀ s, ∃ r, (i.memoryAfter ts).resolved? s = some r) : i.Completed ts where
  filled s := by
    obtain ⟨r, hr⟩ := hfull s
    have htyped : i.WellTyped (i.memoryAfter ts).resolved? := by
      rw [(history_lawful ts).1]
      exact cacheAt_typed (List.suffix_refl _)
    exact ⟨r, hr, htyped s r hr⟩
  later ts' t := by
    have hsame : (i.memoryAfter (ts ++ ts')).resolved? = (i.memoryAfter ts).resolved? := by
      funext s
      obtain ⟨r, hr⟩ := hfull s
      rw [hr, i.memoryAfter_kept ts ts' s r hr]
    have hrests : (i.found (ts ++ ts') t).Rests (i.memoryAfter ts).resolved? := ⟨hsame, rfl⟩
    obtain ⟨a, m', hanswer, hm', ha⟩ := answer_rests hfull t.config t.thread t.request hrests
    have hturn : i.turn (i.memoryAfter (ts ++ ts')) t = (.ok a, m') := hanswer
    rw [hturn]
    exact ⟨hsame, hm'.quiet, a, rfl, ha⟩

theorem stoppedAt_of_read (h : i.Unthreaded) {before : List i.contract.Slot} {s : i.contract.Slot} {e : ResolveError}
    {m : Memory i.size} (hbefore : i.ReadThrough t.thread (i.found ts t) before m)
    (hread : i.access.read t.thread s m = (.error (.failed e), i.memoryAfter (ts ++ [t]))) :
    i.StoppedAt ts t before s e := by
  have hmemory : (i.access.read t.thread s m).2 = i.memoryAfter (ts ++ [t]) := congrArg Prod.snd hread
  have hidle : m.active = [] := by
    have hreturns : Returns (Law.nesting i.size) (i.found ts t) m :=
      hbefore.keeps fun x _ => i.nesting_obeyed.resolve_returns _ t.thread x
    exact hreturns.1.trans (i.memoryAfter_active ts)
  refine ⟨⟨m, hbefore, hread⟩, fun x hx => ?_, resolve_failed h hidle i.size_lt_depth hread, fun x tier early he => ?_,
    fun x hx => ?_⟩
  · obtain ⟨r, hr⟩ := hbefore.filled x hx
    rw [← hmemory]
    exact ⟨r, (resolve_follows _ t.thread s m).grows x r hr⟩
  · have hled : i.Led t.thread (· ∈ before ++ [s]) (i.found ts t) (i.access.read t.thread s m).2 :=
      hbefore.keeps_next fun y hy => resolve_led hy _ t.thread
    rw [hmemory] at hled
    obtain ⟨-, new, hj, -, hl⟩ := hled
    have hj : (i.memoryAfter (ts ++ [t])).journal = new := hj.trans (List.append_nil new)
    rw [← i.memoryAfter_concat, hj] at he
    rw [show (i.found ts t).active = [] from i.memoryAfter_active ts] at hl
    obtain ⟨y, hy, ⟨rest, hrest⟩, hleads⟩ := (hl.suffix he).1
    exact ⟨y, hy, by rw [← hrest]; rfl, hleads⟩
  · let A (x : i.contract.Slot) : Prop := ∃ y ∈ before ++ [s], i.Leads y x
    have hclosed : ∀ x x', A x → i.DependsOn x x' → A x' := by
      rintro x x' ⟨y, hy, hleads⟩ hd
      exact ⟨y, hy, hleads.tail hd⟩
    have hconfined : Confined A (i.found ts t) (i.access.read t.thread s m).2 :=
      hbefore.keeps_next fun y hy => resolve_confined hclosed _ t.thread ⟨y, hy, .refl⟩
    rw [hmemory] at hconfined
    refine hconfined.others x ?_
    rintro ⟨y, hy, hleads⟩
    exact hx y hy hleads

/-- **Resolving all options fills everything, or stops at the first failure.** Of every instance without threads in its
sources, after every sequence of requests, a request for all options is answered:
- with success exactly if, in the order of their declaration, the read of each option succeeds in the memory that the
  reads before it have left. Then every option is cached, with a value of its type, and this is how it stays: from then
  on every request is answered from the cache and no source runs;
- or else with the error of the read of some option, the first that fails. All options before it are cached, it is not,
  sources ran only within the attempts at these options, as something that the option leads to, and what none of these
  options leads to is as it was. -/
theorem resolveAll_completes (i : Instance) (h : i.Unthreaded) (ts : List Turn) (t : Turn)
    (ht : t.request = .resolveAll) :
    ∃ r, (i.turn (i.memoryAfter ts) t).1 = .ok (.done r) ∧
      (r = .ok () ↔ ∃ m, i.ReadThrough t.thread (i.found ts t) i.contract.slots m) ∧
      (r = .ok () → i.Completed (ts ++ [t])) ∧
      ∀ e, r = .error e →
        ∃ before s after, i.contract.slots = before ++ s :: after ∧ i.StoppedAt ts t before s e := by
  have hturn : i.turn (i.memoryAfter ts) t =
      (do return .done (← Run.attempt (i.readSlots t.thread i.contract.slots)) : Run i.size Answer) (i.found ts t) := by
    rw [turn, ht]
    rfl
  rcases readSlots_cases t.thread i.contract.slots (i.found ts t) with
    ⟨m, hall, hslots⟩ | ⟨before, s, after, m, e, m', hsplit, hbefore, hread, hslots⟩
  · rw [Run.bind_ok (Run.attempt_ok hslots)] at hturn
    have hmemory : i.memoryAfter (ts ++ [t]) = m := by
      rw [memoryAfter_concat, hturn]
      rfl
    have hcompleted : i.Completed (ts ++ [t]) := by
      refine completed_of_filled fun s => ?_
      rw [hmemory]
      exact hall.filled s (List.mem_finRange s)
    refine ⟨.ok (), congrArg Prod.fst hturn, ⟨fun _ => ⟨m, hall⟩, fun _ => rfl⟩, fun _ => hcompleted, fun e he => ?_⟩
    cases he
  · cases e with
    | unending =>
      rw [Run.bind_error (Run.attempt_unending hslots)] at hturn
      obtain ⟨a, ha, -⟩ := turn_answers h (i.memoryAfter_active ts) t
      rw [hturn] at ha
      cases ha
    | failed e =>
      rw [Run.bind_ok (Run.attempt_failed hslots)] at hturn
      have hmemory : i.memoryAfter (ts ++ [t]) = m' := by
        rw [memoryAfter_concat, hturn]
        rfl
      rw [← hmemory] at hread
      have hnot : ¬ ∃ m, i.ReadThrough t.thread (i.found ts t) i.contract.slots m := by
        rintro ⟨m, hall⟩
        cases hall.readSlots_eq.symm.trans hslots
      have hne : (.error e : Except ResolveError Unit) ≠ .ok () := fun he => by cases he
      refine ⟨.error e, congrArg Prod.fst hturn, ⟨fun he => absurd he hne, fun hall => absurd hall hnot⟩,
        fun he => absurd he hne, fun e' he => ?_⟩
      cases he
      exact ⟨before, s, after, hsplit, stoppedAt_of_read h hbefore hread⟩

/-- A placard whose margin comes from a printer. -/
def placardContract : Contract := ⟨"Placard", [
  ⟨"width", [], .int .u32, some (.const 60#32)⟩,
  ⟨"margin", [], .int .u32, some (.const 2#32)⟩,
  ⟨"title", [], .string, some (.display "width")⟩]⟩

/-- the printer answers the second time -/
def placard : Instance := ⟨placardContract,
  #v[none, some ⟨.int .u32, .once (.fail (.ofMessage "offline")) (.get "width")⟩, none], none⟩

def allTurn : Turn := ⟨[], none, 0, .resolveAll⟩

/-- The first time all options are asked for, the margin fails, after the width and before the title. The second time
all of them get their values. -/
theorem placard_completes : placard.Unthreaded ∧ allTurn.request = .resolveAll ∧
    (placard.turn (placard.memoryAfter []) allTurn).1 = .ok (.done (.error (.ofMessage "offline"))) ∧
    (∃ before s after, placard.contract.slots = before ++ s :: after ∧
      placard.StoppedAt [] allTurn before s (.ofMessage "offline")) ∧
    (placard.turn (placard.memoryAfter [allTurn]) allTurn).1 = .ok (.done (.ok ())) ∧
    placard.Completed ([allTurn] ++ [allTurn]) := by
  have hthreads : placard.Unthreaded := by
    unfold Unthreaded
    decide
  have hfirst : (placard.turn (placard.memoryAfter []) allTurn).1 = .ok (.done (.error (.ofMessage "offline"))) := by
    rfl
  have hsecond : (placard.turn (placard.memoryAfter [allTurn]) allTurn).1 = .ok (.done (.ok ())) := by
    rfl
  obtain ⟨r, hr, -, -, hstops⟩ := resolveAll_completes placard hthreads [] allTurn rfl
  obtain ⟨r', hr', -, hcompletes, -⟩ := resolveAll_completes placard hthreads [allTurn] allTurn rfl
  cases hfirst.symm.trans hr
  cases hsecond.symm.trans hr'
  exact ⟨hthreads, rfl, hfirst, hstops _ rfl, hsecond, hcompletes rfl⟩

end Instance

end TieredOptions
