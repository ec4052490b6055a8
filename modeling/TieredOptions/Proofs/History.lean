/-
Histories. The journal of a run is its history, newest first, and every earlier moment of the run is an end of that
list: the cache of the moment is what the events up to it make of the cache before (`Cache.after`). A run is lawful if
each of its events is justified by the cache of its moment (`Instance.Justifies`):
- a value is stored for an option that has none, and if it comes from a direct source then it is the value of that
  source with its reads answered from the cache alone;
- a read is answered with the value that the option is cached with.

`resolve_follows` says that every resolution is lawful, from whatever memory it starts, on whatever thread, however deep
it nests and however it ends; the induction is on the depth and carries with it that a read that succeeds leaves its
option cached. `history_lawful` carries this over to any sequence of requests, and `run_served` to every member of a
session of several instances.
-/
import TieredOptions.Proofs.Evaluation
import TieredOptions.Session

namespace TieredOptions

/-! ## Moments -/

/-- the option that an event is about -/
def Event.slot {n : Nat} : Event n → Fin n
  | .entered _ s => s
  | .reentered _ s => s
  | .ran s _ => s
  | .returned s _ _ => s
  | .failed s _ _ => s
  | .stored s _ => s
  | .answered _ s _ => s
  | .left _ s => s

/-- the cache after something happened -/
def Cache.apply {n : Nat} (cache : Cache n) : Event n → Cache n
  | .stored s r => fun x => if x = s then some r else cache x
  | _ => cache

/-- the cache after some events, newest first -/
def Cache.after {n : Nat} (before : Cache n) (events : List (Event n)) : Cache n :=
  events.foldr (fun e cache => cache.apply e) before

@[simp] theorem Cache.after_nil {n : Nat} (before : Cache n) : before.after [] = before := rfl

@[simp] theorem Cache.after_cons {n : Nat} (before : Cache n) (e : Event n) (earlier : List (Event n)) :
    before.after (e :: earlier) = (before.after earlier).apply e := rfl

theorem Cache.apply_of_ne {n : Nat} (cache : Cache n) {e : Event n} {s : Fin n} (he : e.slot ≠ s) :
    cache.apply e s = cache s := by
  cases e with
  | stored x r => exact if_neg fun h => he h.symm
  | _ => rfl

theorem Cache.after_append {n : Nat} (before : Cache n) (late early : List (Event n)) :
    before.after (late ++ early) = (before.after early).after late := by
  simp [Cache.after]

/-- the option that a request reads by its name, if it is a request for one option -/
def Request.read? : Request → Option String
  | .get _ name | .getTwice _ name | .getValue name => some name
  | _ => none

/-- does the request ask only what is known already? -/
def Request.isQuery : Request → Bool
  | .tier _ | .overridden _ | .hasLookup | .explain => true
  | _ => false

namespace Instance

variable {i : Instance}

/-- A value of an override or a default comes from the source of that tier. If the source is direct, the value is the
    one it has when its reads are answered from the cache alone. -/
def Backed (i : Instance) (cache : Cache i.size) (s : i.contract.Slot) (r : Resolved) : Prop :=
  r.tier ≠ .lookup → ∃ src x, i.sourceAt s r.tier = some src ∧ r.value = ⟨src.type, x⟩ ∧
    (src.expr.isDirect = true → src.expr.value (i.contract.recalled cache) = .ok x)

theorem Backed.mono {before after : Cache i.size} (h : before.Kept after) {s : i.contract.Slot} {r : Resolved}
    (hb : i.Backed before s r) : i.Backed after s r := by
  intro ht
  obtain ⟨src, x, hs, hv, hx⟩ := hb ht
  exact ⟨src, x, hs, hv, fun hd => src.expr.value_mono (fun _ _ => Contract.recalled_mono h) hd (hx hd)⟩

/-- what the cache of its moment says of an event -/
def Justifies (i : Instance) (cache : Cache i.size) : Event i.size → Prop
  | .stored s r => cache s = none ∧ i.Backed cache s r
  | .answered _ s v => ∃ tier, cache s = some ⟨v, tier⟩
  | _ => True

/-- every event of a stretch of the journal is justified at its moment -/
def Lawful (i : Instance) (before : Cache i.size) : List (Event i.size) → Prop
  | [] => True
  | e :: earlier => i.Justifies (before.after earlier) e ∧ i.Lawful before earlier

theorem lawful_append {before : Cache i.size} {late early : List (Event i.size)} :
    i.Lawful before (late ++ early) ↔ i.Lawful (before.after early) late ∧ i.Lawful before early := by
  induction late with
  | nil => simp [Lawful]
  | cons e late ih => simp [Lawful, ih, Cache.after_append, and_assoc]

theorem Justifies.kept {cache : Cache i.size} {e : Event i.size} (h : i.Justifies cache e) :
    cache.Kept (cache.apply e) := by
  intro x r hx
  cases e with
  | stored s r' =>
    -- the slot of a stored value was empty, so the one that is filled is another
    have hne : x ≠ s := by rintro rfl; rw [h.1] at hx; cases hx
    simpa [Cache.apply, hne] using hx
  | _ => exact hx

/-- **Written once.** Nothing that is cached at a moment is missing or different at a later one. -/
theorem Lawful.kept {before : Cache i.size} {late early : List (Event i.size)} (h : i.Lawful before late)
    (he : early <:+ late) : (before.after early).Kept (before.after late) := by
  induction late with
  | nil => rw [List.suffix_nil.1 he]; exact Cache.Kept.refl _
  | cons e late ih =>
    rcases List.suffix_cons_iff.1 he with rfl | he
    · exact Cache.Kept.refl _
    · exact (ih h.2 he).trans h.1.kept

theorem Lawful.suffix {before : Cache i.size} {late early : List (Event i.size)} (h : i.Lawful before late)
    (he : early <:+ late) : i.Lawful before early := by
  obtain ⟨rest, rfl⟩ := he
  exact (lawful_append.1 h).2

/-- what is cached at a moment is backed by the cache of that moment -/
theorem Lawful.backed {before : Cache i.size} {events : List (Event i.size)} (h : i.Lawful before events)
    (hb : ∀ s r, before s = some r → i.Backed before s r) {s : i.contract.Slot} {r : Resolved}
    (hr : before.after events s = some r) : i.Backed (before.after events) s r := by
  induction events generalizing s r with
  | nil => exact hb s r hr
  | cons e earlier ih =>
    have hk := h.1.kept
    cases e with
    | stored s' r' =>
      by_cases hs : s = s'
      · subst hs
        have hr' : r' = r := by simpa [Cache.apply] using hr
        exact hr' ▸ h.1.2.mono hk
      · exact (ih h.2 (by simpa [Cache.apply, hs] using hr)).mono hk
    | _ => exact ih h.2 hr

/-- a read is answered with what the option is cached with from then on -/
theorem Lawful.answered {before : Cache i.size} {events : List (Event i.size)} (h : i.Lawful before events)
    {thread : Nat} {s : i.contract.Slot} {v : Value} (ha : Event.answered thread s v ∈ events) :
    ∃ tier, before.after events s = some ⟨v, tier⟩ := by
  obtain ⟨late, early, rfl⟩ := List.append_of_mem ha
  have hs : (Event.answered thread s v :: early) <:+ late ++ Event.answered thread s v :: early :=
    List.suffix_append _ _
  obtain ⟨tier, ht⟩ := (h.suffix hs).1
  exact ⟨tier, h.kept hs s _ ht⟩

/-! ## Lawful runs -/

/-- The second memory comes after the first: what happened in between is in the journal, made the cache what it is, and
    was justified. -/
def Follows (i : Instance) (m m' : Memory i.size) : Prop :=
  ∃ new, m'.journal = new ++ m.journal ∧ m'.resolved? = Cache.after m.resolved? new ∧ i.Lawful m.resolved? new

instance : IsPreorder (Memory i.size) i.Follows where
  refl m := ⟨[], rfl, rfl, trivial⟩
  trans := by
    rintro m m' m'' ⟨new, hj, hc, hl⟩ ⟨new', hj', hc', hl'⟩
    refine ⟨new' ++ new, by rw [hj', hj, List.append_assoc], ?_, ?_⟩
    · rw [hc', hc, Cache.after_append]
    · rw [hc] at hl'
      exact lawful_append.2 ⟨hl', hl⟩

theorem Follows.grows {m m' : Memory i.size} (h : i.Follows m m') : m.Grows m' := by
  obtain ⟨new, -, hc, hl⟩ := h
  unfold Memory.Grows
  rw [hc]
  exact hl.kept (List.nil_suffix)

/-- a change outside the cache and the journal -/
theorem Follows.of_same {m m' : Memory i.size} (hj : m'.journal = m.journal) (hc : m'.cache = m.cache) :
    i.Follows m m' :=
  ⟨[], hj, by funext s; simp only [Memory.resolved?, hc, Cache.after_nil], trivial⟩

/-- a note of something that changes no cache -/
theorem Follows.record {m : Memory i.size} {e : Event i.size} (he : Cache.apply m.resolved? e = m.resolved?)
    (hj : i.Justifies m.resolved? e) : i.Follows m (m.record e) :=
  ⟨[e], rfl, he.symm, hj, trivial⟩

theorem follows_bookkeeping : Bookkeeping i.Follows where
  ran _ _ _ := .record rfl trivial
  returned _ _ _ _ := .record rfl trivial
  failed _ _ _ _ := .record rfl trivial
  spent _ _ := .of_same rfl rfl
  shared _ _ := .of_same rfl rfl
  asked _ _ := .of_same rfl rfl

theorem follows_enter (m : Memory i.size) (thread : Nat) (s : i.contract.Slot) : i.Follows m (m.enter thread s) :=
  ⟨[.entered thread s], rfl, rfl, trivial, trivial⟩

theorem follows_leave (m : Memory i.size) (thread : Nat) (s : i.contract.Slot) : i.Follows m (m.leave thread s) :=
  ⟨[.left thread s], rfl, rfl, trivial, trivial⟩

theorem grows_bookkeeping : Bookkeeping (Memory.Grows (n := i.size)) where
  ran m s tier := (follows_bookkeeping.ran m s tier).grows
  returned m s tier o := (follows_bookkeeping.returned m s tier o).grows
  failed m s tier e := (follows_bookkeeping.failed m s tier e).grows
  spent m nodes := (follows_bookkeeping.spent m nodes).grows
  shared m nodes := (follows_bookkeeping.shared m nodes).grows
  asked m slots := (follows_bookkeeping.asked m slots).grows

/-! ## Storing -/

theorem store_of_some {m : Memory i.size} {s : i.contract.Slot} {r₀ : Resolved} (h : m.resolved? s = some r₀)
    (r : Resolved) : m.store s r = m := by
  simp only [Memory.store, h]

theorem store_of_none {m : Memory i.size} {s : i.contract.Slot} (h : m.resolved? s = none) (r : Resolved) :
    (m.store s r).journal = .stored s r :: m.journal ∧
      (m.store s r).resolved? = Cache.apply m.resolved? (.stored s r) := by
  simp only [Memory.store, h]
  refine ⟨rfl, ?_⟩
  funext x
  by_cases hx : x = s
  · subst hx
    simp [Memory.resolved?, Memory.record, Cache.apply]
  · have hne : s.val ≠ x.val := fun he => hx (Fin.ext he.symm)
    simp [Memory.resolved?, Memory.record, Cache.apply, hx, Vector.getElem_set_ne _ _ hne]

theorem follows_store {m : Memory i.size} {s : i.contract.Slot} {r : Resolved} (hb : i.Backed m.resolved? s r) :
    i.Follows m (m.store s r) := by
  cases h : m.resolved? s with
  | some r₀ => rw [store_of_some h]; exact refl_of i.Follows m
  | none =>
    obtain ⟨hj, hc⟩ := store_of_none h r
    exact ⟨[.stored s r], hj, hc, ⟨h, hb⟩, trivial⟩

/-- after storing a value there is one: the given value, or the one that was there first -/
theorem resolved?_store (m : Memory i.size) (s : i.contract.Slot) (r : Resolved) :
    (m.store s r).resolved? s = some ((m.resolved? s).getD r) := by
  cases h : m.resolved? s with
  | some r₀ => rw [store_of_some h, h]; rfl
  | none => rw [(store_of_none h r).2]; simp [Cache.apply]

theorem keep_apply (m : Memory i.size) (s : i.contract.Slot) (r : Resolved) :
    i.keep s r m = if (i.contract.accessor s).info.accepts r.value then
        (.ok ((m.resolved? s).getD r).value, m.store s r)
      else (.error (.failed (.typeMismatch (i.contract.accessor s).name (i.contract.accessor s).type)), m) := by
  unfold keep
  split
  · show (Except.ok (((m.store s r).resolved? s).getD r).value, m.store s r) = _
    rw [resolved?_store]
    rfl
  · rfl

/-- **What is stored first stays.** Of a value that comes later nothing is kept; the read gets the one that is there. -/
theorem keep_of_some {m : Memory i.size} {s : i.contract.Slot} {r₀ : Resolved} (h : m.resolved? s = some r₀)
    (r : Resolved) (ha : (i.contract.accessor s).info.accepts r.value = true) :
    i.keep s r m = (.ok r₀.value, m) := by
  rw [keep_apply, if_pos ha, h, store_of_some h]
  rfl

theorem keep_follows {m : Memory i.size} {s : i.contract.Slot} {r : Resolved} (hb : i.Backed m.resolved? s r) :
    i.Follows m (i.keep s r m).2 := by
  rw [keep_apply]
  split
  · exact follows_store hb
  · exact refl_of i.Follows m

theorem keep_cached {m : Memory i.size} {s : i.contract.Slot} {r : Resolved} {v : Value}
    (h : (i.keep s r m).1 = .ok v) : ∃ tier, (i.keep s r m).2.resolved? s = some ⟨v, tier⟩ := by
  rw [keep_apply] at h ⊢
  split at h
  · rename_i ha
    cases h
    exact ⟨_, by rw [if_pos ha, resolved?_store]⟩
  · cases h

/-! ## Computing -/

variable {read : Nat → i.contract.Slot → Run i.size Value}

/-- a run of a source that succeeds: the source does, in a memory that differs in the journal only -/
theorem of_runSource_ok {s : i.contract.Slot} {tier : Tier} {opinion : Run i.size (Option Value)} {m : Memory i.size}
    {o : Option Value} (h : (i.runSource s tier opinion m).1 = .ok o) :
    (opinion (m.record (.ran s tier))).1 = .ok o ∧
      (i.runSource s tier opinion m).2.resolved? = (opinion (m.record (.ran s tier))).2.resolved? := by
  obtain ⟨h1, h2⟩ := Run.of_noting_ok h
  exact ⟨h1, by rw [show (i.runSource s tier opinion m).2 = _ from h2]; rfl⟩

/-- what a run of the source behind an option comes back with, as far as the cache can tell -/
theorem runSource_backed {a : Access i.contract} (hc : Cached a.read)
    (hr : ∀ thread s, Run.Keeps Memory.Grows (a.read thread s)) (hf : ∀ place, Run.Keeps Memory.Grows (a.first place))
    {thread : Nat} {s : i.contract.Slot} {tier : Tier} {src : Source} (hs : i.sourceAt s tier = some src)
    {m : Memory i.size} {v : Value} (h : (i.runSource s tier (i.evalSource a thread src) m).1 = .ok (some v)) :
    i.Backed (i.runSource s tier (i.evalSource a thread src) m).2.resolved? s ⟨v, tier⟩ := by
  intro _
  obtain ⟨h, hm⟩ := of_runSource_ok h
  obtain ⟨x, hx, hv, hm'⟩ := Run.of_bind_ok h
  cases hv
  refine ⟨src, x, hs, rfl, fun hd => ?_⟩
  rw [hm, show (i.evalSource a thread src (m.record (.ran s tier))).2 = _ from hm']
  exact src.expr.value_of_eval hc hr hf hd hx

theorem opinion_backed (hc : Cached read) (hr : ∀ thread s, Run.Keeps Memory.Grows (read thread s)) {thread : Nat}
    {s : i.contract.Slot} {tier : Tier} {m : Memory i.size} {v : Value}
    (h : (i.opinion read thread s tier m).1 = .ok (some v)) :
    i.Backed (i.opinion read thread s tier m).2.resolved? s ⟨v, tier⟩ := by
  unfold opinion at h ⊢
  cases tier with
  | lookup => exact fun ht => absurd rfl ht
  | override =>
    cases hs : i.override? s with
    | none => simp only [hs] at h; cases h
    | some src =>
      simp only [hs] at h ⊢
      have hs : i.sourceAt s .override = some src := hs
      exact runSource_backed hc hr (firstOwn_keeps grows_bookkeeping.spent s) hs h
  | default =>
    cases hs : (i.contract.accessor s).source? with
    | none => simp only [hs] at h; cases h
    | some src =>
      simp only [hs] at h ⊢
      have hs : i.sourceAt s .default = some src := hs
      exact runSource_backed hc hr (firstShared_keeps grows_bookkeeping.shared s) hs h

theorem compute_backed (hc : Cached read) (hr : ∀ thread s, Run.Keeps Memory.Grows (read thread s)) {thread : Nat}
    {s : i.contract.Slot} {m : Memory i.size} {r : Resolved} (h : (i.compute read thread s m).1 = .ok r) :
    i.Backed (i.compute read thread s m).2.resolved? s r := by
  unfold compute at h ⊢
  generalize Tier.all = tiers at h ⊢
  induction tiers generalizing m with
  | nil => cases h
  | cons tier rest ih =>
    obtain ⟨o, ho, h, hm⟩ := Run.of_bind_ok h
    rw [show (i.firstOpinion read thread s (tier :: rest) m).2 = _ from hm]
    cases o with
    | none => exact ih h
    | some v => cases h; exact opinion_backed hc hr ho

/-! ## Resolving -/

theorem settle_follows (hc : Cached read) (hr : ∀ thread s, Run.Keeps i.Follows (read thread s)) (thread : Nat)
    (s : i.contract.Slot) : Run.Keeps i.Follows (i.settle read thread s) := by
  intro m
  have hm := compute_keeps (follows_bookkeeping.notes s) (fun _ _ _ x _ thread => hr thread x) thread m
  unfold settle
  rcases hcm : i.compute read thread s m with ⟨h | r, m₁⟩ <;> rw [hcm] at hm
  · rw [Run.bind_error hcm]
    exact hm
  rw [Run.bind_ok hcm]
  have hb : i.Backed m₁.resolved? s r := by
    have h : i.Backed (i.compute read thread s m).2.resolved? s r :=
      compute_backed hc (fun thread s m => (hr thread s m).grows) (by rw [hcm])
    rwa [hcm] at h
  have hk := keep_follows hb
  rcases hkm : i.keep s r m₁ with ⟨h | v, m₂⟩ <;> rw [hkm] at hk
  · rw [Run.bind_error hkm]
    exact trans_of i.Follows hm hk
  rw [Run.bind_ok hkm, answer_apply]
  obtain ⟨tier, ht⟩ := keep_cached (m := m₁) (s := s) (r := r) (v := v) (by rw [hkm])
  rw [hkm] at ht
  have hj : i.Justifies m₂.resolved? (.answered thread s v) := ⟨tier, ht⟩
  exact trans_of i.Follows (trans_of i.Follows hm hk) (.record rfl hj)

/-- a resolution that succeeds notes what it answers, and the option is cached with it -/
theorem settle_cached {thread : Nat} {s : i.contract.Slot} {m : Memory i.size} {v : Value}
    (h : (i.settle read thread s m).1 = .ok v) :
    .answered thread s v ∈ (i.settle read thread s m).2.journal ∧
      ∃ tier, (i.settle read thread s m).2.resolved? s = some ⟨v, tier⟩ := by
  obtain ⟨r, -, h, hm⟩ := Run.of_bind_ok h
  obtain ⟨w, hw, h, hm'⟩ := Run.of_bind_ok h
  rw [answer_apply] at h hm'
  cases h
  rw [show (i.settle read thread s m).2 = _ from hm, hm']
  exact ⟨List.mem_cons_self, keep_cached hw⟩

/-- **A read that succeeds leaves its option cached with the value that it answers**, whatever happened in between: also
    if the option was stored by a resolution inside this one. -/
theorem resolve_answered {depth thread : Nat} {s : i.contract.Slot} {m : Memory i.size} {v : Value}
    (h : (i.resolve depth thread s m).1 = .ok v) :
    .answered thread s v ∈ (i.resolve depth thread s m).2.journal ∧
      ∃ tier, (i.resolve depth thread s m).2.resolved? s = some ⟨v, tier⟩ := by
  cases depth with
  | zero => cases h
  | succ depth =>
    cases hs : m.resolved? s with
    | some r =>
      rw [resolve_cached hs] at h ⊢
      cases h
      exact ⟨List.mem_cons_self, r.tier, hs⟩
    | none =>
      by_cases hc : m.chain thread s = []
      · rw [resolve_entered hs hc] at h ⊢
        obtain ⟨h1, h2⟩ := settle_cached h
        exact ⟨List.mem_cons_of_mem _ h1, h2⟩
      · rw [resolve_reentered hs hc] at h
        cases h

/-- **Every resolution is lawful**, from whatever memory, on whatever thread, however deep it nests and however it
    ends. -/
theorem resolve_follows (depth thread : Nat) (s : i.contract.Slot) :
    Run.Keeps i.Follows (i.resolve depth thread s) := by
  induction depth generalizing thread s with
  | zero => exact .throw _
  | succ depth ih =>
    intro m
    cases hs : m.resolved? s with
    | some r =>
      rw [resolve_cached hs]
      exact .record rfl ⟨r.tier, hs⟩
    | none =>
      by_cases hc : m.chain thread s = []
      · rw [resolve_entered hs hc]
        have hm := settle_follows (fun _ _ _ _ h => (resolve_answered h).2) ih thread s (m.enter thread s)
        exact trans_of i.Follows (trans_of i.Follows (follows_enter m thread s) hm) (follows_leave _ thread s)
      · rw [resolve_reentered hs hc]
        exact .record rfl trivial

/-! ## Requests -/

variable {R : Memory i.size → Memory i.size → Prop} [IsPreorder (Memory i.size) R]

/-- a report does what the reads of its options do -/
theorem reportEntries_keeps (hr : ∀ thread s, Run.Keeps R (i.access.read thread s)) (thread : Nat)
    (config : Option Config.Layered) (infos : List AccessorInfo) :
    Run.Keeps R (i.reportEntries thread config infos) := by
  induction infos with
  | nil => exact .pure _
  | cons info rest ih =>
    refine .bind (.bind (.attempt (Access.readName_keeps fun s _ => hr thread s)) fun v => ?_) fun e =>
      .bind ih fun es => .pure _
    cases v with
    | ok v => exact .bind .memory fun m => .pure _
    | error e => exact .pure _

/-- a request for one option does what the reads of this option do -/
theorem answer_keeps_read {r : Request} {name : String} (h : r.read? = some name) {thread : Nat}
    (hr : ∀ s, i.contract.slot? name = some s → Run.Keeps R (i.access.read thread s))
    (config : Option Config.Layered) : Run.Keeps R (r.answer i config thread) := by
  have htry (t : ValueType) : Run.Keeps R (i.tryGet thread t name) :=
    .attempt (.bind (Access.get_keeps hr t) fun _ => .pure _)
  cases r with
  | get t _ =>
    cases h
    exact .bind (htry t) fun _ => .pure _
  | getTwice t _ =>
    cases h
    exact .bind (htry t) fun _ => .bind (htry t) fun _ => .pure _
  | getValue _ =>
    cases h
    exact .bind (.attempt (Access.readName_keeps hr)) fun _ => .pure _
  | _ => cases h

/-- **A request does what the reads of its options do.** -/
theorem answer_keeps (hr : ∀ thread s, Run.Keeps R (i.access.read thread s)) (config : Option Config.Layered)
    (thread : Nat) (r : Request) : Run.Keeps R (r.answer i config thread) := by
  cases r with
  | get _ _ | getTwice _ _ | getValue _ => exact answer_keeps_read rfl (fun s _ => hr thread s) config
  | resolveAll => exact .bind (.attempt (Access.readAll_keeps (hr thread))) fun _ => .pure _
  | tier name => exact .bind .memory fun _ => .pure _
  | overridden _ | hasLookup => exact .pure _
  | explain => exact .bind .memory fun _ => .pure _
  | report withConfig createdAt =>
    exact .bind (.bind (reportEntries_keeps hr thread _ _) fun _ => .pure _) fun _ => .pure _

end Instance

/-! ## Sessions, as one instance sees them -/

/-- A request with what surrounds it: the nodes of defaults that the instances of the same family have evaluated by
    then, the configuration that reports may name, and the thread that the request comes on. -/
structure Turn where
  shared : List Node
  config : Option Config.Layered
  thread : Nat
  request : Request

namespace Instance

/-- the answer of an instance in a turn, and its memory afterwards; the journal is on this turn only -/
def turn (i : Instance) (m : Memory i.size) (t : Turn) : Except Halt Answer × Memory i.size :=
  t.request.answer i t.config t.thread { m with shared := t.shared, journal := [] }

/-- the memory of an instance after some turns -/
def memoryAfter (i : Instance) (ts : List Turn) : Memory i.size :=
  ts.foldl (fun m t => (i.turn m t).2) (.fresh i.size [])

/-- all that happens in some turns, newest first -/
def historyFrom (i : Instance) (m : Memory i.size) : List Turn → List (Event i.size)
  | [] => []
  | t :: ts => i.historyFrom (i.turn m t).2 ts ++ (i.turn m t).2.journal

/-- all that happens to an instance in some turns, newest first -/
def history (i : Instance) (ts : List Turn) : List (Event i.size) := i.historyFrom (.fresh i.size []) ts

/-- the cache of the moment at which the given events have happened to an instance -/
def cacheAt (i : Instance) (events : List (Event i.size)) : Cache i.size := Cache.after (fun _ => none) events

variable {i : Instance}

theorem turn_lawful (m : Memory i.size) (t : Turn) :
    (i.turn m t).2.resolved? = Cache.after m.resolved? (i.turn m t).2.journal ∧
      i.Lawful m.resolved? (i.turn m t).2.journal := by
  obtain ⟨new, hj, hc, hl⟩ := answer_keeps (R := i.Follows) (fun thread s => resolve_follows _ thread s) t.config
    t.thread t.request { m with shared := t.shared, journal := [] }
  have hj : (i.turn m t).2.journal = new := hj.trans (List.append_nil new)
  rw [hj]
  exact ⟨hc, hl⟩

/-- **Every session is lawful**, and its history says what is cached after it. -/
theorem history_lawful (ts : List Turn) :
    (i.memoryAfter ts).resolved? = i.cacheAt (i.history ts) ∧ i.Lawful (fun _ => none) (i.history ts) := by
  have hfresh : (Memory.fresh i.size []).resolved? = fun _ => none := by
    funext s
    simp [Memory.resolved?, Memory.fresh]
  unfold memoryAfter history cacheAt
  rw [← hfresh]
  generalize Memory.fresh i.size [] = m
  induction ts generalizing m with
  | nil => exact ⟨rfl, trivial⟩
  | cons t ts ih =>
    obtain ⟨hc, hl⟩ := turn_lawful m t
    obtain ⟨ihc, ihl⟩ := ih (i.turn m t).2
    rw [hc] at ihc ihl
    exact ⟨by rw [historyFrom, Cache.after_append]; exact ihc, lawful_append.2 ⟨ihl, hl⟩⟩

end Instance

/-! ## Sessions of several instances -/

namespace Session

/-- what may happen in a session: an instance is built or not, or asked -/
inductive Action where
  | build (c : Contract) (family : Nat) (supply : Supply) (overrides : List Override)
  | skip
  | ask (k thread : Nat) (r : Request)

/-- the session after an action -/
def step (s : Session) : Action → Session
  | .build c family supply overrides => (s.build c family supply overrides).2
  | .skip => s.skip
  | .ask k thread r => ((s.ask k thread r).map (·.2)).getD s

/-- the session after some actions -/
def run (actions : List Action) : Session := actions.foldl step .empty

/-- a member was built, and what it remembers is what it remembers after some turns of its own -/
def Served (m : Member) : Prop :=
  (∃ c lookup overrides, Instance.build c lookup overrides = .ok m.inst) ∧ ∃ ts, m.memory = m.inst.memoryAfter ts

theorem served_ask {m : Member} (h : Served m) (shared : List Node) (thread : Nat) (r : Request) :
    Served (m.ask shared thread r).2 := by
  obtain ⟨hb, ts, hm⟩ := h
  refine ⟨hb, ts ++ [⟨shared, m.config, thread, r⟩], ?_⟩
  show (m.inst.turn m.memory ⟨shared, m.config, thread, r⟩).2 = _
  rw [Instance.memoryAfter, List.foldl_append, hm]
  rfl

theorem served_step {s : Session} (h : ∀ m, some m ∈ s.members → Served m) (action : Action) :
    ∀ m, some m ∈ (s.step action).members → Served m := by
  intro m hm
  cases action with
  | skip => exact h m (by simpa [step, skip] using hm)
  | build c family supply overrides =>
    simp only [step, build] at hm
    cases hb : Instance.build c supply.lookup? overrides with
    | error e => simp only [hb] at hm; exact h m (by simpa [skip] using hm)
    | ok i =>
      simp only [hb, List.mem_append, List.mem_singleton, Option.some.injEq] at hm
      rcases hm with hm | rfl
      · exact h m hm
      · exact ⟨⟨c, supply.lookup?, overrides, hb⟩, [], rfl⟩
  | ask k thread r =>
    simp only [step, ask, perform] at hm
    cases hk : s.member? k with
    | none => simp only [hk] at hm; exact h m hm
    | some m₀ =>
      simp only [hk] at hm
      have hm₀ : some m₀ ∈ s.members := List.mem_of_getElem? (Option.join_eq_some_iff.1 hk)
      rcases List.mem_or_eq_of_mem_set hm with hm | hm
      · exact h m hm
      · cases hm
        exact served_ask (h m₀ hm₀) _ thread r

/-- **What holds of every sequence of turns holds of every session**: each member of a session is a built instance after
some turns, whatever the other members do. -/
theorem run_served (actions : List Action) : ∀ m, some m ∈ (run actions).members → Served m := by
  have h₀ : ∀ m, some m ∈ empty.members → Served m := fun m hm => nomatch hm
  unfold run
  generalize empty = s at h₀
  induction actions generalizing s with
  | nil => exact h₀
  | cons action actions ih => exact ih _ (served_step h₀ action)

end Session

end TieredOptions
