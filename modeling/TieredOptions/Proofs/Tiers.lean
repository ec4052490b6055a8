/-
The three tiers, from requests down to sources. A request does what the reads of its options do, one after the other
(`turn_reads`), and none of these is turned away, because nothing is under way when a request begins. A read of an
option that is neither cached nor under way is an attempt at it (`resolve_attempts`), and so are the reads that sources
make. What an attempt does itself is the course of its option: the sources that are run, and in which order. What the
journal tells of a session is made of such attempts.

Main statement: `tiers_in_order`.
-/
import TieredOptions.Proofs.Completion
import TieredOptions.Proofs.Reports

namespace TieredOptions

/-! ## The reads of a request -/

/-- the options that a request reads, one after the other -/
def Request.reads (c : Contract) : Request → List c.Slot
  | get _ name | getValue name => (c.slot? name).toList
  | getTwice _ name => (c.slot? name).toList ++ (c.slot? name).toList
  | resolveAll => c.slots
  | report _ _ => c.names.filterMap c.slot?
  | tier _ | overridden _ | hasLookup | explain => []

/-- Is a read with this end the last one of the request? -/
def Request.stops : Request → Halt → Bool
  | resolveAll, .failed _ => true
  | _, .failed _ => false
  | _, .unending => true

namespace Instance

open Run Memory

variable {i : Instance}

/-- the memory after reads of some options, up to one that is the last -/
def afterReads (i : Instance) (stops : Halt → Bool) (thread : Nat) :
    List i.contract.Slot → Memory i.size → Memory i.size
  | [], m => m
  | s :: rest, m =>
    match i.resolve i.depth thread s m with
    | (.ok _, m') => i.afterReads stops thread rest m'
    | (.error e, m') => if stops e then m' else i.afterReads stops thread rest m'

variable {stops : Halt → Bool} {thread : Nat} {m m' : Memory i.size} {s : i.contract.Slot}
  {rest : List i.contract.Slot}

theorem afterReads_on {r : Except ResolveError Value} (h : i.resolve i.depth thread s m = (Run.outcome r, m'))
    (hs : ∀ e, stops (.failed e) = false) :
    i.afterReads stops thread (s :: rest) m = i.afterReads stops thread rest m' := by
  cases r with
  | ok v => simp only [afterReads, h, Run.outcome]
  | error e => simp only [afterReads, h, Run.outcome, hs e, Bool.false_eq_true, if_false]

theorem afterReads_stop {e : Halt} (h : i.resolve i.depth thread s m = (.error e, m')) (hs : stops e = true) :
    i.afterReads stops thread (s :: rest) m = m' := by
  simp only [afterReads, h, hs, if_true]

theorem afterReads_keeps {R : Memory i.size → Memory i.size → Prop} [IsPreorder (Memory i.size) R]
    (hr : ∀ s, Run.Keeps R (i.resolve i.depth thread s)) (slots : List i.contract.Slot) (m : Memory i.size) :
    R m (i.afterReads stops thread slots m) := by
  induction slots generalizing m with
  | nil => exact refl_of R m
  | cons s rest ih =>
    have hs := hr s m
    rcases h : i.resolve i.depth thread s m with ⟨e | v, m'⟩ <;> rw [h] at hs <;> simp only [afterReads, h]
    · split
      · exact hs
      · exact trans_of R hs (ih m')
    · exact trans_of R hs (ih m')

/-- after each of the reads nothing is under way, if nothing was before -/
theorem afterReads_active (hm : m.active = []) (slots : List i.contract.Slot) :
    (i.afterReads stops thread slots m).active = [] := by
  have hreturns : Returns (Law.nesting i.size) m (i.afterReads stops thread slots m) :=
    afterReads_keeps (fun s => i.nesting_obeyed.resolve_returns _ thread s) slots m
  exact hreturns.1.trans hm

/-- the option of a name is read with an end that is not the last -/
theorem afterReads_name {name : String} {r : Except ResolveError Value}
    (h : i.getValue thread name m = (Run.outcome r, m')) (hs : ∀ e, stops (.failed e) = false)
    (rest : List i.contract.Slot) :
    i.afterReads stops thread ((i.contract.slot? name).toList ++ rest) m = i.afterReads stops thread rest m' := by
  cases hslot : i.contract.slot? name with
  | none =>
    -- there is no such option, and nothing is read
    have hfail : i.getValue thread name m = (.error (.failed (.noSuchAccessor i.contract.name name)), m) := by
      simp only [getValue, Access.readName, hslot]
      rfl
    have hsame : m' = m := congrArg Prod.snd (h.symm.trans hfail)
    rw [hsame]
    rfl
  | some s =>
    rw [getValue_eq hslot] at h
    exact afterReads_on h hs

theorem afterReads_name_stop {name : String} (h : i.getValue thread name m = (.error .unending, m'))
    (hs : stops .unending = true) (rest : List i.contract.Slot) :
    i.afterReads stops thread ((i.contract.slot? name).toList ++ rest) m = m' := by
  cases hslot : i.contract.slot? name with
  | none =>
    simp only [getValue, Access.readName, hslot] at h
    cases h
  | some s =>
    rw [getValue_eq hslot] at h
    exact afterReads_stop h hs

/-! ## Requests -/

theorem tryGet_memory (i : Instance) (thread : Nat) (t : ValueType) (name : String) (m : Memory i.size) :
    (i.tryGet thread t name m).2 = (i.getValue thread name m).2 :=
  (attempt_memory _ m).trans ((return_memory _ _ m).trans (get_memory i thread t name m))

/-- a read at a type is answered where the read of the option ends -/
theorem tryGet_ok {name : String} {r : Except ResolveError Value}
    (h : i.getValue thread name m = (Run.outcome r, m')) (t : ValueType) :
    ∃ answer, i.tryGet thread t name m = (.ok answer, m') := by
  have hget : ∃ r' : Except ResolveError t.Carrier, i.get thread t name m = (Run.outcome r', m') := by
    cases r with
    | error e => exact ⟨.error e, Run.bind_error h _⟩
    | ok v =>
      cases hv : v.as? t with
      | none =>
        refine ⟨.error (.typeMismatch name t), (Run.bind_ok h _).trans ?_⟩
        rw [hv]
        rfl
      | some x =>
        refine ⟨.ok x, (Run.bind_ok h _).trans ?_⟩
        rw [hv]
        rfl
  obtain ⟨r' | x, hr'⟩ := hget
  · exact ⟨_, Run.attempt_failed (Run.bind_error hr' _)⟩
  · exact ⟨_, Run.attempt_ok (Run.bind_ok hr' _)⟩

section Failures

variable (hf : ∀ e, stops (.failed e) = false) (hu : stops .unending = true)
include hf hu

theorem getValue_reads (name : String) (m : Memory i.size) :
    (i.getValue thread name m).2 = i.afterReads stops thread (i.contract.slot? name).toList m := by
  rw [← List.append_nil (i.contract.slot? name).toList]
  rcases outcome_or_unending (i.getValue thread name) m with ⟨r, m', h⟩ | ⟨m', h⟩
  · rw [h, afterReads_name h hf]
    rfl
  · rw [h, afterReads_name_stop h hu]

theorem reportEntries_reads (config : Option Config.Layered) (infos : List AccessorInfo) (m : Memory i.size) :
    (i.reportEntries thread config infos m).2 =
      i.afterReads stops thread ((infos.map (·.name)).filterMap i.contract.slot?) m := by
  induction infos generalizing m with
  | nil => rfl
  | cons info rest ih =>
    have hnames : ((info :: rest).map (·.name)).filterMap i.contract.slot? =
        (i.contract.slot? info.name).toList ++ (rest.map (·.name)).filterMap i.contract.slot? := by
      rw [List.map_cons, List.filterMap_cons]
      cases i.contract.slot? info.name <;> rfl
    rw [hnames]
    rcases outcome_or_unending (i.getValue thread info.name) m with ⟨r, m', h⟩ | ⟨m', h⟩
    · rw [reportEntries, Run.bind_ok (reportEntry_eq h), afterReads_name h hf]
      exact (return_memory _ _ m').trans (ih m')
    · have hentry : i.reportEntry thread config info m = (.error .unending, m') :=
        Run.bind_error (Run.attempt_unending h) _
      rw [reportEntries, Run.bind_error hentry, afterReads_name_stop h hu]

end Failures

theorem readSlots_reads (hs : ∀ e, stops e = true) (slots : List i.contract.Slot) (m : Memory i.size) :
    (i.readSlots thread slots m).2 = i.afterReads stops thread slots m := by
  induction slots generalizing m with
  | nil => rfl
  | cons s rest ih =>
    rcases h : i.access.read thread s m with ⟨e | v, m'⟩
    · rw [readSlots_cons_error h, afterReads_stop h (hs e)]
    · rw [readSlots_cons_ok h, ih, afterReads, show i.resolve i.depth thread s m = _ from h]

/-- **A request does what its reads do**, one after the other. -/
theorem answer_reads (config : Option Config.Layered) (thread : Nat) (r : Request) (m : Memory i.size) :
    (r.answer i config thread m).2 = i.afterReads r.stops thread (r.reads i.contract) m := by
  cases r with
  | get t name =>
    refine (return_memory _ _ m).trans ((tryGet_memory i thread t name m).trans ?_)
    exact getValue_reads (fun _ => rfl) rfl name m
  | getTwice t name =>
    rcases outcome_or_unending (i.getValue thread name) m with ⟨r, m', h⟩ | ⟨m', h⟩
    · obtain ⟨first, hfirst⟩ := tryGet_ok h t
      rw [Request.answer, Run.bind_ok hfirst, Request.reads, afterReads_name h fun _ => rfl]
      refine (return_memory _ _ m').trans ((tryGet_memory i thread t name m').trans ?_)
      exact getValue_reads (fun _ => rfl) rfl name m'
    · have hfirst : i.tryGet thread t name m = (.error .unending, m') :=
        Run.attempt_unending (Run.bind_error (Run.bind_error h _) _)
      rw [Request.answer, Run.bind_error hfirst, Request.reads, afterReads_name_stop h rfl]
  | getValue name =>
    refine (return_memory _ _ m).trans ((attempt_memory _ m).trans ?_)
    exact getValue_reads (fun _ => rfl) rfl name m
  | resolveAll =>
    refine (return_memory _ _ m).trans ((attempt_memory _ m).trans (readSlots_reads (fun e => ?_) _ m))
    cases e <;> rfl
  | tier _ | overridden _ | hasLookup | explain => rfl
  | report withConfig createdAt =>
    have hnames : (i.contract.accessors.map (·.info)).map (·.name) = i.contract.names := by
      simp [Contract.names, Accessor.info]
    rw [Request.reads, ← hnames]
    exact (return_memory _ _ m).trans ((return_memory _ _ m).trans (reportEntries_reads (fun _ => rfl) rfl _ _ m))

theorem turn_reads (m : Memory i.size) (t : Turn) :
    (i.turn m t).2 = i.afterReads t.request.stops t.thread (t.request.reads i.contract)
      { m with shared := t.shared, journal := [] } :=
  answer_reads t.config t.thread t.request _

/-! ## Attempts -/

/-- What happens in an attempt at an option, between the memory before and the outcome with the memory after: the option
    is entered and left, what the attempt does itself in between is the course of the option, the lookup was asked as
    noted, and the attempt fails where a source of it does. -/
structure Attempts (i : Instance) (thread : Nat) (s : i.contract.Slot) (m : Memory i.size)
    (after : Except Halt Value × Memory i.size) (new : List (Event i.size)) : Prop where
  journal : after.2.journal = .left thread s :: (new ++ .entered thread s :: m.journal)
  asked : after.2.asked = asks new ++ m.asked
  course : i.Course s (own 0 new.reverse)
  fails : ∀ t e, .failed s t e ∈ own 0 new.reverse → after.1 = .error (.failed e)

/-- **A read of an option that is neither cached nor under way on its thread is an attempt at it**, however it ends. -/
theorem resolve_attempts (hs : m.resolved? s = none) (hm : (thread, s) ∉ m.active) (depth : Nat) :
    ∃ new, i.Attempts thread s m (i.resolve (depth + 1) thread s m) new := by
  obtain ⟨es, ⟨new, hj, ha, hst⟩, hcourse, hfails⟩ :=
    settle_leaves (fun thread s => resolve_quiet depth thread s) thread s (m.enter thread s)
  have hown : own 0 new.reverse = es := by simpa [own] using hst.beside []
  rw [resolve_entered hs (chain_eq_nil hm)]
  refine ⟨new, ?_, ha, hown ▸ hcourse, hown ▸ hfails⟩
  show .left thread s :: (i.settle (i.resolve depth) thread s (m.enter thread s)).2.journal = _
  rw [hj]
  rfl

/-- **Three tiers in order of precedence.** In a session with an instance:
    - a read of an option that is neither cached nor under way is an attempt, from whatever memory: what it does itself
      is the course of the option, which is the override only; or else the lookup, once, and the default, once and only
      if there is no lookup or it answered nothing just before. It fails with the error of a source that fails;
    - a request does what the reads of its options do, and none of them is under way when it is read;
    - the journal tells of such attempts and of nothing besides: every attempt takes its course, and no source is run
      outside of attempts. The lookup was asked what the journal says, and what is cached is what the journal says;
    - a source is run only at a tier that its option comes to. What is noted to come back is what it gave: the answer of
      the lookup to this very question, or the end of the evaluation of the override or the default that was just begun;
    - at every moment, what is cached for an option came back before from the source at the noted tier, and the option
      comes to that tier. -/
theorem tiers_in_order (i : Instance) (ts : List Turn) :
    (∀ depth thread s m, m.resolved? s = none → (thread, s) ∉ m.active →
      ∃ new, i.Attempts thread s m (i.resolve (depth + 1) thread s m) new) ∧
    (∀ t, (i.turn (i.memoryAfter ts) t).2 =
        i.afterReads t.request.stops t.thread (t.request.reads i.contract) (i.found ts t) ∧
      ∀ slots, (i.afterReads t.request.stops t.thread slots (i.found ts t)).active = []) ∧
    (∀ before thread s after, (i.history ts).reverse = before ++ .entered thread s :: after →
      i.Course s (own 0 after)) ∧
    own 0 (i.history ts).reverse = [] ∧ (i.memoryAfter ts).asked = asks (i.history ts) ∧
    (i.memoryAfter ts).resolved? = i.cacheAt (i.history ts) ∧
    (∀ later e earlier, i.history ts = later ++ e :: earlier → i.Truthful (asks earlier) earlier e) ∧
    ∀ events, events <:+ i.history ts → ∀ s r, i.cacheAt events s = some r →
      ∃ later earlier, events = later ++ .returned s r.tier (some r.value) :: earlier ∧ i.Reaches s r.tier ∧
        i.Gives (asks earlier) earlier s r.tier (.ok (some r.value)) := by
  obtain ⟨hst, hasked⟩ := i.history_stretch ts
  have htruthful : ∀ later e earlier, i.history ts = later ++ e :: earlier → i.Truthful (asks earlier) earlier e := by
    intro later e earlier hsplit
    have hfaithful : i.Faithful [] [] (later ++ e :: earlier) := hsplit ▸ hst.faithful
    simpa using hfaithful.truthful
  refine ⟨fun depth thread s m hs hm => resolve_attempts hs hm depth, fun t => ⟨turn_reads _ t, fun slots => ?_⟩, ?_,
    by simpa [own] using hst.beside [], hasked, (history_lawful ts).1, htruthful, ?_⟩
  · exact afterReads_active (m := i.found ts t) (i.memoryAfter_active ts) slots
  · intro before thread s after hsplit
    have horderly : i.Orderly (before ++ .entered thread s :: after) := hsplit ▸ hst.orderly
    exact horderly.course
  · intro events hsuffix s r hr
    obtain ⟨later, hlater⟩ := hsuffix
    have hsourced : i.Sourced events := Sourced.suffix (hlater ▸ hst.sourced)
    obtain ⟨late, early, rfl⟩ := List.append_of_mem (hsourced.returned (stored_of_cacheAt hr))
    have hsplit : i.history ts = (later ++ late) ++ .returned s r.tier (some r.value) :: early := by
      rw [← hlater, List.append_assoc]
    obtain ⟨hreaches, hgives⟩ := htruthful _ _ _ hsplit
    exact ⟨late, early, rfl, hreaches, hgives⟩

/-- A frame around a picture. -/
def frameContract : Contract := ⟨"Frame", [
  ⟨"width", [], .int .u32, some (.const 10#32)⟩,
  ⟨"height", [], .int .u32, some (.const 10#32)⟩,
  ⟨"length", [], .int .u32, some (.add (.int .u32) (.get "width") (.get "height"))⟩,
  ⟨"maker", [], .string, some (.const "unknown")⟩]⟩

/-- the catalogue knows the height, and cannot be asked for the maker -/
def catalogue : Lookup :=
  .scripted [("height", .value ⟨.int .u32, 20#32⟩), ("maker", .fail (.ofMessage "unreadable"))]

def frameWidth : Override := ⟨some "width", .int .u32, .const 30#32⟩

def frame : Instance := ⟨frameContract, (Vector.replicate 4 none).set 0 (some frameWidth.source), some catalogue⟩

def widthSlot : frame.contract.Slot := ⟨0, by decide⟩

def heightSlot : frame.contract.Slot := ⟨1, by decide⟩

def lengthSlot : frame.contract.Slot := ⟨2, by decide⟩

def makerSlot : frame.contract.Slot := ⟨3, by decide⟩

def lengthTurn : Turn := ⟨[], none, 0, .getValue "length"⟩

def makerTurn : Turn := ⟨[], none, 0, .getValue "maker"⟩

/-- what the frame is cached with after these two requests -/
def frameCached : List (frame.contract.Slot × Resolved) := [(widthSlot, ⟨⟨.int .u32, 30#32⟩, .override⟩),
  (heightSlot, ⟨⟨.int .u32, 20#32⟩, .lookup⟩), (lengthSlot, ⟨⟨.int .u32, 50#32⟩, .default⟩)]

/-- The length is asked for: the catalogue has nothing, and the default adds the width that overrides and the height
    from the catalogue. The maker is what the catalogue fails with, and its default is not run. -/
theorem frame_in_order : build frameContract (some catalogue) [frameWidth] = .ok frame ∧
    (∃ new, frame.Attempts 0 lengthSlot (.fresh 4 []) (frame.resolve frame.depth 0 lengthSlot (.fresh 4 [])) new ∧
      own 0 new.reverse = [.ran lengthSlot .lookup, .returned lengthSlot .lookup none, .ran lengthSlot .default,
        .returned lengthSlot .default (some ⟨.int .u32, 50#32⟩)]) ∧
    (∃ new, frame.Attempts 0 makerSlot (.fresh 4 []) (frame.resolve frame.depth 0 makerSlot (.fresh 4 [])) new ∧
      own 0 new.reverse = [.ran makerSlot .lookup, .failed makerSlot .lookup (.ofMessage "unreadable")] ∧
      (frame.resolve frame.depth 0 makerSlot (.fresh 4 [])).1 = .error (.failed (.ofMessage "unreadable"))) ∧
    (frame.turn (frame.memoryAfter []) lengthTurn).2 = (frame.resolve frame.depth 0 lengthSlot (.fresh 4 [])).2 ∧
    ∀ x ∈ frameCached, ∃ later earlier, frame.history [lengthTurn, makerTurn] =
      later ++ .returned x.1 x.2.tier (some x.2.value) :: earlier ∧
        frame.Gives (asks earlier) earlier x.1 x.2.tier (.ok (some x.2.value)) := by
  have hbuild : build frameContract (some catalogue) [frameWidth] = .ok frame := by rfl
  obtain ⟨hattempts, -, -, -, -, -, -, hgiven⟩ := tiers_in_order frame [lengthTurn, makerTurn]
  have hnew {s : frame.contract.Slot} {after : Except Halt Value × Memory 4} {new : List (Event 4)}
      (h : frame.Attempts 0 s (.fresh 4 []) after new) : new = after.2.journal.tail.dropLast := by
    rw [h.journal]
    exact List.dropLast_concat.symm
  refine ⟨hbuild, ?_, ?_, ?_, ?_⟩
  · obtain ⟨new, h⟩ := hattempts (frame.depth - 1) 0 lengthSlot (.fresh 4 []) rfl List.not_mem_nil
    refine ⟨new, h, ?_⟩
    rw [hnew h]
    rfl
  · obtain ⟨new, h⟩ := hattempts (frame.depth - 1) 0 makerSlot (.fresh 4 []) rfl List.not_mem_nil
    have hown : own 0 new.reverse = [.ran makerSlot .lookup, .failed makerSlot .lookup (.ofMessage "unreadable")] := by
      rw [hnew h]
      rfl
    exact ⟨new, h, hown, h.fails .lookup _ (by rw [hown]; exact .tail _ (.head _))⟩
  · exact ((tiers_in_order frame []).2.1 lengthTurn).1
  · intro x hx
    have hcached : ∀ x ∈ frameCached, frame.cacheAt (frame.history [lengthTurn, makerTurn]) x.1 = some x.2 := by
      simp only [frameCached, List.forall_mem_cons]
      exact ⟨rfl, rfl, rfl, List.forall_mem_nil _⟩
    obtain ⟨later, earlier, hsplit, -, hgives⟩ := hgiven _ (List.suffix_refl _) x.1 x.2 (hcached x hx)
    exact ⟨later, earlier, hsplit, hgives⟩

end Instance

end TieredOptions
