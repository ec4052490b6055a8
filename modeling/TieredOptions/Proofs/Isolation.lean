/-
Instances do not disturb each other. Each instance of a session has a memory of its own; what the instances of a family
share is which `once` nodes of their contract's defaults were evaluated, by whichever of them. A run is private
(`Run.Private`) if it cannot tell: from memories that are the same but for the shared nodes it comes to the same
outcome, and to such memories again.

Where no default has a `once` node (`Contract.Steady`) every request is private (`answer_private`), whatever overrides
and lookups there are. So a member of a session has the outcomes that it would have in a session of its own, by
induction on what happens in the session; the invariant is `Session.Mirrors`.

Main statement: `members_isolated`.
-/
import TieredOptions.Proofs.Construction
import TieredOptions.Proofs.Twins

namespace TieredOptions

/-! ## Private runs -/

/-- the memory where other nodes of the family's defaults were evaluated -/
def Memory.sharing {n : Nat} (m : Memory n) (nodes : List Node) : Memory n := { m with shared := nodes }

/-- the memories are the same, but perhaps for the shared nodes -/
def Memory.SameOwn {n : Nat} (m m' : Memory n) : Prop := ∃ nodes, m' = m.sharing nodes

namespace Run

variable {n : Nat} {α β : Type}

theorem Agree.eq {r r' : Except Halt α} (h : Agree Eq r r') : r = r' := by
  rcases h.cases with ⟨a, _, rfl, rfl, rfl⟩ | ⟨e, rfl, rfl⟩ <;> rfl

/-- the run does the same whatever the instances of the family have evaluated -/
abbrev Private (x : Run n α) : Prop := Twin Memory.SameOwn (Agree Eq) x x

namespace Private

variable {x : Run n α}

theorem bind {f : α → Run n β} (hx : Private x) (hf : ∀ a, Private (f a)) : Private (x >>= f) := by
  refine hx.seq ?_
  rintro a _ rfl
  exact hf a

theorem attempt (hx : Private x) : Private (Run.attempt x) :=
  .orElse (bind hx fun _ => .pure rfl) fun _ => .pure rfl

/-- a look at the memory is private if the shared nodes are not looked at -/
theorem look {f : Memory n → α} (hf : ∀ m nodes, f (m.sharing nodes) = f m) :
    Private (do return f (← Run.memory)) := by
  rintro m _ ⟨nodes, rfl⟩
  exact ⟨(hf m nodes).symm, nodes, rfl⟩

theorem update {change : Memory n → Memory n}
    (h : ∀ m nodes, change (m.sharing nodes) = (change m).sharing nodes) : Private (Run.update change) := by
  rintro m _ ⟨nodes, rfl⟩
  exact ⟨rfl, nodes, h m nodes⟩

theorem noting {returned : α → Event n} {failed : ResolveError → Event n} (hx : Private x) :
    Private (Run.noting x returned failed) := by
  intro m m' hm
  rcases hx.cases hm with ⟨a, _, m₁, _, hxm, hxm', rfl, nodes, rfl⟩ | ⟨e | _, m₁, _, hxm, hxm', nodes, rfl⟩ <;>
    simp only [Run.noting, hxm, hxm']
  · exact ⟨rfl, nodes, rfl⟩
  · exact ⟨rfl, nodes, rfl⟩
  · exact ⟨rfl, nodes, rfl⟩

/-- the same outcome, and a memory that is the same but for the shared nodes -/
theorem apply (hx : Private x) (m : Memory n) (nodes : List Node) :
    ∃ nodes', x (m.sharing nodes) = ((x m).1, (x m).2.sharing nodes') := by
  obtain ⟨ho, nodes', hm⟩ := hx m (m.sharing nodes) ⟨nodes, rfl⟩
  exact ⟨nodes', Prod.ext ho.eq.symm hm⟩

end Private

end Run

/-! ## Sources -/

section Sources

open Run

variable {c : Contract} {a : Access c} (hr : ∀ thread s, Private (a.read thread s))

include hr

theorem Access.readName_private (thread : Nat) (name : String) : Private (a.readName thread name) := by
  unfold readName
  cases c.slot? name with
  | none => exact .fail _
  | some s => exact hr thread s

theorem Access.get_private (thread : Nat) (t : ValueType) (name : String) : Private (a.get thread t name) := by
  refine .bind (readName_private hr thread name) fun v => ?_
  cases v.as? t with
  | none => exact .fail _
  | some x => exact .pure rfl

theorem Access.readAll_private (thread : Nat) : Private (a.readAll thread) := by
  unfold readAll
  induction c.slots with
  | nil => exact .pure rfl
  | cons s rest ih => exact .bind (.bind (hr thread s) fun _ => .pure rfl) fun _ => ih

/-- **A source is private if its reads are**, and first evaluations of its nodes, if it has any. -/
theorem Expr.eval_private {t : ValueType} (e : Expr t) (hf : 0 < e.onceCount → ∀ place, Private (a.first place))
    (thread : Nat) (place : Place) : Private (e.eval a thread place) := by
  induction e generalizing thread place with
  | const v => exact .pure rfl
  | get name => exact a.get_private hr thread _ name
  | display name => exact .bind (a.readName_private hr thread name) fun _ => .pure rfl
  | tier name => exact .look fun _ _ => rfl
  | fail e => exact .fail e
  | once first later ih₁ ih₂ =>
    have hf := hf (Nat.succ_pos _)
    refine .bind (hf place) fun b => ?_
    cases b with
    | true => exact ih₁ (fun _ => hf) thread _
    | false => exact ih₂ (fun _ => hf) thread _
  | orElse e fallback ih₁ ih₂ =>
    exact .orElse (ih₁ (fun h => hf (Nat.add_pos_left h _)) thread _) fun _ =>
      ih₂ (fun h => hf (Nat.add_pos_right _ h)) thread _
  | add how x y ih₁ ih₂ =>
    exact .bind (ih₁ (fun h => hf (Nat.add_pos_left h _)) thread _) fun _ =>
      .bind (ih₂ (fun h => hf (Nat.add_pos_right _ h)) thread _) fun _ => .pure rfl
  | cond name yes no ih₁ ih₂ =>
    refine .bind (a.get_private hr thread _ name) fun b => ?_
    cases b with
    | true => exact ih₁ (fun h => hf (Nat.add_pos_left h _)) thread _
    | false => exact ih₂ (fun h => hf (Nat.add_pos_right _ h)) thread _
  | errorText e ih => exact .orElse (Private.bind (ih hf thread _) fun _ => .pure rfl) fun _ => .pure rfl
  | resolveAll e ih => exact .bind (a.readAll_private hr thread) fun _ => ih hf thread _
  | spawn e ih => exact ih hf (thread + 1) _
  | apply f e ih =>
    refine .bind (ih hf thread _) fun v => ?_
    cases f v with
    | ok w => exact .pure rfl
    | error e => exact .fail e

end Sources

/-! ## Instances -/

/-- no default has a node whose first evaluation differs from the later ones -/
def Contract.Steady (c : Contract) : Prop := ∀ a ∈ c.accessors, ∀ e, a.default = some e → e.onceCount = 0

namespace Instance

open Run

variable {i : Instance}

theorem firstOwn_private (s : i.contract.Slot) (place : Place) : Private (i.firstOwn s place) := by
  rintro m _ ⟨nodes, rfl⟩
  have hspent : (m.sharing nodes).spent = m.spent := rfl
  simp only [firstOwn, memory_bind_apply, hspent]
  split
  · exact ⟨rfl, nodes, rfl⟩
  · exact ⟨rfl, nodes, rfl⟩

theorem consult_private (l : Lookup) (s : i.contract.Slot) : Private (i.consult l s) := by
  rintro m _ ⟨nodes, rfl⟩
  rw [consult_apply, consult_apply]
  refine ⟨?_, nodes, rfl⟩
  have hasked : (m.sharing nodes).asked = m.asked := rfl
  rw [hasked]
  cases l.ask (i.contract.accessor s).info (m.asked.count s) <;> rfl

theorem runSource_private (s : i.contract.Slot) (tier : Tier) {opinion : Run i.size (Option Value)}
    (ho : Private opinion) : Private (i.runSource s tier opinion) :=
  .bind (.update fun _ _ => rfl) fun _ => ho.noting

theorem keep_private (s : i.contract.Slot) (r : Resolved) : Private (i.keep s r) := by
  rintro m _ ⟨nodes, rfl⟩
  have hresolved : (m.sharing nodes).resolved? = m.resolved? := rfl
  have hstore : (m.sharing nodes).store s r = (m.store s r).sharing nodes := by
    unfold Memory.store
    rw [hresolved]
    split <;> rfl
  rw [keep_apply, keep_apply, hresolved, hstore]
  split
  · exact ⟨rfl, nodes, rfl⟩
  · exact ⟨rfl, nodes, rfl⟩

theorem answer_private (thread : Nat) (s : i.contract.Slot) (v : Value) : Private (i.answer thread s v) :=
  .bind (.update fun _ _ => rfl) fun _ => .pure rfl

section Reads

variable (hc : i.contract.Steady) {read : Nat → i.contract.Slot → Run i.size Value}
  (hr : ∀ thread s, Private (read thread s))

include hc hr

theorem opinion_private (thread : Nat) (s : i.contract.Slot) (tier : Tier) :
    Private (i.opinion read thread s tier) := by
  unfold opinion
  cases tier with
  | override =>
    cases i.override? s with
    | none => exact .pure rfl
    | some source =>
      have he := source.expr.eval_private (a := ⟨read, i.firstOwn s⟩) hr (fun _ => firstOwn_private s) thread []
      exact runSource_private s _ (.bind he fun _ => .pure rfl)
  | lookup =>
    cases i.lookup with
    | none => exact .pure rfl
    | some l => exact runSource_private s _ (consult_private l s)
  | default =>
    cases hd : (i.contract.accessor s).source? with
    | none => exact .pure rfl
    | some source =>
      obtain ⟨e, he, rfl⟩ := Option.map_eq_some_iff.1 hd
      have honce : e.onceCount = 0 := hc _ (List.get_mem _ _) e he
      have he := e.eval_private (a := ⟨read, i.firstShared s⟩) hr (fun h => absurd honce (Nat.ne_of_gt h)) thread []
      exact runSource_private s _ (.bind he fun _ => .pure rfl)

theorem settle_private (thread : Nat) (s : i.contract.Slot) : Private (i.settle read thread s) := by
  have hcompute : Private (i.compute read thread s) := by
    unfold compute
    induction Tier.all with
    | nil => exact .fail _
    | cons tier rest ih =>
      refine .bind (opinion_private hc hr thread s tier) fun o => ?_
      cases o with
      | none => exact ih
      | some v => exact .pure rfl
  exact .bind hcompute fun r => .bind (keep_private s r) fun v => answer_private thread s v

end Reads

/-- **Every read is private** if the defaults are steady. -/
theorem resolve_private (hc : i.contract.Steady) (depth thread : Nat) (s : i.contract.Slot) :
    Private (i.resolve depth thread s) := by
  induction depth generalizing thread s with
  | zero => exact fun _ _ hm => ⟨rfl, hm⟩
  | succ depth ih =>
    rintro m _ ⟨nodes, rfl⟩
    have hresolved : (m.sharing nodes).resolved? s = m.resolved? s := rfl
    have hchain : (m.sharing nodes).chain thread s = m.chain thread s := rfl
    cases hs : m.resolved? s with
    | some r =>
      rw [resolve_cached hs, resolve_cached (hresolved.trans hs)]
      exact ⟨rfl, nodes, rfl⟩
    | none =>
      by_cases hm : m.chain thread s = []
      · rw [resolve_entered hs hm, resolve_entered (hresolved.trans hs) (hchain.trans hm)]
        have hsettle := settle_private hc ih thread s (m.enter thread s) ((m.enter thread s).sharing nodes) ⟨nodes, rfl⟩
        obtain ⟨ho, nodes', hm'⟩ := hsettle
        refine ⟨ho, nodes', ?_⟩
        show Memory.leave (i.settle _ thread s ((m.enter thread s).sharing nodes)).2 thread s = _
        rw [hm']
        rfl
      · rw [resolve_reentered hs hm, resolve_reentered (hresolved.trans hs) (hchain ▸ hm), hchain]
        exact ⟨rfl, nodes, rfl⟩

/-! ## Requests -/

theorem reportEntries_private (hc : i.contract.Steady) (thread : Nat) (config : Option Config.Layered)
    (infos : List AccessorInfo) : Private (i.reportEntries thread config infos) := by
  induction infos with
  | nil => exact .pure rfl
  | cons info rest ih =>
    have hread := i.access.readName_private (fun thread s => resolve_private hc _ thread s) thread info.name
    refine .bind (.bind hread.attempt fun v => ?_) fun e => .bind ih fun es => .pure rfl
    cases v with
    | ok v => exact .look fun _ _ => rfl
    | error e => exact .pure rfl

/-- **Every request is private** if the defaults are steady. -/
theorem request_private (hc : i.contract.Steady) (config : Option Config.Layered) (thread : Nat) (r : Request) :
    Private (r.answer i config thread) := by
  have hread : ∀ thread s, Private (i.access.read thread s) := fun thread s => resolve_private hc _ thread s
  have htry (t : ValueType) (name : String) : Private (i.tryGet thread t name) :=
    .attempt (.bind (i.access.get_private hread thread t name) fun _ => .pure rfl)
  cases r with
  | get t name => exact .bind (htry t name) fun _ => .pure rfl
  | getTwice t name => exact .bind (htry t name) fun _ => .bind (htry t name) fun _ => .pure rfl
  | getValue name => exact .bind (.attempt (i.access.readName_private hread thread name)) fun _ => .pure rfl
  | resolveAll => exact .bind (.attempt (i.access.readAll_private hread thread)) fun _ => .pure rfl
  | tier name => exact .look fun _ _ => rfl
  | overridden _ | hasLookup => exact .pure rfl
  | explain => exact .look fun _ _ => rfl
  | report withConfig createdAt =>
    exact .bind (.bind (reportEntries_private hc thread _ _) fun _ => .pure rfl) fun _ => .pure rfl

end Instance

/-! ## Members -/

/-- the member under another id, where other nodes were evaluated -/
def Member.moved (m : Member) (id : Nat) (nodes : List Node) : Member :=
  { m with id := id, memory := m.memory.sharing nodes }

/-- A member whose defaults are steady has the same outcomes anywhere. -/
theorem Member.ask_moved {m : Member} (hc : m.inst.contract.Steady) (shared shared' : List Node) (id : Nat)
    (nodes : List Node) (thread : Nat) (r : Request) :
    ∃ nodes', (m.moved id nodes).ask shared' thread r =
      ((m.ask shared thread r).1, (m.ask shared thread r).2.moved id nodes') := by
  obtain ⟨nodes', h⟩ := (Instance.request_private hc m.config thread r).apply
    { m.memory with shared := shared, journal := [] } shared'
  have h : r.answer m.inst m.config thread { m.memory with shared := shared', journal := [] } = _ := h
  refine ⟨nodes', ?_⟩
  unfold ask perform moved Memory.sharing
  simp only [h]
  rfl

/-! ## Sessions -/

namespace Session

/-- what a request to the instance in a place comes to -/
def outcome? (s : Session) (k : Nat) : Action → Option (Outcome Answer)
  | .ask k' thread r => if k' = k then (s.ask k thread r).map (·.1) else none
  | _ => none

/-- what the requests to the instance in a place come to, in order -/
def outcomes (s : Session) (k : Nat) : List Action → List (Outcome Answer)
  | [] => []
  | action :: rest => (s.outcome? k action).toList ++ (s.step action).outcomes k rest

/-- the requests to the instance in a place, put to the first instance of a session -/
def requestsTo (k : Nat) (actions : List Action) : List Action :=
  actions.filterMap fun
    | .ask k' thread r => if k' = k then some (.ask 0 thread r) else none
    | _ => none

/-- a request to another instance leaves the instance as it is -/
theorem member?_ask_of_ne (s : Session) {k k' : Nat} (hk : k' ≠ k) (thread : Nat) (r : Request) :
    (s.step (.ask k' thread r)).member? k = s.member? k := by
  show (((s.ask k' thread r).map (·.2)).getD s).member? k = _
  unfold ask perform
  cases s.member? k' with
  | none => rfl
  | some m => simp [member?, List.getElem?_set_ne hk]

/-- a place that comes later leaves the instance as it is -/
theorem member?_append {s : Session} {k : Nat} {m : Member} (h : s.member? k = some m) (x : Option Member)
    (shared : Nat → List Node) : (⟨s.members ++ [x], shared⟩ : Session).member? k = some m := by
  have hk : k < s.members.length := (List.getElem?_eq_some_iff.1 (Option.join_eq_some_iff.1 h)).1
  rw [← h, member?, member?, List.getElem?_append_left hk]

theorem ask_member {s : Session} {k : Nat} {m : Member} (h : s.member? k = some m) (thread : Nat) (r : Request) :
    s.outcome? k (.ask k thread r) = some (m.ask (s.shared m.family) thread r).1 ∧
      (s.step (.ask k thread r)).member? k = some (m.ask (s.shared m.family) thread r).2 := by
  have hk : k < s.members.length := (List.getElem?_eq_some_iff.1 (Option.join_eq_some_iff.1 h)).1
  obtain ⟨s', hask, hs'⟩ : ∃ s', s.ask k thread r = some ((m.ask (s.shared m.family) thread r).1, s') ∧
      s'.members = s.members.set k (some (m.ask (s.shared m.family) thread r).2) := by
    simp only [ask, perform, h]
    exact ⟨_, rfl, rfl⟩
  refine ⟨by simp [outcome?, hask], ?_⟩
  simp [step, hask, member?, hs', List.getElem?_set_self hk]

/-- The instance in a place of a session is the first instance of another; what the families share may be different. -/
def Mirrors (i : Instance) (s : Session) (k : Nat) (alone : Session) : Prop :=
  ∃ m nodes, m.inst = i ∧ s.member? k = some m ∧ alone.member? 0 = some (m.moved 0 nodes)

variable {i : Instance} {s alone : Session} {k : Nat}

/-- **One action.** If it is a request to the instance, it comes to the same in both sessions; and the instance is the
same in both afterwards. -/
theorem Mirrors.step (hc : i.contract.Steady) (h : Mirrors i s k alone) (action : Action) :
    (s.outcome? k action).toList = alone.outcomes 0 (requestsTo k [action]) ∧
      Mirrors i (s.step action) k ((requestsTo k [action]).foldl Session.step alone) := by
  obtain ⟨m, nodes, rfl, hm, hm'⟩ := h
  cases action with
  | skip => exact ⟨rfl, m, nodes, rfl, member?_append hm none _, hm'⟩
  | build c family supply overrides =>
    refine ⟨rfl, m, nodes, rfl, ?_, hm'⟩
    simp only [Session.step, build]
    cases Instance.build c supply.lookup? overrides with
    | error e => exact member?_append hm none _
    | ok i => exact member?_append hm _ _
  | ask k' thread r =>
    by_cases hk : k' = k
    · subst hk
      obtain ⟨ho, hs⟩ := ask_member hm thread r
      obtain ⟨ho', hs'⟩ := ask_member hm' thread r
      obtain ⟨nodes', hask⟩ := Member.ask_moved hc (s.shared m.family) (alone.shared (m.moved 0 nodes).family) 0 nodes
        thread r
      rw [hask] at ho' hs'
      have hrequests : requestsTo k' [.ask k' thread r] = [.ask 0 thread r] := by simp [requestsTo]
      rw [hrequests]
      refine ⟨?_, (m.ask (s.shared m.family) thread r).2, nodes', rfl, hs, hs'⟩
      show _ = (alone.outcome? 0 (.ask 0 thread r)).toList ++ []
      rw [ho, ho', List.append_nil]
    · have hrequests : requestsTo k [.ask k' thread r] = [] := by simp [requestsTo, hk]
      rw [hrequests]
      exact ⟨by simp [outcome?, hk, outcomes], m, nodes, rfl, (member?_ask_of_ne s hk thread r).trans hm, hm'⟩

theorem outcomes_append (s : Session) (k : Nat) (early late : List Action) :
    s.outcomes k (early ++ late) = s.outcomes k early ++ (early.foldl Session.step s).outcomes k late := by
  induction early generalizing s with
  | nil => rfl
  | cons action early ih => simp [outcomes, ih]

/-- **Any actions**, one after the other -/
theorem Mirrors.run (hc : i.contract.Steady) (h : Mirrors i s k alone) (actions : List Action) :
    s.outcomes k actions = alone.outcomes 0 (requestsTo k actions) ∧
      Mirrors i (actions.foldl Session.step s) k ((requestsTo k actions).foldl Session.step alone) := by
  induction actions generalizing s alone with
  | nil => exact ⟨rfl, h⟩
  | cons action rest ih =>
    obtain ⟨ho, hs⟩ := h.step hc action
    obtain ⟨iho, ihs⟩ := ih hs
    have hsplit : requestsTo k (action :: rest) = requestsTo k [action] ++ requestsTo k rest := by
      rw [← List.singleton_append, requestsTo, List.filterMap_append]
      rfl
    rw [hsplit, outcomes_append, List.foldl_append]
    exact ⟨by rw [outcomes, ho, iho], ihs⟩

/-- a new instance is the same as the first of a session -/
theorem mirrors_build {c : Contract} {supply : Supply} {overrides : List Override}
    (hb : Instance.build c supply.lookup? overrides = .ok i) (s : Session) (family : Nat) :
    Mirrors i (s.step (.build c family supply overrides)) s.members.length
      (run [.build c family supply overrides]) := by
  let id := (s.members.filter (·.isSome)).length
  refine ⟨⟨id, family, supply.config?, i, .fresh i.size []⟩, [], rfl, ?_, ?_⟩
  · simp [step, build, hb, member?, id]
  · simp only [run, List.foldl_cons, List.foldl_nil, step, build, hb]
    rfl

/-- **Instances are isolated.** Take any session, an instance built in it over a contract whose defaults are steady, and
whatever happens after that: other instances are built, over the same contract or others, and all are asked in any
order and on any threads.
- The outcomes of the requests to the instance (answers, tiers of all options and sources that were run) are those that
  they have in a session in which the instance is the only one and they are the only requests.
- Its memory is the same in both, at every moment: what is cached and under way, the nodes of overrides that were
  evaluated, how often the lookup was asked.
- A request to another instance leaves it as it is, in every session. -/
theorem members_isolated (before after : List Action) {c : Contract} (hc : c.Steady) (family : Nat) (supply : Supply)
    (overrides : List Override) {i : Instance} (hb : Instance.build c supply.lookup? overrides = .ok i) :
    let k := (run before).members.length
    let shared := run (before ++ [.build c family supply overrides])
    let alone := run [.build c family supply overrides]
    shared.outcomes k after = alone.outcomes 0 (requestsTo k after) ∧
    (∃ m nodes, m.inst = i ∧ (after.foldl step shared).member? k = some m ∧
      ((requestsTo k after).foldl step alone).member? 0 =
        some { m with id := 0, memory := { m.memory with shared := nodes } }) ∧
    ∀ (s : Session) (k k' thread : Nat) (r : Request), k' ≠ k →
      (s.step (.ask k' thread r)).member? k = s.member? k := by
  obtain ⟨-, rfl⟩ := Instance.build_ok hb
  have hstart := mirrors_build hb (run before) family
  have hstart' :
      run (before ++ [.build c family supply overrides]) = (run before).step (.build c family supply overrides) :=
    List.foldl_append
  obtain ⟨ho, hm⟩ := hstart.run hc after
  rw [← hstart'] at ho hm
  intro k shared alone
  exact ⟨ho, hm, fun s k k' thread r hk => member?_ask_of_ne s hk thread r⟩

/-- A desk with tickets, and a sign that shows the ticket. -/
def deskContract : Contract := ⟨"Desk", [
  ⟨"ticket", [], .int .u32, some (.const 1#32)⟩,
  ⟨"sign", [], .string, some (.add .string (.display "ticket") (.const "!"))⟩]⟩

/-- tickets that are not to be had the first time -/
def lateTickets : Override := ⟨some "ticket", .int .u32, .once (.fail (.ofMessage "closed")) (.const 7#32)⟩

def desk : Instance := ⟨deskContract, #v[some lateTickets.source, none], none⟩

/-- two desks that are asked in turns -/
def deskRequests : List Action :=
  [.ask 0 0 (.getValue "ticket"), .ask 1 0 (.getValue "sign"), .ask 0 1 .resolveAll, .ask 1 0 (.getValue "sign")]

example : (run [.build deskContract 0 .nothing [lateTickets], .build deskContract 0 .nothing [lateTickets]]).outcomes 1
    deskRequests = [
      ⟨.ok (.value (.error (.ofMessage "closed"))), [none, none], [("sign", .default), ("ticket", .override)]⟩,
      ⟨.ok (.value (.ok ⟨.string, "7!"⟩)), [some .override, some .default],
        [("sign", .default), ("ticket", .override)]⟩] := by rfl

/-- The second desk has its first ticket refused, too, whatever the first one was asked before. -/
theorem second_desk_isolated : deskContract.Steady ∧ Instance.build deskContract none [lateTickets] = .ok desk ∧
    (run [.build deskContract 0 .nothing [lateTickets], .build deskContract 0 .nothing [lateTickets]]).outcomes 1
        deskRequests =
      (run [.build deskContract 0 .nothing [lateTickets]]).outcomes 0
        [.ask 0 0 (.getValue "sign"), .ask 0 0 (.getValue "sign")] := by
  have hsteady : deskContract.Steady := by
    unfold Contract.Steady
    simp [deskContract, Expr.onceCount]
  have hbuild : Instance.build deskContract none [lateTickets] = .ok desk := by rfl
  exact ⟨hsteady, hbuild,
    (members_isolated [.build deskContract 0 .nothing [lateTickets]] deskRequests hsteady 0 .nothing [lateTickets]
      hbuild).1⟩

end Session

end TieredOptions
