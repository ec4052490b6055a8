/-
Expressions without a memory. `Expr.value` evaluates an expression whose reads are answered by a function of the name;
it knows no cache, no threads and no counters. Two statements tie it to the evaluation that resolutions make:
- `eval_yields`: where every read yields what the function answers, a plain expression yields its value;
- `value_of_eval`: if every read that succeeds leaves the option cached with the value it answered, and the cache is
  never taken back, then a direct expression that evaluates to `x` has the value `x` when its reads are answered from
  the cache alone.

Plain expressions hold none of the constructs that look at what is remembered (`once`, `tier`, `resolveAll`). Direct
ones are built from constants, reads, sums and choices only, so nothing in them can hide that a read failed.
-/
import TieredOptions.Proofs.Run

namespace TieredOptions

/-- two parts that succeed one after the other -/
theorem bind_eq_ok {ε α β : Type} {x : Except ε α} {f : α → Except ε β} {b : β} :
    (x >>= f) = .ok b ↔ ∃ a, x = .ok a ∧ f a = .ok b := by
  cases x with
  | error e => exact ⟨nofun, fun ⟨_, h, _⟩ => nomatch h⟩
  | ok a =>
    constructor
    · intro h
      exact ⟨a, rfl, h⟩
    · rintro ⟨_, h, hf⟩
      cases h
      exact hf

/-- a value that was computed is the one that can be compared -/
theorem ok_of_toOption {ε α : Type} {x : Except ε α} {a : α} (h : x.toOption = some a) : x = .ok a := by
  cases x with
  | error e => cases h
  | ok b => exact congrArg _ (Option.some.inj h)

/-! ## Caches -/

/-- what the options of an instance with `n` options are resolved to -/
abbrev Cache (n : Nat) := Fin n → Option Resolved

/-- nothing that is cached before is missing or different after -/
def Cache.Kept {n : Nat} (before after : Cache n) : Prop := ∀ s r, before s = some r → after s = some r

theorem Cache.Kept.refl {n : Nat} (cache : Cache n) : cache.Kept cache := fun _ _ h => h

theorem Cache.Kept.trans {n : Nat} {a b c : Cache n} (h₁ : a.Kept b) (h₂ : b.Kept c) : a.Kept c :=
  fun s r h => h₂ s r (h₁ s r h)

/-- a read answered from a cache alone; an option that is not cached has no answer -/
def Contract.recalled (c : Contract) (cache : Cache c.size) (name : String) : Except ResolveError Value :=
  match c.slot? name with
  | none => .error (.noSuchAccessor c.name name)
  | some s =>
    match cache s with
    | none => .error (.missing name)
    | some r => .ok r.value

theorem Contract.recalled_ok {c : Contract} {cache : Cache c.size} {name : String} {v : Value} :
    c.recalled cache name = .ok v ↔ ∃ s r, c.slot? name = some s ∧ cache s = some r ∧ r.value = v := by
  unfold recalled
  cases c.slot? name with
  | none => simp
  | some s => cases h : cache s <;> simp [h]

theorem Contract.recalled_mono {c : Contract} {before after : Cache c.size} (h : before.Kept after) {name : String}
    {v : Value} (hv : c.recalled before name = .ok v) : c.recalled after name = .ok v := by
  obtain ⟨s, r, hs, hr, hv⟩ := Contract.recalled_ok.1 hv
  exact Contract.recalled_ok.2 ⟨s, r, hs, h s r hr, hv⟩

/-! ## Expressions -/

namespace Expr

/-- an option at a type, with reads answered by `read` -/
def readAt (read : String → Except ResolveError Value) (t : ValueType) (name : String) :
    Except ResolveError t.Carrier := do
  match (← read name).as? t with
  | some x => return x
  | none => throw (.typeMismatch name t)

/-- The value of an expression whose reads are answered by `read`. There is no memory: every evaluation of a `once`
    node is the first, and no option is resolved yet. -/
def value (read : String → Except ResolveError Value) : {t : ValueType} → Expr t → Except ResolveError t.Carrier
  | _, .const v => .ok v
  | t, .get name => readAt read t name
  | _, .display name => do return (← read name).display
  | _, .tier _ => .ok (tierWord none)
  | _, .fail e => .error e
  | _, .once first _ => first.value read
  | _, .orElse e fallback => tryCatch (e.value read) fun _ => fallback.value read
  | _, .add how x y => do return how.add (← x.value read) (← y.value read)
  | _, .cond name yes no => do
    match ← readAt read .bool name with
    | true => yes.value read
    | false => no.value read
  | _, .errorText e => tryCatch (do let _ ← e.value read; return "ok") fun e => return e.message
  | _, .resolveAll e => e.value read
  | _, .spawn e => e.value read
  | _, .apply f e => do f (← e.value read)

/-- the names that an evaluation reads, given what the reads are answered -/
def touched (read : String → Except ResolveError Value) : {t : ValueType} → Expr t → List String
  | _, .get name | _, .display name => [name]
  | _, .once first _ => touched read first
  | _, .orElse a b => touched read a ++ if (a.value read).isOk then [] else touched read b
  | _, .add _ a b => touched read a ++ if (a.value read).isOk then touched read b else []
  | _, .cond name a b => name :: match readAt read .bool name with
    | .ok true => touched read a
    | .ok false => touched read b
    | .error _ => []
  | _, .errorText e | _, .resolveAll e | _, .spawn e | _, .apply _ e => touched read e
  | _, .const _ | _, .tier _ | _, .fail _ => []

/-- no construct that looks at what is remembered -/
def isPlain : {t : ValueType} → Expr t → Bool
  | _, .once _ _ | _, .tier _ | _, .resolveAll _ => false
  | _, .orElse a b | _, .add _ a b | _, .cond _ a b => isPlain a && isPlain b
  | _, .errorText e | _, .spawn e | _, .apply _ e => isPlain e
  | _, .const _ | _, .get _ | _, .display _ | _, .fail _ => true

/-- constants, reads, sums and choices only -/
def isDirect : {t : ValueType} → Expr t → Bool
  | _, .const _ | _, .get _ | _, .display _ => true
  | _, .add _ a b | _, .cond _ a b => isDirect a && isDirect b
  | _, _ => false

/-- the value depends on the reads that occur only -/
theorem value_congr {f g : String → Except ResolveError Value} {t : ValueType} (e : Expr t)
    (h : ∀ name ∈ e.reads, f name = g name) : e.value f = e.value g := by
  induction e with
  | const _ | tier _ | fail _ => rfl
  | get name | display name => simp only [value, readAt, h name (by simp [reads])]
  | once a b ih₁ _ => exact ih₁ fun name hn => h name (List.mem_append_left _ hn)
  | orElse a b ih₁ ih₂ | add _ a b ih₁ ih₂ =>
    simp only [value, ih₁ fun name hn => h name (List.mem_append_left _ hn),
      ih₂ fun name hn => h name (List.mem_append_right _ hn)]
  | cond name a b ih₁ ih₂ =>
    simp only [value, readAt, h name List.mem_cons_self,
      ih₁ fun name hn => h name (List.mem_cons_of_mem _ (List.mem_append_left _ hn)),
      ih₂ fun name hn => h name (List.mem_cons_of_mem _ (List.mem_append_right _ hn))]
  | errorText e ih | resolveAll e ih | spawn e ih | apply _ e ih => simp only [value, ih h]

theorem readAt_ok {read : String → Except ResolveError Value} {t : ValueType} {name : String} {x : t.Carrier} :
    readAt read t name = .ok x ↔ ∃ v, read name = .ok v ∧ v.as? t = some x := by
  unfold readAt
  rw [bind_eq_ok]
  refine exists_congr fun v => and_congr_right fun _ => ?_
  cases v.as? t with
  | none => exact ⟨nofun, nofun⟩
  | some y => exact ⟨fun h => by cases h; rfl, fun h => by cases h; rfl⟩

theorem readAt_mono {f g : String → Except ResolveError Value} (h : ∀ name v, f name = .ok v → g name = .ok v)
    {t : ValueType} {name : String} {x : t.Carrier} (hx : readAt f t name = .ok x) : readAt g t name = .ok x := by
  obtain ⟨v, hv, hx⟩ := readAt_ok.1 hx
  exact readAt_ok.2 ⟨v, h name v hv, hx⟩

/-- A direct expression that has a value keeps it when more reads succeed. -/
theorem value_mono {f g : String → Except ResolveError Value} (h : ∀ name v, f name = .ok v → g name = .ok v)
    {t : ValueType} (e : Expr t) (he : e.isDirect = true) {x : t.Carrier} (hx : e.value f = .ok x) :
    e.value g = .ok x := by
  induction e with
  | const v => exact hx
  | get name => exact readAt_mono h hx
  | display name =>
    obtain ⟨v, hv, hx⟩ := bind_eq_ok.1 hx
    exact bind_eq_ok.2 ⟨v, h name v hv, hx⟩
  | add how a b ih₁ ih₂ =>
    simp only [isDirect, Bool.and_eq_true] at he
    obtain ⟨v, hv, hx⟩ := bind_eq_ok.1 hx
    obtain ⟨w, hw, hx⟩ := bind_eq_ok.1 hx
    exact bind_eq_ok.2 ⟨v, ih₁ he.1 hv, bind_eq_ok.2 ⟨w, ih₂ he.2 hw, hx⟩⟩
  | cond name yes no ih₁ ih₂ =>
    simp only [isDirect, Bool.and_eq_true] at he
    obtain ⟨b, hb, hx⟩ := bind_eq_ok.1 hx
    refine bind_eq_ok.2 ⟨b, readAt_mono h hb, ?_⟩
    cases b with
    | true => exact ih₁ he.1 hx
    | false => exact ih₂ he.2 hx
  | _ => simp [isDirect] at he

/-- Every read of a direct expression that has a value succeeds. -/
theorem touched_ok {read : String → Except ResolveError Value} {t : ValueType} (e : Expr t)
    (he : e.isDirect = true) {x : t.Carrier} (hx : e.value read = .ok x) :
    ∀ name ∈ e.touched read, ∃ v, read name = .ok v := by
  induction e with
  | const v => simp [touched]
  | get name =>
    obtain ⟨v, hv, -⟩ := readAt_ok.1 hx
    simpa [touched] using ⟨v, hv⟩
  | display name =>
    obtain ⟨v, hv, -⟩ := bind_eq_ok.1 hx
    simpa [touched] using ⟨v, hv⟩
  | add how a b ih₁ ih₂ =>
    simp only [isDirect, Bool.and_eq_true] at he
    obtain ⟨v, hv, hx⟩ := bind_eq_ok.1 hx
    obtain ⟨w, hw, -⟩ := bind_eq_ok.1 hx
    intro name hn
    simp only [touched, hv, Except.isOk, Except.toBool, if_true, List.mem_append] at hn
    exact hn.elim (ih₁ he.1 hv name) (ih₂ he.2 hw name)
  | cond name yes no ih₁ ih₂ =>
    simp only [isDirect, Bool.and_eq_true] at he
    obtain ⟨b, hb, hx⟩ := bind_eq_ok.1 hx
    obtain ⟨v, hv, -⟩ := readAt_ok.1 hb
    intro other hn
    simp only [touched, hb, List.mem_cons] at hn
    rcases hn with rfl | hn
    · exact ⟨v, hv⟩
    · cases b with
      | true => exact ih₁ he.1 hx other hn
      | false => exact ih₂ he.2 hx other hn
  | _ => simp [isDirect] at he

end Expr

/-! ## Evaluation with a memory -/

section Evaluation

variable {c : Contract} {a : Access c}

theorem Access.get_yields {I : Memory c.size → Prop} {read : String → Except ResolveError Value} {thread : Nat}
    {name : String} (hr : Run.Yields I (a.readName thread name) (read name)) (t : ValueType) :
    Run.Yields I (a.get thread t name) (Expr.readAt read t name) := by
  refine .bind hr fun v _ => ?_
  cases v.as? t with
  | none => exact .fail _
  | some x => exact .pure x

/-- **Plain expressions need no memory.** Where every read yields what `read` answers, the expression yields its value.
    The threads that it starts make no difference. -/
theorem Expr.eval_yields {I : Memory c.size → Prop} {read : String → Except ResolveError Value} {t : ValueType}
    (e : Expr t) (he : e.isPlain = true)
    (hr : ∀ name ∈ e.reads, ∀ thread, Run.Yields I (a.readName thread name) (read name)) (thread : Nat)
    (place : Place) : Run.Yields I (e.eval a thread place) (e.value read) := by
  induction e generalizing thread place with
  | const v => exact .pure v
  | get name => exact Access.get_yields (hr name (by simp [reads]) thread) _
  | display name => exact .bind (hr name (by simp [reads]) thread) fun _ _ => .pure _
  | fail e => exact .fail e
  | orElse e fallback ih₁ ih₂ =>
    simp only [isPlain, Bool.and_eq_true] at he
    exact .orElse (ih₁ he.1 (fun n hn => hr n (List.mem_append_left _ hn)) thread _) fun _ _ =>
      ih₂ he.2 (fun n hn => hr n (List.mem_append_right _ hn)) thread _
  | add how x y ih₁ ih₂ =>
    simp only [isPlain, Bool.and_eq_true] at he
    exact .bind (ih₁ he.1 (fun n hn => hr n (List.mem_append_left _ hn)) thread _) fun _ _ =>
      .bind (ih₂ he.2 (fun n hn => hr n (List.mem_append_right _ hn)) thread _) fun _ _ => .pure _
  | cond name yes no ih₁ ih₂ =>
    simp only [isPlain, Bool.and_eq_true] at he
    refine .bind (Access.get_yields (hr name List.mem_cons_self thread) .bool) fun b _ => ?_
    cases b with
    | true => exact ih₁ he.1 (fun n hn => hr n (List.mem_cons_of_mem _ (List.mem_append_left _ hn))) thread _
    | false => exact ih₂ he.2 (fun n hn => hr n (List.mem_cons_of_mem _ (List.mem_append_right _ hn))) thread _
  | errorText e ih => exact .orElse (.bind (ih he hr thread _) fun _ _ => .pure _) fun _ _ => .pure _
  | spawn e ih => exact ih he hr (thread + 1) _
  | apply f e ih =>
    refine .bind (ih he hr thread _) fun v _ => ?_
    cases f v with
    | ok w => exact .pure w
    | error e => exact .fail e
  | _ => simp [isPlain] at he

/-- nothing cached is lost -/
def Memory.Grows {n : Nat} (m m' : Memory n) : Prop := Cache.Kept m.resolved? m'.resolved?

instance {n : Nat} : IsPreorder (Memory n) Memory.Grows where
  refl m := Cache.Kept.refl m.resolved?
  trans _ _ _ h₁ h₂ := Cache.Kept.trans h₁ h₂

/-- a read that succeeds leaves the option cached with the value that it answered -/
def Cached (read : Nat → c.Slot → Run c.size Value) : Prop :=
  ∀ thread s m v, (read thread s m).1 = .ok v → ∃ tier, (read thread s m).2.resolved? s = some ⟨v, tier⟩

theorem Access.readName_cached (hc : Cached a.read) {thread : Nat} {name : String} {m : Memory c.size} {v : Value}
    (h : (a.readName thread name m).1 = .ok v) : c.recalled (a.readName thread name m).2.resolved? name = .ok v := by
  unfold readName at h ⊢
  cases hs : c.slot? name with
  | none => simp only [hs] at h; cases h
  | some s =>
    simp only [hs] at h ⊢
    obtain ⟨tier, ht⟩ := hc thread s m v h
    exact Contract.recalled_ok.2 ⟨s, _, hs, ht, rfl⟩

theorem Access.get_cached (hc : Cached a.read) {thread : Nat} {t : ValueType} {name : String} {m : Memory c.size}
    {x : t.Carrier} (h : (a.get thread t name m).1 = .ok x) :
    Expr.readAt (c.recalled (a.get thread t name m).2.resolved?) t name = .ok x := by
  obtain ⟨v, hv, hx, hm⟩ := Run.of_bind_ok h
  rw [show (a.get thread t name m).2 = _ from hm, Expr.readAt_ok]
  cases ht : v.as? t with
  | none => rw [ht] at hx; cases hx
  | some y => rw [ht] at hx; cases hx; exact ⟨v, readName_cached hc hv, ht⟩

/-- **What was computed is what the cache says.** A direct expression that evaluates to `x` has the value `x` when its
    reads are answered from the cache it leaves. The cache only grows, so what one part read still stands when the
    next has been evaluated. -/
theorem Expr.value_of_eval (hc : Cached a.read) (hr : ∀ thread s, Run.Keeps Memory.Grows (a.read thread s))
    (hf : ∀ place, Run.Keeps Memory.Grows (a.first place)) {t : ValueType} (e : Expr t) (he : e.isDirect = true)
    {thread : Nat} {place : Place} {m : Memory c.size} {x : t.Carrier} (h : (e.eval a thread place m).1 = .ok x) :
    e.value (c.recalled (e.eval a thread place m).2.resolved?) = .ok x := by
  induction e generalizing place m with
  | const v => cases h; rfl
  | get name => exact Access.get_cached hc h
  | display name =>
    obtain ⟨v, hv, hx, hm⟩ := Run.of_bind_ok h
    cases hx
    rw [show ((Expr.display name).eval a thread place m).2 = _ from hm]
    exact bind_eq_ok.2 ⟨v, Access.readName_cached hc hv, rfl⟩
  | add how y z ih₁ ih₂ =>
    simp only [isDirect, Bool.and_eq_true] at he
    obtain ⟨v, hv, h, hm⟩ := Run.of_bind_ok h
    obtain ⟨w, hw, h, hm'⟩ := Run.of_bind_ok h
    cases h
    rw [show ((Expr.add how y z).eval a thread place m).2 = _ from hm, hm']
    have hgrow : Cache.Kept (y.eval a thread (0 :: place) m).2.resolved? _ := z.eval_keeps (fun s _ thread => hr thread s) hf thread (1 :: place) _
    have hy := y.value_mono (fun _ _ => Contract.recalled_mono hgrow) he.1 (ih₁ he.1 hv)
    exact bind_eq_ok.2 ⟨v, hy, bind_eq_ok.2 ⟨w, ih₂ he.2 hw, rfl⟩⟩
  | cond name yes no ih₁ ih₂ =>
    simp only [isDirect, Bool.and_eq_true] at he
    obtain ⟨b, hb, h, hm⟩ := Run.of_bind_ok h
    have hv := Access.get_cached hc hb
    rw [show ((Expr.cond name yes no).eval a thread place m).2 = _ from hm]
    cases b with
    | true =>
      have hgrow : Cache.Kept (a.get thread .bool name m).2.resolved? _ := yes.eval_keeps (fun s _ thread => hr thread s) hf thread (0 :: place) _
      exact bind_eq_ok.2 ⟨true, readAt_mono (fun _ _ => Contract.recalled_mono hgrow) hv, ih₁ he.1 h⟩
    | false =>
      have hgrow : Cache.Kept (a.get thread .bool name m).2.resolved? _ := no.eval_keeps (fun s _ thread => hr thread s) hf thread (1 :: place) _
      exact bind_eq_ok.2 ⟨false, readAt_mono (fun _ _ => Contract.recalled_mono hgrow) hv, ih₂ he.2 h⟩
  | _ => simp [isDirect] at he

end Evaluation

end TieredOptions
