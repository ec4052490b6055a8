/-
What a session may rely on of the cache. For every instance, whatever its sources are made of, and every session:
- `value_final`: an option is stored once. What it is cached with at a moment, it is cached with at every later one,
  also while a source is still running; every read that succeeds answers with it, and one that starts when it is there
  runs nothing.
- `value_coherent`: the cache is coherent at every moment. An option that was computed by a direct source holds the
  value that its source has when every read is answered from the cache, so nothing is stored that was computed from a
  value other than the one the instance reports.

Both are read off the history of the session, which is lawful (`history_lawful`).
-/
import TieredOptions.Proofs.History

namespace TieredOptions.Instance

variable {i : Instance}

theorem cacheAt_kept {ts : List Turn} {early late : List (Event i.size)} (he : early <:+ late)
    (hl : late <:+ i.history ts) : (i.cacheAt early).Kept (i.cacheAt late) :=
  ((history_lawful ts).2.suffix hl).kept he

theorem getValue_cached {thread : Nat} {name : String} {s : i.contract.Slot} {m : Memory i.size} {r : Resolved}
    (hs : i.contract.slot? name = some s) (h : m.resolved? s = some r) :
    i.getValue thread name m = (.ok r.value, m.record (.answered thread s r.value)) := by
  unfold getValue Access.readName
  simp only [hs]
  exact resolve_cached h _ thread

theorem get_cached {thread : Nat} {t : ValueType} {name : String} {s : i.contract.Slot} {m : Memory i.size}
    {r : Resolved} (hs : i.contract.slot? name = some s) (h : m.resolved? s = some r) :
    i.get thread t name m =
      (Run.outcome (match r.value.as? t with
        | some x => .ok x
        | none => .error (.typeMismatch name t)), m.record (.answered thread s r.value)) := by
  have hv : i.access.readName thread name m = _ := getValue_cached hs h
  unfold get Access.get
  rw [Run.bind_ok hv]
  cases r.value.as? t <;> rfl

/-- **A value is final.** Of every instance and every session:
- the cache is what the history made of it, and whatever is cached at a moment is cached, with the same value and tier,
  at every later moment, those within a running source included;
- a read that ends with `v`, from whatever memory and however deep in other reads, takes nothing out of the cache, is
  noted, and leaves the option cached with exactly `v`;
- if an option got a value while another was computed for it, nothing of the other is kept, and the read that computed
  it gets the value that is there;
- a read of an option that is cached answers with the cached value and does nothing else; it is only noted. So do the
  reads from outside, as it is or at a type;
- any two reads of an option that were answered, from outside or from within a source, were answered with the same
  value, and it is the one that the option is cached with in the end. -/
theorem value_final (i : Instance) (ts : List Turn) :
    ((i.memoryAfter ts).resolved? = i.cacheAt (i.history ts) ∧
      ∀ early late, early <:+ late → late <:+ i.history ts →
        ∀ s r, i.cacheAt early s = some r → i.cacheAt late s = some r) ∧
    (∀ depth thread s m v, (i.resolve depth thread s m).1 = .ok v →
      m.Grows (i.resolve depth thread s m).2 ∧ .answered thread s v ∈ (i.resolve depth thread s m).2.journal ∧
        ∃ tier, (i.resolve depth thread s m).2.resolved? s = some ⟨v, tier⟩) ∧
    (∀ s m r₀ r, m.resolved? s = some r₀ → (i.contract.accessor s).info.accepts r.value = true →
      i.keep s r m = (.ok r₀.value, m)) ∧
    (∀ thread s m r, m.resolved? s = some r →
      (∀ depth, i.resolve (depth + 1) thread s m = (.ok r.value, m.record (.answered thread s r.value))) ∧
      ∀ name, i.contract.slot? name = some s →
        i.getValue thread name m = (.ok r.value, m.record (.answered thread s r.value)) ∧
        ∀ t, i.get thread t name m =
          (Run.outcome (match r.value.as? t with
            | some x => .ok x
            | none => .error (.typeMismatch name t)), m.record (.answered thread s r.value))) ∧
    (∀ thread thread' s v w, .answered thread s v ∈ i.history ts → .answered thread' s w ∈ i.history ts →
      v = w ∧ ∃ tier, (i.memoryAfter ts).resolved? s = some ⟨v, tier⟩) := by
  obtain ⟨hc, hl⟩ := history_lawful (i := i) ts
  refine ⟨⟨hc, fun early late he hl => cacheAt_kept he hl⟩, ?_, fun s m r₀ r h => keep_of_some h r, ?_, ?_⟩
  · intro depth thread s m v h
    exact ⟨(resolve_follows depth thread s m).grows, resolve_answered h⟩
  · intro thread s m r h
    exact ⟨fun depth => resolve_cached h depth thread, fun name hs =>
      ⟨getValue_cached hs h, fun t => get_cached hs h⟩⟩
  · intro thread thread' s v w hv hw
    obtain ⟨tier, ht⟩ := hl.answered hv
    obtain ⟨tier', ht'⟩ := hl.answered hw
    have heq : (⟨v, tier⟩ : Resolved) = ⟨w, tier'⟩ := Option.some.inj (ht.symm.trans ht')
    exact ⟨congrArg Resolved.value heq, tier, by rw [hc]; exact ht⟩

/-- An option that reads itself on another thread the first time: the resolution inside stores 5, the one around it
computes 6. A second option shows it. -/
def stampContract : Contract := ⟨"Stamp", [
  ⟨"stamp", [], .int .u32, some (.once (.add (.int .u32) (.spawn (.get "stamp")) (.const 1#32)) (.const 5#32))⟩,
  ⟨"label", [], .string, some (.add .string (.display "stamp") (.const "px"))⟩]⟩

def stamped : Instance := ⟨stampContract, #v[none, none], none⟩

def labelSlot : stamped.contract.Slot := ⟨1, by decide⟩

/-- the label is read first, then the stamp at its type -/
def stampTurns : List Turn := [⟨[], none, 0, .getValue "label"⟩, ⟨[], none, 1, .get (.int .u32) "stamp"⟩]

example : (stamped.memoryAfter stampTurns).cache =
    #v[some ⟨⟨.int .u32, 5#32⟩, .default⟩, some ⟨⟨.string, "5px"⟩, .default⟩] := by rfl

/-- **The cache is coherent.** At every moment of every session, an option that is cached at the tier of an override or
of a default has a source there. If the source is direct, evaluating it once more with every read answered from the
cache of the moment alone succeeds, finds every option that it reads cached, and gives the cached value. -/
theorem value_coherent (i : Instance) (ts : List Turn) (events : List (Event i.size)) (h : events <:+ i.history ts)
    (s : i.contract.Slot) (r : Resolved) (hr : i.cacheAt events s = some r) (ht : r.tier ≠ .lookup) :
    ∃ src, i.sourceAt s r.tier = some src ∧ (src.expr.isDirect = true →
      ∃ x, src.expr.value (i.contract.recalled (i.cacheAt events)) = .ok x ∧ r.value = ⟨src.type, x⟩ ∧
        ∀ name ∈ src.expr.touched (i.contract.recalled (i.cacheAt events)),
          ∃ s' r', i.contract.slot? name = some s' ∧ i.cacheAt events s' = some r') := by
  have hl : i.Lawful (fun _ => none) events := (history_lawful ts).2.suffix h
  obtain ⟨src, x, hs, hv, hx⟩ := hl.backed (fun _ _ h => nomatch h) hr ht
  refine ⟨src, hs, fun hd => ⟨x, hx hd, hv, fun name hn => ?_⟩⟩
  obtain ⟨v, hv⟩ := src.expr.touched_ok hd (hx hd) name hn
  obtain ⟨s', r', hs', hr', -⟩ := Contract.recalled_ok.1 hv
  exact ⟨s', r', hs', hr'⟩

/-- The label is coherent with the stamp that was stored, not with the one that was computed last. -/
theorem stamped_coherent :
    (stamped.history stampTurns <:+ stamped.history stampTurns ∧
      stamped.cacheAt (stamped.history stampTurns) labelSlot = some ⟨⟨.string, "5px"⟩, .default⟩ ∧
      Tier.default ≠ .lookup) ∧
    ∃ src, stamped.sourceAt labelSlot .default = some src ∧ (src.expr.isDirect = true →
      ∃ x, src.expr.value (stamped.contract.recalled (stamped.cacheAt (stamped.history stampTurns))) = .ok x ∧
        (⟨.string, "5px"⟩ : Value) = ⟨src.type, x⟩ ∧
        ∀ name ∈ src.expr.touched (stamped.contract.recalled (stamped.cacheAt (stamped.history stampTurns))),
          ∃ s' r', stamped.contract.slot? name = some s' ∧
            stamped.cacheAt (stamped.history stampTurns) s' = some r') :=
  ⟨⟨List.suffix_rfl, rfl, by decide⟩,
    value_coherent stamped stampTurns _ List.suffix_rfl labelSlot ⟨⟨.string, "5px"⟩, .default⟩ rfl (by decide)⟩

end TieredOptions.Instance
