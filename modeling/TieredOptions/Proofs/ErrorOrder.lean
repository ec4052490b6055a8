/-
Of several things wrong, which one the error names. The documented order of the kinds is that of the passes, but the
last two kinds share a pass: unknown names and types that differ are looked for override by override, and the first
override that does not fit is the error. So the documented order holds up to these two (`build_error_order`), and an
override for an option of another type hides an unknown name behind it (`mismatch_hides_unknown`).
-/
import TieredOptions.Proofs.Construction

namespace TieredOptions

/-- the place of a kind in the documented order -/
def BuildError.Kind.rank : Kind → Nat
  | malformedContract => 0
  | unidentifiedOverride => 1
  | missingOption => 2
  | unknownOption => 3
  | typeMismatch => 4

/-- Something of the kind is wrong, and nothing of a kind that comes before it in the documented order. -/
def Contract.ViolatesFirst (c : Contract) (lookup : Option Lookup) (overrides : List Override)
    (k : BuildError.Kind) : Prop :=
  c.Violates lookup overrides k ∧ ∀ k', c.Violates lookup overrides k' → k.rank ≤ k'.rank

/-- **Which error is named.** If construction fails, for whatever number of reasons:
- something of the kind of the error is wrong;
- nothing of a kind that comes before it in the documented order is, but that a type that differs may be named where
  there are unknown names;
- an unknown name or a type that differs is that of the first override that does not fit, whichever of the two it is;
- so the documented order holds where no override for an option of another type stands before one of an unknown name. -/
theorem Instance.build_error_order (c : Contract) (lookup : Option Lookup) (overrides : List Override) (e : BuildError)
    (h : Instance.build c lookup overrides = .error e) :
    c.Violates lookup overrides e.kind ∧
    (∀ k, c.Violates lookup overrides k → k.rank < e.kind.rank → e.kind = .typeMismatch ∧ k = .unknownOption) ∧
    (e.kind = .unknownOption ∨ e.kind = .typeMismatch →
      ∃ before o after, overrides = before ++ o :: after ∧ (∀ o' ∈ before, c.Fits o') ∧ ¬ c.Fits o ∧
        (e.kind = .unknownOption ↔ c.Undeclared o)) ∧
    ((∀ before o after, overrides = before ++ o :: after → c.Mismatched o → ∀ o' ∈ after, ¬ c.Undeclared o') →
      c.ViolatesFirst lookup overrides e.kind) := by
  obtain ⟨hv, hpass⟩ := build_error h
  have hexcept : ∀ k, c.Violates lookup overrides k → k.rank < e.kind.rank →
      e.kind = .typeMismatch ∧ k = .unknownOption := by
    intro k hk hlt
    cases k with
    | malformedContract =>
      have he : e.kind = .malformedContract := hpass.resolve_right fun hp => hk hp.1
      rw [he] at hlt
      exact absurd hlt (Nat.lt_irrefl _)
    | unidentifiedOverride =>
      rcases hpass with he | ⟨-, he | ⟨hi, -⟩⟩
      · rw [he] at hlt
        exact absurd hlt (by decide)
      · rw [he] at hlt
        exact absurd hlt (Nat.lt_irrefl _)
      · exact absurd hi hk
    | missingOption =>
      rcases hpass with he | ⟨-, he | ⟨-, he | ⟨hm, -⟩⟩⟩
      · rw [he] at hlt
        exact absurd hlt (by decide)
      · rw [he] at hlt
        exact absurd hlt (by decide)
      · rw [he] at hlt
        exact absurd hlt (Nat.lt_irrefl _)
      · exact absurd hk hm
    | unknownOption =>
      refine ⟨?_, rfl⟩
      cases he : e.kind with
      | typeMismatch => rfl
      | _ => simp [he, BuildError.Kind.rank] at hlt
    | typeMismatch => cases he : e.kind <;> simp [he, BuildError.Kind.rank] at hlt
  have hfirst : e.kind = .unknownOption ∨ e.kind = .typeMismatch →
      ∃ before o after, overrides = before ++ o :: after ∧ (∀ o' ∈ before, c.Fits o') ∧ ¬ c.Fits o ∧
        (e.kind = .unknownOption ↔ c.Undeclared o) ∧ (e.kind = .typeMismatch → c.Mismatched o) := by
    intro hk
    rcases hpass with he | ⟨hc, he | ⟨-, he | ⟨-, before, o, after, hos, hbefore, ho⟩⟩⟩
    · simp [he] at hk
    · simp [he] at hk
    · simp [he] at hk
    · refine ⟨before, o, after, hos, hbefore, ?_⟩
      rcases ho with ⟨ho, he⟩ | ⟨ho, he⟩
      · exact ⟨ho.not_fits, iff_of_true he ho, fun h => by rw [he] at h; cases h⟩
      · exact ⟨ho.not_fits hc, iff_of_false (by rw [he]; nofun) ho.declared, fun _ => ho⟩
  refine ⟨hv.violates, hexcept, fun hk => ?_, fun hsorted => ⟨hv.violates, fun k hk => ?_⟩⟩
  · obtain ⟨before, o, after, hos, hbefore, hnot, hiff, -⟩ := hfirst hk
    exact ⟨before, o, after, hos, hbefore, hnot, hiff⟩
  · by_contra hlt
    obtain ⟨he, rfl⟩ := hexcept k hk (Nat.lt_of_not_le hlt)
    obtain ⟨before, o, after, rfl, hbefore, -, -, hm⟩ := hfirst (.inr he)
    obtain ⟨o', ho', hun⟩ := hk
    -- the unknown name is neither before the first override that does not fit, nor is it that one, nor behind it
    rcases List.mem_append.1 ho' with ho' | ho'
    · exact hun.not_fits (hbefore o' ho')
    · rcases List.mem_cons.1 ho' with rfl | ho'
      · exact (hm he).declared hun
      · exact hsorted before o after rfl (hm he) o' ho' hun

/-- one option for a size, with a default -/
def fontContract : Contract := ⟨"Font", [⟨"size", [], .int .u32, some (.const 11#32)⟩]⟩

/-- a size that is a text -/
def wordySize : Override := .value "size" ⟨.string, "big"⟩

/-- a colour, which the contract does not have -/
def colour : Override := .value "colour" ⟨.string, "red"⟩

theorem colour_undeclared : fontContract.Undeclared colour := ⟨"colour", rfl, by decide⟩

/-- The unknown name stands first, so it is named, although there is a type that differs. -/
theorem colour_named : Instance.build fontContract none [colour, wordySize] = .error (.unknownOption "Font" "colour") ∧
    fontContract.ViolatesFirst none [colour, wordySize] .unknownOption := by
  refine ⟨rfl, (Instance.build_error_order fontContract none [colour, wordySize] _ rfl).2.2.2 ?_⟩
  intro before o after hos hm o' ho'
  rcases before with _ | ⟨b, _ | ⟨b', before⟩⟩
  · cases hos
    exact absurd colour_undeclared hm.declared
  · cases hos
    exact absurd ho' List.not_mem_nil
  · cases before <;> cases hos

/-- Behind the type that differs the unknown name is not come to, against the documented order. -/
theorem mismatch_hides_unknown : ¬ ∀ (c : Contract) (lookup : Option Lookup) (overrides : List Override)
    (e : BuildError), Instance.build c lookup overrides = .error e → c.ViolatesFirst lookup overrides e.kind := by
  intro h
  have hbuild : Instance.build fontContract none [wordySize, colour] =
      .error (.typeMismatch "size" (.int .u32) .string) := rfl
  have hunknown : fontContract.Violates none [wordySize, colour] .unknownOption := ⟨colour, by simp, colour_undeclared⟩
  have hle := (h _ _ _ _ hbuild).2 _ hunknown
  exact absurd hle (by decide)

end TieredOptions
