/-
What decoding makes of configured values. What a value says at a type is `Denotes`: a text, a truth value, a list of
texts and a value as it is are what they are, a word of a kind of integers is an integer number that it stands for, and a
double is any number. Integers go through words of 64 bits, signed and unsigned, and nothing of them is lost on the way
(`integer?_int`): from either word the integer comes back, and an integer that is neither is in the range of no kind.

Main statement: `decode_exact`.
-/
import TieredOptions.Config.Decode

namespace TieredOptions

/-! ## Words and integers -/

namespace IntKind

/-- a word stands for an integer in the range of its kind -/
theorem toInt_mem (k : IntKind) (w : BitVec k.bits) : k.least ≤ k.toInt w ∧ k.toInt w < k.limit := by
  have hnat := w.isLt
  have hlower := w.le_toInt
  have hupper := w.toInt_lt
  cases k <;> simp [least, limit, toInt, signed, bits] at * <;> omega

theorem wrap_toInt (k : IntKind) (w : BitVec k.bits) : k.wrap (k.toInt w) = w := by
  unfold wrap toInt
  split
  · exact BitVec.ofInt_toInt
  · simp

/-- an integer is taken into a kind as the word that stands for it -/
theorem ofInt?_eq_some_iff {k : IntKind} {n : Int} {w : BitVec k.bits} : k.ofInt? n = some w ↔ k.toInt w = n := by
  constructor
  · exact toInt_ofInt?
  · rintro rfl
    rw [ofInt?, if_pos (k.toInt_mem w), wrap_toInt]

theorem ofInt?_eq_none_iff {k : IntKind} {n : Int} : k.ofInt? n = none ↔ ¬ (k.least ≤ n ∧ n < k.limit) := by
  rw [← ofInt?_isSome, Option.not_isSome_iff_eq_none]

/-- every kind is within the range of the signed and the unsigned words of 64 bits -/
theorem range_le (k : IntKind) : i64.least ≤ k.least ∧ k.limit ≤ u64.limit := by
  cases k <;> decide

end IntKind

namespace Config

/-- **Nothing of an integer is lost** on the way through the words of 64 bits. -/
theorem integer?_int (k : IntKind) (n : Int) : integer? k (.int n) = k.ofInt? n := by
  cases hs : (Number.int n).signed? with
  | some w => simp only [integer?, hs, IntKind.toInt_ofInt? hs]
  | none =>
    cases hu : (Number.int n).unsigned? with
    | some w => simp only [integer?, hs, hu, IntKind.toInt_ofInt? hu]
    | none =>
      -- the two ranges meet, so an integer in neither is below both or above both
      have hmeet : IntKind.u64.least ≤ IntKind.i64.limit := by decide
      have hsigned : ¬ (IntKind.i64.least ≤ n ∧ n < IntKind.i64.limit) := IntKind.ofInt?_eq_none_iff.1 hs
      have hunsigned : ¬ (IntKind.u64.least ≤ n ∧ n < IntKind.u64.limit) := IntKind.ofInt?_eq_none_iff.1 hu
      have hrange := k.range_le
      have hnone : k.ofInt? n = none := IntKind.ofInt?_eq_none_iff.2 (by omega)
      simp only [integer?, hs, hu, hnone]

theorem strings?_eq_some_iff {items : List Json} {ss : List String} :
    strings? items = some ss ↔ items = ss.map .string := by
  induction items generalizing ss with
  | nil => cases ss <;> simp [strings?]
  | cons v rest ih =>
    cases v with
    | string s =>
      rw [strings?, Option.map_eq_some_iff]
      constructor
      · rintro ⟨more, hmore, rfl⟩
        rw [ih.1 hmore, List.map_cons]
      · intro h
        cases ss with
        | nil => cases h
        | cons s' more =>
          obtain ⟨hs, hmore⟩ := List.cons.inj h
          cases hs
          exact ⟨more, ih.2 hmore, rfl⟩
    | _ => cases ss <;> simp [strings?]

/-! ## What a value says at a type -/

/-- what a configuration value says at a type, if it says something -/
def Denotes (raw : Json) : (t : ValueType) → t.Carrier → Prop
  | .string, s => raw = .string s
  | .bool, b => raw = .bool b
  | .int k, w => raw = .number (.int (k.toInt w))
  | .f64, x => ∃ n : Number, raw = .number n ∧ n.double = x
  | .strings, ss => raw = .array (ss.map .string)
  | .json, v => raw = v
  | _, _ => False

theorem decodeAs?_eq_some_iff {t : ValueType} {raw : Json} {x : t.Carrier} :
    decodeAs? t raw = some x ↔ Denotes raw t x := by
  cases t with
  | int k =>
    cases raw with
    | number n =>
      cases n with
      | int n => simp [decodeAs?, Denotes, integer?_int, IntKind.ofInt?_eq_some_iff, eq_comm]
      | float y => simp [decodeAs?, Denotes, integer?, Number.signed?, Number.unsigned?]
    | _ => simp [decodeAs?, Denotes]
  | strings =>
    cases raw with
    | array items => simp [decodeAs?, Denotes, strings?_eq_some_iff]
    | _ => simp [decodeAs?, Denotes]
  | _ => cases raw <;> simp [decodeAs?, Denotes]

/-- the types with a form in configuration -/
def configurable : List ValueType := [
  .string, .bool, .int .u8, .int .u16, .int .u32, .int .u64, .int .usize, .int .i32, .int .i64, .f64, .strings, .json]

theorem decodable_iff_mem {t : ValueType} : decodable t = true ↔ t ∈ configurable := by
  cases t with
  | int k => cases k <;> decide
  | _ => decide

/-! ## Decoding -/

theorem decode_of_not_mem {info : AccessorInfo} (ht : info.type ∉ configurable) (raw : Json) :
    decode info raw = .ok none := by
  have hnot : decodable info.type = false := Bool.eq_false_iff.2 (mt decodable_iff_mem.1 ht)
  simp [decode, hnot]

theorem decode_of_denotes {info : AccessorInfo} (ht : info.type ∈ configurable) {raw : Json} {x : info.type.Carrier}
    (h : Denotes raw info.type x) : decode info raw = .ok (some ⟨info.type, x⟩) := by
  simp [decode, decodable_iff_mem.2 ht, decodeAs?_eq_some_iff.2 h]

theorem decode_of_not_denotes {info : AccessorInfo} (ht : info.type ∈ configurable) {raw : Json}
    (h : ∀ x, ¬ Denotes raw info.type x) : decode info raw = .error (.decode info.name info.type raw.compact) := by
  have hnone : decodeAs? info.type raw = none :=
    Option.eq_none_iff_forall_ne_some.2 fun x hx => h x (decodeAs?_eq_some_iff.1 hx)
  simp [decode, decodable_iff_mem.2 ht, hnone]

theorem decode_eq_some {info : AccessorInfo} {raw : Json} {v : Value} (h : decode info raw = .ok (some v)) :
    ∃ x, Denotes raw info.type x ∧ v = ⟨info.type, x⟩ := by
  unfold decode at h
  split at h
  · cases h
  · split at h
    · rename_i x hx
      cases h
      exact ⟨x, decodeAs?_eq_some_iff.1 hx, rfl⟩
    · cases h

/-- some word of a kind is denoted exactly by the integer numbers in the range of the kind -/
theorem denotes_int_iff {k : IntKind} {raw : Json} :
    (∃ w, Denotes raw (.int k) w) ↔ ∃ n, raw = .number (.int n) ∧ k.least ≤ n ∧ n < k.limit := by
  constructor
  · rintro ⟨w, rfl⟩
    exact ⟨k.toInt w, rfl, k.toInt_mem w⟩
  · rintro ⟨n, rfl, hn⟩
    refine ⟨k.wrap n, ?_⟩
    rw [Denotes, k.toInt_wrap n hn]

/-- **Decoding is exact**, for every accessor and every configured value:
- at a type with a form in configuration the values are what the configured one denotes there, which for a kind of
  integers it does exactly if it is an integer number in the range of the kind; where it denotes nothing, there is an
  error with the name and the type of the accessor and the text of what was found;
- at every other type there is no value and no error.

What comes out is accepted by the accessor. -/
theorem decode_exact (info : AccessorInfo) (raw : Json) :
    (info.type ∈ configurable →
      (∀ v, decode info raw = .ok (some v) ↔ ∃ x, Denotes raw info.type x ∧ v = ⟨info.type, x⟩) ∧
      (∀ k, info.type = .int k →
        ((∃ v, decode info raw = .ok (some v)) ↔ ∃ n, raw = .number (.int n) ∧ k.least ≤ n ∧ n < k.limit)) ∧
      ((∀ x, ¬ Denotes raw info.type x) → decode info raw = .error (.decode info.name info.type raw.compact))) ∧
    (info.type ∉ configurable → decode info raw = .ok none) ∧
    ∀ v, decode info raw = .ok (some v) → info.accepts v = true := by
  refine ⟨fun ht => ⟨?_, ?_, decode_of_not_denotes ht⟩, fun ht => decode_of_not_mem ht raw, ?_⟩
  · intro v
    refine ⟨decode_eq_some, ?_⟩
    rintro ⟨x, hx, rfl⟩
    exact decode_of_denotes ht hx
  · intro k hk
    obtain ⟨name, params, t, default⟩ := info
    cases hk
    rw [← denotes_int_iff]
    constructor
    · rintro ⟨v, hv⟩
      obtain ⟨w, hw, -⟩ := decode_eq_some hv
      exact ⟨w, hw⟩
    · rintro ⟨w, hw⟩
      exact ⟨_, decode_of_denotes ht hw⟩
  · intro v hv
    obtain ⟨x, -, rfl⟩ := decode_eq_some hv
    simp [AccessorInfo.accepts]

def sizeInfo : AccessorInfo := ⟨"size", [], .int .u64, false⟩

def tagsInfo : AccessorInfo := ⟨"tags", [], .strings, false⟩

def letterInfo : AccessorInfo := ⟨"letter", [], .char, false⟩

def ratioInfo : AccessorInfo := ⟨"ratio", [], .f64, false⟩

/-- one and a half, in units of `2 ^ -1074` -/
def oneAndHalf : Decimal.Finite := ⟨false, 3 * Nat.pow 2 1073⟩

/-- The greatest unsigned word is a size, though it is no signed word, and one below zero is none, though it is one. A
    list of texts with something else in it is none, and a character has no form in configuration. One and a half is a
    ratio as it stands, an integer between two doubles becomes the even one, and a text is no ratio. -/
theorem edges_decoded :
    (sizeInfo.type ∈ configurable ∧ tagsInfo.type ∈ configurable ∧ letterInfo.type ∉ configurable ∧
      ratioInfo.type ∈ configurable) ∧
    decode sizeInfo (.number (.int 18446744073709551615)) = .ok (some ⟨.int .u64, BitVec.allOnes 64⟩) ∧
    (∃ v, decode sizeInfo (.number (.int 9223372036854775808)) = .ok (some v)) ∧
    decode sizeInfo (.number (.int (-1))) = .error (.decode "size" (.int .u64) "-1") ∧
    decode tagsInfo (.array [.string "a", .null]) = .error (.decode "tags" .strings "[\"a\",null]") ∧
    decode letterInfo (.string "a") = .ok none ∧
    decode ratioInfo (.number (.float oneAndHalf)) = .ok (some ⟨.f64, .finite oneAndHalf⟩) ∧
    decode ratioInfo (.number (.int 9007199254740993)) =
      .ok (some ⟨.f64, .finite ⟨false, 9007199254740992 * Nat.pow 2 1074⟩⟩) ∧
    decode ratioInfo (.string "1.5") = .error (.decode "ratio" .f64 "\"1.5\"") := by
  have hsize : sizeInfo.type ∈ configurable := by decide
  have htags : tagsInfo.type ∈ configurable := by decide
  have hletter : letterInfo.type ∉ configurable := by decide
  have hratio : ratioInfo.type ∈ configurable := by decide
  have hgreatest : Denotes (.number (.int 18446744073709551615)) (.int .u64) (BitVec.allOnes 64) := by
    show Json.number _ = Json.number _
    decide
  have hbelow (w : BitVec 64) : ¬ Denotes (.number (.int (-1))) (.int .u64) w := by
    intro hw
    obtain ⟨n, hn, hrange⟩ := (denotes_int_iff (k := .u64)).1 ⟨w, hw⟩
    cases hn
    revert hrange
    decide
  have hmixed (ss : List String) : ¬ Denotes (.array [.string "a", .null]) .strings ss := by
    intro hss
    have hsome : decodeAs? .strings (.array [.string "a", .null]) = some ss := decodeAs?_eq_some_iff.2 hss
    cases hsome
  have htext : (Json.array [.string "a", .null]).compact = "[\"a\",null]" := by decide
  have hhalf : Denotes (.number (.float oneAndHalf)) .f64 (.finite oneAndHalf) := ⟨_, rfl, rfl⟩
  have heven : Denotes (.number (.int 9007199254740993)) .f64 (.finite ⟨false, 9007199254740992 * Nat.pow 2 1074⟩) :=
    ⟨_, rfl, by decide +kernel⟩
  have hquoted (x : Decimal.Floating) : ¬ Denotes (.string "1.5") .f64 x := by
    rintro ⟨n, hn, -⟩
    cases hn
  have hquotedText : (Json.string "1.5").compact = "\"1.5\"" := by decide
  refine ⟨⟨hsize, htags, hletter, hratio⟩, ?_, ?_, ?_, ?_, ?_, ?_, ?_, ?_⟩
  · exact (((decode_exact sizeInfo _).1 hsize).1 _).2 ⟨_, hgreatest, rfl⟩
  · exact (((decode_exact sizeInfo _).1 hsize).2.1 .u64 rfl).2 ⟨_, rfl, by decide⟩
  · exact ((decode_exact sizeInfo (.number (.int (-1)))).1 hsize).2.2 hbelow
  · rw [← htext]
    exact ((decode_exact tagsInfo _).1 htags).2.2 hmixed
  · exact (decode_exact letterInfo _).2.1 hletter
  · exact (((decode_exact ratioInfo _).1 hratio).1 _).2 ⟨_, hhalf, rfl⟩
  · exact (((decode_exact ratioInfo _).1 hratio).1 _).2 ⟨_, heven, rfl⟩
  · rw [← hquotedText]
    exact ((decode_exact ratioInfo _).1 hratio).2.2 hquoted

end Config

end TieredOptions
