import RedisClone.Resp.StrictEncoding
import RedisClone.Store.StreamOrder

/-!
# Decimal literals and 64-bit arithmetic

Counts, indices and times to live arrive as text, and counters are stored as text.
This module says what the conversions of the standard library make of a decimal
literal, an optional dash followed by digits, and when {lit}`long long` arithmetic is
exact.

Main results:

- Theorem {lit}`wrapLongLong_eq_self`: a result that fits is exact.
- Theorem {lit}`fromChars_eq_some_nil_iff`: {lit}`from_chars` takes a whole text exactly
  if it is a decimal literal within bounds.
- Theorem {lit}`DecimalLine.stoll_eq` and {lit}`DecimalLine.stoull_eq`: what
  {lit}`std::stoll` and {lit}`std::stoull` read.
-/

namespace RedisClone

/-! ## `long long` arithmetic -/

/-- The number is a {lit}`long long`. -/
def FitsLongLong (n : Int) : Prop :=
  longLongMin ≤ n ∧ n ≤ longLongMax

instance (n : Int) : Decidable (FitsLongLong n) :=
  inferInstanceAs (Decidable (_ ∧ _))

/-- A result that fits is exact. -/
theorem wrapLongLong_eq_self {n : Int} (h : FitsLongLong n) : wrapLongLong n = n := by
  unfold FitsLongLong longLongMin longLongMax at h
  unfold wrapLongLong toLongLong
  split <;> omega

/-! ## `std::from_chars` -/

/-- The digit reader takes a whole text exactly if it is a run of digits within
bounds. -/
theorem fromDigits_eq_some_nil_iff {lo hi n : Int} {negative : Bool} {s : Bytes} :
    fromDigits lo hi negative s = some (n, []) ↔
      s ≠ [] ∧ (∀ b ∈ s, Decimal.isDigit b = true) ∧ lo ≤ n ∧ n ≤ hi ∧
        n = signed negative (Decimal.value s) := by
  rw [fromDigits_eq_some]
  constructor
  · rintro ⟨hne, hlo, hhi, hn, hrest⟩
    have hdigits : ∀ b ∈ s, Decimal.isDigit b = true := List.dropWhile_eq_nil_iff.mp hrest.symm
    rw [List.takeWhile_eq_self_iff.mpr hdigits] at hne hn
    exact ⟨hne, hdigits, hlo, hhi, hn⟩
  · rintro ⟨hne, hdigits, hlo, hhi, hn⟩
    rw [List.takeWhile_eq_self_iff.mpr hdigits]
    exact ⟨hne, hlo, hhi, hn, (List.dropWhile_eq_nil_iff.mpr hdigits).symm⟩

/-- A digit is not a dash. -/
theorem ne_dash_of_isDigit {b : UInt8} (h : Decimal.isDigit b = true) : b ≠ 45 := by
  rintro rfl
  exact absurd h (by decide)

/-- {lit}`from_chars` into a signed type takes a whole text exactly if it is a decimal
literal within bounds. -/
theorem fromChars_eq_some_nil_iff {lo hi n : Int} (hlo : lo < 0) {s : Bytes} :
    fromChars lo hi s = some (n, []) ↔ DecimalLine s n ∧ lo ≤ n ∧ n ≤ hi := by
  constructor
  · intro h
    unfold fromChars at h
    split at h
    · rename_i s
      rw [if_pos hlo] at h
      rcases fromDigits_eq_some_nil_iff.mp h with ⟨hne, hdigits, hbound, hbound', hn⟩
      exact ⟨⟨true, s, rfl, hne, hdigits, hn⟩, hbound, hbound'⟩
    · rcases fromDigits_eq_some_nil_iff.mp h with ⟨hne, hdigits, hbound, hbound', hn⟩
      exact ⟨⟨false, s, rfl, hne, hdigits, hn⟩, hbound, hbound'⟩
  · rintro ⟨⟨negative, digits, rfl, hne, hdigits, hn⟩, hbound, hbound'⟩
    cases negative with
    | true =>
        simp only [if_true, fromChars, if_pos hlo]
        exact fromDigits_eq_some_nil_iff.mpr ⟨hne, hdigits, hbound, hbound', hn⟩
    | false =>
        rw [if_neg (by decide)]
        unfold fromChars
        split
        · exact absurd rfl (ne_dash_of_isDigit (hdigits 45 (by simp)))
        · exact fromDigits_eq_some_nil_iff.mpr ⟨hne, hdigits, hbound, hbound', hn⟩

/-- The canonical numeral is a decimal literal. -/
theorem decimalLine_renderInt (n : Int) : DecimalLine (Decimal.renderInt n) n := by
  have hdigits : ∀ b ∈ Decimal.render n.natAbs, Decimal.isDigit b = true :=
    fun b hb => Decimal.isDigit_of_mem_render hb
  by_cases hn : n < 0
  · refine ⟨true, _, ?_, Decimal.render_ne_nil n.natAbs, hdigits, ?_⟩
    · simp [Decimal.renderInt, hn]
    · rw [Decimal.value_render]
      simp only [signed, if_true]
      omega
  · refine ⟨false, _, ?_, Decimal.render_ne_nil n.natAbs, hdigits, ?_⟩
    · simp [Decimal.renderInt, hn]
    · rw [Decimal.value_render]
      simp only [signed, Bool.false_eq_true, if_false]
      omega

/-! ## `std::stoll` and `std::stoull` -/

/-- A decimal literal is scanned as a whole. -/
theorem DecimalLine.scanInteger_eq {text : Bytes} {n : Int} (h : DecimalLine text n) :
    ∃ negative magnitude, scanInteger text = some (negative, magnitude) ∧
      n = signed negative magnitude := by
  rcases h.exists_digits with ⟨negative, digits, rfl, hne, hdigits, hn⟩
  refine ⟨negative, Decimal.value digits, ?_, hn⟩
  cases negative with
  | false => exact StreamUtils.scanInteger_digits hne hdigits
  | true =>
      have hspace : isSpace 45 = false := by decide
      have htake := List.takeWhile_eq_self_iff.mpr hdigits
      simp only [if_true, scanInteger, List.dropWhile_cons, hspace, Bool.false_eq_true, if_false,
        scanSign, htake]
      rw [if_neg (by simpa using hne)]

/-- {lit}`std::stoll` reads a decimal literal that fits. -/
theorem DecimalLine.stoll_eq {text : Bytes} {n : Int} (h : DecimalLine text n)
    (hn : FitsLongLong n) : stoll text = .ok n := by
  rcases h.scanInteger_eq with ⟨negative, magnitude, hscan, rfl⟩
  unfold stoll
  rw [hscan]
  exact if_pos hn

/-- {lit}`std::stoull` reads a decimal literal modulo 2^64. -/
theorem DecimalLine.stoull_eq {text : Bytes} {n : Int} (h : DecimalLine text n)
    (hn : n.natAbs < sizeTModulus) : stoull text = .ok (n % sizeTModulus).toNat := by
  rcases h.scanInteger_eq with ⟨negative, magnitude, hscan, rfl⟩
  have hmagnitude : magnitude < sizeTModulus := by
    cases negative <;> simpa [signed] using hn
  unfold stoull
  rw [hscan]
  simp only [if_neg (Nat.not_le.mpr hmagnitude)]
  congr 1
  unfold sizeTModulus at hmagnitude ⊢
  cases negative with
  | true =>
      simp only [signed, if_true]
      omega
  | false =>
      simp only [signed, Bool.false_eq_true, if_false]
      omega

end RedisClone
