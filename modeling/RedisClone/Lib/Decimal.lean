import Mathlib.Data.List.TakeWhile
import Mathlib.Data.Nat.Digits.Lemmas
import Mathlib.Tactic

/-!
# Decimal numerals over byte strings

Text protocols write lengths, counters and offsets as decimal digits.  This
library module fixes the canonical numeral of a natural number as a list of
bytes, the value of an arbitrary digit run, and the reading of the longest
digit run at the front of an input.

Main results:

- Theorem {lit}`value_render`: the canonical numeral denotes its number.
- Theorem {lit}`takeWhile_render_append`: a canonical numeral followed by a
  nondigit is read back exactly.
- Theorem {lit}`length_render_value_le`: the canonical numeral is the shortest
  digit run that denotes its value.
- Theorem {lit}`renderInt_append_sep_inj`: two signed numerals joined by a
  separating dash determine both numbers.
-/

namespace Decimal

/-! ## Digit bytes and their values -/

/-- The byte is one of the ten ASCII digits. -/
def isDigit (b : UInt8) : Bool :=
  48 ≤ b.toNat && b.toNat ≤ 57

/-- ASCII digit of a number below ten. -/
def digit (d : Nat) : UInt8 :=
  UInt8.ofNat (48 + d)

/-- Value of a run of digits, most significant digit first. -/
def value (ds : List UInt8) : Nat :=
  Nat.ofDigits 10 (ds.reverse.map fun b => b.toNat - 48)

/-- Canonical numeral of a natural number: no sign and no leading zero. -/
def render (n : Nat) : List UInt8 :=
  if n = 0 then [48] else (Nat.digits 10 n).reverse.map digit

/-- Canonical numeral of an integer, with a leading dash when it is negative. -/
def renderInt (n : Int) : List UInt8 :=
  if n < 0 then 45 :: render n.natAbs else render n.natAbs

/-- A digit byte carries its number above the code of zero. -/
theorem digit_toNat {d : Nat} (hd : d < 10) : (digit d).toNat = 48 + d := by
  simp only [digit, UInt8.toNat_ofNat']
  omega

/-- The digit bytes are digits. -/
theorem isDigit_digit {d : Nat} (hd : d < 10) : isDigit (digit d) = true := by
  simp only [isDigit, digit_toNat hd, Bool.and_eq_true, decide_eq_true_eq]
  omega

/-- The value of a digit byte is below ten. -/
theorem toNat_sub_lt_of_isDigit {b : UInt8} (hb : isDigit b = true) :
    b.toNat - 48 < 10 := by
  simp only [isDigit, Bool.and_eq_true, decide_eq_true_eq] at hb
  omega

/-! ## The canonical numeral -/

/-- A canonical numeral consists of digits only. -/
theorem isDigit_of_mem_render {n : Nat} {b : UInt8} (hb : b ∈ render n) :
    isDigit b = true := by
  unfold render at hb
  split at hb
  · rw [List.mem_singleton.mp hb]
    decide
  · rcases List.mem_map.mp hb with ⟨d, hd, rfl⟩
    exact isDigit_digit (Nat.digits_lt_base (by decide) (List.mem_reverse.mp hd))

/-- A canonical numeral is never empty. -/
theorem render_ne_nil (n : Nat) : render n ≠ [] := by
  unfold render
  split
  · simp
  · rename_i hn
    simpa using Nat.digits_ne_nil_iff_ne_zero.mpr hn

/-- The canonical numeral denotes its number. -/
theorem value_render (n : Nat) : value (render n) = n := by
  unfold render
  split
  · rename_i hn
    subst hn
    decide
  · have hmap : (Nat.digits 10 n).map ((fun b : UInt8 => b.toNat - 48) ∘ digit) =
        Nat.digits 10 n := by
      rw [List.map_congr_left (g := id), List.map_id]
      intro d hd
      have hlt : d < 10 := Nat.digits_lt_base (by decide) hd
      simp [digit_toNat hlt]
    simp only [value, List.map_reverse, List.reverse_reverse, List.map_map]
    rw [hmap, Nat.ofDigits_digits]

/-- Distinct numbers have distinct numerals. -/
theorem render_injective : Function.Injective render := by
  intro m n h
  rw [← value_render m, h, value_render]

/-- A run of digits denotes a number below the power of ten of its length. -/
theorem value_lt_pow_length {ds : List UInt8} (hds : ∀ b ∈ ds, isDigit b = true) :
    value ds < 10 ^ ds.length := by
  have hlt : ∀ d ∈ ds.reverse.map (fun b => b.toNat - 48), d < 10 := by
    intro d hd
    rcases List.mem_map.mp hd with ⟨b, hb, rfl⟩
    exact toNat_sub_lt_of_isDigit (hds b (List.mem_reverse.mp hb))
  simpa [value] using Nat.ofDigits_lt_base_pow_length (by decide) hlt

/-- No digit run that denotes a number is shorter than its canonical numeral. -/
theorem length_render_value_le {ds : List UInt8} (hne : ds ≠ [])
    (hds : ∀ b ∈ ds, isDigit b = true) :
    (render (value ds)).length ≤ ds.length := by
  unfold render
  split
  · simpa [Nat.one_le_iff_ne_zero] using hne
  · simpa using (Nat.digits_length_le_iff (by decide) (value ds)).mpr
      (value_lt_pow_length hds)

/-- A number below a power of ten has at most that many digits. -/
theorem length_render_le {n k : Nat} (hk : 0 < k) (hn : n < 10 ^ k) : (render n).length ≤ k := by
  unfold render
  split
  · exact hk
  · simpa using (Nat.digits_length_le_iff (by decide) n).mpr hn

/-! ## Reading the longest digit run -/

/-- A canonical numeral followed by a nondigit is exactly the leading digit run. -/
theorem takeWhile_render_append (n : Nat) {rest : List UInt8}
    (hrest : ∀ b ∈ rest.head?, isDigit b = false) :
    (render n ++ rest).takeWhile isDigit = render n := by
  rw [List.takeWhile_append_of_pos fun b hb => isDigit_of_mem_render hb]
  cases rest with
  | nil => simp
  | cons b rest =>
      have hb : isDigit b = false := hrest b (by simp)
      simp [hb]

/-- What follows a canonical numeral is left over when its digits are dropped. -/
theorem dropWhile_render_append (n : Nat) {rest : List UInt8}
    (hrest : ∀ b ∈ rest.head?, isDigit b = false) :
    (render n ++ rest).dropWhile isDigit = rest := by
  have hsplit := List.takeWhile_append_dropWhile (p := isDigit) (l := render n ++ rest)
  rw [takeWhile_render_append n hrest] at hsplit
  exact List.append_cancel_left hsplit

/-- Two canonical numerals, each followed by a nondigit, agree only if the numbers
and the remainders agree. -/
theorem render_append_inj {a c : Nat} {x y : List UInt8}
    (hx : ∀ b ∈ x.head?, isDigit b = false) (hy : ∀ b ∈ y.head?, isDigit b = false)
    (h : render a ++ x = render c ++ y) : a = c ∧ x = y := by
  have hnum : render a = render c := by
    rw [← takeWhile_render_append a hx, h, takeWhile_render_append c hy]
  rw [hnum] at h
  exact ⟨render_injective hnum, List.append_cancel_left h⟩

/-- The first byte of a canonical numeral is a digit. -/
theorem exists_cons_render (n : Nat) :
    ∃ b bs, render n = b :: bs ∧ isDigit b = true := by
  cases h : render n with
  | nil => exact absurd h (render_ne_nil n)
  | cons b bs => exact ⟨b, bs, rfl, isDigit_of_mem_render (by rw [h]; simp)⟩

/-! ## Signed numerals joined by a dash -/

/-- A dash is not a digit. -/
theorem isDigit_dash : isDigit 45 = false := by
  decide

/-- Two unsigned numerals, each followed by a dash, agree only if the numbers
and the remainders agree. -/
theorem render_append_dash_inj {a c : Nat} {x y : List UInt8}
    (h : render a ++ 45 :: x = render c ++ 45 :: y) : a = c ∧ x = y := by
  rcases render_append_inj (by simp [isDigit_dash]) (by simp [isDigit_dash]) h with ⟨hac, hxy⟩
  exact ⟨hac, (List.cons.inj hxy).2⟩

/-- The first byte of an unsigned numeral is never a dash. -/
theorem render_append_ne_dash (a : Nat) (x y : List UInt8) :
    render a ++ x ≠ 45 :: y := by
  intro h
  rcases exists_cons_render a with ⟨b, bs, hab, hb⟩
  rw [hab, List.cons_append, List.cons.injEq] at h
  rw [h.1, isDigit_dash] at hb
  contradiction

/-- Distinct integers have distinct signed numerals. -/
theorem renderInt_injective : Function.Injective renderInt := by
  intro m n h
  unfold renderInt at h
  split at h <;> split at h
  · have := render_injective (List.cons.inj h).2
    omega
  · exact absurd h.symm (by simpa using render_append_ne_dash n.natAbs [] (render m.natAbs))
  · exact absurd h (by simpa using render_append_ne_dash m.natAbs [] (render n.natAbs))
  · have := render_injective h
    omega

/-- A signed numeral followed by a dash determines its number and the remainder. -/
theorem renderInt_append_dash_inj {a c : Int} {x y : List UInt8}
    (h : renderInt a ++ 45 :: x = renderInt c ++ 45 :: y) : a = c ∧ x = y := by
  unfold renderInt at h
  -- the leading dash decides the sign, the digits after it the magnitude
  by_cases ha : a < 0 <;> by_cases hc : c < 0 <;>
    simp only [ha, hc, if_true, if_false, List.cons_append] at h
  · rcases render_append_dash_inj (List.cons.inj h).2 with ⟨hac, hxy⟩
    exact ⟨by omega, hxy⟩
  · exact absurd h.symm (render_append_ne_dash _ _ _)
  · exact absurd h (render_append_ne_dash _ _ _)
  · rcases render_append_dash_inj h with ⟨hac, hxy⟩
    exact ⟨by omega, hxy⟩

/-- Two signed numerals joined by a dash determine both numbers. -/
theorem renderInt_append_sep_inj {a b c d : Int}
    (h : renderInt a ++ 45 :: renderInt b = renderInt c ++ 45 :: renderInt d) :
    a = c ∧ b = d := by
  rcases renderInt_append_dash_inj h with ⟨hac, hbd⟩
  exact ⟨hac, renderInt_injective hbd⟩

end Decimal
