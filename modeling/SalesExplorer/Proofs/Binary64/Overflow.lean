import Mathlib.Algebra.Order.Field.Power
import SalesExplorer.Binary64.Decimal
import SalesExplorer.Proofs.Binary64.Integers

/-!
# Numbers beyond the format

**Theorem (`ofDecimal_cases`).** A numeral is read as an infinity exactly if it is
`overflow` or more, that is half a step or more above the greatest number of the format. All others
are read as finite numbers.

Above the greatest exponent there are no numbers. At the greatest exponent it is the rounding that
decides: a mantissa of 53 ones and a half is rounded up to `2 ^ 53`, which is even, and the exponent
takes a step that it cannot take (`mantissa_eq_two_pow_iff`). Whatever a numeral's scale, the cases
that are decided without computing the power of ten come to the same.
-/

namespace SalesExplorer

attribute [local instance (high)] instPowNat

/-- Above an odd number a half is rounded up. -/
theorem lt_roundHalfEven_iff {a b q : ℕ} (hb : 0 < b) (hq : q % 2 = 1) :
    q < roundHalfEven a b ↔ (2 * q + 1) * b ≤ 2 * a := by
  obtain ⟨r, hr, hoff, heven⟩ := exists_roundHalfEven_off hb a
  generalize roundHalfEven a b = m at *
  constructor
  · intro hlt
    have hstep : (q + 1) * b ≤ m * b := Nat.mul_le_mul_right b hlt
    have hsplit : (2 * q + 1) * b + b = 2 * ((q + 1) * b) := by ring
    omega
  · intro hle
    by_contra hge
    obtain ⟨d, rfl⟩ := Nat.exists_eq_add_of_le (Nat.not_lt.1 hge)
    have hsplit : (2 * (m + d) + 1) * b = 2 * (m * b) + 2 * (d * b) + b := by ring
    have hzero : d * b = 0 := by omega
    obtain rfl : d = 0 := (Nat.mul_eq_zero.1 hzero).resolve_right hb.ne'
    omega

namespace Binary64

/-- Halfway from the greatest number of the format to the next power of two. -/
def overflow : ℕ := (2 ^ (54 : ℕ) - 1) * 2 ^ (970 : ℕ)

theorem two_pow_mul_two_pow {k : ℕ} (m n : ℕ) (h : m + n = k) : 2 ^ m * 2 ^ n = 2 ^ k := by
  rw [← Nat.pow_add, h]

theorem two_pow_le_overflow : 2 ^ (1023 : ℕ) ≤ overflow := by
  calc 2 ^ (1023 : ℕ) = 2 ^ (53 : ℕ) * 2 ^ (970 : ℕ) :=
        (two_pow_mul_two_pow (k := 1023) 53 970 rfl).symm
    _ ≤ overflow := by
      unfold overflow
      generalize 2 ^ (970 : ℕ) = half
      exact Nat.mul_le_mul_right _ (by decide)

theorem overflow_le_two_pow : overflow ≤ 2 ^ (1024 : ℕ) := by
  calc overflow ≤ 2 ^ (54 : ℕ) * 2 ^ (970 : ℕ) := by
        unfold overflow
        generalize 2 ^ (970 : ℕ) = half
        exact Nat.mul_le_mul_right _ (by decide)
    _ = 2 ^ (1024 : ℕ) := two_pow_mul_two_pow (k := 1024) 54 970 rfl

theorem overflow_pos : 0 < overflow := lt_of_lt_of_le (Nat.two_pow_pos _) two_pow_le_overflow

section Quotients

variable {a b : ℕ}

/-! ## Quotients -/

theorem le_exponentOf_iff {k u : ℕ} (hk : 0 < k) : k ≤ exponentOf u ↔ 2 ^ (k + 52) ≤ u := by
  rcases Nat.eq_zero_or_pos u with rfl | hu
  · have hpow := Nat.two_pow_pos (k + 52)
    have hzero : exponentOf 0 = 0 := rfl
    omega
  · rw [← Nat.le_log2 hu.ne', exponentOf]
    omega

/-- Above the least exponents a quotient's exponent is told without the units. -/
theorem le_exponentOf_units_iff (hb : 0 < b) (k : ℕ) :
    k + 1022 ≤ exponentOf (a * unitsPerOne / b) ↔ 2 ^ k * b ≤ a := by
  have hsplit : 2 ^ (k + 1022 + 52) = 2 ^ k * unitsPerOne := by
    rw [unitsPerOne, two_pow_mul_two_pow k 1074 rfl]
  rw [le_exponentOf_iff (by omega), Nat.le_div_iff_mul_le hb, hsplit, Nat.mul_right_comm,
    Nat.mul_le_mul_right_iff unitsPerOne_pos]

/-- At the greatest exponent the mantissa is rounded to the next power of two from halfway on. -/
theorem mantissa_eq_two_pow_iff (hb : 0 < b) (he : exponentOf (a * unitsPerOne / b) = 2045) :
    roundHalfEven (a * unitsPerOne) (b * 2 ^ exponentOf (a * unitsPerOne / b)) = 2 ^ (53 : ℕ) ↔
      overflow * b ≤ a := by
  obtain ⟨hle, -⟩ := mantissa_bounds hb (a * unitsPerOne)
  have hunits : b * 2 ^ (2045 : ℕ) = b * 2 ^ (971 : ℕ) * unitsPerOne := by
    rw [Nat.mul_assoc, unitsPerOne, two_pow_mul_two_pow (k := 2045) 971 1074 rfl]
  have hhalf : (2 * (2 ^ (53 : ℕ) - 1) + 1) * (b * 2 ^ (971 : ℕ)) = 2 * (overflow * b) := by
    rw [← two_pow_mul_two_pow (k := 971) 970 1 rfl]
    unfold overflow
    generalize 2 ^ (970 : ℕ) = half
    ring
  rw [he, hunits, roundHalfEven_mul_mul_right unitsPerOne_pos] at hle ⊢
  have hcut := @lt_roundHalfEven_iff a (b * 2 ^ (971 : ℕ)) (2 ^ (53 : ℕ) - 1)
    (Nat.mul_pos hb (Nat.two_pow_pos 971)) (by decide)
  rw [hhalf, Nat.mul_le_mul_left_iff (by decide)] at hcut
  rw [← hcut]
  omega

/-- A mantissa and an exponent beyond the greatest. -/
theorem ofParts_of_lt (negative : Bool) {m e : ℕ} (h : 2045 < e) :
    ofParts negative m e = .infinite negative := by
  rw [ofParts, dif_neg]
  rintro ⟨-, he, -⟩
  omega

theorem nearest_eq_infinite (negative : Bool) (hb : 0 < b) (h : overflow * b ≤ a) :
    nearest negative a b = .infinite negative := by
  have he : 2045 ≤ exponentOf (a * unitsPerOne / b) :=
    (le_exponentOf_units_iff hb 1023).2 ((Nat.mul_le_mul_right b two_pow_le_overflow).trans h)
  unfold nearest
  dsimp only
  split_ifs with hcarry
  · exact ofParts_of_lt negative (by omega)
  · apply ofParts_of_lt negative
    apply lt_of_le_of_ne he
    intro heq
    exact hcarry ((mantissa_eq_two_pow_iff hb heq.symm).2 h)

theorem exists_nearest_eq_finite_of_lt (negative : Bool) (hb : 0 < b) (h : a < overflow * b) :
    ∃ x, nearest negative a b = .finite x := by
  have he : ¬1024 + 1022 ≤ exponentOf (a * unitsPerOne / b) := by
    intro he
    have hle := (le_exponentOf_units_iff hb 1024).1 he
    exact absurd ((Nat.mul_le_mul_right b overflow_le_two_pow).trans hle) (Nat.not_le.2 h)
  by_cases hlt : exponentOf (a * unitsPerOne / b) < 2045
  · obtain ⟨x, hx, -⟩ := exists_nearest_eq_finite negative hb hlt
    exact ⟨x, hx⟩
  · have heq : exponentOf (a * unitsPerOne / b) = 2045 := by omega
    have hcarry := mt (mantissa_eq_two_pow_iff hb heq).1 (Nat.not_le.2 h)
    obtain ⟨hle, hge⟩ := mantissa_bounds hb (a * unitsPerOne)
    unfold nearest
    dsimp only
    rw [if_neg hcarry, ofParts_of_isNormal negative ⟨lt_of_le_of_ne hle hcarry, heq.le, hge⟩]
    exact ⟨_, rfl⟩

/-- **What a quotient is rounded to**, by its value. -/
theorem nearest_cases (negative : Bool) (hb : 0 < b) :
    (overflow * b ≤ a ∧ nearest negative a b = .infinite negative) ∨
      (¬overflow * b ≤ a ∧ ∃ x, nearest negative a b = .finite x) := by
  by_cases h : overflow * b ≤ a
  · exact .inl ⟨h, nearest_eq_infinite negative hb h⟩
  · exact .inr ⟨h, exists_nearest_eq_finite_of_lt negative hb (Nat.not_le.1 h)⟩

end Quotients

theorem ofInt_cases (n : ℤ) :
    (overflow ≤ n.natAbs ∧ ofInt n = .infinite (decide (n < 0))) ∨
      (¬overflow ≤ n.natAbs ∧ ∃ x, ofInt n = .finite x) := by
  have hcases := nearest_cases (a := n.natAbs) (decide (n < 0)) Nat.one_pos
  rw [Nat.mul_one] at hcases
  exact hcases

/-! ## Numerals -/

/-- The value of a numeral without its sign. -/
def numeralValue (digits : ℕ) (scale : ℤ) : ℚ := digits * 10 ^ scale

variable {digits : ℕ} {scale : ℤ}

theorem overflow_le_numeralValue_iff : overflow ≤ numeralValue digits scale ↔
    overflow * 10 ^ (-scale).toNat ≤ digits * 10 ^ scale.toNat := by
  unfold numeralValue
  obtain ⟨k, rfl | rfl⟩ := scale.eq_nat_or_neg
  · rw [zpow_natCast, Int.toNat_neg_natCast, Int.toNat_natCast, Nat.pow_zero, Nat.mul_one]
    exact_mod_cast Iff.rfl
  · have hpow : (0 : ℚ) < 10 ^ k := by positivity
    rw [neg_neg, Int.toNat_neg_natCast, Int.toNat_natCast, Nat.pow_zero, Nat.mul_one, zpow_neg,
      zpow_natCast, ← div_eq_mul_inv, le_div_iff₀ hpow]
    exact_mod_cast Iff.rfl

theorem two_pow_le_ten_pow {n k : ℕ} (h : n ≤ 3 * k) : 2 ^ n ≤ 10 ^ k := by
  calc 2 ^ n ≤ 2 ^ (3 * k) := Nat.pow_le_pow_right (by decide) h
    _ = 8 ^ k := Nat.pow_mul 2 3 k
    _ ≤ 10 ^ k := Nat.pow_le_pow_left (by decide) k

/-- **What a numeral is read as**, by its value. -/
theorem ofDecimal_cases (negative : Bool) (digits : ℕ) (scale : ℤ) :
    (overflow ≤ numeralValue digits scale ∧ ofDecimal negative digits scale = .infinite negative) ∨
      (¬overflow ≤ numeralValue digits scale ∧
        ∃ x, ofDecimal negative digits scale = .finite x) := by
  rw [overflow_le_numeralValue_iff]
  have hten (k : ℕ) : 0 < 10 ^ k := Nat.pow_pos (by decide)
  unfold ofDecimal
  split_ifs with hzero hlarge hsmall hscale
  · refine .inr ⟨?_, _, rfl⟩
    rw [hzero, Nat.zero_mul]
    exact Nat.not_le.2 (Nat.mul_pos overflow_pos (hten _))
  · refine .inl ⟨?_, rfl⟩
    have hneg : (-scale).toNat = 0 := by omega
    rw [hneg, Nat.pow_zero, Nat.mul_one]
    calc overflow ≤ 2 ^ (1024 : ℕ) := overflow_le_two_pow
      _ ≤ 10 ^ scale.toNat := two_pow_le_ten_pow (n := 1024) (by omega)
      _ ≤ digits * 10 ^ scale.toNat := Nat.le_mul_of_pos_left _ (Nat.pos_of_ne_zero hzero)
  · refine .inr ⟨?_, _, rfl⟩
    have hpos : scale.toNat = 0 := by omega
    rw [hpos, Nat.pow_zero, Nat.mul_one, Nat.not_le]
    calc digits < 2 ^ (digits.log2 + 1) := Nat.lt_log2_self
      _ ≤ 10 ^ (-scale).toNat := two_pow_le_ten_pow (by omega)
      _ ≤ overflow * 10 ^ (-scale).toNat := Nat.le_mul_of_pos_left _ overflow_pos
  · have hneg : (-scale).toNat = 0 := by omega
    rw [hneg, Nat.pow_zero]
    exact nearest_cases negative Nat.one_pos
  · have hpos : scale.toNat = 0 := by omega
    rw [hpos, Nat.pow_zero, Nat.mul_one]
    exact nearest_cases negative (hten _)

end Binary64

end SalesExplorer
