import Mathlib.Algebra.Order.Field.Rat
import Mathlib.Algebra.Order.Ring.Abs
import Mathlib.Tactic.Linarith
import Mathlib.Tactic.Positivity
import Mathlib.Tactic.Ring
import SalesExplorer.Binary64.Basic

/-!
# Rounding to the nearest

A number is rounded to the multiple of a step that is nearest to it, and to the even one of two
that are equally near (`IsNearest`). For a quotient of naturals `roundHalfEven` finds it
(`isNearest_roundHalfEven`).

All that is used of `roundHalfEven` is that it is off by half a divisor at most, and even where it
is off by just that (`exists_roundHalfEven_off`). From this it is monotone, too.
-/

namespace SalesExplorer

/-! ## Rounded quotients -/

section Quotients

variable {a b c : ℕ}

/-- The nearest multiple of the divisor is off by half of it at most, and even if it is off by just
that. -/
theorem exists_roundHalfEven_off (hb : 0 < b) (a : ℕ) : ∃ r, 2 * r ≤ b ∧
    (roundHalfEven a b * b + r = a ∨ roundHalfEven a b * b = a + r) ∧
    (2 * r = b → roundHalfEven a b % 2 = 0) := by
  have hdiv := Nat.div_add_mod' a b
  have hlt := Nat.mod_lt a hb
  have hsucc := add_one_mul (a / b) b
  unfold roundHalfEven
  dsimp only
  split_ifs with hbelow habove heven
  · exact ⟨a % b, by omega, .inl (by omega), by omega⟩
  · exact ⟨b - a % b, by omega, .inr (by omega), by omega⟩
  · exact ⟨a % b, by omega, .inl (by omega), by omega⟩
  · exact ⟨b - a % b, by omega, .inr (by omega), by omega⟩

theorem roundHalfEven_mono (hb : 0 < b) {a' : ℕ} (h : a ≤ a') :
    roundHalfEven a b ≤ roundHalfEven a' b := by
  by_contra hlt
  obtain ⟨r, hr, hoff, heven⟩ := exists_roundHalfEven_off hb a
  obtain ⟨r', hr', hoff', heven'⟩ := exists_roundHalfEven_off hb a'
  obtain ⟨d, hd⟩ := Nat.exists_eq_add_of_lt (Nat.not_le.1 hlt)
  rw [hd, add_one_mul, add_mul] at hoff
  -- A step of `b` down fits only between two halves, and two even numbers are two steps apart.
  have hzero : d * b = 0 := by omega
  obtain rfl : d = 0 := (Nat.mul_eq_zero.1 hzero).resolve_right hb.ne'
  omega

theorem roundHalfEven_eq_zero (h : 2 * a ≤ b) : roundHalfEven a b = 0 := by
  rcases Nat.eq_zero_or_pos b with rfl | hb
  · obtain rfl : a = 0 := by omega
    rfl
  · have hlt : a < b := by omega
    rw [roundHalfEven]
    simp only [Nat.div_eq_of_lt hlt, Nat.mod_eq_of_lt hlt]
    split_ifs <;> omega

theorem roundHalfEven_mul_self (hb : 0 < b) (n : ℕ) : roundHalfEven (n * b) b = n := by
  simp [roundHalfEven, Nat.mul_div_cancel _ hb, hb]

theorem roundHalfEven_mul_eq_self_iff (hb : 0 < b) : roundHalfEven a b * b = a ↔ b ∣ a := by
  constructor
  · intro h
    exact Dvd.intro_left _ h
  · rintro ⟨n, rfl⟩
    rw [Nat.mul_comm b, roundHalfEven_mul_self hb]

theorem roundHalfEven_mul_mul_right (hc : 0 < c) (a b : ℕ) :
    roundHalfEven (a * c) (b * c) = roundHalfEven a b := by
  simp only [roundHalfEven, Nat.mul_div_mul_right _ _ hc, Nat.mul_mod_mul_right,
    ← Nat.mul_assoc, Nat.mul_lt_mul_right hc]

end Quotients

/-! ## The nearest multiple -/

/-- No multiple of `step` is nearer to `x` than `n * step`, and `n` is even if another one is as
near. -/
def IsNearest (x step : ℚ) (n : ℤ) : Prop :=
  ∀ m : ℤ, m ≠ n →
    |x - n * step| < |x - m * step| ∨ |x - n * step| = |x - m * step| ∧ Even n

theorem IsNearest.neg {x step : ℚ} {n : ℤ} (h : IsNearest x step n) : IsNearest (-x) step (-n) := by
  intro m hm
  have hflip : ∀ k : ℤ, |-x - k * step| = |x - (-k : ℤ) * step| := by
    intro k
    rw [← abs_neg]
    congr 1
    push_cast
    ring
  rw [hflip, hflip, neg_neg, even_neg]
  exact h (-m) fun heq => hm (by rw [← heq, neg_neg])

theorem isNearest_of_half {q step : ℚ} {n : ℤ} (hstep : 0 < step) (hhalf : |q - n| ≤ 1 / 2)
    (htie : |q - n| = 1 / 2 → Even n) : IsNearest (q * step) step n := by
  intro m hm
  have hscale : ∀ k : ℤ, |q * step - k * step| = |q - k| * step := by
    intro k
    rw [← sub_mul, abs_mul, abs_of_pos hstep]
  have hapart : (1 : ℚ) ≤ |(m : ℚ) - n| := by
    exact_mod_cast Int.one_le_abs (sub_ne_zero.2 hm)
  have htriangle : |(m : ℚ) - n| ≤ |q - n| + |q - m| := by
    rw [abs_sub_comm q m, add_comm]
    exact abs_sub_le _ _ _
  rw [hscale, hscale]
  rcases lt_or_ge |q - n| |q - m| with hlt | hge
  · exact .inl (mul_lt_mul_of_pos_right hlt hstep)
  · have hn : |q - n| = 1 / 2 := by linarith
    have hm : |q - m| = 1 / 2 := by linarith
    exact .inr ⟨by rw [hn, hm], htie hn⟩

theorem isNearest_roundHalfEven {b : ℕ} (hb : 0 < b) {step : ℚ} (hstep : 0 < step) (a : ℕ) :
    IsNearest (a / b * step) step (roundHalfEven a b) := by
  have hb' : (0 : ℚ) < b := by exact_mod_cast hb
  have hquot : (a : ℚ) / b * b = a := div_mul_cancel₀ _ hb'.ne'
  obtain ⟨r, hr, hoff, heven⟩ := exists_roundHalfEven_off hb a
  have hr' : 2 * (r : ℚ) ≤ b := by exact_mod_cast hr
  have hdist : |(a : ℚ) / b - roundHalfEven a b| * b = r := by
    rw [← abs_of_pos hb', ← abs_mul, sub_mul, abs_of_pos hb', hquot]
    rcases hoff with h | h
    · have : (roundHalfEven a b : ℚ) * b + r = a := by exact_mod_cast h
      rw [← this, add_sub_cancel_left, abs_of_nonneg (Nat.cast_nonneg r)]
    · have : (roundHalfEven a b : ℚ) * b = a + r := by exact_mod_cast h
      rw [this, sub_add_cancel_left, abs_neg, abs_of_nonneg (Nat.cast_nonneg r)]
  refine isNearest_of_half hstep ?_ fun htie => ?_
  · rw [Int.cast_natCast]
    exact le_of_mul_le_mul_right (by linarith) hb'
  · rw [Int.cast_natCast] at htie
    rw [htie] at hdist
    have htwice : 2 * r = b := by
      have : 2 * (r : ℚ) = b := by linarith
      exact_mod_cast this
    exact_mod_cast Nat.even_iff.2 (heven htwice)

/-! ## The value of a number -/

namespace Binary64

theorem unitsPerOne_pos : 0 < unitsPerOne := by
  unfold unitsPerOne
  exact Nat.two_pow_pos 1074

theorem unitsPerOne_cast_pos : (0 : ℚ) < unitsPerOne := Nat.cast_pos.2 unitsPerOne_pos

namespace Finite

/-- The exact value. -/
def value (x : Finite) : ℚ :=
  (if x.negative then -1 else 1) * (x.units / unitsPerOne)

variable {x y : Finite}

theorem value_of_negative (h : x.negative = true) : x.value = -(x.units / unitsPerOne) := by
  rw [value, if_pos h, neg_one_mul]

theorem value_of_not_negative (h : ¬x.negative = true) : x.value = x.units / unitsPerOne := by
  rw [value, if_neg h, one_mul]

theorem units_div_nonneg (n : ℕ) : (0 : ℚ) ≤ n / unitsPerOne :=
  div_nonneg (Nat.cast_nonneg _) (Nat.cast_nonneg _)

theorem units_div_le_iff {m n : ℕ} : (m : ℚ) / unitsPerOne ≤ n / unitsPerOne ↔ m ≤ n := by
  rw [div_le_div_iff_of_pos_right unitsPerOne_cast_pos, Nat.cast_le]

theorem units_eq_zero_of_div_le (h : (x.units : ℚ) / unitsPerOne ≤ 0) : x.units = 0 := by
  rw [← zero_div (unitsPerOne : ℚ), ← Nat.cast_zero, units_div_le_iff] at h
  exact Nat.le_zero.1 h

theorem abs_value (x : Finite) : |x.value| = x.units / unitsPerOne := by
  by_cases h : x.negative = true
  · rw [value_of_negative h, abs_neg, abs_of_nonneg (units_div_nonneg _)]
  · rw [value_of_not_negative h, abs_of_nonneg (units_div_nonneg _)]

theorem value_neg_iff : x.value < 0 ↔ x.negative = true ∧ x.units ≠ 0 := by
  by_cases h : x.negative = true
  · rw [value_of_negative h, neg_lt_zero, div_pos_iff_of_pos_right unitsPerOne_cast_pos,
      Nat.cast_pos, Nat.pos_iff_ne_zero, iff_true_intro h, true_and]
  · rw [value_of_not_negative h]
    exact ⟨fun hneg => absurd hneg (not_lt.2 (units_div_nonneg _)), fun hneg => absurd hneg.1 h⟩

end Finite

end Binary64

end SalesExplorer
