import SalesExplorer.Proofs.Binary64.Rounding
import SalesExplorer.Proofs.Figure.Layout

/-!
# Figures are the nearest decimals

**Theorem (`decimal_nearest`).** A figure with a given number of places is laid out in groups of
three digits with exactly that many decimals, and it is read as the multiple of `10 ^ -places`
nearest to the value, the even one of two that are equally near. A minus sign stands in front of
negative numbers only, and only if the figure is not all zeros. So figures are read in the order of
the values, and what is less than half the last place away from zero, negative zero included, has
no sign.

The exact value is a natural number of units `2 ^ -1074`, so that all rounding is of a quotient of
naturals.
-/

namespace SalesExplorer.Figure

open Binary64

attribute [local instance (high)] instPowNat

variable {x y : Finite} {places : ℕ}

/-! ## Rounded magnitudes -/

theorem isNearest_rounded (x : Finite) (places : ℕ) :
    IsNearest |x.value| (1 / 10 ^ places) (rounded x places) := by
  have hstep : (0 : ℚ) < 1 / 10 ^ places := by positivity
  have hnearest := isNearest_roundHalfEven unitsPerOne_pos hstep (x.units * 10 ^ places)
  have hscale : ((x.units * 10 ^ places : ℕ) : ℚ) / unitsPerOne * (1 / 10 ^ places) =
      x.units / unitsPerOne := by
    rw [Nat.cast_mul, Nat.cast_pow, Nat.cast_ofNat, mul_div_right_comm, mul_assoc,
      mul_one_div_cancel (pow_ne_zero places (by norm_num)), mul_one]
  rw [hscale, ← x.abs_value] at hnearest
  exact hnearest

theorem rounded_mono (h : x.units ≤ y.units) : rounded x places ≤ rounded y places :=
  roundHalfEven_mono unitsPerOne_pos (Nat.mul_le_mul_right _ h)

theorem rounded_of_units_eq_zero (h : x.units = 0) : rounded x places = 0 := by
  rw [rounded, h, Nat.zero_mul]
  exact roundHalfEven_eq_zero (Nat.zero_le _)

theorem rounded_eq_zero (h : 2 * |x.value| * 10 ^ places ≤ 1) : rounded x places = 0 := by
  refine roundHalfEven_eq_zero ?_
  rw [x.abs_value, mul_div_assoc', div_mul_eq_mul_div, div_le_one₀ unitsPerOne_cast_pos] at h
  rw [← Nat.mul_assoc]
  exact_mod_cast h

/-! ## Signs -/

/-- The number of units of the last place that the figure shows. -/
def shown (x : Finite) (places : ℕ) : ℤ :=
  if x.negative then -(rounded x places) else rounded x places

theorem shown_mono (h : x.value ≤ y.value) : shown x places ≤ shown y places := by
  unfold shown
  by_cases hx : x.negative = true <;> by_cases hy : y.negative = true
  · rw [Finite.value_of_negative hx, Finite.value_of_negative hy, neg_le_neg_iff,
      Finite.units_div_le_iff] at h
    have hle : rounded y places ≤ rounded x places := rounded_mono h
    simp only [hx, hy, if_true]
    omega
  · simp only [hx, hy, if_true]
    rw [if_neg Bool.false_ne_true]
    omega
  · rw [Finite.value_of_not_negative hx, Finite.value_of_negative hy] at h
    have hzero : ∀ z : Finite, (z.units : ℚ) / unitsPerOne ≤ 0 → rounded z places = 0 :=
      fun z hz => rounded_of_units_eq_zero (Finite.units_eq_zero_of_div_le hz)
    have hx' := Finite.units_div_nonneg x.units
    have hy' := Finite.units_div_nonneg y.units
    rw [hzero x (by linarith), hzero y (by linarith)]
    simp
  · rw [Finite.value_of_not_negative hx, Finite.value_of_not_negative hy,
      Finite.units_div_le_iff] at h
    rw [if_neg hx, if_neg hy]
    exact_mod_cast rounded_mono h

theorem decimal_of_finite (x : Finite) (places : ℕ) : decimal (.finite x) places =
    if x.value < 0 ∧ rounded x places ≠ 0 then '-' :: magnitude places (rounded x places)
    else magnitude places (rounded x places) := by
  have hsign : x.negative = true ∧ rounded x places ≠ 0 ↔ x.value < 0 ∧ rounded x places ≠ 0 := by
    rw [Finite.value_neg_iff, and_assoc]
    exact and_congr_right fun _ =>
      (and_iff_right_of_imp fun hne hzero => hne (rounded_of_units_eq_zero hzero)).symm
  rw [decimal]
  exact if_congr hsign rfl rfl

theorem natAbs_shown (x : Finite) (places : ℕ) : (shown x places).natAbs = rounded x places := by
  unfold shown
  split_ifs
  · rw [Int.natAbs_neg, Int.natAbs_natCast]
  · exact Int.natAbs_natCast _

theorem shown_neg_iff {x : Finite} :
    shown x places < 0 ↔ x.negative = true ∧ rounded x places ≠ 0 := by
  unfold shown
  split_ifs with hneg
  · rw [neg_neg_iff_pos, Int.natCast_pos, Nat.pos_iff_ne_zero, and_iff_right hneg]
  · exact iff_of_false (Int.natCast_nonneg _).not_gt fun h => hneg h.1

/-- A figure is told by the units of its last place. -/
theorem decimal_eq_shown (x : Finite) (places : ℕ) : decimal (.finite x) places =
    if shown x places < 0 then '-' :: magnitude places (shown x places).natAbs
    else magnitude places (shown x places).natAbs := by
  rw [natAbs_shown, decimal]
  exact if_congr shown_neg_iff.symm rfl rfl

theorem reading_decimal (x : Finite) (places : ℕ) :
    reading (decimal (.finite x) places) = shown x places / 10 ^ places := by
  rw [decimal_eq_shown]
  split_ifs with hneg
  · rw [reading, magnitudeReading_magnitude, Nat.cast_natAbs, abs_of_neg hneg, Int.cast_neg, neg_div,
      neg_neg]
  · rw [reading_of_notMem (minus_notMem_magnitude places _), magnitudeReading_magnitude,
      Nat.cast_natAbs, abs_of_nonneg (not_lt.1 hneg)]

theorem decimal_eq_iff (x y : Finite) (places : ℕ) :
    decimal (.finite x) places = decimal (.finite y) places ↔
      reading (decimal (.finite x) places) = reading (decimal (.finite y) places) := by
  refine ⟨congrArg reading, fun h => ?_⟩
  have hshown : shown x places = shown y places := by
    rw [reading_decimal, reading_decimal,
      div_left_inj' (pow_ne_zero places (by norm_num : (10 : ℚ) ≠ 0))] at h
    exact_mod_cast h
  rw [decimal_eq_shown, decimal_eq_shown, hshown]

/-- **Figures are the nearest decimals.** -/
theorem decimal_nearest (places : ℕ) :
    (∀ x : Finite, ∃ (n : ℕ) (s : List Char),
      decimal (.finite x) places = (if x.value < 0 ∧ n ≠ 0 then '-' :: s else s) ∧
      Layout places s ∧ magnitudeReading s = n / 10 ^ places ∧
      IsNearest |x.value| (1 / 10 ^ places) n) ∧
    (∀ x y : Finite, x.value ≤ y.value →
      reading (decimal (.finite x) places) ≤ reading (decimal (.finite y) places)) ∧
    ∀ x : Finite, 2 * |x.value| * 10 ^ places ≤ 1 → '-' ∉ decimal (.finite x) places := by
  refine ⟨fun x => ⟨rounded x places, magnitude places (rounded x places),
    decimal_of_finite x places, layout_magnitude _ _, magnitudeReading_magnitude _ _,
    isNearest_rounded x places⟩, fun x y h => ?_, fun x h => ?_⟩
  · rw [reading_decimal, reading_decimal]
    gcongr
    exact shown_mono h
  · rw [decimal_of_finite, if_neg fun hsign => hsign.2 (rounded_eq_zero h)]
    exact minus_notMem_magnitude _ _

/-- A half in the last place, which goes to the even digit, and a negative number that is shown as
zero. -/
theorem decimal_nearest_eighth :
    let eighth : Finite := ⟨true, 2 ^ (52 : ℕ), 1019, by decide⟩
    let small : Finite := ⟨true, 2 ^ (52 : ℕ), 1013, by decide⟩
    decimal (.finite eighth) 2 = "-0,12".toList ∧ decimal (.finite small) 2 = "0,00".toList ∧
      reading (decimal (.finite eighth) 2) ≤ reading (decimal (.finite small) 2) ∧
      '-' ∉ decimal (.finite small) 2 := by
  intro eighth small
  have hle : eighth.value ≤ small.value := by
    rw [Finite.value_of_negative rfl, Finite.value_of_negative rfl, neg_le_neg_iff,
      Finite.units_div_le_iff]
    decide +kernel
  have hsmall : 2 * |small.value| * 10 ^ 2 ≤ 1 := by
    have hnat : 2 * small.units * 10 ^ (2 : ℕ) ≤ unitsPerOne := by decide +kernel
    rw [Finite.abs_value, mul_div_assoc', div_mul_eq_mul_div,
      div_le_one₀ unitsPerOne_cast_pos]
    exact_mod_cast hnat
  obtain ⟨-, hmono, hunsigned⟩ := decimal_nearest 2
  exact ⟨by decide +kernel, by decide +kernel, hmono _ _ hle, hunsigned _ hsmall⟩

end SalesExplorer.Figure
