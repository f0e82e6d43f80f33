import SalesExplorer.Proofs.Binary64.Rounding

/-!
# Integers in the binary64 format

The numbers of the format near an integer are the multiples of a power of two, its `spacing`. There
the integer has 53 binary digits at most.

**Theorem (`ofInt_eq_nearestInt`).** An integer within 64 bits becomes the nearest multiple of its
spacing, a half going to the even one. So exactly the integers stay what they are that are multiples
of their spacing (`nearestInt_eq_self_iff`), among them all up to `2 ^ 53`.

What `nearest` returns is read off its two steps: the mantissa that comes out of the division has
at most 53 digits (`mantissa_bounds`), and where it has been rounded up to `2 ^ 53` the exponent
takes a step, which leaves the value as it is.
-/

namespace SalesExplorer.Binary64

attribute [local instance (high)] instPowNat

/-! ## Nearest numbers -/

/-- The mantissa has 53 digits, or less where the exponent is the least one. -/
theorem mantissa_bounds {b : ℕ} (hb : 0 < b) (a : ℕ) :
    roundHalfEven a (b * 2 ^ exponentOf (a / b)) ≤ 2 ^ (53 : ℕ) ∧
      (exponentOf (a / b) = 0 ∨
        2 ^ (52 : ℕ) ≤ roundHalfEven a (b * 2 ^ exponentOf (a / b))) := by
  have hpos : 0 < b * 2 ^ exponentOf (a / b) := Nat.mul_pos hb (Nat.two_pow_pos _)
  have hshift : ∀ k, 2 ^ k * (b * 2 ^ exponentOf (a / b)) = 2 ^ (k + exponentOf (a / b)) * b := by
    intro k
    rw [Nat.pow_add, Nat.mul_comm b, Nat.mul_assoc]
  constructor
  · have hlt : a / b < 2 ^ ((53 : ℕ) + exponentOf (a / b)) :=
      lt_of_lt_of_le Nat.lt_log2_self
        (Nat.pow_le_pow_right (by decide) (by unfold exponentOf; omega))
    have hle : a ≤ 2 ^ (53 : ℕ) * (b * 2 ^ exponentOf (a / b)) := by
      rw [hshift]
      exact ((Nat.div_lt_iff_lt_mul hb).1 hlt).le
    have := roundHalfEven_mono hpos hle
    rwa [roundHalfEven_mul_self hpos] at this
  · by_cases hzero : exponentOf (a / b) = 0
    · exact .inl hzero
    · right
      have hlog : (52 : ℕ) + exponentOf (a / b) = (a / b).log2 := by
        unfold exponentOf at hzero ⊢
        omega
      have hne : a / b ≠ 0 := by
        intro h
        rw [h] at hzero
        exact hzero rfl
      have hle : 2 ^ (52 : ℕ) * (b * 2 ^ exponentOf (a / b)) ≤ a := by
        rw [hshift, hlog]
        exact (Nat.le_div_iff_mul_le hb).1 (Nat.log2_self_le hne)
      have := roundHalfEven_mono hpos hle
      rwa [roundHalfEven_mul_self hpos] at this

theorem ofParts_of_isNormal (negative : Bool) {m e : ℕ} (h : IsNormal m e) :
    ofParts negative m e = .finite ⟨negative, m, e, h⟩ := by
  rw [ofParts, dif_pos h]

theorem exists_nearest_eq_finite (negative : Bool) {a b : ℕ} (hb : 0 < b)
    (he : exponentOf (a * unitsPerOne / b) < 2045) : ∃ x : Finite,
    nearest negative a b = .finite x ∧ x.negative = negative ∧
      x.units = roundHalfEven (a * unitsPerOne) (b * 2 ^ exponentOf (a * unitsPerOne / b)) *
        2 ^ exponentOf (a * unitsPerOne / b) := by
  obtain ⟨hle, hge⟩ := mantissa_bounds hb (a * unitsPerOne)
  unfold nearest
  dsimp only
  generalize exponentOf (a * unitsPerOne / b) = e at *
  generalize roundHalfEven (a * unitsPerOne) (b * 2 ^ e) = m at *
  by_cases hcarry : m = 2 ^ (53 : ℕ)
  · rw [if_pos hcarry, ofParts_of_isNormal negative ⟨by decide, by omega, .inr le_rfl⟩]
    refine ⟨_, rfl, rfl, ?_⟩
    show 2 ^ (52 : ℕ) * 2 ^ (e + 1) = m * 2 ^ e
    rw [hcarry, ← Nat.pow_add, ← Nat.pow_add]
    congr 1
    omega
  · rw [if_neg hcarry, ofParts_of_isNormal negative ⟨by omega, by omega, hge⟩]
    exact ⟨_, rfl, rfl, rfl⟩

/-! ## Spacing -/

/-- The distance of the numbers of the format on either side of a natural number. -/
def spacing (n : ℕ) : ℕ := 2 ^ exponentOf n

/-- The integer that the number nearest to an integer is. -/
def nearestInt (n : ℤ) : ℤ :=
  let m := roundHalfEven n.natAbs (spacing n.natAbs) * spacing n.natAbs
  if n < 0 then -m else m

theorem spacing_pos (n : ℕ) : 0 < spacing n := Nat.two_pow_pos _

theorem log2_mul_two_pow {n : ℕ} (hn : n ≠ 0) (k : ℕ) : (n * 2 ^ k).log2 = n.log2 + k := by
  have hk : 0 < 2 ^ k := Nat.two_pow_pos k
  rw [Nat.log2_eq_iff (Nat.mul_ne_zero hn hk.ne'), Nat.add_right_comm, Nat.pow_add, Nat.pow_add]
  exact ⟨Nat.mul_le_mul_right _ (Nat.log2_self_le hn), Nat.mul_lt_mul_of_pos_right Nat.lt_log2_self hk⟩

theorem exponentOf_eq_zero {n : ℕ} (h : n < 2 ^ (53 : ℕ)) : exponentOf n = 0 := by
  rcases Nat.eq_zero_or_pos n with rfl | hn
  · rfl
  · have hlog := (Nat.log2_lt hn.ne').2 h
    rw [exponentOf]
    omega

theorem exponentOf_units_le {n : ℕ} (h : exponentOf n = 0) :
    exponentOf (n * unitsPerOne) ≤ 1074 := by
  rcases Nat.eq_zero_or_pos n with rfl | hn
  · rw [Nat.zero_mul, h]
    omega
  · rw [exponentOf, unitsPerOne, log2_mul_two_pow hn.ne' 1074]
    rw [exponentOf] at h
    omega

theorem exponentOf_units {n : ℕ} (h : exponentOf n ≠ 0) :
    exponentOf (n * unitsPerOne) = exponentOf n + 1074 := by
  have hn : n ≠ 0 := by
    rintro rfl
    exact h rfl
  rw [exponentOf, unitsPerOne, log2_mul_two_pow hn 1074]
  rw [exponentOf] at h ⊢
  omega

/-- A whole number of ones is rounded as that number is. -/
theorem roundHalfEven_units (n : ℕ) :
    roundHalfEven (n * unitsPerOne) (2 ^ exponentOf (n * unitsPerOne)) *
        2 ^ exponentOf (n * unitsPerOne) =
      roundHalfEven n (spacing n) * spacing n * unitsPerOne := by
  by_cases h : exponentOf n = 0
  · -- The units are finer than the spacing, and nothing is rounded.
    have hunits : unitsPerOne = 2 ^ ((1074 : ℕ) - exponentOf (n * unitsPerOne)) *
        2 ^ exponentOf (n * unitsPerOne) := by
      rw [← Nat.pow_add, Nat.sub_add_cancel (exponentOf_units_le h), unitsPerOne]
    have hspacing : spacing n = 1 := by
      rw [spacing, h, Nat.pow_zero]
    have hone := roundHalfEven_mul_self Nat.one_pos n
    rw [Nat.mul_one] at hone
    rw [hspacing, hone, Nat.mul_one]
    generalize exponentOf (n * unitsPerOne) = e at *
    rw [hunits, ← Nat.mul_assoc, roundHalfEven_mul_self (Nat.two_pow_pos _)]
  · have hpow : 2 ^ exponentOf (n * unitsPerOne) = spacing n * unitsPerOne := by
      rw [exponentOf_units h, Nat.pow_add, spacing, unitsPerOne]
    rw [hpow, roundHalfEven_mul_mul_right unitsPerOne_pos, Nat.mul_assoc]

/-! ## Integers -/

theorem natAbs_nearestInt (n : ℤ) : (nearestInt n).natAbs =
    roundHalfEven n.natAbs (spacing n.natAbs) * spacing n.natAbs := by
  unfold nearestInt
  dsimp only
  split_ifs
  · rw [Int.natAbs_neg, Int.natAbs_natCast]
  · rw [Int.natAbs_natCast]

theorem ofInt_eq_nearestInt {n : ℤ} (h : n.natAbs ≤ 2 ^ (64 : ℕ)) : ∃ x : Finite,
    ofInt n = .finite x ∧ x.negative = decide (n < 0) ∧
      x.units = (nearestInt n).natAbs * unitsPerOne := by
  have he : exponentOf (n.natAbs * unitsPerOne) < 2045 := by
    by_cases hzero : exponentOf n.natAbs = 0
    · have := exponentOf_units_le hzero
      omega
    · have hlog : n.natAbs.log2 < 65 := by
        have hne : n.natAbs ≠ 0 := fun h => hzero (by rw [h]; rfl)
        exact (Nat.log2_lt hne).2 (lt_of_le_of_lt h (by decide))
      rw [exponentOf_units hzero, exponentOf]
      omega
  obtain ⟨x, hx, hnegative, hunits⟩ := exists_nearest_eq_finite (decide (n < 0)) Nat.one_pos
    (by rw [Nat.div_one]; exact he)
  refine ⟨x, hx, hnegative, ?_⟩
  rw [hunits, Nat.div_one, Nat.one_mul, roundHalfEven_units, natAbs_nearestInt]

theorem nearestInt_neg_iff {n : ℤ} :
    nearestInt n < 0 ↔ n < 0 ∧ (nearestInt n).natAbs ≠ 0 := by
  unfold nearestInt
  dsimp only
  split_ifs <;> omega

/-- No multiple of the spacing is nearer. -/
theorem exists_isNearest_nearestInt (n : ℤ) : ∃ k : ℤ,
    nearestInt n = k * spacing n.natAbs ∧ IsNearest n (spacing n.natAbs) k := by
  have hstep : (0 : ℚ) < spacing n.natAbs := Nat.cast_pos.2 (spacing_pos _)
  have hnearest := isNearest_roundHalfEven (spacing_pos n.natAbs) hstep n.natAbs
  rw [div_mul_cancel₀ _ hstep.ne'] at hnearest
  unfold nearestInt
  by_cases hn : n < 0
  · have habs : (n : ℚ) = -(n.natAbs : ℚ) := by
      rw [Nat.cast_natAbs, abs_of_neg hn]
      simp
    refine ⟨_, ?_, habs ▸ hnearest.neg⟩
    rw [if_pos hn]
    push_cast
    ring
  · have habs : (n : ℚ) = n.natAbs := by
      rw [Nat.cast_natAbs, abs_of_nonneg (not_lt.1 hn)]
    refine ⟨_, ?_, habs ▸ hnearest⟩
    rw [if_neg hn]
    push_cast
    rfl

theorem nearestInt_eq_self_iff {n : ℤ} : nearestInt n = n ↔ (spacing n.natAbs : ℤ) ∣ n := by
  rw [Int.natCast_dvd, ← roundHalfEven_mul_eq_self_iff (spacing_pos _)]
  unfold nearestInt
  dsimp only
  split_ifs <;> omega

theorem nearestInt_of_le {n : ℤ} (h : n.natAbs ≤ 2 ^ (53 : ℕ)) : nearestInt n = n := by
  rw [nearestInt_eq_self_iff, Int.natCast_dvd]
  rcases Nat.lt_or_eq_of_le h with hlt | heq
  · rw [spacing, exponentOf_eq_zero hlt]
    exact Nat.one_dvd _
  · rw [heq]
    decide

end SalesExplorer.Binary64
