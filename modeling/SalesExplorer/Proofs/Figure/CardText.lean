import Mathlib.Data.List.DropRight
import SalesExplorer.Proofs.Figure.Decimal

/-!
# Texts of cards

**Theorem (`card_texts_exact`).** A number is the figure with three decimals without the zeros at
its end, and without the comma where nothing is left behind it. It is read as that figure and is the
shortest text that is, so the numbers of two values are equal exactly if their figures are. A
currency amount is the figure of the absolute value with two decimals, with a minus sign for
negative values that are not shown as zero.

Zeros are taken off the end of a text (`Trimmed`), but lengths are compared by the numbers that
texts lay out (`layout_iff`). Digits that do not end in a zero are those of a number of `10 ^ -q`
that is no multiple of ten (`getLast?_magnitude_of_dvd`), and every other layout of it has more
places (`exists_places`).
-/

namespace SalesExplorer

open Binary64

attribute [local instance (high)] instPowNat

/-- The absolute value. -/
def Binary64.Finite.abs (x : Finite) : Finite := { x with negative := false }

theorem Binary64.Finite.value_abs (x : Finite) : x.abs.value = |x.value| := by
  rw [Finite.value_of_not_negative Bool.false_ne_true, Finite.abs_value]
  rfl

namespace Figure

variable {s whole ds sign : List Char} {n zeros places : ℕ}

/-! ## Zeros at the end -/

theorem exists_eq_trimZeros_append (s : List Char) :
    ∃ zeros, s = trimZeros s ++ List.replicate zeros '0' := by
  refine ⟨(s.rtakeWhile (· == '0')).length, ?_⟩
  have hzeros : s.rtakeWhile (· == '0') =
      List.replicate (s.rtakeWhile (· == '0')).length '0' :=
    List.eq_replicate_iff.2 ⟨rfl, fun c hc => by simpa using List.mem_rtakeWhile_imp hc⟩
  rw [← hzeros]
  exact (List.rdropWhile_append_rtakeWhile (p := (· == '0')) (l := s)).symm

theorem getLast?_trimZeros (s : List Char) : (trimZeros s).getLast? ≠ some '0' := by
  intro hlast
  have hne : s.rdropWhile (· == '0') ≠ [] := by
    intro hnil
    rw [show trimZeros s = s.rdropWhile (· == '0') from rfl, hnil] at hlast
    contradiction
  have hend : (s.rdropWhile (· == '0')).getLast? = some '0' := hlast
  rw [List.getLast?_eq_some_getLast hne, Option.some_inj] at hend
  exact List.rdropWhile_last_not (· == '0') s hne (beq_iff_eq.2 hend)

theorem trimZeros_append_zeros (h : s.getLast? ≠ some '0') (zeros : ℕ) :
    trimZeros (s ++ List.replicate zeros '0') = s := by
  change (s ++ List.replicate zeros '0').rdropWhile (· == '0') = s
  induction zeros with
  | zero =>
    rw [List.replicate_zero, List.append_nil, List.rdropWhile_eq_self_iff]
    intro hne hzero
    rw [List.getLast?_eq_some_getLast hne, beq_iff_eq.1 hzero] at h
    exact h rfl
  | succ zeros ih =>
    rw [List.replicate_succ', ← List.append_assoc, List.rdropWhile_concat_pos _ _ _ rfl, ih]

/-! ## Decimals behind a comma -/

theorem withDecimals_append (sign whole ds : List Char) :
    withDecimals (sign ++ whole) ds = sign ++ withDecimals whole ds := by
  rw [withDecimals, withDecimals]
  split_ifs
  · rfl
  · exact List.append_assoc sign whole _

theorem number_eq {x : Binary64} (h : decimal x 3 = whole ++ ',' :: ds) (hcomma : ',' ∉ whole) :
    number x = withDecimals whole (trimZeros ds) := by
  have hwhole : ∀ c ∈ whole, (c != ',') = true := fun c hc =>
    bne_iff_ne.2 fun heq => hcomma (heq ▸ hc)
  have htake : (whole ++ ',' :: ds).takeWhile (· != ',') = whole := by
    rw [List.takeWhile_append_of_pos hwhole]
    exact List.append_nil whole
  have hdrop : (whole ++ ',' :: ds).dropWhile (· != ',') = ',' :: ds := by
    rw [List.dropWhile_append_of_pos hwhole]
    rfl
  rw [number, h]
  simp only [htake, hdrop, List.isEmpty_iff]
  rfl

theorem magnitudeReading_append_zeros (hcomma : ',' ∉ whole)
    (hdigits : ∀ c ∈ ds, isDigit c = true) (zeros : ℕ) :
    magnitudeReading (withDecimals whole (ds ++ List.replicate zeros '0')) =
      magnitudeReading (withDecimals whole ds) := by
  have hall : ∀ c ∈ ds ++ List.replicate zeros '0', isDigit c = true := by
    intro c hc
    rcases List.mem_append.1 hc with hc | hc
    · exact hdigits c hc
    · rw [(List.mem_replicate.1 hc).2]
      rfl
  rw [magnitudeReading_withDecimals hcomma hdigits, magnitudeReading_withDecimals hcomma hall,
    ofDigits_append_zeros, List.length_append, List.length_replicate, Nat.cast_mul, Nat.cast_pow,
    Nat.cast_ofNat, pow_add, mul_div_mul_right _ _ (pow_ne_zero zeros (by norm_num))]

/-! ## Numbers of fewer places -/

theorem getLast?_withDecimals (hne : ds ≠ []) : (withDecimals whole ds).getLast? = ds.getLast? := by
  rw [withDecimals, if_neg hne, List.getLast?_append, List.getLast?_cons_of_ne_nil hne]
  exact Option.or_of_isSome (List.getLast?_isSome.2 hne)

theorem getLast?_magnitude_of_dvd (hplaces : 0 < places) (h : 10 ∣ n) :
    (magnitude places n).getLast? = some '0' := by
  have hdvd : 10 ∣ n % 10 ^ places := (Nat.dvd_mod_iff (dvd_pow_self 10 hplaces.ne')).2 h
  rw [magnitude_eq, decimals, if_neg hplaces.ne', getLast?_withDecimals (padded_ne_nil _ _), padded,
    List.getLast?_append, getLast?_toDigits_of_dvd hdvd]
  rfl

theorem length_withDecimals (whole ds : List Char) : (withDecimals whole ds).length =
    whole.length + if ds.length = 0 then 0 else ds.length + 1 := by
  simp only [withDecimals, List.length_eq_zero_iff]
  split_ifs
  · rfl
  · exact List.length_append

/-- A number that needs its places has no fewer, and in more places only zeros are added. -/
theorem exists_places {m p q : ℕ} (hneeded : q = 0 ∨ ¬10 ∣ n)
    (h : (n : ℚ) / 10 ^ q = m / 10 ^ p) : ∃ k, p = q + k ∧ m = n * 10 ^ k := by
  have hten : ∀ k, 0 < 10 ^ k := fun k => Nat.pow_pos (by decide)
  have hcross : n * 10 ^ p = m * 10 ^ q := by
    rw [div_eq_div_iff (pow_ne_zero q (by norm_num)) (pow_ne_zero p (by norm_num))] at h
    exact_mod_cast h
  rcases Nat.lt_or_ge p q with hlt | hle
  · obtain ⟨k, rfl⟩ := Nat.exists_eq_add_of_lt hlt
    have hdvd : 10 ∣ n := by
      refine ⟨m * 10 ^ k, Nat.eq_of_mul_eq_mul_right (hten p) ?_⟩
      rw [hcross]
      ring
    exact absurd hdvd (hneeded.resolve_left (Nat.succ_ne_zero _))
  · obtain ⟨k, rfl⟩ := Nat.exists_eq_add_of_le hle
    refine ⟨k, rfl, Nat.eq_of_mul_eq_mul_right (hten q) ?_⟩
    rw [← hcross]
    ring

theorem length_magnitude_le {m p q : ℕ} (hneeded : q = 0 ∨ ¬10 ∣ n)
    (h : (n : ℚ) / 10 ^ q = m / 10 ^ p) : (magnitude q n).length ≤ (magnitude p m).length := by
  obtain ⟨k, rfl, rfl⟩ := exists_places hneeded h
  have hwhole : n * 10 ^ k / 10 ^ (q + k) = n / 10 ^ q := by
    rw [Nat.pow_add, Nat.mul_div_mul_right _ _ (Nat.pow_pos (by decide))]
  rw [magnitude_eq, magnitude_eq, length_withDecimals, length_withDecimals, length_decimals,
    length_decimals, hwhole]
  split_ifs <;> omega

/-! ## The decimals of a number -/

/-- Three decimals in two parts, of which the second one is the zeros at the end. -/
structure Trimmed (n : ℕ) (whole ds : List Char) (zeros : ℕ) : Prop where
  text : magnitude 3 n = whole ++ ',' :: (ds ++ List.replicate zeros '0')
  comma : ',' ∉ whole
  layout : Layout ds.length (withDecimals whole ds)
  digits : ∀ c ∈ ds, isDigit c = true
  length : ds.length + zeros = 3
  last : ds.getLast? ≠ some '0'

theorem exists_trimmed (n : ℕ) : ∃ whole ds zeros, Trimmed n whole ds zeros := by
  obtain ⟨zeros, hzeros⟩ := exists_eq_trimZeros_append (decimals 3 n)
  have hdigits : ∀ c ∈ trimZeros (decimals 3 n), isDigit c = true := by
    intro c hc
    have hmem : c ∈ decimals 3 n := by
      rw [hzeros]
      exact List.mem_append_left _ hc
    exact isDigit_of_mem_decimals 3 n c hmem
  refine ⟨group (Nat.toDigits 10 (n / 10 ^ (3 : ℕ))), _, zeros, ?_, comma_notMem_group _,
    layout_withDecimals (grouped_group_toDigits _) eq_zero_of_head?_group hdigits, hdigits, ?_,
    getLast?_trimZeros _⟩
  · rw [← hzeros]
    rfl
  · have hlength := length_decimals 3 n
    rw [hzeros, List.length_append, List.length_replicate] at hlength
    exact hlength

theorem Trimmed.magnitudeReading_eq (h : Trimmed n whole ds zeros) :
    magnitudeReading (withDecimals whole ds) = magnitudeReading (magnitude 3 n) := by
  have hne : ds ++ List.replicate zeros '0' ≠ [] := by
    rw [← List.length_pos_iff, List.length_append, List.length_replicate, h.length]
    decide
  rw [← magnitudeReading_append_zeros h.comma h.digits zeros, withDecimals, if_neg hne, ← h.text]

/-- What is left is laid out with no more places than it needs. -/
theorem Trimmed.exists_magnitude (h : Trimmed n whole ds zeros) :
    ∃ m, withDecimals whole ds = magnitude ds.length m ∧ (ds.length = 0 ∨ ¬10 ∣ m) := by
  obtain ⟨m, hm⟩ := layout_iff.1 h.layout
  refine ⟨m, hm, ?_⟩
  by_contra hcontra
  obtain ⟨hpos, hdvd⟩ := not_or.1 hcontra
  have hlast := getLast?_magnitude_of_dvd (Nat.pos_of_ne_zero hpos) (not_not.1 hdvd)
  have hne : ds ≠ [] := fun hnil => hpos (hnil ▸ rfl)
  rw [← hm, getLast?_withDecimals hne] at hlast
  exact h.last hlast

theorem Trimmed.length_le (h : Trimmed n whole ds zeros) (hs : Layout places s)
    (hreading : magnitudeReading s = magnitudeReading (magnitude 3 n)) :
    (withDecimals whole ds).length ≤ s.length := by
  obtain ⟨m, hm, hneeded⟩ := h.exists_magnitude
  obtain ⟨k, rfl⟩ := layout_iff.1 hs
  rw [← h.magnitudeReading_eq, hm, magnitudeReading_magnitude, magnitudeReading_magnitude]
    at hreading
  rw [hm]
  exact length_magnitude_le hneeded hreading.symm

/-! ## Signs -/

/-- No sign or a minus sign. -/
def IsSign (sign : List Char) : Prop := sign = [] ∨ sign = ['-']

theorem IsSign.comma_notMem (hsign : IsSign sign) (h : ',' ∉ whole) : ',' ∉ sign ++ whole := by
  rw [List.mem_append, not_or]
  refine ⟨?_, h⟩
  rcases hsign with rfl | rfl <;> decide

theorem Layout.reading_eq (hs : Layout places s) : reading s = magnitudeReading s := by
  obtain ⟨n, rfl⟩ := layout_iff.1 hs
  exact reading_of_notMem (minus_notMem_magnitude places n)

theorem Layout.magnitudeReading_nonneg (hs : Layout places s) : 0 ≤ magnitudeReading s := by
  obtain ⟨n, rfl⟩ := layout_iff.1 hs
  rw [magnitudeReading_magnitude]
  positivity

theorem abs_reading (hsign : IsSign sign) (hs : Layout places s) :
    |reading (sign ++ s)| = magnitudeReading s := by
  rcases hsign with rfl | rfl
  · rw [List.nil_append, hs.reading_eq, abs_of_nonneg hs.magnitudeReading_nonneg]
  · rw [List.singleton_append, reading, abs_neg, abs_of_nonneg hs.magnitudeReading_nonneg]

/-- A figure is its sign, which zero does not have, and its digits. -/
theorem exists_sign (x : Finite) (places : ℕ) : ∃ sign, IsSign sign ∧
    (sign = ['-'] → 0 < rounded x places) ∧
    decimal (.finite x) places = sign ++ magnitude places (rounded x places) := by
  rw [decimal_of_finite]
  split_ifs with h
  · exact ⟨['-'], .inr rfl, fun _ => Nat.pos_of_ne_zero h.2, rfl⟩
  · exact ⟨[], .inl rfl, fun hsign => absurd hsign (by decide), rfl⟩

/-! ## Numbers -/

/-- A number is the sign and the whole of the figure with three decimals, and those of its
decimals that are needed. -/
theorem exists_number (x : Finite) : ∃ sign whole ds zeros, IsSign sign ∧
    (sign = ['-'] → 0 < rounded x 3) ∧ Trimmed (rounded x 3) whole ds zeros ∧
    decimal (.finite x) 3 = sign ++ magnitude 3 (rounded x 3) ∧
    number (.finite x) = sign ++ withDecimals whole ds := by
  obtain ⟨sign, hsign, hpos, hdecimal⟩ := exists_sign x 3
  obtain ⟨whole, ds, zeros, h⟩ := exists_trimmed (rounded x 3)
  have htext : decimal (.finite x) 3 =
      (sign ++ whole) ++ ',' :: (ds ++ List.replicate zeros '0') := by
    rw [hdecimal, h.text, List.append_assoc]
  refine ⟨sign, whole, ds, zeros, hsign, hpos, h, hdecimal, ?_⟩
  rw [number_eq htext (hsign.comma_notMem h.comma), trimZeros_append_zeros h.last,
    withDecimals_append]

theorem reading_number (x : Finite) :
    reading (number (.finite x)) = reading (decimal (.finite x) 3) := by
  obtain ⟨sign, whole, ds, zeros, hsign, -, h, hdecimal, hnumber⟩ := exists_number x
  rw [hnumber, hdecimal]
  rcases hsign with rfl | rfl
  · rw [List.nil_append, List.nil_append, h.layout.reading_eq, (layout_magnitude 3 _).reading_eq,
      h.magnitudeReading_eq]
  · rw [List.singleton_append, List.singleton_append, reading, reading, h.magnitudeReading_eq]

/-- A figure with any number of decimals, with a minus sign in front or without one. -/
def Rendering (t : List Char) : Prop :=
  ∃ sign s places, IsSign sign ∧ Layout places s ∧ t = sign ++ s

theorem rendering_number (x : Finite) : Rendering (number (.finite x)) := by
  obtain ⟨sign, whole, ds, zeros, hsign, -, h, -, hnumber⟩ := exists_number x
  exact ⟨sign, _, _, hsign, h.layout, hnumber⟩

theorem length_number_le (x : Finite) {t : List Char} (ht : Rendering t)
    (hreading : reading t = reading (number (.finite x))) :
    (number (.finite x)).length ≤ t.length := by
  obtain ⟨sign, whole, ds, zeros, hsign, hpos, h, -, hnumber⟩ := exists_number x
  obtain ⟨sign', s, places, hsign', hs, rfl⟩ := ht
  rw [hnumber] at hreading ⊢
  have hmagnitude : magnitudeReading s = magnitudeReading (magnitude 3 (rounded x 3)) := by
    rw [← abs_reading hsign' hs, hreading, abs_reading hsign h.layout, h.magnitudeReading_eq]
  have hlength := h.length_le hs hmagnitude
  have hsigns : sign.length ≤ sign'.length := by
    rcases hsign with rfl | rfl
    · exact Nat.zero_le _
    · -- What is read as negative has a sign.
      rcases hsign' with rfl | rfl
      · have hnegative : 0 < magnitudeReading (withDecimals whole ds) := by
          rw [h.magnitudeReading_eq, magnitudeReading_magnitude]
          exact div_pos (Nat.cast_pos.2 (hpos rfl)) (by positivity)
        have hnonneg := hs.magnitudeReading_nonneg
        rw [List.nil_append, List.singleton_append, hs.reading_eq, reading] at hreading
        linarith
      · exact Nat.le_refl _
  rw [List.length_append, List.length_append]
  exact Nat.add_le_add hsigns hlength

theorem number_eq_iff (x y : Finite) :
    number (.finite x) = number (.finite y) ↔ decimal (.finite x) 3 = decimal (.finite y) 3 := by
  constructor
  · intro h
    rw [decimal_eq_iff, ← reading_number, ← reading_number, h]
  · intro h
    simp only [number, h]

/-! ## Amounts of money -/

theorem decimal_abs (x : Finite) (places : ℕ) :
    decimal (.finite x.abs) places = magnitude places (rounded x places) := by
  rw [decimal_of_finite, if_neg fun h => h.1.not_ge (x.value_abs ▸ abs_nonneg x.value)]
  rfl

theorem currency_eq (x : Finite) : currency (.finite x) =
    (if x.value < 0 ∧ reading (decimal (.finite x.abs) 2) ≠ 0 then "-R$ " else "R$ ").toList ++
      decimal (.finite x.abs) 2 := by
  have hzero : reading (magnitude 2 (rounded x 2)) ≠ 0 ↔ rounded x 2 ≠ 0 := by
    rw [(layout_magnitude 2 _).reading_eq, magnitudeReading_magnitude, Ne, div_eq_zero_iff,
      or_iff_left (pow_ne_zero 2 (by norm_num)), Nat.cast_eq_zero]
  rw [currency, decimal_of_finite, decimal_abs]
  simp only [hzero]
  split_ifs
  · rfl
  · split
    · rename_i amount heq
      exact absurd (heq ▸ List.mem_cons_self) (minus_notMem_magnitude 2 (rounded x 2))
    · rfl

/-! ## The texts -/

/-- **The texts of cards are exact.** -/
theorem card_texts_exact :
    (∀ x : Finite,
      (∃ (whole ds : List Char) (zeros : ℕ),
        decimal (.finite x) 3 = whole ++ ',' :: (ds ++ List.replicate zeros '0') ∧
        number (.finite x) = (if ds = [] then whole else whole ++ ',' :: ds) ∧
        ',' ∉ whole ∧ ds.length + zeros = 3 ∧ ds.getLast? ≠ some '0') ∧
      reading (number (.finite x)) = reading (decimal (.finite x) 3) ∧
      Rendering (number (.finite x)) ∧
      (∀ t, Rendering t → reading t = reading (decimal (.finite x) 3) →
        (number (.finite x)).length ≤ t.length) ∧
      x.abs.value = |x.value| ∧
      currency (.finite x) =
        (if x.value < 0 ∧ reading (decimal (.finite x.abs) 2) ≠ 0 then "-R$ " else "R$ ").toList ++
          decimal (.finite x.abs) 2) ∧
    ∀ x y : Finite,
      number (.finite x) = number (.finite y) ↔ decimal (.finite x) 3 = decimal (.finite y) 3 := by
  refine ⟨fun x => ⟨?_, reading_number x, rendering_number x, ?_, x.value_abs, currency_eq x⟩,
    number_eq_iff⟩
  · obtain ⟨sign, whole, ds, zeros, hsign, -, h, hdecimal, hnumber⟩ := exists_number x
    refine ⟨sign ++ whole, ds, zeros, ?_, ?_, hsign.comma_notMem h.comma, h.length, h.last⟩
    · rw [hdecimal, h.text, List.append_assoc]
    · rw [hnumber, ← withDecimals_append]
      rfl
  · intro t ht hreading
    exact length_number_le x ht (hreading.trans (reading_number x).symm)

/-- Minus two and a half, which needs one decimal as a number and has two as an amount. -/
theorem card_texts_exact_two_and_a_half :
    let x : Finite := ⟨true, 5 * 2 ^ (50 : ℕ), 1023, by decide⟩
    number (.finite x) = "-2,5".toList ∧ currency (.finite x) = "-R$ 2,50".toList ∧
      Rendering "-2,500".toList ∧ reading "-2,500".toList = reading (decimal (.finite x) 3) ∧
      (number (.finite x)).length ≤ "-2,500".toList.length := by
  intro x
  have hdecimal : "-2,500".toList = decimal (.finite x) 3 := by decide +kernel
  have hrendering : Rendering "-2,500".toList :=
    ⟨['-'], "2,500".toList, 3, .inr rfl, layout_iff.2 ⟨2500, by decide +kernel⟩, rfl⟩
  obtain ⟨-, -, -, hshortest, -, -⟩ := card_texts_exact.1 x
  exact ⟨by decide +kernel, by decide +kernel, hrendering, congrArg reading hdecimal,
    hshortest _ hrendering (congrArg reading hdecimal)⟩

end Figure

end SalesExplorer
