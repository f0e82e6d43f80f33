import SalesExplorer.Proofs.Binary64.Integers
import SalesExplorer.Proofs.Figure.Layout
import SalesExplorer.Result.Table

/-!
# Integers in cells

An integer of a result is shown by way of the binary64 format.

**Theorem (`integer_cell_exact_iff`).** The cell of an integer within 64 bits has the digits of the
nearest number of the format. They are the digits of the integer exactly if it is a multiple of its
spacing, that is if it has at most 53 significant binary digits, as all integers up to `2 ^ 53`
have. Two integers are shown alike exactly if the same number of the format is nearest to both.

So beyond `2 ^ 53` there are integers that are not shown as they are
(`integer_cell_shows_neighbour`).
-/

namespace SalesExplorer

open Binary64 Figure

attribute [local instance (high)] instPowNat

/-- An integer with all its digits and two decimals. -/
def exactText (n : ℤ) : List Char :=
  (if n < 0 then ['-'] else []) ++ group (Nat.toDigits 10 n.natAbs) ++ [',', '0', '0']

theorem magnitude_whole (n : ℕ) :
    magnitude 2 (n * 10 ^ (2 : ℕ)) = group (Nat.toDigits 10 n) ++ [',', '0', '0'] := by
  have hzeros : padded 2 0 = ['0', '0'] := by decide
  rw [magnitude, Nat.mul_div_cancel n (by decide), Nat.mul_mod_left, hzeros]
  rfl

theorem exactText_eq (n : ℤ) : exactText n =
    if n < 0 then '-' :: magnitude 2 (n.natAbs * 10 ^ (2 : ℕ))
    else magnitude 2 (n.natAbs * 10 ^ (2 : ℕ)) := by
  rw [magnitude_whole, exactText]
  split_ifs <;> rfl

theorem reading_exactText (n : ℤ) : reading (exactText n) = n := by
  have hread : magnitudeReading (magnitude 2 (n.natAbs * 10 ^ (2 : ℕ))) = n.natAbs := by
    rw [magnitudeReading_magnitude]
    push_cast
    exact mul_div_cancel_right₀ _ (by norm_num)
  rw [exactText_eq]
  split_ifs with hn
  · rw [reading, hread, Nat.cast_natAbs, abs_of_neg hn]
    simp
  · rw [reading_of_notMem (minus_notMem_magnitude _ _), hread, Nat.cast_natAbs,
      abs_of_nonneg (not_lt.1 hn)]

theorem exactText_injective {m n : ℤ} (h : exactText m = exactText n) : m = n := by
  have := congrArg reading h
  rw [reading_exactText, reading_exactText] at this
  exact_mod_cast this

theorem cellText_int {n : ℤ} (h : n.natAbs ≤ 2 ^ (64 : ℕ)) :
    cellText (.int n) = String.ofList (exactText (nearestInt n)) := by
  obtain ⟨x, hx, hnegative, hunits⟩ := ofInt_eq_nearestInt h
  have hrounded : rounded x 2 = (nearestInt n).natAbs * 10 ^ (2 : ℕ) := by
    rw [rounded, hunits, Nat.mul_right_comm, roundHalfEven_mul_self unitsPerOne_pos]
  have hsign : x.negative = true ∧ (nearestInt n).natAbs * 10 ^ (2 : ℕ) ≠ 0 ↔ nearestInt n < 0 := by
    rw [nearestInt_neg_iff, hnegative, decide_eq_true_eq]
    omega
  rw [cellText, hx, decimal, hrounded, exactText_eq]
  exact congrArg _ (if_congr hsign rfl rfl)

/-- **Integers in cells.** The text is the one in the column of a table, too. -/
theorem integer_cell_exact_iff {n : ℤ} (hlow : -2 ^ 63 ≤ n) (hhigh : n < 2 ^ 64) :
    cellText (.int n) = String.ofList (exactText (nearestInt n)) ∧
    (∃ k : ℤ, nearestInt n = k * spacing n.natAbs ∧ IsNearest n (spacing n.natAbs) k) ∧
    (cellText (.int n) = String.ofList (exactText n) ↔ (spacing n.natAbs : ℤ) ∣ n) ∧
    (n.natAbs ≤ 2 ^ 53 → cellText (.int n) = String.ofList (exactText n)) ∧
    (∀ (row : Row) (column : Column), Members.get? row column.key = some (.int n) →
      cellOf row column = String.ofList (exactText (nearestInt n))) ∧
    ∀ m : ℤ, -2 ^ 63 ≤ m → m < 2 ^ 64 →
      (cellText (.int m) = cellText (.int n) ↔ nearestInt m = nearestInt n) := by
  have hcell : ∀ m : ℤ, -2 ^ 63 ≤ m → m < 2 ^ 64 →
      cellText (.int m) = String.ofList (exactText (nearestInt m)) := fun m hlow hhigh =>
    cellText_int (by omega)
  have htext : ∀ m k : ℤ, String.ofList (exactText m) = String.ofList (exactText k) ↔ m = k := by
    intro m k
    rw [String.ofList_inj]
    exact ⟨exactText_injective, congrArg exactText⟩
  refine ⟨hcell n hlow hhigh, exists_isNearest_nearestInt n, ?_, fun h => ?_, fun row column h => ?_,
    fun m hm hm' => ?_⟩
  · rw [hcell n hlow hhigh, htext, nearestInt_eq_self_iff]
  · rw [hcell n hlow hhigh, nearestInt_of_le h]
  · rw [cellOf, h, Option.map_some, Option.getD_some, hcell n hlow hhigh]
  · rw [hcell n hlow hhigh, hcell m hm hm', htext]

/-- The first integer that is not shown as it is, also in a table, and the one before it, which is
shown alike. -/
theorem integer_cell_exact_iff_odd :
    cellText (.int 9007199254740993) = "9.007.199.254.740.992,00" ∧
      cellText (.int 9007199254740993) ≠ String.ofList (exactText 9007199254740993) ∧
      cellOf [("orders", .int 9007199254740993)] ⟨"orders", "orders"⟩ =
        "9.007.199.254.740.992,00" ∧
      cellText (.int 9007199254740992) = cellText (.int 9007199254740993) := by
  obtain ⟨hcell, -, hexact, -, htable, hsame⟩ :=
    integer_cell_exact_iff (n := 9007199254740993) (by decide) (by decide)
  have htext : String.ofList (exactText (nearestInt 9007199254740993)) =
      "9.007.199.254.740.992,00" := by decide
  exact ⟨hcell.trans htext, hexact.not.2 (by decide), (htable _ _ rfl).trans htext,
    (hsame _ (by decide) (by decide)).2 (by decide)⟩

/-- An integer of 54 binary digits, of which the last one is lost. -/
theorem integer_cell_shows_neighbour : ¬ ∀ n : ℤ, -2 ^ 63 ≤ n → n < 2 ^ 64 →
    cellText (.int n) = String.ofList (exactText n) := by
  intro h
  have hodd := h 9007199254740993 (by decide) (by decide)
  rw [cellText_int (by decide), String.ofList_inj] at hodd
  exact absurd (exactText_injective hodd) (by decide)

end SalesExplorer
