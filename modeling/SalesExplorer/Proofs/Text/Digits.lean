import Mathlib.Data.List.Induction
import Mathlib.Tactic.Common
import SalesExplorer.Text.Blank
import SalesExplorer.Text.Digits

/-!
# Digits

What is known of the digits of a number: they are digits, they have the number for their value, the
first of them is no zero unless it is the only one, and a number below the width's power of ten is
padded to exactly that width. In the other direction, digits are the digits of their value with
zeros in front (`exists_eq_zeros_append_toDigits`).
-/

namespace SalesExplorer

attribute [local instance (high)] instPowNat

theorem isDigit_iff {c : Char} : isDigit c = true ↔ 0x30 ≤ c.toNat ∧ c.toNat ≤ 0x39 := by
  rw [isDigit, Bool.and_eq_true, decide_eq_true_eq, decide_eq_true_eq]
  exact Iff.rfl

theorem isBlank_of_isDigit {c : Char} (h : isDigit c = true) : Text.isBlank c = false := by
  obtain ⟨hlo, hhi⟩ := isDigit_iff.1 h
  simp only [Text.isBlank, Bool.or_eq_false_iff, Bool.and_eq_false_iff, decide_eq_false_iff_not,
    beq_eq_false_iff_ne]
  omega

theorem ofDigits_eq (ds : List Char) : ofDigits ds = Nat.ofDigitChars 10 ds 0 := by
  rw [Nat.ofDigitChars_eq_foldl]
  rfl

/-! ## Without zeros in front -/

theorem isDigit_of_mem_toDigits {n : Nat} {c : Char} (h : c ∈ Nat.toDigits 10 n) :
    isDigit c = true := by
  have hdigit := Nat.isDigit_of_mem_toDigits (by decide) (by decide) h
  simpa [Char.isDigit, isDigit, Char.le_def] using hdigit

theorem exists_toDigits_eq_cons (n : Nat) :
    ∃ c ds, Nat.toDigits 10 n = c :: ds ∧ isDigit c = true := by
  obtain ⟨c, ds, hds⟩ := List.exists_cons_of_ne_nil (@Nat.toDigits_ne_nil n 10)
  exact ⟨c, ds, hds, isDigit_of_mem_toDigits (hds ▸ List.mem_cons_self)⟩

theorem ofDigits_toDigits (n : Nat) : ofDigits (Nat.toDigits 10 n) = n := by
  rw [ofDigits_eq, Nat.ofDigitChars_ten_toDigits]

theorem head?_toDigits_ne_zero {n : Nat} (hn : 0 < n) :
    (Nat.toDigits 10 n).head? ≠ some '0' := by
  induction n using Nat.strongRecOn with
  | ind n ih =>
    by_cases hlt : n < 10
    · have hall : ∀ n < 10, 0 < n → [n.digitChar].head? ≠ some '0' := by decide
      rw [Nat.toDigits_of_lt_base hlt]
      exact hall n hlt hn
    · obtain ⟨c, ds, hds, -⟩ := exists_toDigits_eq_cons (n / 10)
      have hhead := ih (n / 10) (by omega) (by omega)
      rw [hds] at hhead
      rw [Nat.toDigits_of_base_le (by decide) (Nat.not_lt.1 hlt), hds]
      exact hhead

/-! ## With zeros in front -/

theorem ofDigits_concat (ds : List Char) (c : Char) :
    ofDigits (ds ++ [c]) = 10 * ofDigits ds + digitValue c := by
  rw [ofDigits, List.foldl_append]
  rfl

theorem digitValue_lt {c : Char} (h : isDigit c = true) : digitValue c < 10 := by
  obtain ⟨hlow, hhigh⟩ := isDigit_iff.1 h
  change c.toNat - 0x30 < 10
  omega

theorem toDigits_digitValue {c : Char} (h : isDigit c = true) :
    Nat.toDigits 10 (digitValue c) = [c] := by
  have hall : ∀ n < 10, (Char.ofNat (n + 0x30)) = n.digitChar := by decide
  have hchar : c = Char.ofNat (digitValue c + 0x30) := by
    obtain ⟨hlow, -⟩ := isDigit_iff.1 h
    rw [digitValue, show '0'.toNat = 0x30 from rfl, Nat.sub_add_cancel hlow, Char.ofNat_toNat]
  rw [Nat.toDigits_of_lt_base (digitValue_lt h), ← hall _ (digitValue_lt h), ← hchar]

theorem ofDigits_zeros_append (k n : Nat) :
    ofDigits (List.replicate k '0' ++ Nat.toDigits 10 n) = n := by
  rw [ofDigits_eq, Nat.ofDigitChars_append, Nat.ofDigitChars_replicate_zero, Nat.mul_zero,
    Nat.ofDigitChars_ten_toDigits]

theorem isDigit_of_mem_zeros_append {k n : Nat} {c : Char}
    (h : c ∈ List.replicate k '0' ++ Nat.toDigits 10 n) : isDigit c = true := by
  rcases List.mem_append.1 h with h | h
  · rw [(List.mem_replicate.1 h).2]
    rfl
  · exact isDigit_of_mem_toDigits h

/-- Digits are those of their number, with zeros in front. -/
theorem exists_eq_zeros_append_toDigits {ds : List Char} (hne : ds ≠ [])
    (h : ∀ c ∈ ds, isDigit c = true) :
    ∃ k, ds = List.replicate k '0' ++ Nat.toDigits 10 (ofDigits ds) := by
  induction ds using List.reverseRecOn with
  | nil => exact absurd rfl hne
  | append_singleton ds c ih =>
    have hc := h c (by simp)
    have hds : ∀ c ∈ ds, isDigit c = true := fun c hc => h c (by simp [hc])
    rw [ofDigits_concat]
    by_cases hnil : ds = []
    · refine ⟨0, ?_⟩
      rw [hnil, show ofDigits [] = 0 from rfl, Nat.mul_zero, Nat.zero_add, toDigits_digitValue hc]
      rfl
    · obtain ⟨k, hk⟩ := ih hnil hds
      by_cases hzero : ofDigits ds = 0
      · -- The digits of zero are one more zero in front.
        rw [hzero] at hk ⊢
        refine ⟨k + 1, ?_⟩
        rw [hk, Nat.mul_zero, Nat.zero_add, toDigits_digitValue hc, List.replicate_succ']
        rfl
      · refine ⟨k, ?_⟩
        rw [← Nat.toDigits_append_toDigits (by decide) (Nat.pos_of_ne_zero hzero) (digitValue_lt hc),
          toDigits_digitValue hc, ← List.append_assoc, ← hk]

theorem ofDigits_append_zeros (ds : List Char) (k : Nat) :
    ofDigits (ds ++ List.replicate k '0') = ofDigits ds * 10 ^ k := by
  rw [ofDigits_eq, ofDigits_eq, Nat.ofDigitChars_append, Nat.ofDigitChars_replicate_zero,
    Nat.mul_comm]

theorem getLast?_toDigits_of_dvd {n : Nat} (h : 10 ∣ n) :
    (Nat.toDigits 10 n).getLast? = some '0' := by
  obtain ⟨m, rfl⟩ := h
  rcases Nat.eq_zero_or_pos m with rfl | hm
  · rfl
  · rw [← Nat.add_zero (10 * m), ← Nat.toDigits_append_toDigits (by decide) hm (by decide)]
    exact List.getLast?_concat

/-! ## Padded to a width -/

theorem ofDigits_padded (width n : Nat) : ofDigits (padded width n) = n :=
  ofDigits_zeros_append _ n

theorem isDigit_of_mem_padded {width n : Nat} {c : Char} (h : c ∈ padded width n) :
    isDigit c = true :=
  isDigit_of_mem_zeros_append h

theorem length_padded {width n : Nat} (hwidth : 0 < width) (h : n < 10 ^ width) :
    (padded width n).length = width := by
  have hle := (Nat.length_toDigits_le_iff (by decide) hwidth).2 h
  rw [padded, List.length_append, List.length_replicate]
  omega

/-- Digits are their number, padded to their length. -/
theorem eq_padded_ofDigits {ds : List Char} (hne : ds ≠ []) (h : ∀ c ∈ ds, isDigit c = true) :
    ds = padded ds.length (ofDigits ds) ∧ ofDigits ds < 10 ^ ds.length := by
  obtain ⟨k, hk⟩ := exists_eq_zeros_append_toDigits hne h
  have hlen : ds.length = k + (Nat.toDigits 10 (ofDigits ds)).length := by
    rw [← List.length_replicate (n := k) (a := '0'), ← List.length_append, ← hk]
  constructor
  · rw [padded, hlen, Nat.add_sub_cancel]
    exact hk
  · refine (Nat.length_toDigits_le_iff (by decide) (List.length_pos_iff.2 hne)).1 ?_
    omega

theorem padded_ne_nil (width n : Nat) : padded width n ≠ [] :=
  List.append_ne_nil_of_right_ne_nil _ Nat.toDigits_ne_nil

theorem exists_padded_eq_cons (width n : Nat) :
    ∃ c ds, padded width n = c :: ds ∧ isDigit c = true := by
  obtain ⟨c, ds, hds⟩ := List.exists_cons_of_ne_nil (padded_ne_nil width n)
  exact ⟨c, ds, hds, isDigit_of_mem_padded (hds ▸ List.mem_cons_self)⟩

end SalesExplorer
