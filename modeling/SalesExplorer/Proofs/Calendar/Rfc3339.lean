import Mathlib.Data.List.TakeWhile
import Mathlib.Tactic.Common
import SalesExplorer.Calendar.Rfc3339
import SalesExplorer.Proofs.Calendar.Date
import SalesExplorer.Proofs.Reading
import SalesExplorer.Proofs.Text.Digits

/-!
# Instants read back

**Theorem (`read_text`).** Every instant is read back from its text, also where the year has a sign
or the second is a leap second.

The reader goes from left to right, and so does the proof: for each part of the text there is the
equation that says what the reader takes from it (`year_yearText`, `field_padded`,
`fraction_fractionText`). Blanks are skipped before a part, and no part begins with one.
-/

namespace SalesExplorer.Rfc3339

open Text

attribute [local instance (high)] instPowNat

variable {rest : List Char} {n : Nat}

/-! ## Numbers -/

/-- Digits are read up to the first character that is none, or up to the width. -/
theorem digits_eq {width : Nat} {ds : List Char} (hne : ds ≠ [])
    (hdigits : ∀ c ∈ ds, isDigit c = true)
    (htaken : ((ds ++ rest).take width).takeWhile isDigit = ds) :
    digits width (ds ++ rest) = .ok (ofDigits ds, rest) := by
  obtain ⟨c, ds, rfl⟩ := List.exists_cons_of_ne_nil hne
  rw [List.cons_append] at htaken ⊢
  rw [digits, if_pos (hdigits c List.mem_cons_self)]
  simp only [htaken]
  rw [← List.cons_append, List.drop_left]

theorem takeWhile_isDigit_padded (width n : Nat) :
    (padded width n).takeWhile isDigit = padded width n :=
  List.takeWhile_eq_self_iff.2 fun _ => isDigit_of_mem_padded

theorem digits_padded {width : Nat} (hwidth : 0 < width) (hn : n < 10 ^ width) :
    digits width (padded width n ++ rest) = .ok (n, rest) := by
  rw [digits_eq (padded_ne_nil _ _) (fun _ => isDigit_of_mem_padded), ofDigits_padded]
  rw [List.take_left' (length_padded hwidth hn), takeWhile_isDigit_padded]

theorem digits_padded_of_le {width read : Nat} {c : Char} (hc : isDigit c = false)
    (hread : (padded width n).length ≤ read) :
    digits read (padded width n ++ c :: rest) = .ok (n, c :: rest) := by
  rw [digits_eq (padded_ne_nil _ _) (fun _ => isDigit_of_mem_padded), ofDigits_padded]
  rw [List.take_append, List.take_of_length_le hread,
    List.takeWhile_append_of_pos fun _ => isDigit_of_mem_padded]
  cases read - (padded width n).length with
  | zero => simp
  | succ k => simp [hc]

theorem trimLeft_padded (width n : Nat) :
    trimLeft (padded width n ++ rest) = padded width n ++ rest := by
  obtain ⟨c, ds, hds, hc⟩ := exists_padded_eq_cons width n
  rw [hds, List.cons_append, trimLeft, List.dropWhile_cons_of_neg]
  rw [isBlank_of_isDigit hc]
  exact Bool.false_ne_true

theorem field_padded {low high : Nat} (hlow : low ≤ n) (hhigh : n ≤ high) (htwo : high < 100) :
    field low high (padded 2 n ++ rest) = .ok (n, rest) := by
  rw [field, trimLeft_padded, digits_padded (by decide) (Nat.lt_of_le_of_lt hhigh htwo)]
  exact if_pos ⟨hlow, hhigh⟩

theorem year_yearText {y : Int} (hmin : -2147483648 ≤ y) (hmax : y ≤ 2147483647) :
    year (Date.yearText y ++ '-' :: rest) = .ok (y, '-' :: rest) := by
  have hin : -2147483648 ≤ y ∧ y ≤ 2147483647 := ⟨hmin, hmax⟩
  have hsigned (s : List Char) (hs : s = padded 4 y.natAbs ++ '-' :: rest) :
      digits s.length s = .ok (y.natAbs, '-' :: rest) := by
    rw [hs]
    exact digits_padded_of_le rfl (by rw [List.length_append]; omega)
  rw [Date.yearText]
  split_ifs with hplain hneg
  · have hvalue : ((y.natAbs : Nat) : Int) = y := by omega
    have hread : digits 4 (padded 4 y.natAbs ++ '-' :: rest) = .ok (y.natAbs, '-' :: rest) :=
      digits_padded (by decide) (by omega)
    obtain ⟨c, ds, hds, hc⟩ := exists_padded_eq_cons 4 y.natAbs
    rw [year, trimLeft_padded]
    rw [hds, List.cons_append] at hread ⊢
    split
    · rename_i heq
      rw [List.head_eq_of_cons_eq heq] at hc
      cases hc
    · rename_i heq
      rw [List.head_eq_of_cons_eq heq] at hc
      cases hc
    · rw [hread]
      show (if _ then _ else _) = _
      rw [hvalue, if_pos hin]
  · have hvalue : -((y.natAbs : Nat) : Int) = y := by omega
    rw [List.cons_append, year]
    show (Except.map _ (digits _ _) >>= _) = _
    rw [hsigned _ rfl]
    show (if _ then _ else _) = _
    rw [hvalue, if_pos hin]
  · have hvalue : ((y.natAbs : Nat) : Int) = y := by omega
    rw [List.cons_append, year]
    show (Except.map _ (digits _ _) >>= _) = _
    rw [hsigned _ rfl]
    show (if _ then _ else _) = _
    rw [hvalue, if_pos hin]

/-! ## Fractions -/

theorem fraction_padded {width : Nat} (hwidth : 0 < width) (hle : width ≤ 9)
    (hn : n < 10 ^ width) :
    fraction ('.' :: (padded width n ++ ['Z'])) = .ok (n * 10 ^ (9 - width), ['Z']) := by
  have hlength := length_padded hwidth hn
  have hread : digits 9 (padded width n ++ ['Z']) = .ok (n, ['Z']) :=
    digits_padded_of_le rfl (by omega)
  rw [fraction, hread]
  show Except.ok (n * 10 ^ (9 - ((padded width n ++ ['Z']).length - 1)), _) = _
  rw [List.length_append, hlength]
  rfl

/-- The decimals that are written are as many as are exact. -/
theorem fraction_fractionText (hn : n < 1000000000) :
    fraction (Instant.fractionText n ++ ['Z']) = .ok (n, ['Z']) := by
  rw [Instant.fractionText]
  split_ifs with hzero hmillis hmicros
  · rw [hzero]
    rfl
  · rw [List.cons_append, fraction_padded (by decide) (by decide) (by omega)]
    have hvalue : n / 1000000 * 10 ^ (9 - 3) = n := by omega
    rw [hvalue]
  · rw [List.cons_append, fraction_padded (by decide) (by decide) (by omega)]
    have hvalue : n / 1000 * 10 ^ (9 - 6) = n := by omega
    rw [hvalue]
  · rw [List.cons_append, fraction_padded (by decide) (by decide) (by omega)]
    have hvalue : n * 10 ^ (9 - 9) = n := by omega
    rw [hvalue]

/-! ## The whole text -/

theorem mark_cons {m : Char} (hm : isBlank m = false) : mark m (m :: rest) = .ok rest := by
  rw [mark, trimLeft, List.dropWhile_cons_of_neg (by rw [hm]; exact Bool.false_ne_true)]
  exact if_pos rfl

theorem divider_T : divider ('T' :: rest) = .ok rest := rfl

theorem offset_Z : offset (trimLeft ['Z']) = .ok (0, []) := rfl

/-- The text of a day and a time of day, as the reader goes through it. -/
def partsText (d : Date) (h mi s n : Nat) : List Char :=
  Date.yearText d.year ++ '-' :: (padded 2 d.month ++ '-' :: (padded 2 d.day ++
    'T' :: (padded 2 h ++ ':' :: (padded 2 mi ++ ':' :: (padded 2 s ++
      (Instant.fractionText n ++ ['Z']))))))

/-- What is read from parts that are in their bounds. -/
theorem read_partsText (d : Date) {h mi s : Nat} (hh : h ≤ 23) (hmi : mi ≤ 59) (hs : s ≤ 60)
    (hn : n < 1000000000) {t : Instant}
    (hseconds : t.seconds =
      d.dayNumber * 86400 + (h * 3600 + mi * 60 + if s = 60 then 59 else s : Nat))
    (hnanos : t.nanos = if s = 60 then n + 1000000000 else n) :
    read (partsText d h mi s n) = .ok t := by
  obtain ⟨hmin, hmax, hmo, hmo', hday, hday'⟩ := d.valid
  have hday31 := Nat.le_trans hday' (Date.daysInMonth_le d.year d.month)
  have hymin : -2147483648 ≤ d.year := Int.le_trans (by decide) hmin
  have hymax : d.year ≤ 2147483647 := Int.le_trans hmax (by decide)
  have hdate : Date.ofFields? d.year d.month d.day = some d := dif_pos d.valid
  have hinstant : Instant.ofSeconds? (d.dayNumber * Instant.secondsPerDay +
      (h * 3600 + mi * 60 + if s = 60 then 59 else s : Nat) - 0)
      (if s = 60 then n + 1000000000 else n) = some t := by
    rw [← hnanos, Int.sub_zero, Instant.secondsPerDay, ← hseconds]
    exact dif_pos t.valid
  have hdash : isBlank '-' = false := rfl
  have hcolon : isBlank ':' = false := rfl
  simp only [read, partsText, bind, Except.bind, year_yearText hymin hymax, mark_cons hdash,
    mark_cons hcolon, divider_T, field_padded hmo hmo' (by decide),
    field_padded hday hday31 (by decide), field_padded (Nat.zero_le h) hh (by decide),
    field_padded (Nat.zero_le mi) hmi (by decide), field_padded (Nat.zero_le s) hs (by decide),
    fraction_fractionText hn, offset_Z, hdate]
  simp only [hinstant]
  rfl

theorem text_eq {t : Instant} {d : Date} {second : Nat} (hd : d.dayNumber = t.seconds / 86400)
    (hsecond : (t.seconds % 86400).toNat = second) :
    t.text = partsText d (second / 3600) (second / 60 % 60)
      (if 1000000000 ≤ t.nanos then second % 60 + 1 else second % 60)
      (if 1000000000 ≤ t.nanos then t.nanos - 1000000000 else t.nanos) := by
  simp only [Instant.text, partsText, Instant.secondsPerDay, ← hd, hsecond, Date.civil_dayNumber,
    Date.fieldsText, List.append_assoc, List.cons_append]

/-- **Every instant is read back** from its text. -/
theorem read_text (t : Instant) : read t.text = .ok t := by
  obtain ⟨hfirst, hlast, hnanos⟩ := t.valid
  unfold Instant.firstSecond Instant.secondsPerDay at hfirst
  unfold Instant.lastSecond Instant.secondsPerDay at hlast
  obtain ⟨d, hd⟩ := Date.exists_dayNumber_eq (n := t.seconds / 86400) (by omega) (by omega)
  obtain ⟨second, hsecond⟩ : ∃ second : Nat, (t.seconds % 86400).toNat = second := ⟨_, rfl⟩
  rw [text_eq hd hsecond]
  by_cases hleap : 1000000000 ≤ t.nanos
  · -- a leap second stands on the last second of a minute, which is printed as 60
    have hsixty : second % 60 + 1 = 60 := by omega
    rw [if_pos hleap, if_pos hleap, hsixty]
    exact read_partsText d (by omega) (by omega) (by omega) (by omega)
      (by rw [if_pos rfl]; omega) (by rw [if_pos rfl]; omega)
  · have hplain : second % 60 ≠ 60 := by omega
    rw [if_neg hleap, if_neg hleap]
    exact read_partsText d (by omega) (by omega) (by omega) (by omega)
      (by rw [if_neg hplain]; omega) (by rw [if_neg hplain])

end SalesExplorer.Rfc3339
