import Mathlib.Tactic.Common
import SalesExplorer.Calendar.Date

/-!
# Day numbers and dates

The day numbers from `firstDay` to `lastDay` and the dates of the calendar correspond to each other:
`civil` finds the year, month and day of the day with a number (`civil_dayNumber`), and every number
in between is the number of a day (`exists_dayNumber_eq`).

Both rest on the same fact for years and for months: the days before them increase by more than any
day inside, so the year and the month that hold a day are determined by its number.
-/

namespace SalesExplorer.Date

/-! ## The year of a day -/

/-- The day lies in its year. The guess is off by one year at most, and this is put right. -/
theorem daysBeforeYear_yearOf (n : Int) :
    daysBeforeYear (yearOf n) ≤ n ∧ n < daysBeforeYear (yearOf n + 1) := by
  have hlow : daysBeforeYear (400 * n / 146097 + 1 - 1) ≤ n := by
    unfold daysBeforeYear
    omega
  have hhigh : n < daysBeforeYear (400 * n / 146097 + 1 + 1 + 1) := by
    unfold daysBeforeYear
    omega
  unfold yearOf
  dsimp only
  split_ifs with hbefore hafter
  · exact ⟨hlow, by rw [Int.sub_add_cancel]; exact hbefore⟩
  · exact ⟨hafter, hhigh⟩
  · exact ⟨Int.not_lt.1 hbefore, Int.not_le.1 hafter⟩

theorem yearOf_eq {n y : Int} (hlow : daysBeforeYear y ≤ n) (hhigh : n < daysBeforeYear (y + 1)) :
    yearOf n = y := by
  obtain ⟨hlow', hhigh'⟩ := daysBeforeYear_yearOf n
  rcases Int.lt_trichotomy (yearOf n) y with h | h | h
  · have := daysBeforeYear_mono (y := yearOf n + 1) (z := y) h
    omega
  · exact h
  · have := daysBeforeYear_mono (y := y + 1) (z := yearOf n) h
    omega

/-! ## The month of a day -/

theorem daysInMonth_le (year : Int) (month : Nat) : Date.daysInMonth year month ≤ 31 := by
  unfold Date.daysInMonth
  split
  · split_ifs <;> decide
  all_goals decide

theorem daysBeforeMonth_succ (y : Int) {m : Nat} (hm : 1 ≤ m) :
    daysBeforeMonth y (m + 1) = daysBeforeMonth y m + daysInMonth y m := by
  obtain ⟨k, rfl⟩ := Nat.exists_eq_add_of_le' hm
  rfl

theorem daysBeforeMonth_mono (y : Int) {m k : Nat} (hm : 1 ≤ m) (h : m < k) :
    daysBeforeMonth y m + daysInMonth y m ≤ daysBeforeMonth y k := by
  induction k with
  | zero => omega
  | succ k ih =>
    rcases Nat.lt_succ_iff_lt_or_eq.1 h with h | rfl
    · have := ih h
      rw [daysBeforeMonth_succ y (by omega)]
      omega
    · exact Nat.le_of_eq (daysBeforeMonth_succ y hm).symm

/-- A day of the year lies in one month, on one day. -/
theorem month_day_unique (y : Int) {m d m' d' : Nat} (hm : 1 ≤ m) (hm' : 1 ≤ m') (hd : 1 ≤ d)
    (hd' : 1 ≤ d') (hle : d ≤ daysInMonth y m) (hle' : d' ≤ daysInMonth y m')
    (h : daysBeforeMonth y m + d = daysBeforeMonth y m' + d') : m = m' ∧ d = d' := by
  rcases Nat.lt_trichotomy m m' with hlt | rfl | hlt
  · have := daysBeforeMonth_mono y hm hlt
    omega
  · exact ⟨rfl, Nat.add_left_cancel h⟩
  · have := daysBeforeMonth_mono y hm' hlt
    omega

/-- The months from a given one on are gone through up to the one that holds the day. -/
theorem exists_monthDay (y : Int) {fuel month n : Nat} (hm : 1 ≤ month) (hfuel : month + fuel = 12)
    (hn : daysBeforeMonth y month + n < daysBeforeMonth y 13) :
    ∃ m d, monthDay y fuel month n = (m, d) ∧ 1 ≤ m ∧ m ≤ 12 ∧ 1 ≤ d ∧ d ≤ daysInMonth y m ∧
      daysBeforeMonth y m + d = daysBeforeMonth y month + n + 1 := by
  induction fuel generalizing month n with
  | zero =>
    obtain rfl : month = 12 := hfuel
    rw [daysBeforeMonth_succ y (m := 12) hm] at hn
    exact ⟨12, n + 1, rfl, by omega, by omega, by omega, by omega, (Nat.add_assoc _ _ _).symm⟩
  | succ fuel ih =>
    rw [monthDay]
    split_ifs with hin
    · exact ⟨month, n + 1, rfl, hm, by omega, by omega, by omega, (Nat.add_assoc _ _ _).symm⟩
    · have hsucc := daysBeforeMonth_succ y hm
      obtain ⟨m, d, hmd, hm, hm', hd, hd', hsum⟩ :=
        @ih (month + 1) (n - daysInMonth y month) (by omega) (by omega) (by omega)
      exact ⟨m, d, hmd, hm, hm', hd, hd', by omega⟩

/-! ## Numbers and dates -/

/-- Year, month and day are those of the day with a number. -/
structure IsDay (n year : Int) (month day : Nat) : Prop where
  month_pos : 1 ≤ month
  month_le : month ≤ 12
  day_pos : 1 ≤ day
  day_le : day ≤ daysInMonth year month
  number : daysBeforeYear year + daysBeforeMonth year month + day - 1 - epoch = n

theorem isDay_dayNumber (d : Date) : IsDay d.dayNumber d.year d.month d.day := by
  obtain ⟨-, -, hmonth, hmonth', hday, hday'⟩ := d.valid
  exact ⟨hmonth, hmonth', hday, hday', rfl⟩

theorem daysBeforeYear_succ_eq (y : Int) :
    daysBeforeYear (y + 1) = daysBeforeYear y + daysBeforeMonth y 13 := by
  rw [daysBeforeYear_succ]
  cases h : isLeap y <;> simp [daysBeforeMonth, daysInMonth, h]

theorem IsDay.year_bounds {n y : Int} {m d : Nat} (h : IsDay n y m d) :
    daysBeforeYear y ≤ n + epoch ∧ n + epoch < daysBeforeYear (y + 1) := by
  obtain ⟨hm, hm', hd, hd', hnumber⟩ := h
  have hmonth := daysBeforeMonth_mono y (m := m) (k := 13) hm (by omega)
  have hyear := daysBeforeYear_succ_eq y
  omega

theorem IsDay.unique {n y y' : Int} {m d m' d' : Nat} (h : IsDay n y m d) (h' : IsDay n y' m' d') :
    y = y' ∧ m = m' ∧ d = d' := by
  obtain rfl : y = y' :=
    (yearOf_eq h.year_bounds.1 h.year_bounds.2).symm.trans
      (yearOf_eq h'.year_bounds.1 h'.year_bounds.2)
  obtain ⟨hm, -, hd, hle, hnumber⟩ := h
  obtain ⟨hm', -, hd', hle', hnumber'⟩ := h'
  exact ⟨rfl, month_day_unique y hm hm' hd hd' hle hle' (by omega)⟩

/-- Year, month and day are found for every number. -/
theorem exists_civil (n : Int) : ∃ y m d, civil n = (y, m, d) ∧ IsDay n y m d := by
  obtain ⟨hlow, hhigh⟩ := daysBeforeYear_yearOf (n + epoch)
  rw [daysBeforeYear_succ_eq] at hhigh
  have hone (y : Int) : daysBeforeMonth y 1 = 0 := rfl
  obtain ⟨m, d, hmd, hm, hm', hd, hd', hsum⟩ := @exists_monthDay (yearOf (n + epoch)) 11 1
    (n + epoch - daysBeforeYear (yearOf (n + epoch))).toNat (by omega) (by omega)
    (by rw [hone]; omega)
  rw [hone] at hsum
  exact ⟨_, m, d, by rw [civil, hmd], hm, hm', hd, hd', by omega⟩

/-- **Year, month and day** of the number of a date are those of the date. -/
theorem civil_dayNumber (d : Date) : civil d.dayNumber = (d.year, d.month, d.day) := by
  obtain ⟨y, m, day, hcivil, hday⟩ := exists_civil d.dayNumber
  obtain ⟨rfl, rfl, rfl⟩ := hday.unique (isDay_dayNumber d)
  exact hcivil

theorem ofDayNumber?_dayNumber (d : Date) : ofDayNumber? d.dayNumber = some d := by
  rw [ofDayNumber?, civil_dayNumber]
  exact dif_pos d.valid

/-- **The day with a number** is the date that has the number. -/
theorem ofDayNumber?_eq_some_iff {n : Int} {d : Date} :
    ofDayNumber? n = some d ↔ d.dayNumber = n := by
  constructor
  · intro h
    obtain ⟨y, m, day, hcivil, hday⟩ := exists_civil n
    rw [ofDayNumber?, hcivil] at h
    simp only [ofFields?] at h
    split_ifs at h with hvalid
    obtain rfl := Option.some_inj.1 h
    exact hday.number
  · rintro rfl
    exact ofDayNumber?_dayNumber d

theorem exists_dayNumber_eq {n : Int} (hfirst : firstDay ≤ n) (hlast : n ≤ lastDay) :
    ∃ d : Date, d.dayNumber = n := by
  obtain ⟨y, m, d, -, hday⟩ := exists_civil n
  obtain ⟨hlow, hhigh⟩ := hday.year_bounds
  obtain ⟨hm, hm', hd, hd', hnumber⟩ := hday
  have hmin : minYear ≤ y := by
    by_contra hlt
    have := daysBeforeYear_mono (y := y + 1) (z := minYear) (by omega)
    simp only [firstDay] at hfirst
    omega
  have hmax : y ≤ maxYear := by
    by_contra hlt
    have := daysBeforeYear_mono (y := maxYear + 1) (z := y) (by omega)
    simp only [lastDay] at hlast
    omega
  exact ⟨⟨y, m, d, hmin, hmax, hm, hm', hd, hd'⟩, hnumber⟩

end SalesExplorer.Date
