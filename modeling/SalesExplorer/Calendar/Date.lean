/-!
# Dates

Days of the proleptic Gregorian calendar, from the first day of the year -262143 to the last day of
the year 262142. A day also has a number, counted from 1970-01-01; `civil` takes the number back to
year, month and day.
-/

namespace SalesExplorer

namespace Date

def minYear : Int := -262143
def maxYear : Int := 262142

def isLeap (year : Int) : Bool :=
  year % 4 == 0 && (year % 100 != 0 || year % 400 == 0)

def daysInMonth (year : Int) (month : Nat) : Nat :=
  match month with
  | 2 => if isLeap year then 29 else 28
  | 4 | 6 | 9 | 11 => 30
  | _ => 31

/-- Year, month and day name a day of the calendar. -/
def IsValid (year : Int) (month day : Nat) : Prop :=
  minYear ≤ year ∧ year ≤ maxYear ∧ 1 ≤ month ∧ month ≤ 12 ∧ 1 ≤ day ∧ day ≤ daysInMonth year month

instance (y : Int) (m d : Nat) : Decidable (IsValid y m d) := by unfold IsValid; infer_instance

end Date

/-- A day of the calendar. -/
structure Date where
  year : Int
  month : Nat
  day : Nat
  valid : Date.IsValid year month day
  deriving DecidableEq

namespace Date

def ofFields? (year : Int) (month day : Nat) : Option Date :=
  if h : IsValid year month day then some ⟨year, month, day, h⟩ else none

/-! ## Day numbers -/

/-- The days before the first of January of a year, counted from the year 1. -/
def daysBeforeYear (year : Int) : Int :=
  365 * (year - 1) + (year - 1) / 4 - (year - 1) / 100 + (year - 1) / 400

/-- The days of a year before the first of a month. -/
def daysBeforeMonth (year : Int) : Nat → Nat
  | 0 | 1 => 0
  | m + 2 => daysBeforeMonth year (m + 1) + daysInMonth year (m + 1)

/-- The number of 1970-01-01 when the days are counted from the year 1. -/
def epoch : Int := 719162

/-- Days since 1970-01-01. -/
def dayNumber (d : Date) : Int :=
  daysBeforeYear d.year + daysBeforeMonth d.year d.month + d.day - 1 - epoch

/-- The year that holds the day `n`, counted from the first day of the year 1. -/
def yearOf (n : Int) : Int :=
  let y := 400 * n / 146097 + 1
  if n < daysBeforeYear y then y - 1
  else if daysBeforeYear (y + 1) ≤ n then y + 1
  else y

/-- Month and day of the `n`-th day (from 0) after the first of a month; `fuel` months remain. -/
def monthDay (year : Int) (fuel month n : Nat) : Nat × Nat :=
  match fuel with
  | 0 => (month, n + 1)
  | fuel + 1 =>
    if n < daysInMonth year month then (month, n + 1)
    else monthDay year fuel (month + 1) (n - daysInMonth year month)

/-- Year, month and day of a day number. -/
def civil (n : Int) : Int × Nat × Nat :=
  let year := yearOf (n + epoch)
  (year, monthDay year 11 1 (n + epoch - daysBeforeYear year).toNat)

/-- The day with a number, if it lies in the calendar. -/
def ofDayNumber? (n : Int) : Option Date :=
  let (y, m, d) := civil n
  ofFields? y m d

def firstDay : Int := daysBeforeYear minYear - epoch
def lastDay : Int := daysBeforeYear (maxYear + 1) - 1 - epoch

/-- The day some days later (earlier, for a negative number). -/
def addDays? (d : Date) (n : Int) : Option Date := ofDayNumber? (d.dayNumber + n)

/-- The same day of the month some months later, or the last day of that month. -/
def addMonths? (d : Date) (n : Int) : Option Date :=
  let total := 12 * d.year + (d.month - 1) + n
  let year := total / 12
  let month := (total % 12).toNat + 1
  ofFields? year month (min d.day (daysInMonth year month))

/-! ## Bounds -/

theorem daysBeforeMonth_add (y : Int) {m d : Nat} (hm : 1 ≤ m) (hm' : m ≤ 12)
    (hd : d ≤ daysInMonth y m) : daysBeforeMonth y m + d ≤ if isLeap y then 366 else 365 := by
  have : m = 1 ∨ m = 2 ∨ m = 3 ∨ m = 4 ∨ m = 5 ∨ m = 6 ∨ m = 7 ∨ m = 8 ∨ m = 9 ∨ m = 10 ∨
      m = 11 ∨ m = 12 := by omega
  rcases this with rfl | rfl | rfl | rfl | rfl | rfl | rfl | rfl | rfl | rfl | rfl | rfl <;>
    cases h : isLeap y <;> simp [daysBeforeMonth, daysInMonth, h] at hd ⊢ <;> omega

theorem daysBeforeYear_succ (y : Int) :
    daysBeforeYear (y + 1) = daysBeforeYear y + if isLeap y then 366 else 365 := by
  have h : isLeap y = true ↔ y % 4 = 0 ∧ (y % 100 ≠ 0 ∨ y % 400 = 0) := by
    simp [isLeap]
  unfold daysBeforeYear
  split
  · have := h.mp ‹_›; omega
  · have := mt h.mpr ‹_›; omega

theorem daysBeforeYear_mono {y z : Int} (h : y ≤ z) : daysBeforeYear y ≤ daysBeforeYear z := by
  unfold daysBeforeYear; omega

theorem firstDay_le_dayNumber (d : Date) : firstDay ≤ d.dayNumber := by
  obtain ⟨y, m, day, h⟩ := d
  have := daysBeforeYear_mono h.1
  have := h.2.2.2.2.1
  simp only [firstDay, dayNumber]
  omega

theorem dayNumber_le_lastDay (d : Date) : d.dayNumber ≤ lastDay := by
  obtain ⟨y, m, day, h⟩ := d
  have h₁ : daysBeforeYear (y + 1) ≤ daysBeforeYear (maxYear + 1) :=
    daysBeforeYear_mono (by have := h.2.1; omega)
  have h₂ := daysBeforeMonth_add y h.2.2.1 h.2.2.2.1 h.2.2.2.2.2
  rw [daysBeforeYear_succ] at h₁
  simp only [lastDay, dayNumber]
  split at h₁ <;> simp_all <;> omega

end Date

end SalesExplorer
