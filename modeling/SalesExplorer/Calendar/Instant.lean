import SalesExplorer.Calendar.Date
import SalesExplorer.Text.Digits

/-!
# Instants

An instant is a count of seconds since 1970-01-01T00:00:00Z with nanoseconds, on a day of the
calendar. A leap second is the last second of a minute with 10 ^ 9 nanoseconds or more.

The text of an instant is in UTC: the date, `T`, the time of day, as many of 3, 6 or 9 decimals as
are exact (none for a whole second), and `Z`. A year outside 0 to 9999 is signed.
-/

namespace SalesExplorer

namespace Instant

def secondsPerDay : Int := 86400

def firstSecond : Int := Date.firstDay * secondsPerDay
def lastSecond : Int := (Date.lastDay + 1) * secondsPerDay - 1

/-- The second is on a day of the calendar, and only the last one of a minute is a leap second. -/
def IsValid (seconds : Int) (nanos : Nat) : Prop :=
  firstSecond ≤ seconds ∧ seconds ≤ lastSecond ∧
    (nanos < 1000000000 ∨ nanos < 2000000000 ∧ seconds % 60 = 59)

instance (s : Int) (n : Nat) : Decidable (IsValid s n) := by unfold IsValid; infer_instance

end Instant

structure Instant where
  seconds : Int
  nanos : Nat
  valid : Instant.IsValid seconds nanos
  deriving DecidableEq

namespace Instant

def ofSeconds? (seconds : Int) (nanos : Nat) : Option Instant :=
  if h : IsValid seconds nanos then some ⟨seconds, nanos, h⟩ else none

/-! ## Milliseconds -/

/-- The instant some milliseconds after 1970-01-01T00:00:00Z. -/
def ofMillis? (ms : Int) : Option Instant :=
  ofSeconds? (ms / 1000) ((ms % 1000).toNat * 1000000)

/-- Whole milliseconds since 1970-01-01T00:00:00Z. -/
def millis (t : Instant) : Int := t.seconds * 1000 + t.nanos / 1000000

/-- Milliseconds on a day of the calendar are an instant. -/
def ofMillis (ms : Int) (h : firstSecond * 1000 ≤ ms ∧ ms < (lastSecond + 1) * 1000) : Instant :=
  ⟨ms / 1000, (ms % 1000).toNat * 1000000, by omega, by omega, by omega⟩

end Instant

/-! ## Text -/

/-- Four digits for the years 0 to 9999, else a sign and at least four. -/
def Date.yearText (year : Int) : List Char :=
  if 0 ≤ year ∧ year ≤ 9999 then padded 4 year.natAbs
  else (if year < 0 then '-' else '+') :: padded 4 year.natAbs

def Date.fieldsText (year : Int) (month day : Nat) : List Char :=
  Date.yearText year ++ '-' :: padded 2 month ++ '-' :: padded 2 day

def Date.text (d : Date) : List Char := Date.fieldsText d.year d.month d.day

namespace Instant

/-- The decimals of a second, the fewest of 0, 3, 6 and 9 that are exact. -/
def fractionText (nanos : Nat) : List Char :=
  if nanos = 0 then []
  else if nanos % 1000000 = 0 then '.' :: padded 3 (nanos / 1000000)
  else if nanos % 1000 = 0 then '.' :: padded 6 (nanos / 1000)
  else '.' :: padded 9 nanos

def text (t : Instant) : List Char :=
  let (year, month, day) := Date.civil (t.seconds / secondsPerDay)
  let second := (t.seconds % secondsPerDay).toNat
  let leap := 1000000000 ≤ t.nanos
  Date.fieldsText year month day ++ 'T' :: padded 2 (second / 3600) ++
    ':' :: padded 2 (second / 60 % 60) ++
    ':' :: padded 2 (if leap then second % 60 + 1 else second % 60) ++
    fractionText (if leap then t.nanos - 1000000000 else t.nanos) ++ ['Z']

end Instant

end SalesExplorer
