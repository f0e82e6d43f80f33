import SalesExplorer.Calendar.Instant

/-!
# Time zones and the bounds of a day

A zone is an offset from UTC that changes at given instants. A local time may have one instant,
several (a clock set back shows it more than once) or none (a clock set forward skips it).

`startOfDay` is local midnight, the first one where there are several; where midnight is skipped,
the first of the half hours after it that is not. `endOfDay?` is the last local millisecond of the
day, found in the same way from the other side. After four steps inside a gap the local time itself
is taken for UTC.
-/

namespace SalesExplorer

structure Zone where
  /-- Seconds that local time is ahead of UTC before the first change. -/
  offset : Int
  /-- Instants, in seconds, from which another offset holds. -/
  changes : List (Int × Int)
  deriving DecidableEq

namespace Zone

def fixed (offset : Int) : Zone := ⟨offset, []⟩

def utc : Zone := fixed 0

/-- The offsets under which a local second occurs, in the order of time; `offset` holds from the
second `start` on. -/
def matching (second : Int) (start : Option Int) (offset : Int) : List (Int × Int) → List Int
  | [] => if start.all (· ≤ second - offset) then [offset] else []
  | (change, next) :: rest =>
    let later := matching second (some change) next rest
    if start.all (· ≤ second - offset) && second - offset < change then offset :: later else later

def offsetsAt (z : Zone) (second : Int) : List Int := matching second none z.offset z.changes

/-- Which instant is meant where a local time has several. -/
inductive Side where
  | first
  | last
  deriving DecidableEq

/-- The instant of a local time in milliseconds; none in a gap, and none where one of the instants
is outside the calendar. -/
def instant? (z : Zone) (side : Side) (localMillis : Int) : Option Instant := do
  let offsets := z.offsetsAt (localMillis / 1000)
  let first ← Instant.ofMillis? (localMillis - (← offsets.head?) * 1000)
  let last ← Instant.ofMillis? (localMillis - (← offsets.getLast?) * 1000)
  return match side with
    | .first => first
    | .last => last

/-! ## Bounds of a day -/

def halfHour : Int := 1800000

/-- The times tried for a bound: the bound itself and three half hours into the day. -/
def candidates (side : Side) (localMillis : Int) : List Int :=
  (List.range 4).map fun i : Nat => match side with
    | .first => localMillis + i * halfHour
    | .last => localMillis - i * halfHour

def millisPerDay : Int := 86400000

/-- Local midnight at the start of a day, in milliseconds. -/
def midnight (d : Date) : Int := d.dayNumber * millisPerDay

theorem midnight_in_calendar (d : Date) :
    Instant.firstSecond * 1000 ≤ midnight d ∧ midnight d < (Instant.lastSecond + 1) * 1000 := by
  have := d.firstDay_le_dayNumber
  have := d.dayNumber_le_lastDay
  simp only [Instant.firstSecond, Instant.lastSecond, Instant.secondsPerDay, midnight, millisPerDay]
  omega

def startOfDay (z : Zone) (d : Date) : Instant :=
  ((candidates .first (midnight d)).findSome? (z.instant? .first)).getD
    (Instant.ofMillis (midnight d) (midnight_in_calendar d))

/-- The last millisecond of a day; none for the last day of the calendar, which has no next one. -/
def endOfDay? (z : Zone) (d : Date) : Option Instant := do
  let last := midnight (← d.addDays? 1) - 1
  ((candidates .last last).findSome? (z.instant? .last)).or (Instant.ofMillis? last)

end Zone

end SalesExplorer
