import SalesExplorer.Calendar.Zone

/-!
# Ranges of time

A `TimeRange` holds the two instants that bound the analysed period, both inclusive. The user picks
days (`DaySelection`); in a zone, two days give the range from the start of the first to the end of
the last. The presets are selections counted from today.
-/

namespace SalesExplorer

/-- The bounds of the analysed period, both inclusive. -/
structure TimeRange where
  start : Instant
  stop : Instant
  deriving DecidableEq

/-- Why two days give no range. -/
inductive RangeProblem where
  | reversed (start stop : Date)
  /-- The last day has no next one. -/
  | beyondCalendar
  deriving DecidableEq

/-- From the start of one day to the end of another. -/
def TimeRange.ofDays (z : Zone) (start stop : Date) : Except RangeProblem TimeRange :=
  if stop.dayNumber < start.dayNumber then .error (.reversed start stop)
  else match z.endOfDay? stop with
    | none => .error .beyondCalendar
    | some last => .ok ⟨z.startOfDay start, last⟩

/-- The days picked so far. -/
structure DaySelection where
  start : Option Date := none
  stop : Option Date := none
  deriving DecidableEq

namespace DaySelection

def isComplete (s : DaySelection) : Bool := s.start.isSome && s.stop.isSome

/-- A selection of one day only has no range yet. -/
def range (s : DaySelection) (z : Zone) : Except RangeProblem (Option TimeRange) :=
  match s.start, s.stop with
  | some start, some stop => (TimeRange.ofDays z start stop).map some
  | _, _ => .ok none

/-! ## Presets -/

def ofDays (start stop : Date) : DaySelection := ⟨some start, some stop⟩

/-- Today and the six days before; none where those leave the calendar. -/
def lastSevenDays? (today : Date) : Option DaySelection :=
  (today.addDays? (-6)).map (ofDays · today)

/-- The first to the last day of the month of today. -/
def thisMonth (today : Date) : DaySelection :=
  let first := (Date.ofFields? today.year today.month 1).getD today
  ofDays first (((first.addMonths? 1).bind (·.addDays? (-1))).getD today)

/-- Six months back from today. -/
def lastSixMonths (today : Date) : DaySelection :=
  ofDays ((today.addMonths? (-6)).getD today) today

end DaySelection

end SalesExplorer
