import SalesExplorer.Calendar.Instant
import SalesExplorer.Text.Blank

/-!
# Reading RFC 3339 date-times

The reader is lenient: blanks may stand before every number and every mark of the date and of the
time of day, the year may be signed and longer than four digits, and numbers may be short. It goes
from left to right and stops at the first problem, so a number out of its range is seen as soon as
it is read; whether the day exists, and whether the instant lies in the calendar, is seen at the
end.
-/

namespace SalesExplorer.Rfc3339

open Text

attribute [local instance (high)] instPowNat

inductive Problem where
  | tooShort
  | invalid
  | outOfRange
  | tooLong
  | impossible
  deriving DecidableEq

def Problem.message : Problem → String
  | tooShort => "premature end of input"
  | invalid => "input contains invalid characters"
  | outOfRange => "input is out of range"
  | tooLong => "trailing input"
  | impossible => "no possible date and time matching input"

/-- A part of the text read, and the text after it. -/
abbrev Parse (α : Type) := List Char → Except Problem (α × List Char)

/-! ## Numbers and marks -/

/-- One to `width` digits. -/
def digits (width : Nat) : Parse Nat := fun s =>
  match s with
  | [] => .error .tooShort
  | c :: _ =>
    if isDigit c then
      let ds := (s.take width).takeWhile isDigit
      .ok (ofDigits ds, s.drop ds.length)
    else .error .invalid

/-- A number of one or two digits between two bounds. -/
def field (low high : Nat) : Parse Nat := fun s => do
  let (n, s) ← digits 2 (trimLeft s)
  if low ≤ n ∧ n ≤ high then .ok (n, s) else .error .outOfRange

/-- A year: up to four digits, or a sign and any number of them. -/
def year : Parse Int := fun s => do
  let (y, s) ← match trimLeft s with
    | '-' :: s => (digits s.length s).map fun (n, s) => (-(n : Int), s)
    | '+' :: s => (digits s.length s).map fun (n, s) => ((n : Int), s)
    | s => (digits 4 s).map fun (n, s) => ((n : Int), s)
  if -2147483648 ≤ y ∧ y ≤ 2147483647 then .ok (y, s) else .error .outOfRange

/-- A mark, blanks before it allowed. -/
def mark (m : Char) (s : List Char) : Except Problem (List Char) :=
  match trimLeft s with
  | [] => .error .tooShort
  | c :: s => if c = m then .ok s else .error .invalid

/-- Between the date and the time: a `T` of either case or a space. -/
def divider : List Char → Except Problem (List Char)
  | [] => .error .tooShort
  | c :: s => if c = 'T' ∨ c = 't' ∨ c = ' ' then .ok s else .error .invalid

/-- An optional fraction of a second, in nanoseconds; digits beyond the ninth count for nothing. -/
def fraction : Parse Nat := fun s =>
  match s with
  | '.' :: s => do
    let (n, rest) ← digits 9 s
    let read := s.length - rest.length
    .ok (n * 10 ^ (9 - read), rest.dropWhile isDigit)
  | s => .ok (0, s)

/-- Exactly two digits. Of a text too short for them, what is there decides the problem: a
character beyond ASCII takes the place of two. -/
def twoDigits : Parse Nat := fun s =>
  match s with
  | [] => .error .tooShort
  | [c] => .error (if c.toNat < 0x80 then .tooShort else .invalid)
  | a :: b :: s =>
    if isDigit a && isDigit b then .ok (10 * digitValue a + digitValue b, s) else .error .invalid

/-- The offset from UTC in seconds. -/
def offset : Parse Int := fun s =>
  match s with
  | 'Z' :: s | 'z' :: s => .ok (0, s)
  | u :: t :: c :: rest =>
    if [u, t, c].map Char.toUpper = ['U', 'T', 'C'] then .ok (0, rest) else signed s
  | s => signed s
where
  signed : Parse Int
    | [] => .error .tooShort
    | c :: s =>
      if c = '+' then after 1 s
      else if c = '-' ∨ c = '\u2212' then after (-1) s
      else .error .invalid
  after (sign : Int) : Parse Int := fun s => do
    let (hours, s) ← twoDigits s
    let (minutes, s) ← twoDigits (s.dropWhile fun c => c == ':' || isBlank c)
    if minutes < 60 then .ok (sign * (hours * 3600 + minutes * 60 : Nat), s)
    else .error .outOfRange

/-! ## The whole text -/

/-- The instant that a text writes. -/
def read (s : List Char) : Except Problem Instant := do
  let (y, s) ← year s
  let (mo, s) ← field 1 12 (← mark '-' s)
  let (d, s) ← field 1 31 (← mark '-' s)
  let (h, s) ← field 0 23 (← divider s)
  let (mi, s) ← field 0 59 (← mark ':' s)
  let (sec, s) ← field 0 60 (← mark ':' s)
  let (nanos, s) ← fraction s
  let (off, s) ← offset (trimLeft s)
  if !(trimLeft s).isEmpty then .error .tooLong
  else match Date.ofFields? y mo d with
    | none => .error .outOfRange
    | some day =>
      if off.natAbs < 86400 then
        let leap := sec = 60
        let second := (h * 3600 + mi * 60 + if leap then 59 else sec : Nat)
        match Instant.ofSeconds? (day.dayNumber * Instant.secondsPerDay + second - off)
            (if leap then nanos + 1000000000 else nanos) with
        | some t => .ok t
        | none => .error .impossible
      else .error .outOfRange

end SalesExplorer.Rfc3339
