import SalesExplorer.Fault
import SalesExplorer.Filter.Clause

/-!
# Domains of filter values

Hours and weekdays have a fixed domain; the values of the other dimensions are open. A clause is
checked item by item, and the first item outside the domain is named.
-/

namespace SalesExplorer.Filter

/-! ## Hours -/

def firstHour : Nat := 0
def lastHour : Nat := 23

/-- A number of 8 bits with one more digit, if the character is one and the number still fits. -/
def pushDigit? (n : Nat) (c : Char) : Option Nat :=
  let m := 10 * n + digitValue c
  if isDigit c && m < UInt8.size then some m else none

/-- The number of 8 bits that an optional plus sign and decimal digits write. -/
def byte? (s : List Char) : Option Nat :=
  let ds := match s with
    | '+' :: ds => ds
    | ds => ds
  if ds.isEmpty then none else ds.foldlM pushDigit? 0

def isHour (item : String) : Bool := (byte? item.toList).any (· ≤ lastHour)

/-! ## Weekdays -/

structure Weekday where
  value : String
  label : String
  deriving DecidableEq

/-- Monday first, numbered from 1. -/
def weekdays : List Weekday :=
  [⟨"1", "Segunda-feira"⟩, ⟨"2", "Terça-feira"⟩, ⟨"3", "Quarta-feira"⟩, ⟨"4", "Quinta-feira"⟩,
   ⟨"5", "Sexta-feira"⟩, ⟨"6", "Sábado"⟩, ⟨"7", "Domingo"⟩]

def isWeekday (item : String) : Bool := weekdays.any (·.value == item)

/-! ## Clauses -/

namespace Clause

/-- The items of a clause that have to lie in the domain. -/
def checkedItems (c : Clause) : List String :=
  match c.operator, c.value with
  | .within, value => value.items
  | _, .many items => Value.items (.many items)
  | _, .single text => [text.trimBlank]

/-- What a single item violates. -/
def violation? (field : Dimension) (item : String) : Option Violation :=
  match field with
  | .hourOfDay => if isHour item then none else some (.hour item)
  | .dayOfWeek => if isWeekday item then none else some (.weekday item)
  | _ => none

/-- Refuse a clause with an item outside the domain of its dimension. -/
def check (c : Clause) : Except Fault Unit :=
  match c.checkedItems.findSome? (violation? c.field) with
  | some v => .error (.validation v)
  | none => .ok ()

end Clause

end SalesExplorer.Filter
