import SalesExplorer.Filter.Domain
import SalesExplorer.Options.Cache

/-!
# Value editors

How the value of a filter clause is entered. Weekdays and hours have editors of their own. Channel,
status, store and product offer a remote list where a single value is compared for equality, and
plain text where the list could not be fetched. All else is plain text.
-/

namespace SalesExplorer

inductive ValueEditor where
  | weekday (days : List Filter.Weekday)
  | hour (first last : Nat)
  /-- The options of a list; none while it is on its way. -/
  | remote (options : Option (List SelectOption))
  /-- A text; where it is a list, commas separate the items. -/
  | freeText (commaSeparated : Bool)

namespace ValueEditor

def placeholder (commaSeparated : Bool) : String :=
  if commaSeparated then "Valores separados por vírgula" else "Digite um valor..."

/-- Nothing can be entered while the list is on its way. -/
def isDisabled : ValueEditor → Bool
  | remote none => true
  | _ => false

/-- The plain text editor of an operator. -/
def plain (operator : Filter.Operator) : ValueEditor := freeText (operator == .within)

/-- The editor of a dimension with a fixed domain. -/
def fixed? : Dimension → Option ValueEditor
  | .dayOfWeek => some (weekday Filter.weekdays)
  | .hourOfDay => some (hour Filter.firstHour Filter.lastHour)
  | _ => none

/-- The dimensions whose values a remote list offers. -/
def hasRemoteOptions : Dimension → Bool
  | .channel | .saleStatus | .store | .product => true
  | _ => false

/-- The editor of a clause that needs no list; none if it takes one. -/
def local? (c : Filter.Clause) : Option ValueEditor :=
  (fixed? c.field).or
    (if hasRemoteOptions c.field && c.operator.isEquality then none else some (plain c.operator))

/-- The editor of a clause whose list stands as given. -/
def ofStatus (c : Filter.Clause) : OptionStatus → ValueEditor
  | .loading => remote none
  | .ready options => remote (some options)
  | .failed _ => plain c.operator

/-- The editor of a clause as of now. Only a clause that takes a list looks it up. -/
def ofClause (cache : OptionCache) (now : Nat) (c : Filter.Clause) : ValueEditor × OptionCache :=
  match local? c with
  | some editor => (editor, cache)
  | none =>
    let (entry, cache) := cache.lookup now c.field
    (ofStatus c entry.status, cache)

end ValueEditor

end SalesExplorer
