import SalesExplorer.Dataset
import SalesExplorer.Text.Blank

/-!
# Filter clauses

A clause compares a dimension with a value that the user entered. The value is kept as it was
entered; `Clause.normalized?` is the clause as it goes on the wire, and there is none for a clause
without a usable value. The values that fit depend on the dimension, so a new dimension clears the
value.
-/

namespace SalesExplorer.Filter

inductive Operator where
  | equals
  | notEquals
  | greaterThan
  | lessThan
  | within
  deriving DecidableEq

namespace Operator

def all : List Operator := [equals, notEquals, greaterThan, lessThan, within]

def name : Operator → String
  | equals => "equals"
  | notEquals => "not_equals"
  | greaterThan => "greater_than"
  | lessThan => "less_than"
  | within => "in"

def label : Operator → String
  | equals => "é igual a"
  | notEquals => "não é igual a"
  | greaterThan => "maior que"
  | lessThan => "menor que"
  | within => "está em"

/-- The operators that take one value out of a list of known ones. -/
def isEquality : Operator → Bool
  | equals | notEquals => true
  | _ => false

end Operator

/-! ## Values -/

inductive Value where
  | single (text : String)
  | many (items : List String)
  deriving DecidableEq

namespace Value

def none : Value := single ""

/-- Nothing but blanks was entered. -/
def isEmpty : Value → Bool
  | single text => text.isBlankText
  | many items => items.all (·.isBlankText)

/-- The trimmed items that are not blank; commas divide a text into items. -/
def items : Value → List String
  | single text => (Text.pieces text.toList).map String.ofList
  | many items => (items.map (·.trimBlank)).filter (!·.isEmpty)

end Value

/-! ## Clauses -/

structure Clause where
  field : Dimension
  operator : Operator
  value : Value
  deriving DecidableEq

namespace Clause

/-- A fresh clause. -/
def fresh : Clause := ⟨.channel, .equals, .none⟩

/-- Another dimension, or the same one again, clears the value. -/
def setField (c : Clause) (field : Dimension) : Clause := { c with field, value := .none }

def setOperator (c : Clause) (operator : Operator) : Clause := { c with operator }

def setValue (c : Clause) (value : Value) : Clause := { c with value }

/-- No usable value was entered. A list of separators alone counts as none. -/
def isEmpty (c : Clause) : Bool :=
  match c.operator with
  | .within => c.value.items.isEmpty
  | _ => c.value.isEmpty

/-- The value as it goes on the wire. -/
def wireValue (c : Clause) : Value :=
  match c.operator, c.value with
  | .within, value => .many value.items
  | _, .single text => .single text.trimBlank
  | _, .many items => .many items

/-- The clause as it goes on the wire, if it has a usable value. -/
def normalized? (c : Clause) : Option Clause :=
  if c.isEmpty then Option.none else some { c with value := c.wireValue }

end Clause

end SalesExplorer.Filter
