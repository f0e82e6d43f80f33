/-!
# The sales dataset

The columns that sales can be grouped by (`Dimension`) and the ways a column can be summed up
(`Aggregation`). Each has a wire name; the wire name of a dimension is also its key in result rows.
-/

namespace SalesExplorer

inductive Aggregation where
  | sum
  | count
  | avg
  deriving DecidableEq

namespace Aggregation

def all : List Aggregation := [sum, count, avg]

def name : Aggregation → String
  | sum => "sum"
  | count => "count"
  | avg => "avg"

end Aggregation

/-- A column that sales can be grouped by. -/
inductive Dimension where
  | store
  | channel
  | product
  | payment
  | saleStatus
  | saleDate
  | dayOfWeek
  | hourOfDay
  deriving DecidableEq

namespace Dimension

def all : List Dimension :=
  [store, channel, product, payment, saleStatus, saleDate, dayOfWeek, hourOfDay]

/-- The wire name, which is also the key of the column in result rows. -/
def key : Dimension → String
  | store => "store_name"
  | channel => "channel_name"
  | product => "product_name"
  | payment => "payment_type"
  | saleStatus => "sale_status"
  | saleDate => "sale_date"
  | dayOfWeek => "day_of_week"
  | hourOfDay => "hour_of_day"

/-- The dimension with a given wire name. -/
def ofKey? (key : String) : Option Dimension := all.find? (·.key == key)

end Dimension

end SalesExplorer
