import SalesExplorer.Calendar.Range
import SalesExplorer.Fault
import SalesExplorer.Filter.Clause

/-!
# Queries

A query asks for metrics grouped by dimensions, over the sales that pass its filters. Each row of
its result has one value per output key: the dimensions by their wire names, then the metrics by
the keys that the query gives them.
-/

namespace SalesExplorer

/-- A column summed up, and the key of the sum in result rows. -/
structure Metric where
  column : String
  aggregation : Aggregation
  key : String
  deriving DecidableEq

namespace Metric

def defaultKey (aggregation : Aggregation) (column : String) : String :=
  aggregation.name ++ "_" ++ column

/-- The metric under its default key. -/
def ofColumn (column : String) (aggregation : Aggregation) : Metric :=
  ⟨column, aggregation, defaultKey aggregation column⟩

def withKey (m : Metric) (key : String) : Metric := { m with key }

end Metric

inductive Direction where
  | ascending
  | descending
  deriving DecidableEq

namespace Direction

def all : List Direction := [ascending, descending]

def name : Direction → String
  | ascending => "asc"
  | descending => "desc"

end Direction

/-- The output key to sort by, and which way. -/
structure Order where
  key : String
  direction : Direction
  deriving DecidableEq

structure Query where
  metrics : List Metric := []
  dimensions : List Dimension := []
  filters : List Filter.Clause := []
  period : Option TimeRange := none
  order : Option Order := none
  limit : Option UInt32 := none
  deriving DecidableEq

namespace Query

/-- At least one metric and one dimension. -/
def isRunnable (q : Query) : Bool := !q.metrics.isEmpty && !q.dimensions.isEmpty

/-- The keys of every result row, dimensions first. -/
def outputKeys (q : Query) : List String :=
  q.dimensions.map Dimension.key ++ q.metrics.map Metric.key

/-- The first entry that occurs earlier in the list. -/
def firstRepeated? (seen : List String) : List String → Option String
  | [] => none
  | k :: rest => if k ∈ seen then some k else firstRepeated? (k :: seen) rest

/-- Refuse a query that cannot run, gives two metrics one key, or sorts by a key it lacks. -/
def validate (q : Query) : Except Fault Unit :=
  if !q.isRunnable then .error .notRunnable
  else match firstRepeated? [] (q.metrics.map Metric.key) with
    | some key => .error (.validation (.repeatedKey key))
    | none => match q.order with
      | some order =>
        if order.key ∈ q.outputKeys then .ok ()
        else .error (.validation (.foreignOrder order.key))
      | none => .ok ()

/-- For each query, the place of the first one equal to it. -/
def groups (qs : List Query) : List Nat := qs.map (qs.idxOf ·)

end Query

end SalesExplorer
