import SalesExplorer.Catalog
import SalesExplorer.Filter.Domain

/-!
# Selections

What the user has picked so far: identifiers of metrics and dimensions, filter clauses, a period,
an order and a limit. `Selection.query` composes the query. Clauses without a usable value are left
out of it, repeated identifiers count once, and an order by a key that the query lacks is dropped.
-/

namespace SalesExplorer

structure Selection where
  metrics : List String := []
  dimensions : List String := []
  filters : List Filter.Clause := []
  period : Option TimeRange := none
  order : Option Order := none
  limit : Option UInt32 := none
  deriving DecidableEq

namespace Selection

/-! ## Lists of identifiers -/

/-- The list without an identifier. -/
def without (ids : List String) (id : String) : List String := ids.filter (· != id)

/-- The list with an identifier, at the end if it is new. -/
def adding (ids : List String) (id : String) : List String :=
  if id ∈ ids then ids else ids ++ [id]

/-- Drop an identifier that is there, add one that is not. -/
def toggling (ids : List String) (id : String) : List String :=
  if id ∈ ids then without ids id else ids ++ [id]

/-! ## Edits -/

inductive Edit where
  | toggleMetric (id : String)
  | toggleDimension (id : String)
  | addMetric (id : String)
  | addDimension (id : String)
  | removeMetric (id : String)
  | removeDimension (id : String)
  | addFilter
  | removeFilter (index : Nat)
  | setField (index : Nat) (field : Dimension)
  | setOperator (index : Nat) (operator : Filter.Operator)
  | setValue (index : Nat) (value : Filter.Value)
  | setPeriod (period : Option TimeRange)
  | setOrder (order : Option Order)
  | setLimit (limit : Option UInt32)
  | pruneOrder
  deriving DecidableEq

/-- What an edit answers. -/
inductive Reply where
  | done
  /-- The index of the filter that was added. -/
  | added (index : Nat)
  /-- The filter that was removed, if the index had one. -/
  | removed (filter : Option Filter.Clause)
  /-- Whether the index had a filter to change. -/
  | changed (found : Bool)
  /-- Whether a stale order was dropped. -/
  | pruned (stale : Bool)
  deriving DecidableEq

/-- Change one filter; there is nothing to change at an index without one. -/
def modifyFilter (s : Selection) (index : Nat) (f : Filter.Clause → Filter.Clause) :
    Reply × Selection :=
  (.changed (index < s.filters.length), { s with filters := s.filters.modify index f })

/-- The result keys of the identifiers that the catalog knows, dimensions first. -/
def orderKeys (s : Selection) : List String :=
  s.dimensions.filterMap (fun id => (Catalog.dimension? id).map Dimension.key) ++
    s.metrics.filterMap (fun id => (Catalog.metricOption? id).map (·.id))

/-- The order is by a key that the selection does not give. -/
def hasStaleOrder (s : Selection) : Bool := s.order.any fun o => o.key ∉ s.orderKeys

/-- The answer of an edit, and the selection after it. -/
def perform (s : Selection) : Edit → Reply × Selection
  | .toggleMetric id => (.done, { s with metrics := toggling s.metrics id })
  | .toggleDimension id => (.done, { s with dimensions := toggling s.dimensions id })
  | .addMetric id => (.done, { s with metrics := adding s.metrics id })
  | .addDimension id => (.done, { s with dimensions := adding s.dimensions id })
  | .removeMetric id => (.done, { s with metrics := without s.metrics id })
  | .removeDimension id => (.done, { s with dimensions := without s.dimensions id })
  | .addFilter => (.added s.filters.length, { s with filters := s.filters ++ [.fresh] })
  | .removeFilter i => (.removed s.filters[i]?, { s with filters := s.filters.eraseIdx i })
  | .setField i field => s.modifyFilter i (·.setField field)
  | .setOperator i operator => s.modifyFilter i (·.setOperator operator)
  | .setValue i value => s.modifyFilter i (·.setValue value)
  | .setPeriod period => (.done, { s with period })
  | .setOrder order => (.done, { s with order })
  | .setLimit limit => (.done, { s with limit })
  | .pruneOrder =>
    (.pruned s.hasStaleOrder, if s.hasStaleOrder then { s with order := none } else s)

def apply (s : Selection) (e : Edit) : Selection := (s.perform e).2

/-! ## Offers -/

/-- A key to sort by, with its label. -/
structure OrderOption where
  key : String
  label : String
  deriving DecidableEq

/-- Of the entries with one key only the first, and none with a key that was seen before. -/
def distinctBy {α β : Type} [DecidableEq β] (key : α → β) (seen : List β) : List α → List α
  | [] => []
  | x :: rest =>
    if key x ∈ seen then distinctBy key seen rest else x :: distinctBy key (key x :: seen) rest

/-- The keys to sort by: selected dimensions, then selected metrics. -/
def orderOptions (s : Selection) : List OrderOption :=
  (distinctBy id [] s.orderKeys).map fun key => ⟨key, Catalog.label key⟩

/-- The metrics not selected yet, in the order of the catalog. -/
def availableMetrics (s : Selection) : List Catalog.MetricOption :=
  Catalog.metrics.filter fun o => o.id ∉ s.metrics

/-- The dimensions not selected yet, in the order of the catalog. -/
def availableDimensions (s : Selection) : List Catalog.DimensionOption :=
  Catalog.dimensions.filter fun o => o.id ∉ s.dimensions

/-! ## The query -/

/-- The entries that are looked up under identifiers, each key once. -/
def resolve {α β : Type} [DecidableEq β] (lookup : String → Option α)
    (unknown : String → UnknownOption) (key : α → β) (ids : List String) :
    Except Fault (List α) := do
  let found ← ids.mapM fun id => match lookup id with
    | some a => Except.ok a
    | none => .error (.unknownOption (unknown id))
  return distinctBy key [] found

def resolveMetrics : List String → Except Fault (List Metric) :=
  resolve Catalog.metric? .metric Metric.key

def resolveDimensions : List String → Except Fault (List Dimension) :=
  resolve Catalog.dimension? .dimension id

/-- The usable clauses in their wire form, each checked. -/
def resolveFilters (clauses : List Filter.Clause) : Except Fault (List Filter.Clause) :=
  (clauses.filterMap (·.normalized?)).mapM fun c => do
    c.check
    return c

/-- The query that the selection describes. -/
def query (s : Selection) : Except Fault Query := do
  let metrics ← resolveMetrics s.metrics
  let dimensions ← resolveDimensions s.dimensions
  let filters ← resolveFilters s.filters
  let q : Query :=
    { metrics, dimensions, filters, period := s.period, limit := s.limit.filter (· > 0) }
  return { q with order := s.order.filter fun o => o.key ∈ q.outputKeys }

end Selection

end SalesExplorer
