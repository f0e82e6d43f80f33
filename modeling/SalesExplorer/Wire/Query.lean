import SalesExplorer.Query.Basic
import SalesExplorer.Wire.Decoder

/-!
# Queries on the wire

Decoders and encoders of queries and their parts. Decoding gives a metric without a key its default
one; encoding leaves out the parts of a query that are not there.
-/

namespace SalesExplorer.Wire

/-! ## Names -/

def aggregation (medium : Medium) : Decoder Aggregation :=
  variant medium (Aggregation.all.map fun a => (a.name, a))

def dimension (medium : Medium) : Decoder Dimension :=
  variant medium (Dimension.all.map fun d => (d.key, d))

def operator (medium : Medium) : Decoder Filter.Operator :=
  variant medium (Filter.Operator.all.map fun o => (o.name, o))

def direction (medium : Medium) : Decoder Direction :=
  variant medium (Direction.all.map fun d => (d.name, d))

/-! ## Metrics -/

structure MetricDraft where
  column : Option String := none
  aggregation : Option Aggregation := none
  key : Option String := none

def metricLayout (medium : Medium) : Layout MetricDraft Metric where
  name := "Raw"
  fields := ["field", "function", "alias"]
  strict := true
  blank := {}
  read d i s := match i with
    | 0 => do return { d with column := ← text s }
    | 1 => do return { d with aggregation := ← aggregation medium s }
    | _ => do return { d with key := ← optional text s }
  finish absent d := do
    let column ← required absent "field" d.column
    let aggregation ← required absent "function" d.aggregation
    let key := d.key.getD ""
    return ⟨column, aggregation, if key = "" then Metric.defaultKey aggregation column else key⟩

def metric (medium : Medium) : Decoder Metric := (metricLayout medium).decode medium

/-! ## Filters -/

/-- A text, or a list of texts. -/
def filterValue : Decoder Filter.Value := fun s => do
  match ← whole s with
  | .str t => return .single t
  | .arr items =>
    match items.mapM (fun | .str t => some t | _ => none) with
    | some ts => return .many ts
    | none => .error .noFilterValue
  | _ => .error .noFilterValue

structure ClauseDraft where
  field : Option Dimension := none
  operator : Option Filter.Operator := none
  value : Option Filter.Value := none

def clauseLayout (medium : Medium) : Layout ClauseDraft Filter.Clause where
  name := "FilterClause"
  fields := ["field", "operator", "value"]
  strict := false
  blank := {}
  read d i s := match i with
    | 0 => do return { d with field := ← dimension medium s }
    | 1 => do return { d with operator := ← operator medium s }
    | _ => do return { d with value := ← filterValue s }
  finish absent d := do
    let field ← required absent "field" d.field
    let operator ← required absent "operator" d.operator
    return ⟨field, operator, d.value.getD .none⟩

def clause (medium : Medium) : Decoder Filter.Clause := (clauseLayout medium).decode medium

/-! ## Periods -/

def instant : Decoder Instant
  | .str t => (Rfc3339.read t.toList).mapError .instant
  | s => .error (mismatch s .instant)

structure PeriodDraft where
  start : Option Instant := none
  stop : Option Instant := none

def periodLayout : Layout PeriodDraft TimeRange where
  name := "TimeRange"
  fields := ["start_date", "end_date"]
  strict := false
  blank := {}
  read d i s := match i with
    | 0 => do return { d with start := ← instant s }
    | _ => do return { d with stop := ← instant s }
  finish absent d := do
    return ⟨← required absent "start_date" d.start, ← required absent "end_date" d.stop⟩

def period (medium : Medium) : Decoder TimeRange := periodLayout.decode medium

/-! ## Orders -/

structure OrderDraft where
  key : Option String := none
  direction : Option Direction := none

def orderLayout (medium : Medium) : Layout OrderDraft Order where
  name := "OrderSpec"
  fields := ["field", "direction"]
  strict := false
  blank := {}
  read d i s := match i with
    | 0 => do return { d with key := ← text s }
    | _ => do return { d with direction := ← direction medium s }
  finish absent d := do
    return ⟨← required absent "field" d.key, ← required absent "direction" d.direction⟩

def order (medium : Medium) : Decoder Order := (orderLayout medium).decode medium

/-! ## Queries -/

def limit : Decoder UInt32 := fun s => do return UInt32.ofNat (← natural UInt32.size "u32" s)

structure QueryDraft where
  metrics : Option (List Metric) := none
  dimensions : Option (List Dimension) := none
  filters : List Filter.Clause := []
  period : Option TimeRange := none
  order : Option Order := none
  limit : Option UInt32 := none

def queryLayout (medium : Medium) : Layout QueryDraft Query where
  name := "AnalyticsQuery"
  fields := ["metrics", "dimensions", "filters", "time_range", "order_by", "limit"]
  strict := false
  blank := {}
  read d i s := match i with
    | 0 => do return { d with metrics := ← list (metric medium) s }
    | 1 => do return { d with dimensions := ← list (dimension medium) s }
    | 2 => do return { d with filters := ← list (clause medium) s }
    | 3 => do return { d with period := ← optional (period medium) s }
    | 4 => do return { d with order := ← optional (order medium) s }
    | _ => do return { d with limit := ← optional limit s }
  finish absent d := do
    return {
      metrics := ← required absent "metrics" d.metrics
      dimensions := ← required absent "dimensions" d.dimensions
      filters := d.filters
      period := d.period
      order := d.order
      limit := d.limit }

def query (medium : Medium) : Decoder Query := (queryLayout medium).decode medium

end SalesExplorer.Wire

/-! ## Encoding -/

namespace SalesExplorer

def Metric.toJson (m : Metric) : Json :=
  .obj [("field", .str m.column), ("function", .str m.aggregation.name), ("alias", .str m.key)]

def Filter.Value.toJson : Filter.Value → Json
  | .single t => .str t
  | .many ts => .arr (ts.map .str)

def Filter.Clause.toJson (c : Filter.Clause) : Json :=
  .obj [("field", .str c.field.key), ("operator", .str c.operator.name), ("value", c.value.toJson)]

def Instant.toJson (t : Instant) : Json := .str (String.ofList t.text)

def TimeRange.toJson (r : TimeRange) : Json :=
  .obj [("start_date", r.start.toJson), ("end_date", r.stop.toJson)]

def Order.toJson (o : Order) : Json :=
  .obj [("field", .str o.key), ("direction", .str o.direction.name)]

/-- The query as an object, without the parts that it does not have. -/
def Query.toJson (q : Query) : Json :=
  .obj <|
    [("metrics", .arr (q.metrics.map Metric.toJson)),
     ("dimensions", .arr (q.dimensions.map fun d => .str d.key))] ++
    (if q.filters.isEmpty then []
      else [("filters", .arr (q.filters.map Filter.Clause.toJson))]) ++
    (q.period.map fun r => ("time_range", r.toJson)).toList ++
    (q.order.map fun o => ("order_by", o.toJson)).toList ++
    (q.limit.map fun n => ("limit", .int n.toNat)).toList

end SalesExplorer
