import SalesExplorer.Query.Basic

/-!
# The catalog

The metrics and dimensions that the user can pick, by identifier, in the order in which they are
offered, and the labels of result keys. The identifier of a metric is also its key in result rows.
-/

namespace SalesExplorer.Catalog

/-- A metric on offer. -/
structure MetricOption where
  id : String
  label : String
  column : String
  aggregation : Aggregation
  deriving DecidableEq

def MetricOption.metric (o : MetricOption) : Metric := ⟨o.column, o.aggregation, o.id⟩

/-- A dimension on offer. -/
structure DimensionOption where
  id : String
  label : String
  field : Dimension
  deriving DecidableEq

def metrics : List MetricOption :=
  [⟨"sum_total_amount", "Faturamento", "total_amount", .sum⟩,
   ⟨"count_sale_id", "Pedidos", "sale_id", .count⟩,
   ⟨"avg_total_amount", "Ticket Médio", "total_amount", .avg⟩,
   ⟨"sum_delivery_fee", "Taxa de Entrega", "delivery_fee", .sum⟩]

def dimensions : List DimensionOption :=
  [⟨"store_name", "Loja", .store⟩,
   ⟨"channel_name", "Canal", .channel⟩,
   ⟨"product_name", "Produto", .product⟩,
   ⟨"payment_type", "Pagamento", .payment⟩,
   ⟨"sale_date", "Data", .saleDate⟩,
   ⟨"day_of_week", "Dia da Semana", .dayOfWeek⟩,
   ⟨"hour_of_day", "Hora do Dia", .hourOfDay⟩,
   ⟨"sale_status", "Status do Pedido", .saleStatus⟩]

/-- Labels of result keys that are not on offer. -/
def furtherLabels : List (String × String) :=
  [("faturamento_total", "Faturamento Total"),
   ("total_pedidos", "Total de Pedidos"),
   ("ticket_medio", "Ticket Médio")]

def labels : List (String × String) :=
  metrics.map (fun o => (o.id, o.label)) ++ dimensions.map (fun o => (o.id, o.label)) ++
    furtherLabels

/-! ## Look-up -/

def metricOption? (id : String) : Option MetricOption := metrics.find? (·.id == id)

def metric? (id : String) : Option Metric := (metricOption? id).map MetricOption.metric

def dimension? (id : String) : Option Dimension :=
  (dimensions.find? (·.id == id)).map DimensionOption.field

/-- The label of a result key, or the key itself. -/
def label (key : String) : String := (labels.lookup key).getD key

/-- The dimensions offered for filters, with their labels. -/
def filterable : List (Dimension × String) :=
  [(.channel, "Canal"), (.store, "Loja"), (.product, "Produto"),
   (.saleStatus, "Status do Pedido"), (.dayOfWeek, "Dia da Semana"), (.hourOfDay, "Hora do Dia")]

end SalesExplorer.Catalog
