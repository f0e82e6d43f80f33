import Mathlib.Tactic.Common
import SalesExplorer.Result.Table

/-!
# One result in three shapes

**Theorem (`shapes_agree`).** Where there are a row, a metric and a dimension, there is a chart, and
chart, table and export have one entry for each row, in the order of the rows. Every cell agrees
with the row of the export and with the point of the chart (`Chart.Agrees`): it shows the value that
the row has under the key of the column, or nothing; under the category key it shows the category of
the point; and under the series key it shows the value of the point with two decimals, where the row
has a number there. The chart and the table call a key by the same label.

Rows may have any keys in any order. A row that lacks the category key has the category null in the
chart, for which a cell shows nothing, so the two agree there too (`cellOf_eq_category`). A text may
be plotted as the number that it writes, but its cell shows the text; hence the condition on the
series.
-/

namespace SalesExplorer

variable {rows : List Row} {row : Row} {metrics : List Metric} {dimensions : List Dimension}
  {column : Column}

/-! ## Cells -/

theorem cellOf_of_get? {v : Json} (h : Members.get? row column.key = some v) :
    cellOf row column = cellText v := by
  rw [cellOf, h]
  rfl

theorem cellOf_of_none (h : Members.get? row column.key = none) : cellOf row column = "" := by
  rw [cellOf, h]
  rfl

/-- Under the category key a cell shows the category, present or not. -/
theorem cellOf_eq_category (series : String) (row : Row) (column : Column) :
    cellOf row column = cellText (ChartPoint.ofRow column.key series row).category := by
  unfold cellOf ChartPoint.ofRow
  cases Members.get? row column.key <;> rfl

theorem numericValue?_of_number? {v : Json} {x : Binary64} (h : v.number? = some x) :
    numericValue? v = some x ∧ cellText v = String.ofList (Figure.decimal x 2) := by
  cases v with
  | int n =>
    obtain rfl := Option.some_inj.1 h
    exact ⟨rfl, rfl⟩
  | float y =>
    obtain rfl := Option.some_inj.1 h
    exact ⟨rfl, rfl⟩
  | _ => cases h

theorem map_key_columns (hrows : rows ≠ []) :
    (columns rows).map Column.key = Members.keys (rows.head hrows) := by
  cases rows with
  | nil => exact absurd rfl hrows
  | cons row rest =>
    rw [columns, List.map_map]
    exact List.map_id _

theorem label_of_mem_columns (h : column ∈ columns rows) :
    column.label = Catalog.label column.key := by
  cases rows with
  | nil => cases h
  | cons row rest =>
    obtain ⟨key, -, rfl⟩ := List.mem_map.1 h
    rfl

/-! ## Charts -/

theorem ofRows?_eq_some (hrows : rows ≠ []) (hmetrics : metrics ≠ []) (hdims : dimensions ≠ []) :
    Chart.ofRows? rows metrics dimensions = some {
      categoryKey := (dimensions.head hdims).key
      categoryLabel := Catalog.label (dimensions.head hdims).key
      seriesKey := (metrics.head hmetrics).key
      seriesLabel := Catalog.label (metrics.head hmetrics).key
      points := rows.map
        (ChartPoint.ofRow (dimensions.head hdims).key (metrics.head hmetrics).key) } := by
  cases rows <;> cases metrics <;> cases dimensions <;> first | contradiction | rfl

/-- What the cell of a row in a column has to do with the row and with its point of the chart. -/
structure Chart.Agrees (chart : Chart) (row : Row) (point : ChartPoint) (column : Column)
    (cell : String) : Prop where
  present : ∀ v, Members.get? row column.key = some v → cell = cellText v
  absent : Members.get? row column.key = none → cell = ""
  categoryLabel : column.key = chart.categoryKey → column.label = chart.categoryLabel
  category : column.key = chart.categoryKey → cell = cellText point.category
  seriesLabel : column.key = chart.seriesKey → column.label = chart.seriesLabel
  series : column.key = chart.seriesKey → ∀ v x, Members.get? row column.key = some v →
    v.number? = some x → point.value = some x ∧ cell = String.ofList (Figure.decimal x 2)

/-- **One row.** Its cells agree with it and with its point. -/
theorem agrees_ofRow (chart : Chart) (row : Row)
    (hcategory : chart.categoryLabel = Catalog.label chart.categoryKey)
    (hseries : chart.seriesLabel = Catalog.label chart.seriesKey)
    (hlabel : column.label = Catalog.label column.key) :
    chart.Agrees row (.ofRow chart.categoryKey chart.seriesKey row) column (cellOf row column) where
  present _ := cellOf_of_get?
  absent := cellOf_of_none
  categoryLabel hkey := by rw [hlabel, hkey, hcategory]
  category hkey := by rw [← hkey, ← cellOf_eq_category]
  seriesLabel hkey := by rw [hlabel, hkey, hseries]
  series hkey v x hv hx := by
    obtain ⟨hvalue, htext⟩ := numericValue?_of_number? hx
    refine ⟨?_, (cellOf_of_get? hv).trans htext⟩
    rw [ChartPoint.ofRow, ← hkey, hv]
    exact hvalue

/-! ## Agreement -/

/-- **Chart, table and export of one result agree**, row by row and cell by cell. -/
theorem shapes_agree (hrows : rows ≠ []) (hmetrics : metrics ≠ []) (hdims : dimensions ≠ []) :
    let table := columns rows
    let lines := cells rows table
    let records := (Export.ofRows rows metrics dimensions).records
    table.map Column.key = Members.keys (rows.head hrows) ∧ records = rows ∧
    ∃ chart, Chart.ofRows? rows metrics dimensions = some chart ∧
      chart.categoryKey = (dimensions.head hdims).key ∧
      chart.seriesKey = (metrics.head hmetrics).key ∧
      chart.points.length = rows.length ∧ lines.length = rows.length ∧
      ∀ (i : Nat) (row : Row), records[i]? = some row →
        ∃ (point : ChartPoint) (texts : List String), chart.points[i]? = some point ∧
          lines[i]? = some texts ∧ texts.length = table.length ∧
          ∀ (j : Nat) (column : Column), table[j]? = some column →
            ∃ cell : String, texts[j]? = some cell ∧ chart.Agrees row point column cell := by
  intro table lines records
  refine ⟨map_key_columns hrows, rfl, _, ofRows?_eq_some hrows hmetrics hdims, rfl, rfl,
    List.length_map _, List.length_map _, fun i row hrow => ?_⟩
  have hrow' : rows[i]? = some row := hrow
  refine ⟨.ofRow (dimensions.head hdims).key (metrics.head hmetrics).key row,
    table.map (cellOf row), ?_, ?_, List.length_map _, fun j column hcolumn => ?_⟩
  · rw [List.getElem?_map, hrow', Option.map_some]
  · show (rows.map fun row => table.map (cellOf row))[i]? = _
    rw [List.getElem?_map, hrow', Option.map_some]
  · refine ⟨cellOf row column, ?_, ?_⟩
    · rw [List.getElem?_map, hcolumn, Option.map_some]
    · exact agrees_ofRow _ row rfl rfl (label_of_mem_columns (List.mem_of_getElem? hcolumn))

/-- The second row lacks the category key, and writes the value of the series as a text. -/
theorem shapes_agree_ragged :
    let first : Row := [("store_name", .str "A"), ("sum_total_amount", .int 1200)]
    let second : Row := [("sum_total_amount", .str "12.5"), ("channel_name", .bool true)]
    let metrics : List Metric := [.ofColumn "total_amount" .sum]
    [first, second] ≠ [] ∧ metrics ≠ [] ∧ [Dimension.store] ≠ [] ∧
      ∃ chart, Chart.ofRows? [first, second] metrics [.store] = some chart ∧
        ∃ point texts, chart.points[1]? = some point ∧
          (cells [first, second] (columns [first, second]))[1]? = some texts ∧
          texts[0]? = some (cellText point.category) ∧ texts[1]? = some "12.5" := by
  intro first second metrics
  obtain ⟨-, -, chart, hchart, hkey, -, -, -, hagrees⟩ :=
    shapes_agree (List.cons_ne_nil first [second])
      (List.cons_ne_nil (Metric.ofColumn "total_amount" .sum) [])
      (List.cons_ne_nil Dimension.store [])
  obtain ⟨point, texts, hpoint, htexts, -, hcells⟩ := hagrees 1 second rfl
  obtain ⟨category, hcategory, hfirst⟩ := hcells 0 ⟨"store_name", "Loja"⟩ rfl
  obtain ⟨value, hvalue, hsecond⟩ := hcells 1 ⟨"sum_total_amount", "Faturamento"⟩ rfl
  refine ⟨List.cons_ne_nil _ _, List.cons_ne_nil _ _, List.cons_ne_nil _ _, chart, hchart, point,
    texts, hpoint, htexts, ?_, ?_⟩
  · rw [hcategory, hfirst.category hkey.symm]
  · rw [hvalue, hsecond.present (.str "12.5") rfl]
    rfl

end SalesExplorer
