import SalesExplorer.Catalog
import SalesExplorer.Result.Cell

/-!
# Chart, table and export

The three shapes in which the rows of a result are shown. The chart plots the first metric over the
first dimension. The table has the columns of the first row. The export keeps the rows as they are,
in a file named for the labels of what was asked.
-/

namespace SalesExplorer

/-! ## Chart -/

structure ChartPoint where
  category : Json
  /-- Absent where the row has no number for the series. -/
  value : Option Binary64

structure Chart where
  categoryKey : String
  categoryLabel : String
  seriesKey : String
  seriesLabel : String
  points : List ChartPoint

/-- The point of one row. -/
def ChartPoint.ofRow (categoryKey seriesKey : String) (row : Row) : ChartPoint where
  category := (Members.get? row categoryKey).getD .null
  value := (Members.get? row seriesKey).bind numericValue?

/-- There is a chart as soon as there are a row, a metric and a dimension. -/
def Chart.ofRows? (rows : List Row) (metrics : List Metric) (dimensions : List Dimension) :
    Option Chart :=
  match metrics, dimensions, rows with
  | m :: _, d :: _, _ :: _ => some {
      categoryKey := d.key
      categoryLabel := Catalog.label d.key
      seriesKey := m.key
      seriesLabel := Catalog.label m.key
      points := rows.map (ChartPoint.ofRow d.key m.key) }
  | _, _, _ => none

/-! ## Table -/

structure Column where
  key : String
  label : String
  deriving DecidableEq

/-- The columns of the first row. -/
def columns (rows : List Row) : List Column :=
  match rows with
  | [] => []
  | row :: _ => (Members.keys row).map fun key => ⟨key, Catalog.label key⟩

/-- The text of one cell; a row without the key leaves it empty. -/
def cellOf (row : Row) (column : Column) : String :=
  ((Members.get? row column.key).map cellText).getD ""

def cells (rows : List Row) (columns : List Column) : List (List String) :=
  rows.map fun row => columns.map (cellOf row)

/-! ## Export -/

structure Export where
  filename : String
  records : List Row

/-- A label with an underscore for every run of blanks inside it. -/
def filenamePart (label : String) : String :=
  if label.toList.any Text.isBlank then
    String.intercalate "_" ((Text.words label.toList).map String.ofList)
  else label

/-- The name of the export, built from the labels of dimensions and metrics. -/
def exportFilename (metrics : List Metric) (dimensions : List Dimension) : String :=
  "report_" ++
    String.intercalate "_" (dimensions.map fun d => filenamePart (Catalog.label d.key)) ++
    "_by_" ++
    String.intercalate "_" (metrics.map fun m => filenamePart (Catalog.label m.key)) ++ ".csv"

def Export.ofRows (rows : List Row) (metrics : List Metric) (dimensions : List Dimension) : Export :=
  ⟨exportFilename metrics dimensions, rows⟩

end SalesExplorer
