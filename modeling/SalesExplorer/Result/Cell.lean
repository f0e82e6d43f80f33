import SalesExplorer.Figure
import SalesExplorer.Binary64.Decimal
import SalesExplorer.Json.Printer
import SalesExplorer.Text.Blank

/-!
# Cells

How one value of a result row is shown, and the number that it is read as in charts and cards. A
decimal may arrive as text.
-/

namespace SalesExplorer

/-- Numbers with two decimals, texts as they are, nothing for null. -/
def cellText : Json → String
  | .int n => String.ofList (Figure.decimal (.ofInt n) 2)
  | .float x => String.ofList (Figure.decimal (.finite x) 2)
  | .str s => s
  | .null => ""
  | other => other.text

/-- The number that a value is read as. -/
def numericValue? : Json → Option Binary64
  | .int n => some (.ofInt n)
  | .float x => some (.finite x)
  | .str s => Binary64.ofNumeral? (Text.trim s.toList)
  | _ => none

end SalesExplorer
