import SalesExplorer.Result.Cache
import SalesExplorer.Result.Cell

/-!
# Headline figures

Total revenue, number of orders and average ticket over the whole dataset, shown on three cards.
They come from one fixed query without dimensions. The board keeps its latest success for a while
and fetches again after that; a failure leaves what it keeps as it is.
-/

namespace SalesExplorer

/-! ## Cards -/

inductive CardFormat where
  | currency
  | number
  deriving DecidableEq

def CardFormat.name : CardFormat → String
  | currency => "currency"
  | number => "number"

structure Card where
  title : String
  key : String
  format : CardFormat
  value : Binary64
  /-- The figures are not there, or could not be fetched. -/
  loading : Bool
  deriving DecidableEq

/-- The card shows its value in its format. -/
def Card.display (c : Card) : String :=
  String.ofList (match c.format with
    | .currency => Figure.currency c.value
    | .number => Figure.number c.value)

namespace Headline

/-- Title, key and format of the cards. -/
def layout : List (String × String × CardFormat) :=
  [("Faturamento Total", "faturamento_total", .currency),
   ("Total de Pedidos", "total_pedidos", .number),
   ("Ticket Médio", "ticket_medio", .currency)]

def query : Query where
  metrics :=
    [(Metric.ofColumn "total_amount" .sum).withKey "faturamento_total",
     (Metric.ofColumn "sale_id" .count).withKey "total_pedidos",
     (Metric.ofColumn "total_amount" .avg).withKey "ticket_medio"]

/-- The figure of a row under a key; zero where the row has no number there. -/
def figure (row : Option Row) (key : String) : Binary64 :=
  ((row.bind (Members.get? · key)).bind numericValue?).getD (.finite (.zero false))

/-- The cards for the first row of the result, if it has one. -/
def cards (row : Option Row) : List Card :=
  layout.map fun (title, key, format) => ⟨title, key, format, figure row key, false⟩

/-- The cards without figures. -/
def loadingCards : List Card := (cards none).map fun c => { c with loading := true }

/-! ## Board -/

structure Board where
  cache : ResultCache

namespace Board

/-- A board whose figures are kept for some seconds. -/
def ofWindow (windowSeconds : Nat) : Board := ⟨{ window := seconds windowSeconds, capacity := 1 }⟩

/-- The cards that need no retrieval; none where the query has to be submitted. -/
def held? (b : Board) (now : Nat) : Option (List Card) :=
  (b.cache.get? now query).map fun rows => cards rows.head?

/-- The cards for the answer to the query, and the board that keeps it if it is a success. -/
def receive (b : Board) (now : Nat) (outcome : Except Fault (List Row)) : List Card × Board :=
  match outcome with
  | .ok rows => (cards rows.head?, ⟨b.cache.insert now query rows⟩)
  | .error _ => (loadingCards, b)

end Board

end Headline

end SalesExplorer
