import SalesExplorer.Result.Retrieval

/-!
# The results area

What is shown for a state of the retrieval: data, or one line of text in their place.
-/

namespace SalesExplorer

inductive View where
  | noQueryYet
  | loading
  | success (rows : List Row)
  | error (message : String)

namespace View

def ofState (s : RequestState) : View :=
  match s.status with
  | .idle => noQueryYet
  | .loading => loading
  | .success => success (s.rows.getD [])
  | .error => error ((s.fault.map Fault.notice).getD "unknown error")

def name : View → String
  | noQueryYet => "no_query_yet"
  | loading => "loading"
  | success _ => "success"
  | error _ => "error"

/-- Chart and table are drawn. -/
def hasData : View → Bool
  | success rows => !rows.isEmpty
  | _ => false

/-- The line shown where no data are drawn. -/
def message? : View → Option String
  | noQueryYet => some "Selecione suas métricas e dimensões e clique em \"Analisar\"."
  | loading => some "Carregando dados..."
  | success [] => some "Nenhum resultado encontrado para esta consulta."
  | success (_ :: _) => none
  | error message => some message

end View

end SalesExplorer
