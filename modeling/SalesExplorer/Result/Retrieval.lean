import SalesExplorer.Result.Cache

/-!
# Retrieval

The life of a request. Every accepted run gets the next request number and sets the state to
loading; the answer of a request is shown only while it is the latest one, so the visible result
belongs to the latest run in whatever order answers arrive. A shown success enters the cache, and a
run whose query the cache still replays is answered from it at once.

The retriever is a value. `run`, `answer`, `abandon` and `forget` take it from one state to the
next, each at a given instant.
-/

namespace SalesExplorer

inductive Status where
  | idle
  | loading
  | success
  | error
  deriving DecidableEq

def Status.name : Status → String
  | idle => "idle"
  | loading => "loading"
  | success => "success"
  | error => "error"

/-- What the results area knows about the latest request. -/
structure RequestState where
  status : Status := .idle
  query : Option Query := none
  rows : Option (List Row) := none
  fault : Option Fault := none
  /-- The number of the latest request; 0 before the first run. -/
  requestId : Nat := 0

namespace RequestState

def isLoading (s : RequestState) : Bool := s.status == .loading

/-- The state after a run was accepted. -/
def issue (s : RequestState) (q : Query) : RequestState where
  status := .loading
  query := some q
  requestId := s.requestId + 1

/-- The state after the answer to the latest request. -/
def commit (s : RequestState) : Except Fault (List Row) → RequestState
  | .ok rows => { s with status := .success, rows := some rows, fault := none }
  | .error fault => { s with status := .error, rows := none, fault := some fault }

end RequestState

/-- A request on its way. -/
structure Request where
  id : Nat
  query : Query
  deriving DecidableEq

/-- What the caller of an accepted run is told. -/
structure Ticket where
  requestId : Nat
  fromCache : Bool
  deriving DecidableEq

structure Retriever where
  state : RequestState := {}
  cache : ResultCache
  /-- The requests without an answer, in the order of their numbers. -/
  pending : List Request := []

namespace Retriever

def noRuntime : Fault :=
  .retrieval "no async runtime available: there is no reactor running, must be called from the context of a Tokio 1.x runtime"

/-- Show the answer of a request if it is the latest one; a success enters the cache. -/
def complete (r : Retriever) (now : Nat) (request : Request) (outcome : Except Fault (List Row)) :
    Retriever :=
  if r.state.requestId = request.id then
    { r with
      state := r.state.commit outcome
      cache := match outcome with
        | .ok rows => r.cache.insert now request.query rows
        | .error _ => r.cache }
  else r

/-- Take a query, from the cache if it can be replayed. A refused one changes nothing. -/
def run (r : Retriever) (now : Nat) (q : Query) : Except Fault (Ticket × Retriever) := do
  q.validate
  let issued := { r with state := r.state.issue q }
  let request : Request := ⟨issued.state.requestId, q⟩
  match r.cache.get? now q with
  | some rows => return (⟨request.id, true⟩, issued.complete now request (.ok rows))
  | none => return (⟨request.id, false⟩, { issued with pending := r.pending ++ [request] })

/-- A run where nothing can wait for the answer is refused, whether the cache has one or not. -/
def runDetached (q : Query) : Except Fault Ticket := do
  q.validate
  .error noRuntime

/-- The request waits for its answer. -/
def request? (r : Retriever) (id : Nat) : Option Request := r.pending.find? (·.id == id)

/-- The request ends without an answer. -/
def abandon (r : Retriever) (id : Nat) : Retriever :=
  { r with pending := r.pending.filter (·.id != id) }

/-- The answer of a request arrives; one that does not wait has none. -/
def answer (r : Retriever) (now : Nat) (id : Nat) (outcome : Except Fault (List Row)) : Retriever :=
  match r.request? id with
  | some request => (r.abandon id).complete now request outcome
  | none => r

/-- Forget the cached results. -/
def forget (r : Retriever) : Retriever := { r with cache := r.cache.clear }

end Retriever

end SalesExplorer
