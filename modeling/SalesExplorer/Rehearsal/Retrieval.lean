import SalesExplorer.Rehearsal.Backend
import SalesExplorer.Result.Retrieval

/-!
# Rehearsals of the retrieval

A retriever with a scripted backend. An accepted run reaches the backend only with `advance`, which
lets every request go on until it has to wait; several runs before it model a burst. Every operation
takes one nanosecond, so no two of them share an instant.
-/

namespace SalesExplorer.Rehearsal

/-- What the backend makes of a request: an outcome, or the end of the request without one. -/
inductive RetrievalReply where
  | outcome (o : Except Fault (List Row))
  | collapse

structure RetrievalSession where
  retriever : Retriever
  backend : Backend RetrievalReply
  /-- The accepted runs that have not reached the backend. -/
  departing : List Request := []
  /-- The requests that have reached the backend, by their numbers there. -/
  received : List Request := []
  /-- The tickets handed out; a used one is gone. -/
  tickets : List (Option Ticket) := []
  clock : Nat := 0
  /-- A change of the state was published since `quiet`. -/
  published : Bool := false

namespace RetrievalSession

variable (s : RetrievalSession)

def tick : RetrievalSession := { s with clock := s.clock + 1 }

def quiet : RetrievalSession := { s with published := false }

/-- Run a query. A refused one changes nothing. -/
def run (q : Query) : Except Fault Ticket × RetrievalSession :=
  match s.retriever.run s.clock q with
  | .error fault => (.error fault, s)
  | .ok (ticket, retriever) =>
    (.ok ticket, { s.tick with
      retriever
      departing := if ticket.fromCache then s.departing else s.departing ++ [⟨ticket.requestId, q⟩]
      tickets := s.tickets ++ [some ticket]
      published := true })

/-- The backend's reply to a request. -/
def deliver (request : Request) : RetrievalReply → RetrievalSession
  | .collapse => { s with retriever := s.retriever.abandon request.id }
  | .outcome o => { s.tick with
      retriever := s.retriever.answer s.clock request.id o
      published := s.published || s.retriever.state.requestId == request.id }

/-- A departing request reaches the backend. -/
def depart (request : Request) : RetrievalSession :=
  let (_, reply, backend) := s.backend.arrive
  let s := { s with backend, received := s.received ++ [request] }
  match reply with
  | some reply => s.deliver request reply
  | none => s

/-- Let every request go on until it has to wait. -/
def advance : RetrievalSession :=
  s.departing.foldl depart { s with departing := [] }

/-- Answer a waiting request by hand: its number, if there is such a request. -/
def respond (which : Pick) (reply : RetrievalReply) : Option Nat × RetrievalSession :=
  match s.backend.pick? which with
  | none => (none, s)
  | some n =>
    let s := { s with backend := s.backend.dismiss n }
    (some n, match s.received[n]? with
      | some request => s.deliver request reply
      | none => s)

/-- Use up a ticket: whether its request has ended, if the ticket was still there. -/
def finished (n : Nat) : Option Bool × RetrievalSession :=
  match s.tickets[n]?.join with
  | none => (none, s)
  | some ticket =>
    (some (ticket.fromCache || (s.retriever.request? ticket.requestId).isNone),
      { s with tickets := s.tickets.set n none })

/-- Forget the cached results. -/
def forget : RetrievalSession := { s with retriever := s.retriever.forget }

end RetrievalSession

end SalesExplorer.Rehearsal
