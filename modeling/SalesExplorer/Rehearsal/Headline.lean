import SalesExplorer.Headline
import SalesExplorer.Rehearsal.Backend

/-!
# Rehearsals of the headline board

A board with a scripted backend. Each call waits for its answer before the next one begins, so a
call that the board cannot answer from what it keeps needs a reply in the script. Every call takes
one nanosecond.
-/

namespace SalesExplorer.Rehearsal

structure HeadlineSession where
  board : Headline.Board
  backend : Backend (Except Fault (List Row))
  clock : Nat := 0

namespace HeadlineSession

/-- The cards as of now; none where the query was submitted and the script has no reply to it. -/
def cards? (s : HeadlineSession) : Option (List Card × HeadlineSession) :=
  match s.board.held? s.clock with
  | some cards => some (cards, { s with clock := s.clock + 1 })
  | none =>
    let (_, reply, backend) := s.backend.arrive
    reply.map fun outcome =>
      let (cards, board) := s.board.receive s.clock outcome
      (cards, { board, backend, clock := s.clock + 1 })

end HeadlineSession

end SalesExplorer.Rehearsal
