/-!
# A backend that follows a script

For rehearsals the backend is a list of replies, laid down in advance. Requests are numbered as they
arrive. Each takes the next reply of the script; where the script has none for it, the request waits
until it is answered by hand.
-/

namespace SalesExplorer.Rehearsal

structure Backend (ρ : Type) where
  script : List (Option ρ) := []
  arrived : Nat := 0
  /-- The numbers of the requests that wait, in the order of their arrival. -/
  waiting : List Nat := []

/-- Which of the waiting requests is meant. -/
inductive Pick where
  | oldest
  | newest
  | number (n : Nat)
  deriving DecidableEq

namespace Backend

variable {ρ : Type} (b : Backend ρ)

/-- The next request arrives: its number, and its reply if the script has one. -/
def arrive : Nat × Option ρ × Backend ρ :=
  let n := b.arrived
  let reply := b.script.head?.join
  (n, reply, {
    script := b.script.drop 1
    arrived := n + 1
    waiting := if reply.isSome then b.waiting else b.waiting ++ [n] })

/-- The waiting request that is meant, if there is one. -/
def pick? : Pick → Option Nat
  | .oldest => b.waiting.head?
  | .newest => b.waiting.getLast?
  | .number n => if n ∈ b.waiting then some n else none

/-- A request no longer waits. -/
def dismiss (n : Nat) : Backend ρ := { b with waiting := b.waiting.filter (· != n) }

end Backend

end SalesExplorer.Rehearsal
