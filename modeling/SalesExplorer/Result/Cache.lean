import SalesExplorer.Json.Basic
import SalesExplorer.Query.Basic

/-!
# The result cache

Successful results by query. An entry is replayed until the window has passed since it was
inserted. The cache holds a bounded number of queries; a new one beyond the bound takes the place
of the oldest. Entries stand in the order of their insertion, and time never runs backwards, so
the oldest is the first.

Instants are counted in nanoseconds from any fixed start.
-/

namespace SalesExplorer

/-- Nanoseconds in a number of seconds. -/
def seconds (n : Nat) : Nat := n * 1000000000

/-- A result and the instant at which it was inserted. -/
structure ResultCache.Entry where
  query : Query
  rows : List Row
  insertedAt : Nat

structure ResultCache where
  window : Nat
  capacity : Nat
  entries : List ResultCache.Entry := []

namespace ResultCache

variable (c : ResultCache) (now : Nat)

/-- The window of an entry has not passed. -/
def isLive (e : Entry) : Bool := now - e.insertedAt < c.window

def get? (q : Query) : Option (List Row) :=
  (c.entries.find? (·.query == q)).bind fun e => if c.isLive now e then some e.rows else none

def contains (q : Query) : Bool := (c.get? now q).isSome

/-- The live entries, the oldest left out where there is no place for another query. -/
def withPlaceFor (q : Query) : List Entry :=
  let kept := c.entries.filter (c.isLive now)
  if kept.any (·.query == q) || kept.length < c.capacity then kept else kept.drop 1

/-- Insert the result of a query as the youngest entry; a cache without capacity stays empty. -/
def insert (q : Query) (rows : List Row) : ResultCache :=
  if c.capacity = 0 then c
  else { c with entries := (c.withPlaceFor now q).filter (·.query != q) ++ [⟨q, rows, now⟩] }

def clear : ResultCache := { c with entries := [] }

def size : Nat := c.entries.length

end ResultCache

end SalesExplorer
