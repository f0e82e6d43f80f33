import SalesExplorer.Dataset
import SalesExplorer.Options.Basic

/-!
# The option cache

One fetch per dimension is shared by everyone who looks up its option list, while the fetch is on
its way and after it has settled. The age of an entry counts from the moment its fetch settled; an
entry is stale once the window for its outcome has passed, and a fetch on its way never is.

Fetches are numbered. The outcome of a fetch whose entry has been dropped or replaced changes
nothing. Instants are counted in nanoseconds from any fixed start.
-/

namespace SalesExplorer

/-- A fetch of the option list of a dimension. -/
structure OptionFetch where
  id : Nat
  field : Dimension
  deriving DecidableEq

/-- Where an option list stands. -/
inductive OptionStatus where
  | loading
  | ready (options : List SelectOption)
  | failed (fault : Fault)

structure OptionCache.Entry where
  fetch : OptionFetch
  /-- The outcome of the fetch and the instant at which it settled. -/
  settled : Option (OptionOutcome × Nat) := none

structure OptionCache where
  listWindow : Nat
  failureWindow : Nat
  entries : List OptionCache.Entry := []
  /-- The number of fetches started so far. -/
  started : Nat := 0

namespace OptionCache

def Entry.status (e : Entry) : OptionStatus :=
  match e.settled with
  | none => .loading
  | some (.ok options, _) => .ready options
  | some (.error fault, _) => .failed fault

variable (c : OptionCache) (now : Nat)

/-- The window of a settled entry has passed. -/
def isStale (e : Entry) : Bool :=
  match e.settled with
  | none => false
  | some (.ok _, since) => c.listWindow ≤ now - since
  | some (.error _, since) => c.failureWindow ≤ now - since

def entryOf? (field : Dimension) : Option Entry := c.entries.find? (·.fetch.field == field)

/-- Drop the list of a dimension, so that the next look-up fetches it again. -/
def invalidate (field : Dimension) : OptionCache :=
  { c with entries := c.entries.filter (·.fetch.field != field) }

def clear : OptionCache := { c with entries := [] }

/-- Start a fetch in place of the entry of a dimension. -/
def start (field : Dimension) : Entry × OptionCache :=
  let entry : Entry := { fetch := ⟨c.started, field⟩ }
  (entry, { c with
    entries := (c.invalidate field).entries ++ [entry]
    started := c.started + 1 })

/-- The entry of a dimension, started afresh if there is none or a stale one. -/
def lookup (field : Dimension) : Entry × OptionCache :=
  match c.entryOf? field with
  | some e => if c.isStale now e then c.start field else (e, c)
  | none => c.start field

/-- The outcome of a fetch arrives. -/
def settle (fetch : Nat) (outcome : OptionOutcome) : OptionCache :=
  { c with entries := c.entries.map fun e =>
      if e.fetch.id = fetch ∧ e.settled.isNone then { e with settled := some (outcome, now) }
      else e }

def size : Nat := c.entries.length

end OptionCache

end SalesExplorer
