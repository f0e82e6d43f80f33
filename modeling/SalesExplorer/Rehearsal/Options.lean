import SalesExplorer.Options.Editor
import SalesExplorer.Rehearsal.Backend

/-!
# Rehearsals of the value editors

An option cache with a scripted backend. A fetch reaches the backend when it is first driven, and
its outcome enters the cache when it is driven after the reply. With background work, `advance`
drives every fetch; without, only those who wait for a list drive its fetch (`options`, `resolve`).
Every operation takes one nanosecond.
-/

namespace SalesExplorer.Rehearsal

/-- How far a fetch has come. -/
inductive FetchPhase where
  | created
  | waiting (number : Nat)
  | replied (outcome : OptionOutcome)
  | done

structure OptionSession where
  cache : OptionCache
  backend : Backend OptionOutcome
  /-- Fetches go on without anyone waiting for them. -/
  background : Bool := true
  /-- The fetches so far, by their numbers. -/
  fetches : List (OptionFetch × FetchPhase) := []
  /-- The dimensions of the fetches that have reached the backend, in order. -/
  begun : List Dimension := []
  clock : Nat := 0

namespace OptionSession

variable (s : OptionSession)

def tick : OptionSession := { s with clock := s.clock + 1 }

def setPhase (id : Nat) (phase : FetchPhase) : OptionSession :=
  { s with fetches := s.fetches.map fun (f, p) => if f.id = id then (f, phase) else (f, p) }

/-- Take over a cache after a look-up, with the fetch that the look-up may have started. -/
def withCache (cache : OptionCache) : OptionSession :=
  { s.tick with
    cache
    fetches :=
      if s.cache.started < cache.started then
        s.fetches ++ (cache.entries.filter (s.cache.started ≤ ·.fetch.id)).map
          fun e => (e.fetch, .created)
      else s.fetches }

/-- The outcome of a fetch enters the cache. -/
def settle (id : Nat) (outcome : OptionOutcome) : OptionSession :=
  { (s.setPhase id .done).tick with cache := s.cache.settle s.clock id outcome }

/-- Let a fetch go on until it has to wait. -/
def drive (id : Nat) : OptionSession :=
  match s.fetches.find? (·.1.id == id) with
  | some (fetch, .created) =>
    let (n, reply, backend) := s.backend.arrive
    let s := { s with backend, begun := s.begun ++ [fetch.field] }
    match reply with
    | some outcome => s.settle id outcome
    | none => s.setPhase id (.waiting n)
  | some (_, .replied outcome) => s.settle id outcome
  | _ => s

/-- Background work: every fetch goes on until it has to wait. -/
def advance : OptionSession :=
  if s.background then (s.fetches.map (·.1.id)).foldl drive s else s

/-! ## Operations -/

/-- The editor of a clause as of now. -/
def editor (c : Filter.Clause) : ValueEditor × OptionSession :=
  let (editor, cache) := ValueEditor.ofClause s.cache s.clock c
  (editor, s.withCache cache)

def status (field : Dimension) : OptionStatus × OptionSession :=
  let (entry, cache) := s.cache.lookup s.clock field
  (entry.status, s.withCache cache)

/-- Wait for the list of a dimension: where it stands after one attempt. -/
def options (field : Dimension) : OptionStatus × OptionSession :=
  let (entry, cache) := s.cache.lookup s.clock field
  let s := (s.withCache cache).drive entry.fetch.id
  (((s.cache.entryOf? field).map (·.status)).getD .loading, s)

/-- Wait for the editor of a clause; none while its list is on its way. -/
def resolve (c : Filter.Clause) : Option ValueEditor × OptionSession :=
  match ValueEditor.local? c with
  | some editor => (some editor, s)
  | none =>
    let (status, s) := s.options c.field
    (match status with
      | .loading => none
      | status => some (ValueEditor.ofStatus c status), s)

/-- Answer a waiting fetch by hand: its number, if there is such a fetch. -/
def respond (which : Pick) (outcome : OptionOutcome) : Option Nat × OptionSession :=
  match s.backend.pick? which with
  | none => (none, s)
  | some n =>
    (some n, { s with
      backend := s.backend.dismiss n
      fetches := s.fetches.map fun (f, p) => match p with
        | .waiting m => if m = n then (f, .replied outcome) else (f, p)
        | p => (f, p) })

def invalidate (field : Dimension) : OptionSession :=
  { s with cache := s.cache.invalidate field }

def clear : OptionSession := { s with cache := s.cache.clear }

end OptionSession

end SalesExplorer.Rehearsal
