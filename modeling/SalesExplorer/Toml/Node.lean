import SalesExplorer.Json.Source

/-!
# TOML documents

A document is a tree of tables. A table knows how it came to be, for that decides whether it may
still grow: an *implicit* table was only passed through on the way to another one, and a *dotted*
table was made by the dots of a key. Headers open tables and items of arrays of tables; key-value
lines go to the table opened last.
-/

namespace SalesExplorer.Toml

inductive Node where
  /-- A value that cannot grow. -/
  | value (v : Source)
  /-- An array of tables, of which the last can grow. -/
  | tables (ts : List Node)
  | table (isImplicit isDotted : Bool) (entries : List (String × Node))
  deriving Inhabited

namespace Node

abbrev Entries := List (String × Node)

/-- An empty table written by a header. -/
def fresh : Node := table false false []

/-- The entry of a key replaced, or added at the end. -/
def put (es : Entries) (key : String) (n : Node) : Entries :=
  match es with
  | [] => [(key, n)]
  | (k, m) :: rest => if k = key then (k, n) :: rest else (k, m) :: put rest key n

/-- Change the table at a path, making the tables on the way. A path of dotted keys (`byDots`)
passes through implicit tables only. -/
def update (byDots : Bool) (f : Node → Option Node) : List String → Node → Option Node
  | [], n => f n
  | key :: path, table isImplicit isDotted es => do
    let child := (es.lookup key).getD (table true byDots [])
    let child ← match child with
      | value _ => none
      | tables ts => do
        let last ← update byDots f path (← ts.getLast?)
        pure (tables (ts.dropLast ++ [last]))
      | table passed _ _ => if byDots && !passed then none else update byDots f path child
    return table isImplicit isDotted (put es key child)
  | _ :: _, _ => none

/-- Change the entry of a key in a table. -/
def alter (key : String) (f : Option Node → Option Node) : Node → Option Node
  | table isImplicit isDotted es => do
    return table isImplicit isDotted (put es key (← f (es.lookup key)))
  | _ => none

/-- Add a new key to a table. A table reached by dots has to be dotted itself. -/
def insertNew (reachedByDots : Bool) (key : String) (v : Source) : Node → Option Node
  | table isImplicit isDotted es =>
    if isDotted != reachedByDots || (es.lookup key).isSome then none
    else some (table isImplicit isDotted (es ++ [(key, value v)]))
  | _ => none

/-- Add the value of a dotted key: the path before its last dot, and the part after it. -/
def insertPath (path : List String) (key : String) (v : Source) : Node → Option Node :=
  update true (insertNew (!path.isEmpty) key v) path

mutual

/-- The tree as a source for decoders. -/
def toSource : Node → Source
  | value v => v
  | tables ts => .arr (tableSources ts)
  | table _ _ es => .obj (entrySources es)

def tableSources : List Node → List Source
  | [] => []
  | n :: rest => toSource n :: tableSources rest

def entrySources : List (String × Node) → List (Option String × Source)
  | [] => []
  | (k, n) :: rest => (some k, toSource n) :: entrySources rest

end

end Node

/-! ## Lines -/

/-- A document while it is read. -/
structure Document where
  root : Node := .fresh
  /-- The path of the table opened last. -/
  opened : List String := []

namespace Document

/-- A header of a table: it must be new, or only passed through so far. -/
def openTable (d : Document) (path : List String) : Option Document := do
  let key ← path.getLast?
  let root ← d.root.update false (Node.alter key fun
    | none => some .fresh
    | some (.table true false es) => some (.table false false es)
    | some _ => none) path.dropLast
  return { root, opened := path }

/-- A header of a further item of an array of tables. -/
def openItem (d : Document) (path : List String) : Option Document := do
  let key ← path.getLast?
  let root ← d.root.update false (Node.alter key fun
    | none => some (.tables [.fresh])
    | some (.tables ts) => some (.tables (ts ++ [.fresh]))
    | some _ => none) path.dropLast
  return { root, opened := path }

/-- A key-value line. -/
def insert (d : Document) (path : List String) (v : Source) : Option Document := do
  let key ← path.getLast?
  let root ← d.root.update false (Node.insertPath path.dropLast key v) d.opened
  return { d with root }

end Document

end SalesExplorer.Toml
