import SalesExplorer.Json.Basic

/-!
# JSON as it is met by a reader

A `Source` is a value that a reader walks in order: every member of every object, repeated keys
included. Where a text stops being JSON its source holds an unreadable part, so that a problem with an
earlier part is seen before the broken one. A value that is already in memory is a source too
(`Source.ofJson`).

`whole?` takes the source as one value; a repeated key keeps its first place and last value.
-/

namespace SalesExplorer

/-- What a message says about the value that was found. -/
inductive Shape where
  | null
  | bool (b : Bool)
  | int (n : Int)
  | float (x : Binary64.Finite)
  | text (s : String)
  | sequence
  | map
  deriving DecidableEq

inductive Source where
  | null
  | bool (b : Bool)
  | int (n : Int)
  | float (x : Binary64.Finite)
  | str (s : String)
  /-- Without a value: a number beyond the format, half of a surrogate pair, a nesting too deep, or
  no JSON at all. -/
  | unreadable
  | arr (items : List Source)
  /-- A key that is unreadable is `none`. -/
  | obj (members : List (Option String × Source))
  deriving Inhabited

namespace Source

/-- What a message says about the value, from its first character on. -/
def shape? : Source → Option Shape
  | null => some .null
  | bool b => some (.bool b)
  | int n => some (.int n)
  | float x => some (.float x)
  | str s => some (.text s)
  | unreadable => none
  | arr _ => some .sequence
  | obj _ => some .map

mutual

def ofJson : Json → Source
  | .null => null
  | .bool b => bool b
  | .int n => int n
  | .float x => float x
  | .str s => str s
  | .arr items => arr (ofItems items)
  | .obj members => obj (ofMembers members)

def ofItems : List Json → List Source
  | [] => []
  | j :: rest => ofJson j :: ofItems rest

def ofMembers : List (String × Json) → List (Option String × Source)
  | [] => []
  | (k, j) :: rest => (some k, ofJson j) :: ofMembers rest

end

mutual

/-- The source as one value, if all its parts have one. -/
def whole? : Source → Option Json
  | null => some .null
  | bool b => some (.bool b)
  | int n => some (.int n)
  | float x => some (.float x)
  | str s => some (.str s)
  | unreadable => none
  | arr items => (wholeItems? items).map .arr
  | obj members => (wholeMembers? members []).map .obj

def wholeItems? : List Source → Option (List Json)
  | [] => some []
  | v :: rest => do return (← whole? v) :: (← wholeItems? rest)

def wholeMembers? : List (Option String × Source) → Members → Option Members
  | [], ms => some ms
  | (none, _) :: _, _ => none
  | (some k, v) :: rest, ms => do wholeMembers? rest (Members.set ms k (← whole? v))

end

end Source

end SalesExplorer
