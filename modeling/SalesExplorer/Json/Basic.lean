import SalesExplorer.Binary64.Basic

/-!
# JSON values

The members of an object keep their order, and an integer is kept apart from a number with a
fraction: `1` and `1.0` are different values. A list of members holds each key once where it was
built by `Members.set`.
-/

namespace SalesExplorer

inductive Json where
  | null
  | bool (b : Bool)
  | int (n : Int)
  | float (x : Binary64.Finite)
  | str (s : String)
  | arr (items : List Json)
  | obj (members : List (String × Json))
  deriving Inhabited

/-- The members of an object, in order. -/
abbrev Members := List (String × Json)

namespace Members

def get? (ms : Members) (key : String) : Option Json := ms.lookup key

def keys (ms : Members) : List String := ms.map Prod.fst

/-- A key seen again keeps its first place and takes the last value. -/
def set (ms : Members) (key : String) (value : Json) : Members :=
  match ms with
  | [] => [(key, value)]
  | (k, v) :: rest => if k = key then (k, value) :: rest else (k, v) :: set rest key value

end Members

namespace Json

/-- The number as binary64; a large integer is rounded. -/
def number? : Json → Option Binary64
  | .int n => some (.ofInt n)
  | .float x => some (.finite x)
  | _ => none

def member? (j : Json) (key : String) : Option Json :=
  match j with
  | .obj ms => Members.get? ms key
  | _ => none

end Json

/-- One row of a result, its keys in the order of the columns. -/
abbrev Row := Members

end SalesExplorer
