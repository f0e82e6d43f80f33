import SalesExplorer.Json.Reader
import SalesExplorer.Wire.Problem

/-!
# Decoders

A decoder takes a source to a value, or to the first problem met on the way through it. Records are
described by a `Layout`: an object with the fields as keys, in any order, or an array of the fields
in their own order. A field is stored in a draft as soon as it is read, so that of two problems the
earlier one is told; the fields that are still absent at the end come last.
-/

namespace SalesExplorer.Wire

/-- Where a source comes from. How long an array or object is, is known of a value in memory, but
not of one that is read from a text; a settings document lets an array of fields go on. -/
inductive Medium where
  | memory
  | text
  | document
  deriving DecidableEq

abbrev Decoder (α : Type) := Source → Except Problem α

/-- The problem of a value of the wrong type. -/
def mismatch (s : Source) (expected : Expected) : Problem :=
  match s.shape? with
  | some found => .wrongType found expected
  | none => .malformed

/-! ## Simple values -/

def text : Decoder String
  | .str t => .ok t
  | s => .error (mismatch s .text)

/-- An integer from 0 up to a bound. -/
def natural (bound : Nat) (name : String) : Decoder Nat
  | .int n =>
    if 0 ≤ n ∧ n < bound then .ok n.toNat else .error (.integerRange n (.integer name))
  | s => .error (mismatch s (.integer name))

def unit : Decoder Unit
  | .null => .ok ()
  | s => .error (mismatch s .unit)

/-- A value that may be null. -/
def optional {α : Type} (read : Decoder α) : Decoder (Option α)
  | .null => .ok none
  | s => (read s).map some

/-- A value taken as it is. -/
def whole : Decoder Json := fun s => match s.whole? with
  | some j => .ok j
  | none => .error .malformed

def list {α : Type} (read : Decoder α) : Decoder (List α)
  | .arr items => items.mapM read
  | s => .error (mismatch s .sequence)

/-! ## Variants -/

def variantNamed {α : Type} (variants : List (String × α)) (name : String) : Except Problem α :=
  match variants.lookup name with
  | some x => .ok x
  | none => .error (.unknownVariant name (variants.map Prod.fst))

/-- One of several names: a text, or an object with the name as its only key and null under it. -/
def variant {α : Type} (medium : Medium) (variants : List (String × α)) : Decoder α
  | .str name => variantNamed variants name
  | .obj members =>
    match medium, members with
    | .text, (some name, content) :: rest => do
      let x ← variantNamed variants name
      unit content
      if rest.isEmpty then .ok x else .error .malformed
    | .text, _ => .error .malformed
    | _, [(some name, content)] => do
      let x ← variantNamed variants name
      unit content
      .ok x
    | _, _ => .error .notOneKey
  | s => .error (if medium = .text then .malformed else mismatch s .variant)

/-! ## Records -/

/-- How a record is written: `δ` holds the fields read so far, `α` is the record. -/
structure Layout (δ α : Type) where
  name : String
  fields : List String
  /-- A key that is no field is a problem. -/
  strict : Bool
  blank : δ
  /-- Read the field with the given index. -/
  read : δ → Nat → Decoder δ
  /-- The record, or the problem of an absent field. -/
  finish : (absent : String → Problem) → δ → Except Problem α

namespace Layout

variable {δ α : Type} (L : Layout δ α)

/-- Read the members of an object; `seen` are the fields read before. -/
def readMembers : List (Option String × Source) → (seen : List Nat) → δ → Except Problem δ
  | [], _, d => .ok d
  | (none, _) :: _, _, _ => .error .malformed
  | (some k, v) :: rest, seen, d =>
    match L.fields.idxOf? k with
    | some i =>
      if i ∈ seen then .error (.repeatedField k)
      else do readMembers rest (i :: seen) (← L.read d i v)
    | none =>
      if L.strict then .error (.unknownField k L.fields) else readMembers rest seen d

/-- Read the items of an array as the fields from the given index on. -/
def readItems : List Source → (index : Nat) → δ → Except Problem δ
  | [], _, d => .ok d
  | v :: rest, i, d =>
    if i < L.fields.length then do readItems rest (i + 1) (← L.read d i v) else .ok d

/-- What an array with one item too many is worth. -/
def excess (medium : Medium) (length : Nat) (x : α) : Except Problem α :=
  match medium with
  | .memory => .error (.tooLong length)
  | .text => .error .malformed
  | .document => .ok x

def decode (medium : Medium) : Decoder α
  | .obj members => do L.finish .missingField (← L.readMembers members [] L.blank)
  | .arr items => do
    let d ← L.readItems items 0 L.blank
    let x ← L.finish (fun _ => .tooShort items.length L.name L.fields.length) d
    if items.length ≤ L.fields.length then .ok x else excess medium items.length x
  | s => .error (mismatch s (.record L.name))

end Layout

/-- A field that has to be there. -/
def required {α : Type} (absent : String → Problem) (name : String) :
    Option α → Except Problem α
  | some x => .ok x
  | none => .error (absent name)

/-! ## Result rows -/

/-- A row is any object. -/
def row : Decoder Row
  | .obj members => do
    match ← whole (.obj members) with
    | .obj ms => return ms
    | _ => .error .malformed
  | s => .error (mismatch s .map)

def rows : Decoder (List Row) := list row

/-! ## Whole inputs -/

/-- Decode a value in memory. -/
def ofJson {α : Type} (read : Medium → Decoder α) (j : Json) : Except Problem α :=
  read .memory (Source.ofJson j)

/-- Decode a text that holds one value. -/
def ofText {α : Type} (read : Medium → Decoder α) (s : String) : Except Problem α :=
  match Source.ofText s with
  | (v, ended) => do
    let x ← read .text v
    if ended then .ok x else .error .malformed

end SalesExplorer.Wire
