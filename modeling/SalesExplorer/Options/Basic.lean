import SalesExplorer.Fault
import SalesExplorer.Wire.Decoder

/-!
# Option lists

The known values of a dimension, as a remote list offers them. On the wire an option is a bare text,
which is both its identifier and its name, or a record of the two with an identifier that may be a
number.
-/

namespace SalesExplorer

structure SelectOption where
  id : String
  name : String
  deriving DecidableEq

/-- What a fetch of an option list comes to. -/
abbrev OptionOutcome := Except Fault (List SelectOption)

namespace Wire

structure OptionDraft where
  id : Option Json := none
  name : Option String := none

def optionRecordLayout : Layout OptionDraft (Json × String) where
  name := "Full"
  fields := ["id", "name"]
  strict := false
  blank := {}
  read d i s := match i with
    | 0 => do return { d with id := ← whole s }
    | _ => do return { d with name := ← text s }
  finish absent d := do
    return (← required absent "id" d.id, ← required absent "name" d.name)

/-- The identifier of an option, a number by its text. -/
def optionId : Json → Except Problem String
  | .str s => .ok s
  | .int n => .ok (Json.int n).text
  | .float x => .ok (Json.float x).text
  | other => .error (.optionId other)

/-- An option is taken into memory before it is decoded. -/
def selectOption : Decoder SelectOption := fun s => do
  match ← whole s with
  | .str t => return ⟨t, t⟩
  | j => do
    let (id, name) ← optionRecordLayout.decode .memory (Source.ofJson j)
    return ⟨← optionId id, name⟩

def selectOptions : Decoder (List SelectOption) := list selectOption

end Wire

def SelectOption.toJson (o : SelectOption) : Json :=
  .obj [("id", .str o.id), ("name", .str o.name)]

end SalesExplorer
