import SalesExplorer.Calendar.Rfc3339
import SalesExplorer.Json.Printer
import SalesExplorer.Json.Source
import SalesExplorer.Text.Quoted

/-!
# Problems of decoding

Why a JSON value is not the value of a type, by its cause, and the message for each. The message
names what was found and what was expected.
-/

namespace SalesExplorer.Wire

/-- What a message says was expected. -/
inductive Expected where
  | text
  | sequence
  | map
  | record (name : String)
  | integer (name : String)
  | variant
  | unit
  | instant
  deriving DecidableEq

def Expected.describe : Expected → String
  | text => "a string"
  | sequence => "a sequence"
  | map => "a map"
  | record name => "struct " ++ name
  | integer name => name
  | variant => "string or map"
  | unit => "unit"
  | instant => "an RFC 3339 formatted date and time string"

/-- A name as messages set it off. -/
def named (s : String) : String := "\x60" ++ s ++ "\x60"

/-- What a message says about the value that was found. -/
def describe : Shape → String
  | .null => "null"
  | .bool true => "boolean " ++ named "true"
  | .bool false => "boolean " ++ named "false"
  | .int n => "integer " ++ named (Json.intText n)
  | .float x => "floating point " ++ named (String.ofList x.text)
  | .text s => "string " ++ s.quoted
  | .sequence => "sequence"
  | .map => "map"

/-- The names to choose from. -/
def choice : List String → String
  | [] => "nothing"
  | [a] => named a
  | [a, b] => named a ++ " or " ++ named b
  | names => "one of " ++ String.intercalate ", " (names.map named)

inductive Problem where
  /-- Not JSON, or a part of it that has no value or no place. -/
  | malformed
  | wrongType (found : Shape) (expected : Expected)
  | integerRange (found : Int) (expected : Expected)
  | notOneKey
  | tooShort (length : Nat) (record : String) (size : Nat)
  | tooLong (length : Nat)
  | unknownField (name : String) (known : List String)
  | repeatedField (name : String)
  | missingField (name : String)
  | unknownVariant (name : String) (known : List String)
  | noFilterValue
  | optionId (found : Json)
  | instant (problem : Rfc3339.Problem)

def Problem.message : Problem → String
  | malformed => "malformed"
  | wrongType found expected =>
    "invalid type: " ++ describe found ++ ", expected " ++ expected.describe
  | integerRange found expected =>
    "invalid value: integer " ++ named (Json.intText found) ++ ", expected " ++ expected.describe
  | notOneKey => "invalid value: map, expected map with a single key"
  | tooShort length record size =>
    "invalid length " ++ Json.intText length ++ ", expected struct " ++ record ++ " with " ++
      Json.intText size ++ " elements"
  | tooLong length => "invalid length " ++ Json.intText length ++ ", expected fewer elements in array"
  | unknownField name known => "unknown field " ++ named name ++ ", expected " ++ choice known
  | repeatedField name => "duplicate field " ++ named name
  | missingField name => "missing field " ++ named name
  | unknownVariant name known =>
    "unknown variant " ++ named name ++ ", expected " ++ choice known
  | noFilterValue => "data did not match any variant of untagged enum FilterValue"
  | optionId found => "option id must be a string or number, got " ++ found.text
  | instant problem => problem.message

end SalesExplorer.Wire
