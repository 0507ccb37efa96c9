import SearchWire.Json.Raw
import SearchWire.Text.Position
import SearchWire.Text.Quoted

/-!
# Why a body does not decode

A `Fault` is either damage of the text or a `Mismatch`, well-formed JSON of the
wrong shape. A mismatch carries what was found and what was expected;
`Mismatch.message` is its wording. A reason given by somebody else may end in a
position, which is shown as positions are.
-/

namespace SearchWire

/-- What stood in the place of an expected value. -/
inductive Found where
  | null
  | bool (value : Bool)
  | int (value : Int)
  | float (value : Finite)
  | string (value : String)
  | array
  | object
deriving DecidableEq

/-- A shape that is not the expected one. -/
inductive Mismatch where
  | wrongType (found : Found) (expected : String)
  | outOfRange (value : Int) (expected : String)
  | missingField (field : String)
  | repeatedField (field : String)
  | tooFewItems (count : Nat) (expected : String)
  | unknownName (name : String) (known : List String)
  | noForm (form : String)
  | percentileKey (key : String)
  | refused (reason : String)
deriving DecidableEq

/-- Why a text does not decode. -/
inductive Fault where
  | damage (damage : Damage)
  | mismatch (mismatch : Mismatch)
deriving DecidableEq

namespace Found

/-- The wording of what was found. -/
def message : Found → String
  | .null => "null"
  | .bool value => "boolean `" ++ (if value then "true" else "false") ++ "`"
  | .int value => "integer `" ++ String.ofList (intText value) ++ "`"
  | .float value => "floating point `" ++ String.ofList value.documentText ++ "`"
  | .string value => "string " ++ quoteForMessage value
  | .array => "sequence"
  | .object => "map"

end Found

namespace Mismatch

/-- A name in the quotes of a message. -/
def tick (name : String) : String :=
  "`" ++ name ++ "`"

/-- The wording of a list of known names: two are joined by `or`, more are enumerated. -/
def alternatives : List String → String
  | [only] => tick only
  | [first, second] => tick first ++ " or " ++ tick second
  | names => "one of " ++ ", ".intercalate (names.map tick)

/-- The wording of a mismatch. -/
def message : Mismatch → String
  | .wrongType found expected => "invalid type: " ++ found.message ++ ", expected " ++ expected
  | .outOfRange value expected =>
      "invalid value: integer `" ++ String.ofList (intText value) ++ "`, expected " ++ expected
  | .missingField field => "missing field " ++ tick field
  | .repeatedField field => "duplicate field " ++ tick field
  | .tooFewItems count expected =>
      "invalid length " ++ String.ofList (Decimal.digitsOf count) ++ ", expected " ++ expected
  | .unknownName name known =>
      "unknown variant " ++ tick name ++ ", expected " ++ alternatives known
  | .noForm form => "data did not match any variant of untagged enum " ++ form
  | .percentileKey key => "invalid percentile key " ++ tick key
  | .refused reason => Position.settle reason

end Mismatch

namespace Fault

/-- A value of another type than expected. -/
def wrongType (found : Found) (expected : String) : Fault :=
  .mismatch (.wrongType found expected)

/-- The wording of a fault. -/
def message : Fault → String
  | .damage reason => reason.message
  | .mismatch reason => reason.message

end Fault

end SearchWire
