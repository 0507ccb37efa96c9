import SearchWire.Json.Value
import SearchWire.Binary64.Read
import SearchWire.Text.Named

/-!
# Metric and percentile results

The value of a metric over no documents is `null`. Percentiles arrive as an
object that maps each percent to its value or as an array of pairs; both decode
to a list of estimates. The object form is sorted by percent in the total order
of doubles, and its members whose names end in `_as_string` are left out.
-/

namespace SearchWire

/-- The result of a metric. -/
structure MetricValue where
  value : Option Binary64
  valueAsString : Option String
deriving DecidableEq

namespace MetricValue

/-- The fields read so far. -/
structure Partial where
  value : Option (Option Binary64) := none
  valueAsString : Option (Option String) := none

/-- Reads one member. -/
def step (depth : Nat) (fields : Partial) (name : String) (value : Raw) :
    Except Fault Partial := do
  if name = "value" then
    let value ← Decode.once name fields.value (Decode.optional Decode.double depth value)
    return { fields with value }
  else if name = "value_as_string" then
    let valueAsString ←
      Decode.once name fields.valueAsString (Decode.optional Decode.string depth value)
    return { fields with valueAsString }
  else
    value.skip
    return fields

/-- Reads a metric from the members of an object. -/
def ofMembers (depth : Nat) (members : Members) : Except Fault MetricValue := do
  let fields ← Decode.walk (step depth) members {}
  return ⟨fields.value.getD none, fields.valueAsString.getD none⟩

/-- Reads a metric from an array, which must hold the value. -/
def ofItems (depth : Nat) (items : Items) : Except Fault (MetricValue × Items) := do
  let (value, items) ←
    Decode.nextRequired (Decode.recordExpectation "MetricValue" 2) 0
      (Decode.optional Decode.double depth) items
  let (valueAsString, items) ← Decode.next (Decode.optional Decode.string depth) items
  return (⟨value, valueAsString.getD none⟩, items)

end MetricValue

/-- Decodes the result of a metric. -/
def Decode.metric : Decoder MetricValue :=
  record "MetricValue" MetricValue.ofMembers MetricValue.ofItems

/-- The estimate for one percent. -/
structure Percentile where
  key : Binary64
  value : Option Binary64
deriving DecidableEq

namespace Percentile

/-- Reads a number. -/
def doubleOf? : Json → Option Binary64
  | .number value => some value.toBinary64
  | _ => none

/-- Reads a number or `null`. -/
def optionalDoubleOf? : Json → Option (Option Binary64)
  | .null => some none
  | other => some <$> doubleOf? other

/-- Reads the percent and the value from the members of an object. Each may stand once, and the
percent must. -/
def fieldsOf? : Option Binary64 → Option (Option Binary64) → List (String × Json) →
    Option Percentile
  | some key, value, [] => some ⟨key, value.getD none⟩
  | none, _, [] => none
  | key, value, (name, json) :: rest =>
      if name = "key" then
        match key, doubleOf? json with
        | none, some found => fieldsOf? (some found) value rest
        | _, _ => none
      else if name = "value" then
        match value, optionalDoubleOf? json with
        | none, some found => fieldsOf? key (some found) rest
        | _, _ => none
      else fieldsOf? key value rest

/-- The estimate that a value with all its members stands for: an object, or a pair in an array. -/
def ofJson? : Json → Option Percentile
  | .object entries => fieldsOf? none none entries
  | .array [key, value] => do
      let key ← doubleOf? key
      let value ← optionalDoubleOf? value
      return ⟨key, value⟩
  | _ => none

/-- The estimates of an object, in the order of the names: names that end in `_as_string` are
passed over, and every other name must read as a double. -/
def ofEntries : List (String × Json) → Except Fault (List Percentile)
  | [] => .ok []
  | (name, json) :: rest =>
      if name.endsWith "_as_string" then ofEntries rest
      else
        match Binary64.read? name with
        | none => .error (.mismatch (.percentileKey name))
        | some key => (⟨key, doubleOf? json⟩ :: ·) <$> ofEntries rest

/-- The order of percents. -/
def inOrder (first second : Percentile) : Bool :=
  first.key.totalKey ≤ second.key.totalKey

/-- The estimates of a keyed object, sorted by percent. Of a repeated name the last entry counts. -/
def ofKeyed (entries : List (String × Json)) : Except Fault (List Percentile) :=
  (·.mergeSort inOrder) <$> ofEntries (Named.ofList entries)

/-- The estimates that the values of a result stand for. -/
def listOfJson (values : Json) : Except Fault (List Percentile) :=
  match values with
  | .object entries =>
      match Json.settleEntries? entries with
      | some settled => ofKeyed settled
      | none => .error (.mismatch (.noForm "Repr"))
  | .array items =>
      match items.mapM ofJson? with
      | some estimates => .ok estimates
      | none => .error (.mismatch (.noForm "Repr"))
  | _ => .error (.mismatch (.noForm "Repr"))

/-- Decodes the values of a percentiles result. -/
def decodeList : Decoder (List Percentile) :=
  fun depth value => do
    let content ← Decode.members depth value
    listOfJson content

end Percentile

/-- The result of a percentiles aggregation. -/
structure PercentilesResult where
  values : List Percentile
deriving DecidableEq

namespace PercentilesResult

/-- How far a percent may be from the one that is asked for. -/
def tolerance : Binary64 :=
  .ofRatio false 1 (10 ^ 9)

/-- The estimate for a percent, if the store gave one. -/
def get? (result : PercentilesResult) (percent : Binary64) : Option Binary64 := do
  let near (estimate : Percentile) : Bool := (estimate.key.sub percent).abs.lt tolerance
  let estimate ← result.values.find? near
  estimate.value

/-- Reads one member. -/
def step (depth : Nat) (values : Option (List Percentile)) (name : String) (value : Raw) :
    Except Fault (Option (List Percentile)) := do
  if name = "values" then
    Decode.once name values (Percentile.decodeList depth value)
  else
    value.skip
    return values

/-- Reads a result from the members of an object. -/
def ofMembers (depth : Nat) (members : Members) : Except Fault PercentilesResult := do
  let values ← Decode.walk (step depth) members none
  return ⟨← Decode.require "values" values⟩

/-- Reads a result from an array, which must hold the values. -/
def ofItems (depth : Nat) (items : Items) : Except Fault (PercentilesResult × Items) := do
  let (values, items) ←
    Decode.nextRequired (Decode.recordExpectation "PercentilesResult" 1) 0
      (Percentile.decodeList depth) items
  return (⟨values⟩, items)

end PercentilesResult

/-- Decodes the result of a percentiles aggregation. -/
def Decode.percentiles : Decoder PercentilesResult :=
  record "PercentilesResult" PercentilesResult.ofMembers PercentilesResult.ofItems

end SearchWire
