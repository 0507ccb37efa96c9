import SearchWire.Json.Decode

/-!
# Decoding any JSON value

`Decode.members` reads a value of any kind and keeps repeated names of objects,
for those who must see them. `Decode.json` reads a JSON value: a repeated name
keeps its first place and its last value, at every level, and an object whose
first name is `carrierName` stands for the value whose text it carries.
`Json.settle?` makes that JSON value of one that has kept its repeated names.
-/

namespace SearchWire

/-- The name that makes an object a carrier: the object has no other member, and the string under
the name is the text of the value that the object stands for. -/
def carrierName : String :=
  "$serde_json::private::RawValue"

namespace Decode

mutual

/-- Reads a value with all its members, repeated names included. -/
def members : Nat → Raw → Except Fault Json
  | _, .null => .ok .null
  | _, .bool value => .ok (.bool value)
  | _, .number numeral => Json.number <$> numeral.read
  | _, .string quoted => Json.string <$> quoted.read
  | depth + 1, .array items => Json.array <$> arrayMembers depth items
  | depth + 1, .object entries => Json.object <$> objectMembers depth entries
  | 0, .array _ => .error (.damage .tooDeep)
  | 0, .object _ => .error (.damage .tooDeep)
  | _, .cutNumber _ => .error (.damage .endsInValue)
  | _, .broken damage _ => .error (.damage damage)
termination_by structural _ value => value

/-- Reads the items of an array. -/
def arrayMembers : Nat → Items → Except Fault (List Json)
  | _, .closed _ => .ok []
  | _, .torn damage _ => .error (.damage damage)
  | depth, .item _ value more => do
      let first ← members depth value
      let rest ← arrayMembers depth more
      return first :: rest
termination_by structural _ items => items

/-- Reads the members of an object. -/
def objectMembers : Nat → Members → Except Fault (List (String × Json))
  | _, .closed _ => .ok []
  | _, .torn damage _ => .error (.damage damage)
  | depth, .member _ name _ value more => do
      let key ← name.read
      let first ← members depth value
      let rest ← objectMembers depth more
      return (key, first) :: rest
termination_by structural _ entries => entries

end

mutual

/-- Decodes a JSON value; `carried` reads the text that a carrier holds. -/
def jsonWith (carried : String → Except Fault Json) : Nat → Raw → Except Fault Json
  | _, .null => .ok .null
  | _, .bool value => .ok (.bool value)
  | _, .number numeral => Json.number <$> numeral.read
  | _, .string quoted => Json.string <$> quoted.read
  | depth + 1, .array items => Json.array <$> itemsWith carried depth items
  | depth + 1, .object entries => objectWith carried depth entries
  | 0, .array _ => .error (.damage .tooDeep)
  | 0, .object _ => .error (.damage .tooDeep)
  | _, .cutNumber _ => .error (.damage .endsInValue)
  | _, .broken damage _ => .error (.damage damage)
termination_by structural _ value => value

/-- Decodes the items of an array. -/
def itemsWith (carried : String → Except Fault Json) : Nat → Items → Except Fault (List Json)
  | _, .closed _ => .ok []
  | _, .torn damage _ => .error (.damage damage)
  | depth, .item _ value more => do
      let first ← jsonWith carried depth value
      let rest ← itemsWith carried depth more
      return first :: rest
termination_by structural _ items => items

/-- Decodes an object, or the value that it carries. -/
def objectWith (carried : String → Except Fault Json) : Nat → Members → Except Fault Json
  | _, .closed _ => .ok (.object [])
  | _, .torn damage _ => .error (.damage damage)
  | depth, .member _ name _ value more => do
      let key ← name.read
      if key = carrierName then
        let text ← stringAs "raw value" depth value
        let found ← carried text
        finishMembers more
        return found
      else
        let first ← jsonWith carried depth value
        let rest ← entriesWith carried depth more
        return Json.record ((key, first) :: rest)
termination_by structural _ entries => entries

/-- Decodes the members of an object. -/
def entriesWith (carried : String → Except Fault Json) :
    Nat → Members → Except Fault (List (String × Json))
  | _, .closed _ => .ok []
  | _, .torn damage _ => .error (.damage damage)
  | depth, .member _ name _ value more => do
      let key ← name.read
      let first ← jsonWith carried depth value
      let rest ← entriesWith carried depth more
      return (key, first) :: rest
termination_by structural _ entries => entries

end

/-- Reads a carried text as a whole. Its fault is a mismatch of the text around it. A carrier in it
carries a shorter text, so `fuel` need only exceed the length. -/
def carriedWithin : Nat → String → Except Fault Json
  | 0, _ => .error (.damage .tooDeep)
  | fuel + 1, text =>
      match decodeBody (jsonWith (carriedWithin fuel)) (Symbol.ofString text) with
      | .ok value => .ok value
      | .error fault => .error (.mismatch (.refused fault.message))

/-- Reads a carried text. -/
def carried (text : String) : Except Fault Json :=
  carriedWithin (text.length + 1) text

/-- Decodes a JSON value. -/
def json : Decoder Json :=
  jsonWith carried

/-- Decodes a JSON object; a value in it may be carried, but the object is none that carries. -/
def jsonObject : Decoder Json
  | depth + 1, .object entries => Json.record <$> entriesWith carried depth entries
  | 0, .object _ => .error (.damage .tooDeep)
  | _, other => other.refuse "a map"

end Decode

namespace Json

mutual

/-- The value in which each name of an object stands once, in its first place with its last value,
and which is carried where an object is a carrier; none when a carrier holds anything else. -/
def settle? : Json → Option Json
  | .null => some .null
  | .bool value => some (.bool value)
  | .number value => some (.number value)
  | .string value => some (.string value)
  | .array items => array <$> settleItems? items
  | .object [] => some (.object [])
  | .object ((name, value) :: rest) =>
      if name = carrierName then
        match value, rest with
        | .string text, [] => (Decode.carried text).toOption
        | _, _ => none
      else do
        let first ← settle? value
        let others ← settleEntries? rest
        return record ((name, first) :: others)

/-- Settles the items of an array. -/
def settleItems? : List Json → Option (List Json)
  | [] => some []
  | item :: rest => do
      let first ← settle? item
      let others ← settleItems? rest
      return first :: others

/-- Settles the values of an object's entries. -/
def settleEntries? : List (String × Json) → Option (List (String × Json))
  | [] => some []
  | (name, value) :: rest => do
      let first ← settle? value
      let others ← settleEntries? rest
      return (name, first) :: others

end

end Json

end SearchWire
