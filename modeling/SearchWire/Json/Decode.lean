import SearchWire.Json.Scan
import SearchWire.Json.Numeral
import SearchWire.Json.Fault

/-!
# Decoding written values

A decoder takes the number of levels of nesting that are still allowed and a
written value, and gives a result or the first fault in text order. The readers
of strings and numbers, `walk` over the members of an object and `each` over the
items of an array are the parts from which the decoders of all response types
are built. `decodeBody` decodes a whole text, which may hold one value and white
space around it.
-/

namespace SearchWire

/-- How many levels of arrays and objects a decoded value may nest. -/
def nestingLimit : Nat := 127

/-- Reads a written value into a result, given how many levels it may still nest. -/
abbrev Decoder (α : Type) := Nat → Raw → Except Fault α

namespace Quoted

/-- The character that a one-letter escape stands for. -/
def escaped (letter : Char) : Char :=
  if letter = 'b' then '\x08'
  else if letter = 'f' then '\x0c'
  else if letter = 'n' then '\n'
  else if letter = 'r' then '\r'
  else if letter = 't' then '\t'
  else letter

/-- The value of a hexadecimal digit. -/
def hexValue (c : Char) : Nat :=
  if c.isDigit then c.toNat - '0'.toNat
  else if 'a' ≤ c then c.toNat - 'a'.toNat + 10
  else c.toNat - 'A'.toNat + 10

/-- The code unit of four hexadecimal digits. -/
def unitValue (a b c d : Char) : Nat :=
  ((hexValue a * 16 + hexValue b) * 16 + hexValue c) * 16 + hexValue d

/-- The first of two code units that encode one character. -/
def isLeading (unit : Nat) : Bool :=
  0xD800 ≤ unit && unit < 0xDC00

/-- The second of two code units that encode one character. -/
def isTrailing (unit : Nat) : Bool :=
  0xDC00 ≤ unit && unit < 0xE000

/-- The character that two code units encode. -/
def paired (leading trailing : Nat) : Char :=
  Char.ofNat (0x10000 + (leading - 0xD800) * 0x400 + (trailing - 0xDC00))

/-- The damage of a leading code unit at the end of the pieces: that of an escape with digits or of
the end of the text, when one of them stops the string there, and a broken pair otherwise. -/
def afterLeading : Option (Damage × List Symbol) → Damage
  | some (damage, .char '\\' :: .char 'u' :: _) => damage
  | some (damage, _) => if damage.isCut then damage else .brokenPair
  | none => .brokenPair

/-- The symbols that the pieces of a string stand for, up to its end or its tear. Code units must
come in pairs that encode a character. -/
def unescape (tear : Option (Damage × List Symbol)) : List Piece → Except Damage (List Symbol)
  | [] =>
      match tear with
      | none => .ok []
      | some (damage, _) => .error damage
  | .plain symbol :: rest => (symbol :: ·) <$> unescape tear rest
  | .escape letter :: rest => (.char (escaped letter) :: ·) <$> unescape tear rest
  | .unicode a b c d :: rest =>
      let unit := unitValue a b c d
      if isTrailing unit then .error .loneSurrogate
      else if isLeading unit then
        match rest with
        | .unicode e f g h :: more =>
            let second := unitValue e f g h
            if isTrailing second then (.char (paired unit second) :: ·) <$> unescape tear more
            else .error .loneSurrogate
        | [] => .error (afterLeading tear)
        | _ => .error .brokenPair
      else (.char (Char.ofNat unit) :: ·) <$> unescape tear rest

/-- The characters of a written string, which must be closed and valid UTF-8. -/
def characters (quoted : Quoted) : Except Fault (List Char) :=
  match unescape quoted.tear quoted.pieces with
  | .error damage => .error (.damage damage)
  | .ok symbols =>
      match Symbol.characters? symbols with
      | some chars => .ok chars
      | none => .error (.damage .badEncoding)

/-- The string that a written string stands for. -/
def read (quoted : Quoted) : Except Fault String :=
  String.ofList <$> quoted.characters

end Quoted

namespace Numeral

/-- The value of a written number, which must not be past the largest double. -/
def read (numeral : Numeral) : Except Fault Number :=
  match numeral.number? with
  | some value => .ok value
  | none => .error (.damage .hugeNumber)

end Numeral

namespace Number

/-- A number as it is named in a message. -/
def found : Number → Found
  | .int value => .int value
  | .float value => .float value

end Number

namespace Raw

/-- Refuses a value of the wrong kind. A scalar is read first, so its own fault comes before the
refusal; the contents of an array or an object are not looked at. -/
def refuse {α : Type} (expected : String) : Raw → Except Fault α
  | .null => .error (.wrongType .null expected)
  | .bool value => .error (.wrongType (.bool value) expected)
  | .number numeral => do
      let value ← numeral.read
      .error (.wrongType value.found expected)
  | .string quoted => do
      let value ← quoted.read
      .error (.wrongType (.string value) expected)
  | .array _ => .error (.wrongType .array expected)
  | .object _ => .error (.wrongType .object expected)
  | .cutNumber _ => .error (.damage .endsInValue)
  | .broken damage _ => .error (.damage damage)

/-- Passes over a value, which only has to be well formed. -/
def skip (value : Raw) : Except Fault Unit :=
  match value.damage? with
  | some damage => .error (.damage damage)
  | none => .ok ()

end Raw

namespace Decode

/-- Decodes `true` or `false`. -/
def bool : Decoder Bool
  | _, .bool value => .ok value
  | _, other => other.refuse "a boolean"

/-- Decodes a string, which messages name as given. -/
def stringAs (expected : String) : Decoder String
  | _, .string quoted => quoted.read
  | _, other => other.refuse expected

/-- Decodes a string. -/
def string : Decoder String :=
  stringAs "a string"

/-- Decodes `null` alone. -/
def unit : Decoder Unit
  | _, .null => .ok ()
  | _, other => other.refuse "unit"

/-- Takes an integer between two bounds from a number. -/
def intFrom (expected : String) (low high : Int) : Number → Except Fault Int
  | .int value =>
      if low ≤ value ∧ value ≤ high then .ok value
      else .error (.mismatch (.outOfRange value expected))
  | .float value => .error (.wrongType (.float value) expected)

/-- Decodes an integer between two bounds. -/
def intWithin (expected : String) (low high : Int) : Decoder Int
  | _, .number numeral => do
      let value ← numeral.read
      intFrom expected low high value
  | _, other => other.refuse expected

/-- Decodes a natural number of sixteen bits. -/
def nat16 : Decoder Nat :=
  fun depth value => Int.toNat <$> intWithin "u16" 0 (2 ^ 16 - 1) depth value

/-- Decodes a natural number of thirty-two bits. -/
def nat32 : Decoder Nat :=
  fun depth value => Int.toNat <$> intWithin "u32" 0 (2 ^ 32 - 1) depth value

/-- Decodes a natural number of sixty-four bits. -/
def nat64 : Decoder Nat :=
  fun depth value => Int.toNat <$> intWithin "u64" 0 (2 ^ 64 - 1) depth value

/-- Decodes an integer of sixty-four bits. -/
def int64 : Decoder Int :=
  intWithin "i64" (-2 ^ 63) (2 ^ 63 - 1)

/-- Decodes a double; an integer is one as well. -/
def double : Decoder Binary64
  | _, .number numeral => Number.toBinary64 <$> numeral.read
  | _, other => other.refuse "f64"

/-- Decodes `null` as an absent value. -/
def optional {α : Type} (inner : Decoder α) : Decoder (Option α)
  | _, .null => .ok none
  | depth, other => some <$> inner depth other

/-- Decodes the items of an array one after another. -/
def each {α : Type} (element : Raw → Except Fault α) : Items → Except Fault (List α)
  | .closed _ => .ok []
  | .torn damage _ => .error (.damage damage)
  | .item _ value more => do
      let first ← element value
      let rest ← each element more
      return first :: rest

/-- Decodes an array of values of one type. -/
def list {α : Type} (element : Decoder α) : Decoder (List α)
  | depth + 1, .array items => each (element depth) items
  | 0, .array _ => .error (.damage .tooDeep)
  | _, other => other.refuse "a sequence"

/-- Goes through the members of an object in text order, each step taking a name and its value. -/
def walk {σ : Type} (step : σ → String → Raw → Except Fault σ) : Members → σ → Except Fault σ
  | .closed _, state => .ok state
  | .torn damage _, _ => .error (.damage damage)
  | .member _ name _ value more, state => do
      let key ← name.read
      let next ← step state key value
      walk step more next

/-- Decodes an object by a walk through its members. -/
def object {σ : Type} (expected : String) (step : Nat → σ → String → Raw → Except Fault σ)
    (start : σ) : Decoder σ
  | depth + 1, .object members => walk (step depth) members start
  | 0, .object _ => .error (.damage .tooDeep)
  | _, other => other.refuse expected

/-- Sets the field of a record that has not been set before. -/
def once {α : Type} (field : String) (slot : Option α) (value : Except Fault α) :
    Except Fault (Option α) :=
  match slot with
  | some _ => .error (.mismatch (.repeatedField field))
  | none => some <$> value

/-- The value of a field that a record must have. -/
def require {α : Type} (field : String) (slot : Option α) : Except Fault α :=
  match slot with
  | some value => .ok value
  | none => .error (.mismatch (.missingField field))

/-- The name of a record type with its number of fields, as messages show it. -/
def recordExpectation (record : String) (fields : Nat) : String :=
  "struct " ++ record ++ " with " ++ String.ofList (Decimal.digitsOf fields) ++
    (if fields = 1 then " element" else " elements")

/-- Takes the next field of a record that is written as an array, if there is one. -/
def next {α : Type} (element : Raw → Except Fault α) : Items → Except Fault (Option α × Items)
  | .closed blank => .ok (none, .closed blank)
  | .torn damage _ => .error (.damage damage)
  | .item _ value more => do
      let field ← element value
      return (some field, more)

/-- Takes the next field of a record that is written as an array and must have it; `position` is
the number of fields before it. -/
def nextRequired {α : Type} (expected : String) (position : Nat) (element : Raw → Except Fault α)
    (items : Items) : Except Fault (α × Items) := do
  let (field, more) ← next element items
  match field with
  | some value => return (value, more)
  | none => .error (.mismatch (.tooFewItems position expected))

/-- The end of a record that is written as an array, which has no further items. -/
def finish : Items → Except Fault Unit
  | .closed _ => .ok ()
  | .torn damage _ => .error (.damage damage)
  | .item _ _ _ => .error (.damage .trailingText)

/-- Decodes a record, written as an object by its names or as an array in the order of its
fields. -/
def record {α : Type} (name : String) (ofMembers : Nat → Members → Except Fault α)
    (ofItems : Nat → Items → Except Fault (α × Items)) : Decoder α
  | depth + 1, .object members => ofMembers depth members
  | depth + 1, .array items => do
      let (value, rest) ← ofItems depth items
      finish rest
      return value
  | 0, .object _ => .error (.damage .tooDeep)
  | 0, .array _ => .error (.damage .tooDeep)
  | _, other => other.refuse ("struct " ++ name)

/-- The end of an object that has no further members: only a closing brace may follow, so the text
is cut when it ends here and wrong when anything else stands here. -/
def finishMembers : Members → Except Fault Unit
  | .closed _ => .ok ()
  | .member _ _ _ _ _ => .error (.damage .trailingComma)
  | .torn _ text =>
      match (Scan.blanks text).2 with
      | [] => .error (.damage .endsInObject)
      | .char ',' :: _ => .error (.damage .trailingComma)
      | _ => .error (.damage .trailingText)

/-- A name among known ones. -/
def known {α : Type} (names : List (String × α)) (name : String) : Except Fault α :=
  match names.lookup name with
  | some value => .ok value
  | none => .error (.mismatch (.unknownName name (names.map (·.1))))

/-- Decodes one of a few names: a string, or an object whose single member has that name and the
value `null`. -/
def name {α : Type} (names : List (String × α)) : Decoder α
  | _, .string quoted => do
      let key ← quoted.read
      known names key
  | depth + 1, .object (.member _ key _ value more) => do
      let text ← key.read
      let found ← known names text
      unit depth value
      finishMembers more
      return found
  | _ + 1, .object (.torn damage _) => .error (.damage damage)
  | _, .broken damage text => .error (.damage (if text.isEmpty then damage else .noValue))
  | _, _ => .error (.damage .noValue)

end Decode

/-- Decodes a whole text: white space, one value and white space. -/
def Document.decode {α : Type} (decoder : Decoder α) (document : Document) : Except Fault α := do
  let value ← decoder nestingLimit document.value
  if (Scan.blanks document.rest).2.isEmpty then return value else .error (.damage .trailingText)

/-- Decodes a body. -/
def decodeBody {α : Type} (decoder : Decoder α) (text : List Symbol) : Except Fault α :=
  (Document.ofSymbols text).decode decoder

end SearchWire
