import SearchWire.Json.Basic
import SearchWire.Binary64.Text

/-!
# The written form of a JSON value

`Json.text` writes a value without any white space. A string escapes the quote,
the backslash and the control characters below space, and nothing else, so the
written text of a value never contains a line break.
-/

namespace SearchWire

namespace Json

/-- A hexadecimal digit in lower case. -/
def hexDigit (value : Nat) : Char :=
  Nat.digitChar value

/-- The written form of one character of a string. -/
def escape (c : Char) : List Char :=
  if c = '"' then ['\\', '"']
  else if c = '\\' then ['\\', '\\']
  else if c.toNat < 0x20 then
    if c.toNat = 0x08 then ['\\', 'b']
    else if c = '\t' then ['\\', 't']
    else if c = '\n' then ['\\', 'n']
    else if c.toNat = 0x0c then ['\\', 'f']
    else if c = '\r' then ['\\', 'r']
    else ['\\', 'u', '0', '0', hexDigit (c.toNat / 16), hexDigit (c.toNat % 16)]
  else [c]

/-- The written form of a string. -/
def quote (value : List Char) : List Char :=
  '"' :: value.flatMap escape ++ ['"']

end Json

/-- The written form of an integer. -/
def intText (value : Int) : List Char :=
  (if value < 0 then ['-'] else []) ++ Decimal.digitsOf value.natAbs

/-- The written form of a number. -/
def Number.text : Number → List Char
  | .int value => intText value
  | .float value => value.documentText

namespace Json

mutual

/-- The written form of a value. -/
def text : Json → List Char
  | .null => ['n', 'u', 'l', 'l']
  | .bool true => ['t', 'r', 'u', 'e']
  | .bool false => ['f', 'a', 'l', 's', 'e']
  | .number value => value.text
  | .string value => quote value.toList
  | .array [] => ['[', ']']
  | .array (first :: rest) => '[' :: first.text ++ itemsText rest
  | .object [] => ['{', '}']
  | .object ((name, value) :: rest) =>
      '{' :: quote name.toList ++ ':' :: value.text ++ entriesText rest

/-- The written form of the items after the first, up to the closing bracket. -/
def itemsText : List Json → List Char
  | [] => [']']
  | item :: rest => ',' :: item.text ++ itemsText rest

/-- The written form of the entries after the first, up to the closing brace. -/
def entriesText : List (String × Json) → List Char
  | [] => ['}']
  | (name, value) :: rest => ',' :: quote name.toList ++ ':' :: value.text ++ entriesText rest

end

/-- The written form of a value as a string. -/
def toText (value : Json) : String :=
  String.ofList value.text

end Json

end SearchWire
