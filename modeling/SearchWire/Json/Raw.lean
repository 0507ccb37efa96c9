import SearchWire.Text.Symbol
import SearchWire.Json.Text

/-!
# JSON as it is written

`Raw` is a JSON value together with its written form: white space, escapes and
the spelling of numbers are kept, and `Raw.symbols` gives the text back. A text
that is not JSON has a `Raw` as well, in which the damaged place is marked and
what follows it belongs to the mark; so a reader that walks a `Raw` meets the
members of a body in text order up to the damage. `Raw.damage?` finds that
place without looking at the meaning of numbers and strings.
-/

namespace SearchWire

/-- How a text fails to be JSON: it ends too early, in the place of a value or inside of something,
or it goes wrong before its end. -/
inductive Damage where
  | endsInValue
  | endsInString
  | endsInArray
  | endsInObject
  | noValue
  | noLiteral
  | noColon
  | noArrayEnd
  | noObjectEnd
  | noName
  | trailingComma
  | trailingText
  | badNumber
  | hugeNumber
  | badEscape
  | brokenPair
  | loneSurrogate
  | control
  | badEncoding
  | tooDeep
deriving DecidableEq

namespace Damage

/-- Whether the text ends too early. -/
def isCut : Damage → Bool
  | .endsInValue | .endsInString | .endsInArray | .endsInObject => true
  | .noValue | .noLiteral | .noColon | .noArrayEnd | .noObjectEnd | .noName | .trailingComma
  | .trailingText | .badNumber | .hugeNumber | .badEscape | .brokenPair | .loneSurrogate
  | .control | .badEncoding | .tooDeep => false

/-- The wording of a damage. -/
def message : Damage → String
  | .endsInValue => "EOF while parsing a value"
  | .endsInString => "EOF while parsing a string"
  | .endsInArray => "EOF while parsing a list"
  | .endsInObject => "EOF while parsing an object"
  | .noValue => "expected value"
  | .noLiteral => "expected ident"
  | .noColon => "expected `:`"
  | .noArrayEnd => "expected `,` or `]`"
  | .noObjectEnd => "expected `,` or `\x7d`"
  | .noName => "key must be a string"
  | .trailingComma => "trailing comma"
  | .trailingText => "trailing characters"
  | .badNumber => "invalid number"
  | .hugeNumber => "number out of range"
  | .badEscape => "invalid escape"
  | .brokenPair => "unexpected end of hex escape"
  | .loneSurrogate => "lone leading surrogate in hex escape"
  | .control => "control character (\\u0000-\\u001F) found while parsing a string"
  | .badEncoding => "invalid unicode code point"
  | .tooDeep => "recursion limit exceeded"

end Damage

/-- One unit of a written string: a symbol that stands for itself, a one-letter escape, or an
escape of four hexadecimal digits. -/
inductive Piece where
  | plain (symbol : Symbol)
  | escape (letter : Char)
  | unicode (first second third fourth : Char)
deriving DecidableEq

/-- A written string after its opening quote. A tear is the damage that stopped the string and the
text from there on; without a tear the string is closed by a quote. -/
structure Quoted where
  pieces : List Piece
  tear : Option (Damage × List Symbol)
deriving DecidableEq

/-- The exponent of a written number: its letter, its sign if written, and its digits. -/
structure Exponent where
  letter : Char
  sign : Option Char
  digits : List Char
deriving DecidableEq

/-- A written number. -/
structure Numeral where
  negative : Bool
  whole : List Char
  fraction : Option (List Char)
  exponent : Option Exponent
deriving DecidableEq

mutual

/-- A JSON value as it is written. `cutNumber` is a number that the end of the text cuts off, and
`broken` any other text in the place of a value. -/
inductive Raw where
  | null
  | bool (value : Bool)
  | number (numeral : Numeral)
  | string (quoted : Quoted)
  | array (items : Items)
  | object (members : Members)
  | cutNumber (text : List Symbol)
  | broken (damage : Damage) (text : List Symbol)

/-- The items of a written array after its opening bracket. The lead of an item is the text
before it: white space, and a comma unless it is the first. -/
inductive Items where
  | closed (blank : List Char)
  | torn (damage : Damage) (text : List Symbol)
  | item (lead : List Char) (value : Raw) (more : Items)

/-- The members of a written object after its opening brace. The middle of a member is the text
between its name and its value. -/
inductive Members where
  | closed (blank : List Char)
  | torn (damage : Damage) (text : List Symbol)
  | member (lead : List Char) (name : Quoted) (middle : List Char) (value : Raw) (more : Members)

end

namespace Piece

/-- The written form of a piece. -/
def symbols : Piece → List Symbol
  | .plain symbol => [symbol]
  | .escape letter => [.char '\\', .char letter]
  | .unicode a b c d => [.char '\\', .char 'u', .char a, .char b, .char c, .char d]

end Piece

namespace Quoted

/-- The written form of a string, with its quotes. -/
def symbols (quoted : Quoted) : List Symbol :=
  .char '"' :: quoted.pieces.flatMap Piece.symbols ++
    match quoted.tear with
    | none => [.char '"']
    | some (_, text) => text

/-- The damage of a string, escapes not being paired and bytes not being checked. -/
def damage? (quoted : Quoted) : Option Damage :=
  quoted.tear.map (·.1)

end Quoted

namespace Numeral

/-- The written form of an exponent. -/
def exponentText (exponent : Exponent) : List Char :=
  exponent.letter :: exponent.sign.toList ++ exponent.digits

/-- The written form of a number. -/
def text (numeral : Numeral) : List Char :=
  (if numeral.negative then ['-'] else []) ++ numeral.whole ++
    (match numeral.fraction with
      | none => []
      | some digits => '.' :: digits) ++
    (match numeral.exponent with
      | none => []
      | some exponent => exponentText exponent)

end Numeral

namespace Raw

mutual

/-- Writes a value in front of a text. -/
def before : Raw → List Symbol → List Symbol
  | .null, text => Symbol.ofChars ['n', 'u', 'l', 'l'] ++ text
  | .bool true, text => Symbol.ofChars ['t', 'r', 'u', 'e'] ++ text
  | .bool false, text => Symbol.ofChars ['f', 'a', 'l', 's', 'e'] ++ text
  | .number numeral, text => Symbol.ofChars numeral.text ++ text
  | .string quoted, text => quoted.symbols ++ text
  | .array items, text => .char '[' :: itemsBefore items text
  | .object members, text => .char '{' :: membersBefore members text
  | .cutNumber written, text => written ++ text
  | .broken _ written, text => written ++ text

/-- Writes the items of an array, with the closing bracket, in front of a text. -/
def itemsBefore : Items → List Symbol → List Symbol
  | .closed blank, text => Symbol.ofChars blank ++ .char ']' :: text
  | .torn _ written, text => written ++ text
  | .item lead value more, text => Symbol.ofChars lead ++ value.before (itemsBefore more text)

/-- Writes the members of an object, with the closing brace, in front of a text. -/
def membersBefore : Members → List Symbol → List Symbol
  | .closed blank, text => Symbol.ofChars blank ++ .char '}' :: text
  | .torn _ written, text => written ++ text
  | .member lead name middle value more, text =>
      Symbol.ofChars lead ++ (name.symbols ++ (Symbol.ofChars middle ++
        value.before (membersBefore more text)))

end

/-- The written form of a value. -/
def symbols (value : Raw) : List Symbol :=
  value.before []

mutual

/-- The first damage of a value in text order; a number that the text cuts off is a bad number
here, where its value is not asked for. -/
def damage? : Raw → Option Damage
  | .null | .bool _ | .number _ => none
  | .string quoted => quoted.damage?
  | .array items => itemsDamage? items
  | .object members => membersDamage? members
  | .cutNumber _ => some .badNumber
  | .broken damage _ => some damage

/-- The first damage among the items of an array. -/
def itemsDamage? : Items → Option Damage
  | .closed _ => none
  | .torn damage _ => some damage
  | .item _ value more => value.damage? <|> itemsDamage? more

/-- The first damage among the members of an object. -/
def membersDamage? : Members → Option Damage
  | .closed _ => none
  | .torn damage _ => some damage
  | .member _ name _ value more => name.damage? <|> value.damage? <|> membersDamage? more

end

end Raw

/-- A written value between white space, and whatever follows it. -/
structure Document where
  lead : List Char
  value : Raw
  rest : List Symbol

end SearchWire
