/-!
# Reading strings

A string stands between single or double quotes, one on each side or three.
Between double quotes there are escapes, and between three quotes line breaks,
where a backslash at the end of a line leaves out the line break with all white
space up to the next character. `Toml.string` reads the four forms.
-/

namespace SearchWire

namespace Toml

/-- A reader takes the beginning of a text and leaves the rest. -/
abbrev Reader (α : Type) := List Char → Option (α × List Char)

/-- White space within a line. -/
def isBlank (c : Char) : Bool :=
  c = ' ' || c = '\t'

/-- Leaves out white space within a line. -/
def skipBlanks (text : List Char) : List Char :=
  text.dropWhile isBlank

/-- A character that may stand for itself: a tab or no control. -/
def isPlain (c : Char) : Bool :=
  c = '\t' || (0x20 ≤ c.toNat && c.toNat ≠ 0x7f)

/-- Reads the end of a line, when one stands here. -/
def lineBreak? : List Char → Option (List Char)
  | '\n' :: rest => some rest
  | '\r' :: '\n' :: rest => some rest
  | _ => none

/-- Leaves out a comment, which runs up to the end of the line. -/
def skipComment : List Char → List Char
  | '#' :: rest => rest.dropWhile isPlain
  | text => text

/-- Reads the end of a line with the white space and the comment before it; the end of the text
ends a line as well. -/
def endLine? (text : List Char) : Option (List Char) :=
  match skipComment (skipBlanks text) with
  | [] => some []
  | rest => lineBreak? rest

/-- The value of a hexadecimal digit. -/
def hexValue? (c : Char) : Option Nat :=
  if c.isDigit then some (c.toNat - '0'.toNat)
  else if 'a' ≤ c ∧ c ≤ 'f' then some (c.toNat - 'a'.toNat + 10)
  else if 'A' ≤ c ∧ c ≤ 'F' then some (c.toNat - 'A'.toNat + 10)
  else none

/-- The character of a code point written in hexadecimal digits. -/
def charOfHex? (digits : List Char) : Option Char := do
  let values ← digits.mapM hexValue?
  let point := values.foldl (fun sum value => sum * 16 + value) 0
  if point.isValidChar then some (Char.ofNat point) else none

/-- The character of a one-letter escape. -/
def escape? (c : Char) : Option Char :=
  if c = 'b' then some '\x08'
  else if c = 't' then some '\t'
  else if c = 'n' then some '\n'
  else if c = 'f' then some '\x0c'
  else if c = 'r' then some '\r'
  else if c = '"' then some '"'
  else if c = '\\' then some '\\'
  else none

/-- Puts a character in front of a string that is read. -/
def prepend (c : Char) (read : Option (List Char × List Char)) : Option (List Char × List Char) :=
  read.map fun (chars, rest) => (c :: chars, rest)

/-- Reads a string between double quotes after the first one. -/
def basic : Reader (List Char)
  | '"' :: rest => some ([], rest)
  | '\\' :: 'u' :: a :: b :: c :: d :: rest => do
      let char ← charOfHex? [a, b, c, d]
      prepend char (basic rest)
  | '\\' :: 'U' :: a :: b :: c :: d :: e :: f :: g :: h :: rest => do
      let char ← charOfHex? [a, b, c, d, e, f, g, h]
      prepend char (basic rest)
  | '\\' :: c :: rest => do
      let char ← escape? c
      prepend char (basic rest)
  | c :: rest => if isPlain c then prepend c (basic rest) else none
  | [] => none

/-- Reads a string between single quotes after the first one. -/
def literal : Reader (List Char)
  | '\'' :: rest => some ([], rest)
  | c :: rest => if isPlain c then prepend c (literal rest) else none
  | [] => none

/-- The end of a string of several lines after three quotes: up to two more quotes belong to the
string. -/
def closing (quote : Char) : List Char → List Char × List Char
  | first :: second :: rest =>
      if first = quote then
        if second = quote then ([quote, quote], rest) else ([quote], second :: rest)
      else ([], first :: second :: rest)
  | [only] => if only = quote then ([quote], []) else ([], [only])
  | [] => ([], [])

/-- Whether nothing but white space stands before the end of this line. -/
def atLineEnd (text : List Char) : Bool :=
  (lineBreak? (skipBlanks text)).isSome

/-- Reads a string of several lines between triple double quotes after the first three. A backslash
at the end of a line leaves out the white space and the line breaks after it, and `trims` says that
they are being left out. -/
def multiBasic (trims : Bool) : Reader (List Char)
  | '"' :: '"' :: '"' :: rest => some (closing '"' rest)
  | '\\' :: 'u' :: a :: b :: c :: d :: rest => do
      let char ← charOfHex? [a, b, c, d]
      prepend char (multiBasic false rest)
  | '\\' :: 'U' :: a :: b :: c :: d :: e :: f :: g :: h :: rest => do
      let char ← charOfHex? [a, b, c, d, e, f, g, h]
      prepend char (multiBasic false rest)
  | '\\' :: c :: rest =>
      if atLineEnd (c :: rest) then multiBasic true (c :: rest)
      else do
        let char ← escape? c
        prepend char (multiBasic false rest)
  | '\r' :: '\n' :: rest =>
      if trims then multiBasic true rest else prepend '\n' (multiBasic false rest)
  | c :: rest =>
      if trims && (c = '\n' || isBlank c) then multiBasic true rest
      else if c = '\n' || isPlain c then prepend c (multiBasic false rest)
      else none
  | [] => none

/-- Reads a string of several lines between triple single quotes after the first three. -/
def multiLiteral : Reader (List Char)
  | '\'' :: '\'' :: '\'' :: rest => some (closing '\'' rest)
  | '\r' :: '\n' :: rest => prepend '\n' (multiLiteral rest)
  | c :: rest => if c = '\n' || isPlain c then prepend c (multiLiteral rest) else none
  | [] => none

/-- Leaves out a line break at the beginning of a string of several lines. -/
def skipLineBreak (text : List Char) : List Char :=
  (lineBreak? text).getD text

/-- Reads a string in one of its four forms. -/
def string : Reader String
  | '"' :: '"' :: '"' :: rest =>
      (multiBasic false (skipLineBreak rest)).map fun (s, r) => (String.ofList s, r)
  | '\'' :: '\'' :: '\'' :: rest =>
      (multiLiteral (skipLineBreak rest)).map fun (s, r) => (String.ofList s, r)
  | '"' :: rest => (basic rest).map fun (s, r) => (String.ofList s, r)
  | '\'' :: rest => (literal rest).map fun (s, r) => (String.ofList s, r)
  | _ => none

end Toml

end SearchWire
