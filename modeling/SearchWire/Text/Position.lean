import SearchWire.Binary64.Decimal

/-!
# Positions at the end of a message

A message may end in the position that it concerns, written as a line and a
column. `Position.split?` takes the position off; `Position.settle` writes it
again in its plain form and leaves out a position in line zero, which is none.
-/

namespace SearchWire

/-- A place in a text; the first line has number one. -/
structure Position where
  line : Nat
  column : Nat
deriving DecidableEq

namespace Position

/-- The text before and after the last occurrence of a word. -/
def splitLast? (word : List Char) : List Char → Option (List Char × List Char)
  | [] => none
  | c :: rest =>
      match splitLast? word rest with
      | some (front, back) => some (c :: front, back)
      | none =>
          if word.isPrefixOf (c :: rest) then some ([], (c :: rest).drop word.length) else none

/-- The number that decimal digits write, of which there must be one. -/
def number? (digits : List Char) : Option Nat :=
  if digits.isEmpty || !digits.all Char.isDigit then none else some (Nat.ofDigitChars 10 digits 0)

/-- The word before the line. -/
def lineWord : List Char :=
  " at line ".toList

/-- The word between the line and the column. -/
def columnWord : List Char :=
  " column ".toList

/-- Takes the position off a message that ends in one. -/
def split? (message : List Char) : Option (List Char × Position) := do
  let (front, numbers) ← splitLast? lineWord message
  let (line, column) ← splitLast? columnWord numbers
  return (front, ⟨← number? line, ← number? column⟩)

/-- The written form of a position, as it stands at the end of a message. -/
def text (position : Position) : List Char :=
  lineWord ++ Decimal.digitsOf position.line ++ columnWord ++ Decimal.digitsOf position.column

/-- The largest number of a line or a column that is taken for one. -/
def limit : Nat := 2 ^ 64 - 1

/-- A message with its position in plain form, and without it when the line is zero. -/
def settle (message : String) : String :=
  match split? message.toList with
  | some (front, position) =>
      if position.line ≤ limit ∧ position.column ≤ limit then
        String.ofList (if position.line = 0 then front else front ++ position.text)
      else message
  | none => message

end Position

end SearchWire
