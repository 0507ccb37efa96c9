/-!
# Writing settings

A string has four forms: between single or double quotes, one on each side or
three. `Toml.stringText` takes the first form in which every character stands
for itself, and double quotes with escapes when there is none. A string with
line breaks needs three quotes, and its text then begins on a line of its own.
-/

namespace SearchWire

namespace Toml

/-- The four forms of a string. A basic string stands between double quotes and has escapes, a
literal one stands between single quotes and has none. -/
inductive StringForm where
  | basic
  | literal
  | multiBasic
  | multiLiteral
deriving DecidableEq

/-- A control that only an escape can show; a tab and a line break are none. -/
def needsEscape (c : Char) : Bool :=
  (c.toNat < 0x20 && c ≠ '\t' && c ≠ '\n') || c.toNat = 0x7f

/-- The length of the longest run of a character; `current` is the length of the run that reaches
up to here. -/
def longestRun (mark : Char) (current : Nat) : List Char → Nat
  | [] => current
  | c :: rest =>
      if c = mark then longestRun mark (current + 1) rest
      else max current (longestRun mark 0 rest)

/-- Whether every character of a string stands for itself in a form. Three quotes in a row would
end the forms of several lines. -/
def StringForm.shows (form : StringForm) (chars : List Char) : Bool :=
  !chars.any needsEscape &&
    match form with
    | .basic => !chars.contains '\\' && !chars.contains '"' && !chars.contains '\n'
    | .literal => !chars.contains '\'' && !chars.contains '\n'
    | .multiBasic => !chars.contains '\\' && longestRun '"' 0 chars ≤ 2
    | .multiLiteral => longestRun '\'' 0 chars ≤ 2

/-- The form of a string: the first that shows it, and one with escapes when none does. -/
def StringForm.ofChars (chars : List Char) : StringForm :=
  match [basic, literal, multiBasic, multiLiteral].find? (·.shows chars) with
  | some form => form
  | none => if chars.contains '\n' then .multiBasic else .basic

/-- A literal form is only taken for a string that it shows. -/
theorem StringForm.shows_of_ofChars {chars : List Char} {form : StringForm}
    (taken : StringForm.ofChars chars = form) (unescaped : form = .literal ∨ form = .multiLiteral) :
    form.shows chars = true := by
  unfold ofChars at taken
  split at taken
  · next found => subst taken; simpa using List.find?_some found
  · subst taken
    split at unescaped <;> simp at unescaped

/-- A hexadecimal digit in upper case. -/
def upperHexDigit (value : Nat) : Char :=
  (Nat.digitChar value).toUpper

/-- The written form of a character between double quotes, apart from a line break and a double
quote. -/
def escapeChar (c : Char) : List Char :=
  if c.toNat = 0x08 then ['\\', 'b']
  else if c = '\t' then ['\\', 't']
  else if c.toNat = 0x0c then ['\\', 'f']
  else if c = '\r' then ['\\', 'r']
  else if c = '\\' then ['\\', '\\']
  else if needsEscape c then
    ['\\', 'u', '0', '0', upperHexDigit (c.toNat / 16), upperHexDigit (c.toNat % 16)]
  else [c]

/-- The text of a string between double quotes, one on each side. -/
def basicText : List Char → List Char
  | [] => []
  | c :: rest =>
      (if c = '\n' then ['\\', 'n'] else if c = '"' then ['\\', '"'] else escapeChar c) ++
        basicText rest

/-- The text of a string between three double quotes on each side, where a line break stands for
itself and a double quote does so unless it is the third in a row; `run` counts the double quotes
that stand right before. -/
def multiBasicText (run : Nat) : List Char → List Char
  | [] => []
  | c :: rest =>
      if c = '"' then
        if run < 2 then '"' :: multiBasicText (run + 1) rest
        else '\\' :: '"' :: multiBasicText 0 rest
      else if c = '\n' then '\n' :: multiBasicText 0 rest
      else escapeChar c ++ multiBasicText 0 rest

/-- A text between three quotes on each side. A line break right after the opening quotes does not
belong to the string and stands there when the string has lines. -/
def multiLine (mark : Char) (hasLines : Bool) (text : List Char) : List Char :=
  mark :: mark :: mark :: (if hasLines then ['\n'] else []) ++ text ++ [mark, mark, mark]

/-- The written form of a string in one of the four forms. -/
def StringForm.text (form : StringForm) (chars : List Char) : List Char :=
  match form with
  | .basic => '"' :: basicText chars ++ ['"']
  | .literal => '\'' :: chars ++ ['\'']
  | .multiBasic => multiLine '"' (chars.contains '\n') (multiBasicText 0 chars)
  | .multiLiteral => multiLine '\'' (chars.contains '\n') chars

/-- The written form of a string. -/
def stringText (chars : List Char) : List Char :=
  (StringForm.ofChars chars).text chars

/-- The written form of a truth value. -/
def boolText (value : Bool) : List Char :=
  if value then ['t', 'r', 'u', 'e'] else ['f', 'a', 'l', 's', 'e']

/-- A line that sets a bare key. -/
def lineText (key : String) (value : List Char) : List Char :=
  key.toList ++ ' ' :: '=' :: ' ' :: value ++ ['\n']

end Toml

end SearchWire
