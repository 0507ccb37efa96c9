import SearchWire.Json.Raw

/-!
# Scanning a text into its written form

`Document.ofSymbols` cuts any text into white space, one written value and a
rest. The scan decides only where things begin and end: it checks the spelling
of literals, numbers and escapes, and leaves the pairing of escapes, the range
of numbers and the depth of nesting to those who read the value. A damaged
place takes all the text that follows it.
-/

namespace SearchWire

namespace Scan

/-- White space between the parts of a text. -/
def isBlank (c : Char) : Bool :=
  c = ' ' || c = '\t' || c = '\n' || c = '\r'

/-- A hexadecimal digit of either case. -/
def isHex (c : Char) : Bool :=
  c.isDigit || ('a' ≤ c && c ≤ 'f') || ('A' ≤ c && c ≤ 'F')

/-- The letters that may follow a backslash, other than `u`. -/
def isEscape (c : Char) : Bool :=
  c = '"' || c = '\\' || c = '/' || c = 'b' || c = 'f' || c = 'n' || c = 'r' || c = 't'

/-- Splits off the leading characters of a class. -/
def span (keep : Char → Bool) : List Symbol → List Char × List Symbol
  | .char c :: rest =>
      if keep c then (c :: (span keep rest).1, (span keep rest).2) else ([], .char c :: rest)
  | text => ([], text)

/-- Splits off the leading white space. -/
def blanks (text : List Symbol) : List Char × List Symbol :=
  span isBlank text

/-- Splits off the leading decimal digits. -/
def digits (text : List Symbol) : List Char × List Symbol :=
  span Char.isDigit text

/-- The damage at a place where something is missing: one when the text ends there, and another
when a different symbol stands there. -/
def absence (atEnd elsewhere : Damage) (text : List Symbol) : Damage :=
  if text.isEmpty then atEnd else elsewhere

/-- The damage of an escape whose four digits are missing: the text is cut only when fewer than
four bytes are left. -/
def digitsAbsence (text : List Symbol) : Damage :=
  if text.foldr (fun symbol bytes => symbol.byteCount + bytes) 0 < 4 then .endsInString
  else .badEscape

/-- Puts a piece in front of a string. -/
def prepend (piece : Piece) (scanned : Quoted × List Symbol) : Quoted × List Symbol :=
  (⟨piece :: scanned.1.pieces, scanned.1.tear⟩, scanned.2)

/-- A string that is torn at once. -/
def tear (damage : Damage) (text : List Symbol) : Quoted × List Symbol :=
  (⟨[], some (damage, text)⟩, [])

/-- Scans a string after its opening quote. -/
def quoted : List Symbol → Quoted × List Symbol
  | [] => tear .endsInString []
  | .char '"' :: rest => (⟨[], none⟩, rest)
  | .char '\\' :: .char 'u' :: .char a :: .char b :: .char c :: .char d :: rest =>
      if isHex a && isHex b && isHex c && isHex d then
        prepend (.unicode a b c d) (quoted rest)
      else
        tear .badEscape
          (.char '\\' :: .char 'u' :: .char a :: .char b :: .char c :: .char d :: rest)
  | .char '\\' :: .char 'u' :: rest =>
      tear (digitsAbsence rest) (.char '\\' :: .char 'u' :: rest)
  | .char '\\' :: .char c :: rest =>
      if isEscape c then prepend (.escape c) (quoted rest)
      else tear .badEscape (.char '\\' :: .char c :: rest)
  | .char '\\' :: rest => tear (absence .endsInString .badEscape rest) (.char '\\' :: rest)
  | .char c :: rest =>
      if c.toNat < 0x20 then tear .control (.char c :: rest)
      else prepend (.plain (.char c)) (quoted rest)
  | .stray byte :: rest => prepend (.plain (.stray byte)) (quoted rest)

/-- Scans the exponent of a number, if one begins here. -/
def exponent : List Symbol → Except Damage (Option Exponent × List Symbol)
  | .char letter :: rest =>
      if letter = 'e' || letter = 'E' then
        let (sign, afterSign) : Option Char × List Symbol :=
          match rest with
          | .char '+' :: more => (some '+', more)
          | .char '-' :: more => (some '-', more)
          | _ => (none, rest)
        match digits afterSign with
        | ([], more) => .error (absence .endsInValue .badNumber more)
        | (ds, more) => .ok (some ⟨letter, sign, ds⟩, more)
      else .ok (none, .char letter :: rest)
  | text => .ok (none, text)

/-- Scans the fraction of a number, if one begins here. -/
def fraction : List Symbol → Except Damage (Option (List Char) × List Symbol)
  | .char '.' :: rest =>
      match digits rest with
      | ([], more) => .error (absence .endsInValue .badNumber more)
      | (ds, more) => .ok (some ds, more)
  | text => .ok (none, text)

/-- Scans the digits before the point: a single zero, or digits that begin with another one. -/
def whole (text : List Symbol) : Except Damage (List Char × List Symbol) :=
  match digits text with
  | ([], more) => .error (absence .endsInValue .badNumber more)
  | ('0' :: _ :: _, _) => .error .badNumber
  | (ds, more) => .ok (ds, more)

/-- Scans a number after its sign. -/
def numeral (negative : Bool) (text : List Symbol) : Except Damage (Numeral × List Symbol) := do
  let (wholeDigits, afterWhole) ← whole text
  let (fractionDigits, afterFraction) ← fraction afterWhole
  let (power, rest) ← exponent afterFraction
  return (⟨negative, wholeDigits, fractionDigits, power⟩, rest)

/-- Scans a number, which begins with a minus sign or a digit. -/
def number (text : List Symbol) : Raw × List Symbol :=
  let scanned :=
    match text with
    | .char '-' :: rest => numeral true rest
    | _ => numeral false text
  match scanned with
  | .ok (found, rest) => (.number found, rest)
  | .error damage => (if damage.isCut then .cutNumber text else .broken damage text, [])

/-- The text after an expected word, or the damage where the word stops. -/
def afterWord : List Char → List Symbol → Except Damage (List Symbol)
  | [], text => .ok text
  | c :: word, .char d :: rest => if d = c then afterWord word rest else .error .noLiteral
  | _ :: _, text => .error (absence .endsInValue .noLiteral text)

/-- Scans a literal. -/
def literal (word : List Char) (value : Raw) (text : List Symbol) : Raw × List Symbol :=
  match afterWord word text with
  | .ok rest => (value, rest)
  | .error damage => (.broken damage text, [])

mutual

/-- Scans a value that begins at once; `fuel` bounds the nesting and the number of its parts. -/
def value : Nat → List Symbol → Raw × List Symbol
  | 0, text => (.broken .endsInValue text, [])
  | fuel + 1, text =>
      match text with
      | .char '{' :: rest =>
          let (found, after) := members fuel true rest
          (.object found, after)
      | .char '[' :: rest =>
          let (found, after) := items fuel true rest
          (.array found, after)
      | .char '"' :: rest =>
          let (found, after) := quoted rest
          (.string found, after)
      | .char 'n' :: _ => literal ['n', 'u', 'l', 'l'] .null text
      | .char 't' :: _ => literal ['t', 'r', 'u', 'e'] (.bool true) text
      | .char 'f' :: _ => literal ['f', 'a', 'l', 's', 'e'] (.bool false) text
      | .char c :: _ =>
          if c = '-' || c.isDigit then number text else (.broken .noValue text, [])
      | _ => (.broken (absence .endsInValue .noValue text) text, [])

/-- Scans the items of an array up to the closing bracket. -/
def items : Nat → Bool → List Symbol → Items × List Symbol
  | 0, _, text => (.torn .endsInArray text, [])
  | fuel + 1, isFirst, text =>
      let (blank, rest) := blanks text
      let nextItem (lead : List Char) (start : List Symbol) : Items × List Symbol :=
        let (found, afterValue) := value fuel start
        let (more, after) := items fuel false afterValue
        (.item lead found more, after)
      match rest with
      | .char ']' :: after => (.closed blank, after)
      | [] => (.torn .endsInArray text, [])
      | .char ',' :: afterComma =>
          if isFirst then nextItem blank rest
          else
            match blanks afterComma with
            | (gap, .char ']' :: after) =>
                (.item (blank ++ ',' :: gap) (.broken .trailingComma (.char ']' :: after))
                  (.torn .endsInArray []), [])
            | (gap, start) => nextItem (blank ++ ',' :: gap) start
      | _ => if isFirst then nextItem blank rest else (.torn .noArrayEnd text, [])

/-- Scans the members of an object up to the closing brace. -/
def members : Nat → Bool → List Symbol → Members × List Symbol
  | 0, _, text => (.torn .endsInObject text, [])
  | fuel + 1, isFirst, text =>
      let (blank, rest) := blanks text
      let nextMember (lead : List Char) (atEnd : Damage) (start : List Symbol) :
          Members × List Symbol :=
        match start with
        | .char '"' :: afterQuote =>
            let (name, afterName) := quoted afterQuote
            let (gap, colon) := blanks afterName
            match colon with
            | .char ':' :: afterColon =>
                let (space, valueText) := blanks afterColon
                let (found, afterValue) := value fuel valueText
                let (more, after) := members fuel false afterValue
                (.member lead name (gap ++ ':' :: space) found more, after)
            | _ =>
                (.member lead name gap (.broken (absence .endsInObject .noColon colon) colon)
                  (.torn .endsInObject []), [])
        | .char '}' :: _ => (.torn .trailingComma text, [])
        | _ => (.torn (absence atEnd .noName start) text, [])
      match rest with
      | .char '}' :: after => (.closed blank, after)
      | .char ',' :: afterComma =>
          if isFirst then (.torn .noName text, [])
          else
            let (gap, start) := blanks afterComma
            nextMember (blank ++ ',' :: gap) .endsInValue start
      | _ =>
          if isFirst then nextMember blank .endsInObject rest
          else (.torn (absence .endsInObject .noObjectEnd rest) text, [])

end

end Scan

/-- Scans a value that begins at once and takes what follows it as the rest. -/
def Raw.scan (text : List Symbol) : Raw × List Symbol :=
  Scan.value (2 * text.length + 2) text

/-- Scans a whole text. -/
def Document.ofSymbols (text : List Symbol) : Document :=
  let (lead, start) := Scan.blanks text
  let (value, rest) := Raw.scan start
  ⟨lead, value, rest⟩

end SearchWire
