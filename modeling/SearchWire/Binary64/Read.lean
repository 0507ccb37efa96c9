import SearchWire.Binary64.Rounding

/-!
# Reading doubles from text

`Binary64.read?` accepts an optional sign followed by `inf`, `infinity` or `nan`
in any case, or by a decimal with digits on at least one side of the point and an
optional exponent. A decimal is rounded once, from its exact value; one past the
largest double becomes an infinity.
-/

namespace SearchWire

namespace Binary64

/-- The double nearest to `digits * 10 ^ exponent`, where `width` is the number of written digits.
Decimals far beyond the range of doubles are recognized by their exponent. -/
def ofDecimal (negative : Bool) (digits width : Nat) (exponent : Int) : Binary64 :=
  if digits = 0 then ofRank negative 0
  else if 400 < exponent then .infinite negative
  else if exponent + width < -400 then ofRank negative 0
  else ofRatio negative (digits * 10 ^ exponent.toNat) (10 ^ (-exponent).toNat)

/-- Reads an exponent after its letter. -/
def readExponent? (text : List Char) : Option Int :=
  let (negative, digits) : Bool × List Char :=
    match text with
    | '-' :: rest => (true, rest)
    | '+' :: rest => (false, rest)
    | _ => (false, text)
  if digits.isEmpty || !digits.all Char.isDigit then none
  else
    let magnitude := Nat.ofDigitChars 10 digits 0
    some (if negative then -(magnitude : Int) else magnitude)

/-- Reads what follows the digits of a decimal: nothing, or an exponent. -/
def readTail? : List Char → Option Int
  | [] => some 0
  | c :: rest => if c = 'e' || c = 'E' then readExponent? rest else none

/-- Reads a decimal without its sign. -/
def readDecimal? (negative : Bool) (text : List Char) : Option Binary64 :=
  let whole := text.takeWhile Char.isDigit
  let afterWhole := text.dropWhile Char.isDigit
  let (fraction, tail) : List Char × List Char :=
    match afterWhole with
    | '.' :: rest => (rest.takeWhile Char.isDigit, rest.dropWhile Char.isDigit)
    | _ => ([], afterWhole)
  let digits := whole ++ fraction
  if digits.isEmpty then none
  else do
    let exponent ← readTail? tail
    some (ofDecimal negative (Nat.ofDigitChars 10 digits 0) digits.length
      (exponent - fraction.length))

/-- Reads a double without its sign. -/
def readMagnitude? (negative : Bool) (text : List Char) : Option Binary64 :=
  let word := text.map Char.toLower
  if word = ['i', 'n', 'f'] ∨ word = ['i', 'n', 'f', 'i', 'n', 'i', 't', 'y'] then
    some (.infinite negative)
  else if word = ['n', 'a', 'n'] then some (.nan negative)
  else readDecimal? negative text

/-- Reads a double. -/
def read? (text : String) : Option Binary64 :=
  match text.toList with
  | '-' :: rest => readMagnitude? true rest
  | '+' :: rest => readMagnitude? false rest
  | chars => readMagnitude? false chars

end Binary64

end SearchWire
