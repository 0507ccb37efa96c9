import SearchWire.Json.Raw

/-!
# The value of a written number

A number without fraction and exponent is an integer when it fits sixty-four
bits; `-0` and every other number is a double. The double is computed in two
roundings: digits are gathered into a significand of at most sixty-four bits,
later digits before the point only count towards the power of ten, later digits
after it are dropped, and the rounded significand is then multiplied or divided
by the rounded power of ten. A number past the largest double has no value.
-/

namespace SearchWire

namespace Binary64

/-- The finite double, if it is one. -/
def finite? : Binary64 → Option Finite
  | .finite value => some value
  | .infinite _ | .nan _ => none

end Binary64

namespace Numeral

/-- The largest significand that is gathered exactly. -/
def significandLimit : Nat := 2 ^ 64 - 1

/-- The value of a decimal digit. -/
def digitValue (c : Char) : Nat :=
  c.toNat - '0'.toNat

/-- Gathers digits into a significand while it stays within the limit; also the digits left. -/
def gather : Nat → List Char → Nat × List Char
  | significand, [] => (significand, [])
  | significand, digit :: rest =>
      let next := significand * 10 + digitValue digit
      if next ≤ significandLimit then gather next rest else (significand, digit :: rest)

/-- The power of ten that a written exponent names. -/
def power (exponent : Exponent) : Int :=
  let magnitude := Nat.ofDigitChars 10 exponent.digits 0
  if exponent.sign = some '-' then -(magnitude : Int) else magnitude

/-- The largest power of ten that is a finite double. -/
def powerLimit : Nat := 308

/-- Divides a double by a power of ten within the limit. -/
def divideByPower (value : Finite) (exponent : Nat) : Option Finite := do
  let divisor ← (Binary64.ofNat (10 ^ exponent)).finite?
  (value.div divisor).finite?

/-- A significand times a power of ten, rounded at each step; none past the largest double. -/
def scale (significand : Nat) (exponent : Int) : Option Finite :=
  if significand = 0 then some (Finite.zero false)
  else do
    let value ← (Binary64.ofNat significand).finite?
    if 0 ≤ exponent then
      if exponent ≤ powerLimit then
        let factor ← (Binary64.ofNat (10 ^ exponent.toNat)).finite?
        (value.mul factor).finite?
      else none
    else
      let places := exponent.natAbs
      if places ≤ powerLimit then divideByPower value places
      else
        let scaled ← divideByPower value powerLimit
        if places ≤ 2 * powerLimit then divideByPower scaled (places - powerLimit)
        else some (Finite.zero false)

/-- The value of a number with a fraction, an exponent or more digits than an integer holds. -/
def double? (numeral : Numeral) : Option Finite :=
  let (gathered, extraDigits) := gather 0 numeral.whole
  let fraction := numeral.fraction.getD []
  let (significand, dropped) := gather gathered fraction
  let exponent : Int :=
    (extraDigits.length : Int) - ((fraction.length - dropped.length : Nat) : Int) +
      (numeral.exponent.map power).getD 0
  (scale significand exponent).map fun value =>
    if numeral.negative then value.neg else value

/-- The value of a number, if it has one. -/
def number? (numeral : Numeral) : Option Number :=
  let asDouble := numeral.double?.map Number.float
  match numeral.fraction, numeral.exponent with
  | none, none =>
      let magnitude := Nat.ofDigitChars 10 numeral.whole 0
      if numeral.negative then
        if 0 < magnitude ∧ magnitude ≤ 2 ^ 63 then some (.int (-(magnitude : Int))) else asDouble
      else if magnitude < 2 ^ 64 then some (.int magnitude)
      else asDouble
  | _, _ => asDouble

end Numeral

namespace Number

/-- A number as a double. -/
def toBinary64 : Number → Binary64
  | .int value => .ofInt value
  | .float value => .finite value

end Number

end SearchWire
