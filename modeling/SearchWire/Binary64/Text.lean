import SearchWire.Binary64.Decimal

/-!
# The written forms of a double

`Finite.documentText` is the form of a number in a document: shortest digits,
positional when the leading digit stands between `10 ^ (-5)` and `10 ^ 15`, with
`.0` on an integral value, and with a signed exponent elsewhere.
`Binary64.plainText` is the form of a number inside a message: always
positional, with no point on an integral value. The two differ also in the
choice between two equally near decimals.
-/

namespace SearchWire

namespace Decimal

/-- The digits before the point of the positional form. -/
def wholePart (d : Decimal) : List Char :=
  if 0 ≤ d.exponent then digitsOf d.digits ++ List.replicate d.exponent.toNat '0'
  else
    let digits := digitsOf d.digits
    let places := (-d.exponent).toNat
    if places < digits.length then digits.take (digits.length - places) else ['0']

/-- The digits after the point of the positional form. -/
def fractionPart (d : Decimal) : List Char :=
  if 0 ≤ d.exponent then []
  else
    let digits := digitsOf d.digits
    let places := (-d.exponent).toNat
    if places < digits.length then digits.drop (digits.length - places)
    else List.replicate (places - digits.length) '0' ++ digits

/-- The positional form; `integral` is written in place of an empty fraction. -/
def positional (d : Decimal) (integral : List Char) : List Char :=
  d.wholePart ++
    if d.fractionPart.isEmpty then integral else '.' :: d.fractionPart

/-- The form with one digit before the point and a signed exponent. -/
def scientific (d : Decimal) : List Char :=
  let exponent := d.leadingExponent
  let mantissa :=
    match digitsOf d.digits with
    | [] => []
    | [digit] => [digit]
    | digit :: rest => digit :: '.' :: rest
  mantissa ++ 'e' :: (if exponent < 0 then '-' else '+') :: digitsOf exponent.natAbs

end Decimal

namespace Finite

/-- The sign in front of a written number. -/
def signText (x : Finite) : List Char :=
  if x.negative then ['-'] else []

/-- The form of a number in a document. -/
def documentText (x : Finite) : List Char :=
  let d := x.shortest .even
  let exponent := d.leadingExponent
  x.signText ++
    if -5 ≤ exponent ∧ exponent ≤ 15 then d.positional ['.', '0'] else d.scientific

/-- The form of a number inside a message. -/
def plainText (x : Finite) : List Char :=
  x.signText ++ (x.shortest .up).positional []

end Finite

namespace Binary64

/-- The text of a double given the form of finite numbers. -/
def textWith (finiteText : Finite → List Char) : Binary64 → String
  | .finite value => String.ofList (finiteText value)
  | .infinite negative => if negative then "-inf" else "inf"
  | .nan _ => "NaN"

/-- The form of a double inside a message. -/
def plainText (x : Binary64) : String :=
  x.textWith Finite.plainText

/-- The form of a double where an infinity or a NaN must be shown as well. -/
def documentText (x : Binary64) : String :=
  x.textWith Finite.documentText

end Binary64

end SearchWire
