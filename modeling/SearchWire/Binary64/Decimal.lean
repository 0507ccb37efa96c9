import SearchWire.Binary64.Rounding

/-!
# The shortest decimal of a double

`Finite.shortest` selects, among the decimals that round to a given double, one
with the fewest digits and among those the nearest. The search runs over the
grids of one, two, … seventeen digits in exact natural arithmetic and tests the
two neighbours of the value on each grid. `Tie` says which of two equally near
neighbours is taken, since the written formats differ in that point.
-/

namespace SearchWire

/-- The non-negative decimal `digits * 10 ^ exponent`. -/
structure Decimal where
  digits : Nat
  exponent : Int
deriving DecidableEq

/-- Which of two equally near decimals is taken. -/
inductive Tie where
  | even
  | up
deriving DecidableEq

namespace Decimal

/-- The decimal digits of a natural number, most significant first. -/
def digitsOf (n : Nat) : List Char :=
  Nat.toDigits 10 n

/-- The exponent of the leading digit. -/
def leadingExponent (d : Decimal) : Int :=
  d.exponent + ((digitsOf d.digits).length : Int) - 1

/-- Moves the trailing zeros of the digits into the exponent; `fuel` bounds their number. -/
def stripZeros (d : Decimal) : Nat → Decimal
  | 0 => d
  | fuel + 1 =>
      if d.digits ≠ 0 ∧ d.digits % 10 = 0 then
        stripZeros ⟨d.digits / 10, d.exponent + 1⟩ fuel
      else d

end Decimal

namespace Finite

/-- The exponent of the leading decimal digit of a positive magnitude: the magnitude is scaled by
`10 ^ 400`, past the last digit before the point of the smallest double. -/
def leadingExponent (x : Finite) : Int :=
  ((Decimal.digitsOf (x.units * 10 ^ 400 / 2 ^ 1074)).length : Int) - 401

/-- Whether a decimal on the grid `10 ^ exponent` rounds to this magnitude. The reals that do lie
between the midpoints to the two neighbouring magnitudes; the midpoints belong to the even rank. -/
def reads (x : Finite) (d : Decimal) : Bool :=
  let units := x.units
  let below := units + unitsOfRank (x.rank.val - 1)
  let above := units + unitsOfRank (x.rank.val + 1)
  let value := 2 * d.digits * 10 ^ d.exponent.toNat * 2 ^ 1074
  let scale := 10 ^ (-d.exponent).toNat
  if x.rank.val % 2 = 0 then below * scale ≤ value ∧ value ≤ above * scale
  else below * scale < value ∧ value < above * scale

/-- The neighbour of the magnitude on the grid `10 ^ exponent` that rounds to it, and the nearer
one when both do. -/
def onGrid (x : Finite) (tie : Tie) (exponent : Int) : Option Decimal :=
  let numerator := x.units * 10 ^ (-exponent).toNat
  let denominator := 2 ^ 1074 * 10 ^ exponent.toNat
  let low := numerator / denominator
  let lower : Decimal := ⟨low, exponent⟩
  let upper : Decimal := ⟨low + 1, exponent⟩
  match x.reads lower && low != 0, x.reads upper with
  | true, true =>
      let doubled := 2 * (numerator % denominator)
      if doubled < denominator then some lower
      else if denominator < doubled then some upper
      else match tie with
        | .even => some (if low % 2 = 0 then lower else upper)
        | .up => some upper
  | true, false => some lower
  | false, true => some upper
  | false, false => none

/-- The magnitude written with all its digits. -/
def exactDecimal (x : Finite) : Decimal :=
  ⟨x.units * 5 ^ 1074, -1074⟩

/-- The shortest decimal that rounds to this magnitude. Zero has the single digit `0`. -/
def shortest (x : Finite) (tie : Tie) : Decimal :=
  if x.isZero then ⟨0, 0⟩
  else
    let leading := x.leadingExponent
    let grids := (List.range 17).map fun (count : Nat) => leading - (count : Int)
    ((grids.findSome? (x.onGrid tie)).getD x.exactDecimal).stripZeros 800

end Finite

end SearchWire
