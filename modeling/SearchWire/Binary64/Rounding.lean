import SearchWire.Binary64.Basic

/-!
# Rounding and arithmetic

Every operation computes the exact rational result and rounds it once with
`Binary64.ofRatio`, to the nearest double and to the even rank when two are
equally near. Multiplication, division and subtraction are stated on finite
operands, where the exact result is a ratio of natural numbers.
-/

namespace SearchWire

/-- The rank nearest to the magnitude `numerator / denominator`, ties to the even rank. It is
`rankLimit` or more when the magnitude rounds past the largest finite one. -/
def nearestRank (numerator denominator : Nat) : Nat :=
  let scaled := numerator * 2 ^ 1074
  let whole := scaled / denominator
  let shift := if whole < 2 ^ 53 then 0 else Nat.log2 whole - 52
  let spacing := denominator * 2 ^ shift
  let significand := scaled / spacing
  let remainder := scaled % spacing
  let roundsUp := spacing < 2 * remainder ∨ (spacing = 2 * remainder ∧ significand % 2 = 1)
  shift * 2 ^ 52 + significand + (if roundsUp then 1 else 0)

namespace Binary64

/-- The finite double of a rank, or infinity past the last rank. -/
def ofRank (negative : Bool) (rank : Nat) : Binary64 :=
  if h : rank < rankLimit then .finite ⟨negative, ⟨rank, h⟩⟩ else .infinite negative

/-- The double nearest to `± numerator / denominator`, for a positive denominator. -/
def ofRatio (negative : Bool) (numerator denominator : Nat) : Binary64 :=
  ofRank negative (nearestRank numerator denominator)

/-- The double nearest to a natural number. -/
def ofNat (n : Nat) : Binary64 :=
  ofRatio false n 1

/-- The double nearest to an integer. -/
def ofInt (n : Int) : Binary64 :=
  ofRatio (n < 0) n.natAbs 1

/-- The same magnitude with the other sign. -/
def neg : Binary64 → Binary64
  | .finite value => .finite value.neg
  | .infinite negative => .infinite (!negative)
  | .nan negative => .nan (!negative)

/-- The same magnitude with a positive sign. -/
def abs (x : Binary64) : Binary64 :=
  if x.isNegative then x.neg else x

/-- The rounded difference of two doubles. -/
def sub : Binary64 → Binary64 → Binary64
  | .finite x, .finite y =>
      let difference := x.signedUnits - y.signedUnits
      if difference = 0 then .finite (Finite.zero (x.negative && !y.negative))
      else ofRatio (difference < 0) difference.natAbs (2 ^ 1074)
  | .finite _, .infinite negative => .infinite (!negative)
  | .infinite negative, .finite _ => .infinite negative
  | .infinite left, .infinite right => if left = right then .nan false else .infinite left
  | .nan negative, _ => .nan negative
  | _, .nan negative => .nan negative

end Binary64

namespace Finite

/-- The rounded product of two finite doubles. -/
def mul (x y : Finite) : Binary64 :=
  .ofRatio (x.negative != y.negative) (x.units * y.units) (2 ^ 1074 * 2 ^ 1074)

/-- The rounded quotient of two finite doubles, for a divisor that is not zero. -/
def div (x y : Finite) : Binary64 :=
  .ofRatio (x.negative != y.negative) x.units y.units

end Finite

end SearchWire
