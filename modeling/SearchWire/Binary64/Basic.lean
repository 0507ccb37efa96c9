/-!
# Double-precision numbers

A finite double is a sign and a rank: the position of its magnitude among all
finite magnitudes, counted from zero. The rank is the bit pattern without its
sign, so a larger rank is a larger magnitude, and `Finite.units` gives the exact
magnitude as a multiple of the smallest positive double. Comparisons are
comparisons of ranks; `Binary64.lt` is the numeric order and `totalKey` the
order that also places the two zeros and the two kinds of NaN.
-/

-- The exponents below are naturals and their powers core's own, whichever
-- algebraic structures a later module knows.
attribute [instance (high), default_instance 20000] instPowNat

namespace SearchWire

/-- The number of finite magnitudes: 2047 binades of `2 ^ 52` magnitudes each. -/
def rankLimit : Nat := 2047 * 2 ^ 52

/-- A finite double-precision number. -/
structure Finite where
  negative : Bool
  rank : Fin rankLimit
deriving DecidableEq

/-- A double-precision number. -/
inductive Binary64 where
  | finite (value : Finite)
  | infinite (negative : Bool)
  | nan (negative : Bool)
deriving DecidableEq

namespace Finite

/-- The finite double with the given sign and magnitude zero. -/
def zero (negative : Bool) : Finite :=
  ⟨negative, ⟨0, by decide⟩⟩

/-- The same magnitude with the other sign. -/
def neg (x : Finite) : Finite :=
  { x with negative := !x.negative }

/-- Both zeros have rank zero. -/
def isZero (x : Finite) : Bool :=
  x.rank.val == 0

/-- The exact magnitude of a rank in units of `2 ^ (-1074)`. Ranks below `2 ^ 52` are the
subnormal magnitudes; every later binade doubles the spacing. -/
def unitsOfRank (rank : Nat) : Nat :=
  if rank < 2 ^ 52 then rank else (2 ^ 52 + rank % 2 ^ 52) * 2 ^ (rank / 2 ^ 52 - 1)

/-- The exact magnitude in units of `2 ^ (-1074)`. -/
def units (x : Finite) : Nat :=
  unitsOfRank x.rank.val

/-- The rank with its sign; the two zeros coincide. -/
def signedRank (x : Finite) : Int :=
  if x.negative then -(x.rank.val : Int) else x.rank.val

/-- The exact value in units of `2 ^ (-1074)`. -/
def signedUnits (x : Finite) : Int :=
  if x.negative then -(x.units : Int) else x.units

end Finite

namespace Binary64

/-- Neither infinite nor a NaN. -/
def isFinite : Binary64 → Bool
  | .finite _ => true
  | .infinite _ | .nan _ => false

/-- The position on the extended number line, where a NaN has none. -/
def position? : Binary64 → Option Int
  | .finite value => some value.signedRank
  | .infinite negative => some (if negative then -(rankLimit : Int) else rankLimit)
  | .nan _ => none

/-- The numeric order, in which a NaN is below nothing and above nothing. -/
def lt (x y : Binary64) : Bool :=
  match x.position?, y.position? with
  | some left, some right => left < right
  | _, _ => false

/-- The numeric order with equality. -/
def le (x y : Binary64) : Bool :=
  match x.position?, y.position? with
  | some left, some right => left ≤ right
  | _, _ => false

/-- The rank of the magnitude among all magnitudes, infinity and NaN included. -/
def magnitudeRank : Binary64 → Nat
  | .finite value => value.rank.val
  | .infinite _ => rankLimit
  | .nan _ => rankLimit + 1

/-- The sign, which every double has. -/
def isNegative : Binary64 → Bool
  | .finite value => value.negative
  | .infinite negative | .nan negative => negative

/-- The key of the total order: negative NaN, negative infinity, the negative numbers, `-0`,
`0`, the positive numbers, infinity, NaN. -/
def totalKey (x : Binary64) : Int :=
  if x.isNegative then -(x.magnitudeRank : Int) - 1 else x.magnitudeRank

end Binary64

end SearchWire
