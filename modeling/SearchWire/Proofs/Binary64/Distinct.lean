import Mathlib.Algebra.Order.Field.Rat
import Mathlib.Algebra.Order.Field.Power
import Mathlib.Tactic.FieldSimp
import Mathlib.Tactic.Linarith
import Mathlib.Tactic.Ring
import SearchWire.Proofs.Binary64.Order
import SearchWire.Proofs.Json.Integers
import SearchWire.Proofs.Json.Token
import SearchWire.Proofs.Json.WrittenNumber

/-!
# The number that a written number stands for

`Finite.Rounds` says which exact values a magnitude stands for: those between
the midpoints to its neighbours, so each value stands for one rank at most. The
shortest decimal of a double is such a value of it, and the written form of a
double has the value of this decimal. `Numeral.StandsFor` says which number a
written number stands for: `Numeral.StandsFor.unique` that there is at most one,
and `Number.numeral_standsFor` that it is the number that was written.
-/

namespace SearchWire

/-! ## Values of decimals -/

/-- The exact value of a decimal. -/
def Decimal.value (d : Decimal) : ℚ :=
  d.digits * 10 ^ d.exponent

/-- The exact value in units of `2 ^ (-1074)`. -/
def Decimal.units (d : Decimal) : ℚ :=
  d.value * (2 ^ 1074 : Nat)

theorem ten_zpow_mul (exponent : Int) :
    (10 : ℚ) ^ exponent * 10 ^ (-exponent).toNat = 10 ^ exponent.toNat := by
  rw [← zpow_natCast, ← zpow_natCast, ← zpow_add₀ (by norm_num)]
  congr 1
  omega

theorem Decimal.value_stripZeros (d : Decimal) (fuel : Nat) :
    (d.stripZeros fuel).value = d.value := by
  induction fuel generalizing d with
  | zero => rfl
  | succ fuel ih =>
      unfold stripZeros
      split
      · next hzero =>
          obtain ⟨tens, htens⟩ : ∃ tens, d.digits = 10 * tens := ⟨d.digits / 10, by omega⟩
          rw [ih, value, value, htens, Nat.mul_div_cancel_left _ (by decide),
            zpow_add_one₀ (by norm_num)]
          push_cast
          ring
      · rfl

/-! ## Values that a magnitude stands for -/

namespace Finite

/-- A value, in units of the smallest double, rounds to a rank: it lies between the midpoints to the
neighbouring magnitudes, and on one of them only if the rank is even. -/
def Rounds (rank : Nat) (units : ℚ) : Prop :=
  if rank % 2 = 0 then
    (unitsOfRank rank + unitsOfRank (rank - 1) : ℚ) ≤ 2 * units ∧
      2 * units ≤ (unitsOfRank rank + unitsOfRank (rank + 1) : ℚ)
  else
    (unitsOfRank rank + unitsOfRank (rank - 1) : ℚ) < 2 * units ∧
      2 * units < (unitsOfRank rank + unitsOfRank (rank + 1) : ℚ)

theorem Rounds.le {rank : Nat} {units : ℚ} (h : Rounds rank units) :
    (unitsOfRank rank + unitsOfRank (rank - 1) : ℚ) ≤ 2 * units ∧
      2 * units ≤ (unitsOfRank rank + unitsOfRank (rank + 1) : ℚ) := by
  unfold Rounds at h
  split at h
  · exact h
  · exact ⟨h.1.le, h.2.le⟩

/-- A value does not round to a rank and to a larger one. -/
theorem Rounds.not_lt {first second : Nat} {units : ℚ} (hfirst : Rounds first units)
    (hsecond : Rounds second units) : ¬ first < second := by
  intro hless
  rcases Nat.lt_or_eq_of_le (Nat.succ_le_of_lt hless) with hapart | rfl
  · have hupper := hfirst.le.2
    have hlower := hsecond.le.1
    have habove : (unitsOfRank (first + 1) : ℚ) < unitsOfRank second := by
      exact_mod_cast units_strictMono hapart
    have hbelow : (unitsOfRank first : ℚ) ≤ unitsOfRank (second - 1) := by
      exact_mod_cast units_strictMono.monotone (by omega)
    linarith
  · -- of two neighbours only the even one has the midpoint between them
    unfold Rounds at hfirst hsecond
    rw [Nat.succ_sub_one] at hsecond
    split at hfirst
    · rw [if_neg (by omega)] at hsecond
      linarith [hfirst.2, hsecond.1]
    · rw [if_pos (by omega)] at hsecond
      linarith [hfirst.2, hsecond.1]

/-- A value rounds to one rank. -/
theorem Rounds.unique {first second : Nat} {units : ℚ} (hfirst : Rounds first units)
    (hsecond : Rounds second units) : first = second :=
  Nat.le_antisymm (Nat.le_of_not_lt (hsecond.not_lt hfirst))
    (Nat.le_of_not_lt (hfirst.not_lt hsecond))

/-- A magnitude rounds to its own rank. -/
theorem rounds_units (rank : Nat) : Rounds rank (unitsOfRank rank) := by
  have habove : (unitsOfRank rank : ℚ) < unitsOfRank (rank + 1) := by
    exact_mod_cast units_lt_next rank
  unfold Rounds
  split
  · have hbelow : (unitsOfRank (rank - 1) : ℚ) ≤ unitsOfRank rank := by
      exact_mod_cast units_strictMono.monotone (by omega)
    constructor <;> linarith
  · have hbelow : (unitsOfRank (rank - 1) : ℚ) < unitsOfRank rank := by
      exact_mod_cast units_strictMono (by omega)
    constructor <;> linarith

/-- A decimal reads as a magnitude when its value rounds to the rank. -/
theorem reads_iff (x : Finite) (d : Decimal) :
    x.reads d = true ↔ Rounds x.rank.val d.units := by
  have hscale : (0 : ℚ) < 10 ^ (-d.exponent).toNat := by positivity
  have hvalue (unit : Nat) : ((2 * d.digits * 10 ^ d.exponent.toNat * unit : Nat) : ℚ) =
      2 * (d.value * unit) * 10 ^ (-d.exponent).toNat := by
    rw [Decimal.value]
    push_cast
    rw [← ten_zpow_mul]
    ring
  have hlow (bound unit : Nat) :
      bound * 10 ^ (-d.exponent).toNat ≤ 2 * d.digits * 10 ^ d.exponent.toNat * unit ↔
        (bound : ℚ) ≤ 2 * (d.value * unit) := by
    rw [← Nat.cast_le (α := ℚ), hvalue]
    push_cast
    exact mul_le_mul_iff_of_pos_right hscale
  have hhigh (bound unit : Nat) :
      2 * d.digits * 10 ^ d.exponent.toNat * unit ≤ bound * 10 ^ (-d.exponent).toNat ↔
        2 * (d.value * unit) ≤ (bound : ℚ) := by
    rw [← Nat.cast_le (α := ℚ), hvalue]
    push_cast
    exact mul_le_mul_iff_of_pos_right hscale
  have hlow' := fun bound unit => not_congr (hhigh bound unit)
  have hhigh' := fun bound unit => not_congr (hlow bound unit)
  simp only [not_le] at hlow' hhigh'
  unfold reads Rounds Decimal.units units
  split
  · simp only [decide_eq_true_eq, hlow, hhigh, Nat.cast_add]
  · simp only [decide_eq_true_eq, hlow', hhigh', Nat.cast_add]

/-- A decimal taken from a grid reads as the magnitude. -/
theorem reads_of_onGrid {x : Finite} {tie : Tie} {exponent : Int} {d : Decimal}
    (h : x.onGrid tie exponent = some d) : x.reads d = true := by
  unfold onGrid at h
  extract_lets numerator denominator low lower upper at h
  clear_value lower upper
  split at h
  · next hlower hupper =>
      have hlower' := (Bool.and_eq_true_iff.1 hlower).1
      repeat' split at h
      all_goals cases h
      all_goals first | with_reducible exact hlower' | with_reducible exact hupper
  · next hlower _ =>
      cases h
      exact (Bool.and_eq_true_iff.1 hlower).1
  · next _ hupper =>
      cases h
      exact hupper
  · cases h

/-- Five and two to a power make up for ten to the opposite power. -/
theorem five_pow_mul (n : Nat) : (5 : ℚ) ^ n * 10 ^ (-(n : Int)) * 2 ^ n = 1 := by
  rw [zpow_neg, zpow_natCast, show (10 : ℚ) = 5 * 2 by norm_num, mul_pow]
  field_simp

theorem units_exactDecimal (x : Finite) : x.exactDecimal.units = x.units := by
  have hunits (n : Nat) :
      ((x.units * 5 ^ n : Nat) : ℚ) * 10 ^ (-(n : Int)) * (2 ^ n : Nat) = x.units := by
    have hpower := congrArg ((x.units : ℚ) * ·) (five_pow_mul n)
    push_cast
    linarith
  exact hunits 1074

/-- The shortest decimal of a double rounds to its rank. -/
theorem rounds_shortest (x : Finite) (tie : Tie) : Rounds x.rank.val (x.shortest tie).units := by
  unfold shortest
  split
  · next hzero =>
      have hrank : x.rank.val = 0 := by simpa [isZero] using hzero
      have hunits : (⟨0, 0⟩ : Decimal).units = unitsOfRank 0 := by
        rw [Decimal.units, Decimal.value, Nat.cast_zero, zero_mul, zero_mul]
        exact Nat.cast_zero.symm
      rw [hrank, hunits]
      exact rounds_units 0
  · rw [Decimal.units, Decimal.value_stripZeros, ← Decimal.units]
    cases hfound : ((List.range 17).map fun (count : Nat) =>
        x.leadingExponent - (count : Int)).findSome? (x.onGrid tie) with
    | none =>
        rw [Option.getD_none, units_exactDecimal]
        exact rounds_units x.rank.val
    | some d =>
        obtain ⟨exponent, -, hgrid⟩ := List.exists_of_findSome?_eq_some hfound
        exact (reads_iff x d).1 (reads_of_onGrid hgrid)

end Finite

/-! ## The value of a written number -/

namespace Numeral

/-- The exact value of a written number, without its sign. -/
def magnitude (numeral : Numeral) : ℚ :=
  let fraction := numeral.fraction.getD []
  Nat.ofDigitChars 10 (numeral.whole ++ fraction) 0 *
    10 ^ ((numeral.exponent.map power).getD 0 - fraction.length)

end Numeral

namespace Decimal

theorem ofDigitChars_digitsOf (n : Nat) : Nat.ofDigitChars 10 (digitsOf n) 0 = n :=
  Nat.ofDigitChars_ten_toDigits

/-- Zeros in front of digits count for nothing. -/
theorem ofDigitChars_zeros_append (count : Nat) (digits : List Char) :
    Nat.ofDigitChars 10 (List.replicate count '0' ++ digits) 0 = Nat.ofDigitChars 10 digits 0 := by
  rw [Nat.ofDigitChars_append, Nat.ofDigitChars_replicate_zero, Nat.mul_zero]

/-- The value of a number with a fraction and no exponent. -/
theorem magnitude_fraction (negative : Bool) {whole fraction : List Char} {digits : Nat}
    (h : Nat.ofDigitChars 10 (whole ++ fraction) 0 = digits) :
    (⟨negative, whole, some fraction, none⟩ : Numeral).magnitude =
      digits * 10 ^ (-(fraction.length : Int)) := by
  simp only [Numeral.magnitude, Option.getD_some, Option.map_none, Option.getD_none, h, zero_sub]

theorem magnitude_positionalNumeral (negative : Bool) (d : Decimal) :
    (d.positionalNumeral negative).magnitude = d.value := by
  have hdigits := ofDigitChars_digitsOf d.digits
  unfold positionalNumeral
  by_cases hexponent : 0 ≤ d.exponent
  · -- the fraction is the single zero of an integral number
    obtain ⟨zeros, hzeros⟩ := Int.eq_ofNat_of_zero_le hexponent
    have hwhole : d.wholePart = digitsOf d.digits ++ List.replicate zeros '0' := by
      rw [wholePart, if_pos hexponent, hzeros, Int.toNat_natCast]
    have hfraction : d.fractionPart = [] := by rw [fractionPart, if_pos hexponent]
    have hall : Nat.ofDigitChars 10 (d.wholePart ++ ['0']) 0 = 10 * (10 ^ zeros * d.digits) := by
      rw [hwhole, Nat.ofDigitChars_append, Nat.ofDigitChars_append, hdigits,
        Nat.ofDigitChars_replicate_zero]
      rfl
    rw [hfraction, List.isEmpty_nil, if_pos rfl, magnitude_fraction negative hall, value, hzeros,
      zpow_natCast, List.length_singleton, Nat.cast_one, zpow_neg_one]
    push_cast
    ring
  · obtain ⟨places, hplaces⟩ : ∃ places : Nat, d.exponent = -(places : Int) :=
      ⟨(-d.exponent).toNat, by omega⟩
    have hparts : Nat.ofDigitChars 10 (d.wholePart ++ d.fractionPart) 0 = d.digits ∧
        d.fractionPart.length = places := by
      have htoNat : (-d.exponent).toNat = places := by omega
      simp only [wholePart, fractionPart, if_neg hexponent, htoNat]
      split
      · refine ⟨by rw [List.take_append_drop, hdigits], ?_⟩
        rw [List.length_drop]
        omega
      · refine ⟨?_, ?_⟩
        · rw [List.singleton_append, ← List.cons_append, ← List.replicate_succ,
            ofDigitChars_zeros_append, hdigits]
        · rw [List.length_append, List.length_replicate]
          omega
    have hfraction : d.fractionPart.isEmpty = false := by
      rw [List.isEmpty_eq_false_iff, ← List.length_pos_iff, hparts.2]
      omega
    rw [hfraction, if_neg Bool.false_ne_true, magnitude_fraction negative hparts.1, hparts.2, value,
      hplaces]

theorem power_writtenExponent (d : Decimal) :
    Numeral.power d.writtenExponent = d.leadingExponent := by
  have hdigits := ofDigitChars_digitsOf d.leadingExponent.natAbs
  simp only [Numeral.power, writtenExponent, hdigits]
  by_cases hnegative : d.leadingExponent < 0
  · rw [if_pos (by rw [if_pos hnegative])]
    omega
  · rw [if_neg (by rw [if_neg hnegative]; decide)]
    omega

theorem magnitude_scientificNumeral (negative : Bool) (d : Decimal) :
    (d.scientificNumeral negative).magnitude = d.value := by
  have hdigits := ofDigitChars_digitsOf d.digits
  have hexponent : d.leadingExponent = d.exponent + (digitsOf d.digits).length - 1 := rfl
  unfold scientificNumeral
  split
  · next hnil => exact absurd hnil (digits_digitsOf d.digits).1
  · next digit hone =>
      rw [hone] at hdigits hexponent
      simp only [Numeral.magnitude, Option.getD_none, List.append_nil, hdigits, Option.map_some,
        Option.getD_some, power_writtenExponent, hexponent, value, List.length_singleton,
        List.length_nil]
      congr 2
      push_cast
      ring
  · next digit rest _ hmore =>
      rw [hmore] at hdigits hexponent
      simp only [Numeral.magnitude, Option.getD_some, List.singleton_append, hdigits,
        Option.map_some, power_writtenExponent, hexponent, value, List.length_cons]
      congr 2
      push_cast
      ring

end Decimal

namespace Finite

theorem numeral_magnitude (x : Finite) : x.numeral.magnitude = (x.shortest .even).value := by
  unfold numeral
  dsimp only
  split
  · exact Decimal.magnitude_positionalNumeral _ _
  · exact Decimal.magnitude_scientificNumeral _ _

theorem numeral_negative (x : Finite) : x.numeral.negative = x.negative := by
  unfold numeral
  dsimp only
  split
  · rfl
  · unfold Decimal.scientificNumeral
    split <;> rfl

/-- The written form of a double rounds to it. -/
theorem rounds_numeral (x : Finite) :
    Rounds x.rank.val (x.numeral.magnitude * (2 ^ 1074 : Nat)) := by
  rw [numeral_magnitude]
  exact rounds_shortest x .even

/-- A double is written with a fraction or an exponent. -/
theorem numeral_divided (x : Finite) : x.numeral.fraction ≠ none ∨ x.numeral.exponent ≠ none := by
  unfold numeral
  dsimp only
  split
  · exact .inl (Option.some_ne_none _)
  · unfold Decimal.scientificNumeral
    split <;> exact .inr (Option.some_ne_none _)

end Finite

/-- A written number stands for a number: for the integer that it is, and with a fraction or an
exponent for the double of its sign to which its value rounds. -/
def Numeral.StandsFor (numeral : Numeral) : Number → Prop
  | .int value => numeral.IsInteger value
  | .float value =>
      (numeral.fraction ≠ none ∨ numeral.exponent ≠ none) ∧ numeral.negative = value.negative ∧
        Finite.Rounds value.rank.val (numeral.magnitude * (2 ^ 1074 : Nat))

/-- A written number stands for one number at most. -/
theorem Numeral.StandsFor.unique {numeral : Numeral} {first second : Number}
    (hfirst : numeral.StandsFor first) (hsecond : numeral.StandsFor second) : first = second := by
  cases first with
  | int value =>
      obtain ⟨hfraction, hexponent, hvalue⟩ := hfirst
      cases second with
      | int other => rw [hvalue.1, hsecond.2.2.1]
      | float other => exact absurd hsecond.1 (by simp [hfraction, hexponent])
  | float value =>
      obtain ⟨hdivided, hnegative, hrounds⟩ := hfirst
      cases second with
      | int other => exact absurd hdivided (by simp [hsecond.1, hsecond.2.1])
      | float other =>
          obtain ⟨-, hother, hrounds'⟩ := hsecond
          have hrank : value.rank = other.rank := Fin.ext (hrounds.unique hrounds')
          cases value
          cases other
          cases hnegative.symm.trans hother
          cases hrank
          rfl

/-- What is written of a number stands for it. -/
theorem Number.numeral_standsFor (number : Number) : number.numeral.StandsFor number := by
  cases number with
  | int value =>
      refine ⟨rfl, rfl, ?_, fun hnegative => ?_⟩
      · simp only [numeral, Decimal.ofDigitChars_digitsOf, decide_eq_true_eq]
        split <;> omega
      · exact (of_decide_eq_true hnegative).ne
  | float value => exact ⟨value.numeral_divided, value.numeral_negative, value.rounds_numeral⟩

end SearchWire
