import Mathlib.Order.Monotone.Basic
import SearchWire.Aggregation.Findings

/-!
# The order of doubles and their exact values

Doubles are compared by their ranks. `Finite.signedRank_le_iff` and
`Finite.signedRank_lt_iff` say that this is the order of the exact values, which
`Finite.signedUnits` gives in units of the smallest positive double, so a test
made on ranks can be read as a test on numbers.
-/

namespace SearchWire

namespace Finite

/-- Past the subnormal magnitudes, a rank is a binade and a place in it. -/
theorem units_of_binade (binade place : Nat) (hplace : place < 2 ^ 52) :
    unitsOfRank ((binade + 1) * 2 ^ 52 + place) = (2 ^ 52 + place) * 2 ^ binade := by
  have hlarge : ¬ (binade + 1) * 2 ^ 52 + place < 2 ^ 52 := by omega
  have hquotient : ((binade + 1) * 2 ^ 52 + place) / 2 ^ 52 = binade + 1 := by omega
  have hremainder : ((binade + 1) * 2 ^ 52 + place) % 2 ^ 52 = place := by omega
  simp only [unitsOfRank, hlarge, hquotient, hremainder, if_false, Nat.add_sub_cancel]

/-- The next rank has a larger magnitude. -/
theorem units_lt_next (rank : Nat) : unitsOfRank rank < unitsOfRank (rank + 1) := by
  by_cases hsmall : rank < 2 ^ 52
  · by_cases hnext : rank + 1 < 2 ^ 52
    · simp only [unitsOfRank, hsmall, hnext, if_true, Nat.lt_succ_self]
    · have hrank : rank + 1 = (0 + 1) * 2 ^ 52 + 0 := by omega
      have hunits : unitsOfRank rank = rank := by simp only [unitsOfRank, hsmall, if_true]
      rw [hrank, units_of_binade 0 0 (by omega), hunits]
      omega
  · obtain ⟨binade, place, hplace, rfl⟩ :
        ∃ binade place, place < 2 ^ 52 ∧ rank = (binade + 1) * 2 ^ 52 + place :=
      ⟨rank / 2 ^ 52 - 1, rank % 2 ^ 52, by omega, by omega⟩
    rw [units_of_binade binade place hplace]
    by_cases hlast : place + 1 < 2 ^ 52
    · rw [Nat.add_assoc, units_of_binade binade (place + 1) hlast]
      exact Nat.mul_lt_mul_of_pos_right (by omega) (Nat.two_pow_pos binade)
    -- the last place of a binade is followed by the first place of the next
    · have hrank : (binade + 1) * 2 ^ 52 + place + 1 = (binade + 1 + 1) * 2 ^ 52 + 0 := by omega
      rw [hrank, units_of_binade (binade + 1) 0 (by omega), Nat.pow_succ]
      have hpos := Nat.two_pow_pos binade
      calc (2 ^ 52 + place) * 2 ^ binade
          < 2 ^ 53 * 2 ^ binade := Nat.mul_lt_mul_of_pos_right (by omega) hpos
        _ = (2 ^ 52 + 0) * (2 ^ binade * 2) := by omega

/-- A larger rank is a larger magnitude. -/
theorem units_strictMono : StrictMono unitsOfRank :=
  strictMono_nat_of_lt_succ units_lt_next

/-- The order of signed ranks is the order of the exact values. -/
theorem signedRank_le_iff {x y : Finite} :
    x.signedRank ≤ y.signedRank ↔ x.signedUnits ≤ y.signedUnits := by
  have hle := units_strictMono.le_iff_le (a := x.rank.val) (b := y.rank.val)
  have hge := units_strictMono.le_iff_le (a := y.rank.val) (b := x.rank.val)
  have hx := units_strictMono.le_iff_le (a := x.rank.val) (b := 0)
  have hy := units_strictMono.le_iff_le (a := y.rank.val) (b := 0)
  have hzero : unitsOfRank 0 = 0 := rfl
  rw [hzero] at hx hy
  simp only [signedRank, signedUnits, units]
  split <;> split <;> omega

/-- The strict order of signed ranks is the strict order of the exact values. -/
theorem signedRank_lt_iff {x y : Finite} :
    x.signedRank < y.signedRank ↔ x.signedUnits < y.signedUnits := by
  rw [← Int.not_le, ← Int.not_le, signedRank_le_iff]

end Finite

namespace Binary64

/-- The key of a double determines its sign and the rank of its magnitude. -/
theorem eq_of_totalKey_eq {x y : Binary64} (h : x.totalKey = y.totalKey) :
    x.isNegative = y.isNegative ∧ x.magnitudeRank = y.magnitudeRank := by
  unfold totalKey at h
  split at h
  · next hx =>
      split at h
      · next hy => exact ⟨hx.trans hy.symm, by omega⟩
      · omega
  · next hx =>
      split at h
      · omega
      · next hy =>
          exact ⟨(Bool.eq_false_iff.2 hx).trans (Bool.eq_false_iff.2 hy).symm, by omega⟩

/-- The total order tells all doubles apart. -/
theorem totalKey_injective {x y : Binary64} (h : x.totalKey = y.totalKey) : x = y := by
  obtain ⟨hsign, hrank⟩ := eq_of_totalKey_eq h
  -- infinity and NaN have ranks of their own, behind those of all finite doubles
  cases x with
  | finite x =>
      have hx := x.rank.isLt
      cases y with
      | finite y =>
          obtain ⟨negative, rank⟩ := x
          obtain ⟨other, place⟩ := y
          obtain rfl : negative = other := hsign
          obtain rfl : rank = place := Fin.ext hrank
          rfl
      | infinite | nan =>
          simp only [magnitudeRank] at hrank
          omega
  | infinite negative =>
      cases y with
      | finite y =>
          have hy := y.rank.isLt
          simp only [magnitudeRank] at hrank
          omega
      | infinite other => exact congrArg infinite hsign
      | nan =>
          simp only [magnitudeRank] at hrank
          omega
  | nan negative =>
      cases y with
      | finite y =>
          have hy := y.rank.isLt
          simp only [magnitudeRank] at hrank
          omega
      | infinite =>
          simp only [magnitudeRank] at hrank
          omega
      | nan other => exact congrArg nan hsign

end Binary64

/-- One hundred as a double. -/
def hundred : Finite :=
  ⟨false, ⟨4636737291354636288, by decide⟩⟩

/-- A percent is a number from zero to a hundred, both included. -/
theorem isPercent_iff {percent : Binary64} :
    isPercent percent = true ↔
      ∃ value : Finite, percent = .finite value ∧
        0 ≤ value.signedUnits ∧ value.signedUnits ≤ 100 * 2 ^ 1074 := by
  have hlow : Binary64.ofNat 0 = .finite (Finite.zero false) := by decide +kernel
  have hhigh : Binary64.ofNat 100 = .finite hundred := by decide +kernel
  have hzero : (Finite.zero false).signedUnits = 0 := by decide
  have hhundred : hundred.signedUnits = 100 * 2 ^ 1074 := by decide +kernel
  cases percent with
  | finite value =>
      simp only [isPercent, Binary64.le, Binary64.position?, hlow, hhigh, Bool.and_eq_true,
        decide_eq_true_eq, Finite.signedRank_le_iff, hzero, hhundred, Binary64.finite.injEq,
        exists_eq_left']
  | infinite negative =>
      have hnot : isPercent (.infinite negative) = false := by
        cases negative <;> decide +kernel
      simp only [hnot, Bool.false_eq_true, reduceCtorEq, false_and, exists_false]
  | nan negative =>
      have hnot : isPercent (.nan negative) = false := by
        simp only [isPercent, Binary64.le, Binary64.position?, hlow, Bool.false_and]
      simp only [hnot, Bool.false_eq_true, reduceCtorEq, false_and, exists_false]

end SearchWire
