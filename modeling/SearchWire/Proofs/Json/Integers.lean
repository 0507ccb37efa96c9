import SearchWire.Json.Decode
import SearchWire.Proofs.Json.Outcome

/-!
# What decodes as an integer

`Raw.IsInteger` says of a written value that it is an integer: digits, perhaps
behind a minus sign, with neither a point nor an exponent. A decoder of integers
takes exactly those within its bounds, with the value of their digits
(`Decode.intWithin_eq_ok_iff`), and an optional one takes `null` besides.
-/

namespace SearchWire

/-- A written number is an integer: digits alone, behind a minus sign when it is negative. -/
def Numeral.IsInteger (numeral : Numeral) (value : Int) : Prop :=
  numeral.fraction = none ∧ numeral.exponent = none ∧
    value = (if numeral.negative then -1 else 1) * (Nat.ofDigitChars 10 numeral.whole 0 : Int) ∧
    (numeral.negative = true → value ≠ 0)

/-- A written value is an integer. -/
def Raw.IsInteger (written : Raw) (value : Int) : Prop :=
  ∃ numeral : Numeral, written = .number numeral ∧ numeral.IsInteger value

/-- A written number reads as an integer when it is one and fits sixty-four bits, signed or not. -/
theorem Numeral.read_eq_int_iff {numeral : Numeral} {value : Int} :
    numeral.read = .ok (.int value) ↔
      numeral.IsInteger value ∧ -2 ^ 63 ≤ value ∧ value < 2 ^ 64 := by
  have hdouble : numeral.double?.map Number.float ≠ some (.int value) := by
    cases numeral.double? <;> simp
  have hread : numeral.read = .ok (.int value) ↔ numeral.number? = some (.int value) := by
    rw [read]
    cases numeral.number? <;> simp
  rw [hread, number?, IsInteger]
  generalize Nat.ofDigitChars 10 numeral.whole 0 = magnitude
  cases numeral.fraction with
  | some digits => simp [hdouble]
  | none =>
      cases numeral.exponent with
      | some power => simp [hdouble]
      | none =>
          cases numeral.negative with
          | true =>
              by_cases hfits : 0 < magnitude ∧ magnitude ≤ 2 ^ 63
              · simp only [if_pos hfits, if_true, Option.some.injEq, Number.int.injEq, true_and,
                  true_implies]
                omega
              · simp only [if_neg hfits, hdouble, if_true, true_and, true_implies, false_iff]
                omega
          | false =>
              by_cases hfits : magnitude < 2 ^ 64
              · simp only [if_pos hfits, Bool.false_eq_true, if_false, Option.some.injEq,
                  Number.int.injEq, true_and, false_implies, and_true]
                omega
              · simp only [if_neg hfits, hdouble, Bool.false_eq_true, if_false, true_and,
                  false_implies, and_true, false_iff]
                omega

/-- No value is taken over by a refusal. -/
theorem Raw.refuse_ne_ok {α : Type} (expected : String) (value : Raw) (found : α) :
    value.refuse expected ≠ .ok found := by
  cases value with
  | number numeral =>
      intro h
      obtain ⟨_, -, h⟩ := Outcome.bind_eq_ok_iff.1 h
      cases h
  | string quoted =>
      intro h
      obtain ⟨_, -, h⟩ := Outcome.bind_eq_ok_iff.1 h
      cases h
  | null | bool | array | object | cutNumber | broken => exact nofun

namespace Decode

/-- A decoder of integers takes the integers within its bounds. -/
theorem intWithin_eq_ok_iff {expected : String} {low high : Int} (hlow : -2 ^ 63 ≤ low)
    (hhigh : high < 2 ^ 64) {depth : Nat} {written : Raw} {value : Int} :
    intWithin expected low high depth written = .ok value ↔
      written.IsInteger value ∧ low ≤ value ∧ value ≤ high := by
  have hfrom {number : Number} : intFrom expected low high number = .ok value ↔
      number = .int value ∧ low ≤ value ∧ value ≤ high := by
    cases number with
    | int other =>
        rw [intFrom, Number.int.injEq]
        split
        · rw [Except.ok.injEq]
          exact ⟨by rintro rfl; exact ⟨rfl, ‹_›⟩, And.left⟩
        · exact ⟨nofun, by rintro ⟨rfl, hrange⟩; exact absurd hrange ‹_›⟩
    | float other => exact ⟨nofun, nofun⟩
  constructor
  · intro h
    rw [intWithin.eq_def] at h
    split at h
    · next numeral =>
        obtain ⟨number, hread, hnumber⟩ := Outcome.bind_eq_ok_iff.1 h
        obtain ⟨rfl, hrange⟩ := hfrom.1 hnumber
        exact ⟨⟨numeral, rfl, (Numeral.read_eq_int_iff.1 hread).1⟩, hrange⟩
    · exact absurd h (Raw.refuse_ne_ok _ _ _)
  · rintro ⟨⟨numeral, rfl, hinteger⟩, hrange⟩
    have hread := Numeral.read_eq_int_iff.2 ⟨hinteger, by omega, by omega⟩
    rw [intWithin, hread, Outcome.ok_bind, hfrom]
    exact ⟨rfl, hrange⟩

/-- A decoder of natural numbers takes the integers from zero up to its bound. -/
theorem toNat_intWithin_eq_ok_iff {expected : String} {bits : Nat} (hbits : bits ≤ 64) {depth : Nat}
    {written : Raw} {value : Nat} :
    Int.toNat <$> intWithin expected 0 (2 ^ bits - 1) depth written = .ok value ↔
      written.IsInteger value ∧ value < 2 ^ bits := by
  have hpower : 2 ^ bits ≤ 2 ^ 64 := Nat.pow_le_pow_right (by decide) hbits
  have hcast : ((2 ^ bits : Nat) : Int) = 2 ^ bits := by push_cast; rfl
  have hiff {found : Int} := @intWithin_eq_ok_iff expected 0 (2 ^ bits - 1) (by decide) (by omega)
    depth written found
  constructor
  · intro h
    obtain ⟨found, hfound, rfl⟩ := Outcome.map_eq_ok_iff.1 h
    obtain ⟨hinteger, hlow, hhigh⟩ := hiff.1 hfound
    rw [Int.toNat_of_nonneg hlow]
    exact ⟨hinteger, by omega⟩
  · rintro ⟨hinteger, hrange⟩
    rw [hiff.2 ⟨hinteger, by omega, by omega⟩, Outcome.ok_map, Int.toNat_natCast]

theorem nat16_eq_ok_iff {depth : Nat} {written : Raw} {value : Nat} :
    nat16 depth written = .ok value ↔ written.IsInteger value ∧ value < 2 ^ 16 :=
  toNat_intWithin_eq_ok_iff (by decide)

theorem nat64_eq_ok_iff {depth : Nat} {written : Raw} {value : Nat} :
    nat64 depth written = .ok value ↔ written.IsInteger value ∧ value < 2 ^ 64 :=
  toNat_intWithin_eq_ok_iff (by decide)

theorem int64_eq_ok_iff {depth : Nat} {written : Raw} {value : Int} :
    int64 depth written = .ok value ↔
      written.IsInteger value ∧ -2 ^ 63 ≤ value ∧ value < 2 ^ 63 := by
  rw [int64, intWithin_eq_ok_iff (by decide) (by decide), Int.le_sub_one_iff]

/-- An optional decoder takes `null` besides, as an absent value. -/
theorem optional_eq_ok_iff {α : Type} {inner : Decoder α} {depth : Nat}
    (hnull : ∀ value, inner depth .null ≠ .ok value) {written : Raw} {found : Option α} :
    optional inner depth written = .ok found ↔
      written = .null ∧ found = none ∨
        ∃ value, found = some value ∧ inner depth written = .ok value := by
  rw [optional.eq_def]
  split
  · simp [hnull, eq_comm]
  · next hother =>
      have hwritten : written ≠ .null := hother
      rw [Outcome.map_eq_ok_iff]
      simp [hwritten, eq_comm, and_comm]

theorem not_isInteger_null (value : Int) : ¬ Raw.null.IsInteger value :=
  nofun

theorem optional_nat16_eq_ok_iff {depth : Nat} {written : Raw} {found : Option Nat} :
    optional nat16 depth written = .ok found ↔
      written = .null ∧ found = none ∨
        ∃ value : Nat, found = some value ∧ written.IsInteger value ∧ value < 2 ^ 16 := by
  have hnull (value) : nat16 depth .null ≠ .ok value :=
    fun h => not_isInteger_null value (nat16_eq_ok_iff.1 h).1
  simp only [optional_eq_ok_iff hnull, nat16_eq_ok_iff]

theorem optional_nat64_eq_ok_iff {depth : Nat} {written : Raw} {found : Option Nat} :
    optional nat64 depth written = .ok found ↔
      written = .null ∧ found = none ∨
        ∃ value : Nat, found = some value ∧ written.IsInteger value ∧ value < 2 ^ 64 := by
  have hnull (value) : nat64 depth .null ≠ .ok value :=
    fun h => not_isInteger_null value (nat64_eq_ok_iff.1 h).1
  simp only [optional_eq_ok_iff hnull, nat64_eq_ok_iff]

theorem optional_int64_eq_ok_iff {depth : Nat} {written : Raw} {found : Option Int} :
    optional int64 depth written = .ok found ↔
      written = .null ∧ found = none ∨
        ∃ value : Int, found = some value ∧ written.IsInteger value ∧
          -2 ^ 63 ≤ value ∧ value < 2 ^ 63 := by
  have hnull (value) : int64 depth .null ≠ .ok value :=
    fun h => not_isInteger_null value (int64_eq_ok_iff.1 h).1
  simp only [optional_eq_ok_iff hnull, int64_eq_ok_iff]

end Decode

end SearchWire
