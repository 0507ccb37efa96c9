import Mathlib.Data.List.Basic
import SearchWire.Proofs.Binary64.Order
import SearchWire.Proofs.Json.Grammar
import SearchWire.Json.Text

/-!
# Written numbers are numbers

`Number.numeral` is the written form of a number in parts. `numeral_text` says
that it spells what `Number.text` writes, and `numeral_grammatical` that the
parts are spelled as JSON wants them: in particular a number never begins with a
superfluous zero, and a point or an exponent always has digits behind it.
-/

namespace SearchWire

namespace Decimal

/-! ## Digits -/

theorem digits_digitsOf (n : Nat) : Digits (digitsOf n) :=
  ⟨Nat.toDigits_ne_nil, fun _ hc => Nat.isDigit_of_mem_toDigits (by decide) (by decide) hc⟩

/-- Only zero is written with a zero in front. -/
theorem eq_zero_of_head?_digitsOf {n : Nat} (h : (digitsOf n).head? = some '0') : n = 0 := by
  induction n using Nat.strongRecOn with
  | _ n ih =>
      rw [digitsOf, Nat.toDigits_eq_if (by decide)] at h
      split at h
      · next hsmall =>
          have hdigit : ∀ n < 10, Nat.digitChar n = '0' → n = 0 := by decide
          exact hdigit n hsmall (by simpa using h)
      · next hlarge =>
          rw [List.head?_append_of_ne_nil _ Nat.toDigits_ne_nil] at h
          have hquotient := ih (n / 10) (by omega) h
          omega

/-- A decimal that is zero only without an exponent. -/
def Normal (d : Decimal) : Prop :=
  d.digits = 0 → d.exponent = 0

/-! ## The positional form -/

theorem digits_wholePart (d : Decimal) : Digits d.wholePart := by
  obtain ⟨hne, hdigits⟩ := digits_digitsOf d.digits
  unfold wholePart
  split
  · refine ⟨by simp [hne], fun c hc => ?_⟩
    rcases List.mem_append.1 hc with hc | hc
    · exact hdigits c hc
    · rw [List.eq_of_mem_replicate hc]
      decide
  · dsimp only
    split
    · next hplaces =>
        refine ⟨fun hnil => ?_, fun c hc => hdigits c (List.mem_of_mem_take hc)⟩
        have hlength := congrArg List.length hnil
        rw [List.length_take, List.length_nil] at hlength
        omega
    · exact Digits.zero

/-- The digits before the point have no superfluous zero in front. -/
theorem wholePart_eq_zero {d : Decimal} (h : d.Normal) (hhead : d.wholePart.head? = some '0') :
    d.wholePart = ['0'] := by
  have hne := (digits_digitsOf d.digits).1
  unfold wholePart at hhead ⊢
  split
  · next hexponent =>
      rw [if_pos hexponent, List.head?_append_of_ne_nil _ hne] at hhead
      have hzero := eq_zero_of_head?_digitsOf hhead
      rw [hzero, h hzero]
      rfl
  · next hexponent =>
      rw [if_neg hexponent] at hhead
      dsimp only at hhead ⊢
      split
      · next hplaces =>
          rw [if_pos hplaces, List.head?_take, if_neg (by omega)] at hhead
          exact absurd (h (eq_zero_of_head?_digitsOf hhead)) (by omega)
      · rfl

theorem isDigit_of_mem_fractionPart {d : Decimal} {c : Char} (h : c ∈ d.fractionPart) :
    c.isDigit = true := by
  have hdigits := (digits_digitsOf d.digits).2
  unfold fractionPart at h
  split at h
  · cases h
  · dsimp only at h
    split at h
    · exact hdigits c (List.mem_of_mem_drop h)
    · rcases List.mem_append.1 h with h | h
      · rw [List.eq_of_mem_replicate h]
        decide
      · exact hdigits c h

/-- The positional form in parts. -/
def positionalNumeral (negative : Bool) (d : Decimal) : Numeral :=
  ⟨negative, d.wholePart, some (if d.fractionPart.isEmpty then ['0'] else d.fractionPart), none⟩

theorem positionalNumeral_grammatical (negative : Bool) {d : Decimal} (h : d.Normal) :
    (positionalNumeral negative d).Grammatical where
  whole := digits_wholePart d
  zero := wholePart_eq_zero h
  fraction := by
    rintro digits ⟨⟩
    split
    · exact Digits.zero
    · next hne => exact ⟨by simpa using hne, fun c hc => isDigit_of_mem_fractionPart hc⟩
  exponent := by rintro exponent ⟨⟩

theorem positionalNumeral_text (negative : Bool) (d : Decimal) :
    (positionalNumeral negative d).text =
      (if negative then ['-'] else []) ++ d.positional ['.', '0'] := by
  unfold positionalNumeral positional Numeral.text
  split <;> simp

/-! ## The form with an exponent -/

/-- The written exponent of a decimal. -/
def writtenExponent (d : Decimal) : Exponent :=
  ⟨'e', some (if d.leadingExponent < 0 then '-' else '+'), digitsOf d.leadingExponent.natAbs⟩

/-- The form with an exponent in parts. -/
def scientificNumeral (negative : Bool) (d : Decimal) : Numeral :=
  match digitsOf d.digits with
  | [] => ⟨negative, [], none, some d.writtenExponent⟩
  | [digit] => ⟨negative, [digit], none, some d.writtenExponent⟩
  | digit :: rest => ⟨negative, [digit], some rest, some d.writtenExponent⟩

theorem writtenExponent_grammatical (d : Decimal) : d.writtenExponent.Grammatical := by
  refine ⟨.inl rfl, ?_, digits_digitsOf _⟩
  rintro sign ⟨⟩
  split
  · exact .inr rfl
  · exact .inl rfl

theorem scientificNumeral_grammatical (negative : Bool) (d : Decimal) :
    (scientificNumeral negative d).Grammatical := by
  obtain ⟨hne, hdigits⟩ := digits_digitsOf d.digits
  have hexponent : ∀ exponent ∈ some d.writtenExponent, exponent.Grammatical := by
    rintro exponent ⟨⟩
    exact writtenExponent_grammatical d
  unfold scientificNumeral
  split
  · next hnil => exact absurd hnil hne
  · next digit hone =>
      have hdigit := hdigits digit (by simp [hone])
      exact ⟨⟨by simp, by simpa using hdigit⟩, by simp, by simp, hexponent⟩
  · next digit rest hrest hmore =>
      have hdigit := hdigits digit (by simp [hmore])
      refine ⟨⟨by simp, by simpa using hdigit⟩, by simp, ?_, hexponent⟩
      rintro digits ⟨⟩
      exact ⟨hrest, fun c hc => hdigits c (by simp [hmore, hc])⟩

theorem scientificNumeral_text (negative : Bool) (d : Decimal) :
    (scientificNumeral negative d).text =
      (if negative then ['-'] else []) ++ d.scientific := by
  unfold scientificNumeral scientific
  split <;> simp_all [Numeral.text, Numeral.exponentText, writtenExponent]

end Decimal

/-! ## Doubles and integers -/

namespace Decimal

theorem stripZeros_ne_zero {d : Decimal} (h : d.digits ≠ 0) (fuel : Nat) :
    (d.stripZeros fuel).digits ≠ 0 := by
  induction fuel generalizing d with
  | zero => exact h
  | succ fuel ih =>
      unfold stripZeros
      split
      · next hzero => exact ih (show d.digits / 10 ≠ 0 by omega)
      · exact h

end Decimal

namespace Finite

theorem onGrid_ne_zero {x : Finite} {tie : Tie} {exponent : Int} {d : Decimal}
    (h : x.onGrid tie exponent = some d) : d.digits ≠ 0 := by
  unfold onGrid at h
  dsimp only at h
  have hlower {low : Nat} {reads : Bool} (htrue : (reads && low != 0) = true) : low ≠ 0 := by
    simpa using (Bool.and_eq_true_iff.1 htrue).2
  split at h
  · next hleft _ =>
      repeat' split at h
      all_goals cases h
      all_goals first | exact hlower hleft | exact Nat.succ_ne_zero _
  · next hleft _ =>
      cases h
      exact hlower hleft
  · cases h
    exact Nat.succ_ne_zero _
  · cases h

theorem units_pos {x : Finite} (h : x.isZero = false) : 0 < x.units := by
  have hrank : 0 < x.rank.val := Nat.pos_of_ne_zero (by simpa [isZero] using h)
  exact units_strictMono hrank

/-- The shortest decimal of a double is zero only without an exponent. -/
theorem shortest_normal (x : Finite) (tie : Tie) : (x.shortest tie).Normal := by
  unfold shortest
  split
  · intro _
    rfl
  · next hzero =>
      refine fun hdigits => absurd hdigits (Decimal.stripZeros_ne_zero ?_ 800)
      cases hfound : ((List.range 17).map fun (count : Nat) =>
          x.leadingExponent - (count : Int)).findSome? (x.onGrid tie) with
      | none =>
          -- no decimal on the grid reads back, so the exact value is written
          have hunits := units_pos (Bool.eq_false_iff.2 hzero)
          have hpower (n : Nat) : 0 < 5 ^ n := Nat.pow_pos (by decide)
          exact Nat.ne_of_gt (Nat.mul_pos hunits (hpower 1074))
      | some d =>
          obtain ⟨exponent, -, hgrid⟩ := List.exists_of_findSome?_eq_some hfound
          exact onGrid_ne_zero hgrid

/-- The written form of a double in parts. -/
def numeral (x : Finite) : Numeral :=
  let d := x.shortest .even
  if -5 ≤ d.leadingExponent ∧ d.leadingExponent ≤ 15 then d.positionalNumeral x.negative
  else d.scientificNumeral x.negative

theorem numeral_text (x : Finite) : x.numeral.text = x.documentText := by
  unfold numeral documentText
  dsimp only
  split
  · rw [Decimal.positionalNumeral_text]
    rfl
  · rw [Decimal.scientificNumeral_text]
    rfl

end Finite

namespace Number

/-- The written form of a number in parts. -/
def numeral : Number → Numeral
  | .int value => ⟨value < 0, Decimal.digitsOf value.natAbs, none, none⟩
  | .float value => value.numeral

/-- The parts of a number spell its text. -/
theorem numeral_text (number : Number) : number.numeral.text = number.text := by
  cases number with
  | int value => simp [numeral, Numeral.text, Number.text, intText]
  | float value => exact value.numeral_text

/-- The parts of a number are spelled as JSON wants them. -/
theorem numeral_grammatical (number : Number) : number.numeral.Grammatical := by
  cases number with
  | int value =>
      refine ⟨Decimal.digits_digitsOf _, fun hhead => ?_, by rintro digits ⟨⟩, by rintro power ⟨⟩⟩
      simp only [numeral] at hhead ⊢
      rw [Decimal.eq_zero_of_head?_digitsOf hhead]
      rfl
  | float value =>
      simp only [numeral, Finite.numeral]
      split
      · exact Decimal.positionalNumeral_grammatical _ (Finite.shortest_normal value .even)
      · exact Decimal.scientificNumeral_grammatical _ _

end Number

end SearchWire
