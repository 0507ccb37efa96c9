import Mathlib.Data.Real.Basic
import Mathlib.Tactic.NormNum
import SearchWire.Proofs.Binary64.Order
import SearchWire.Proofs.Request.Places
import SearchWire.Proofs.Request.Refusal

/-!
# Ranges that hold no number

A range of numbers includes its lower bound and excludes its upper bound, so it
holds nothing as soon as the upper bound is not above the lower one.
`Aggregation.emptyRange_reported_iff` says for which ranges the report about the
aggregation says so: for those whose upper bound is below the lower one, whatever
the other ranges and the children are. A range between equal bounds holds nothing
either and goes unreported (`Aggregation.emptyRange_unreported`).
-/

namespace SearchWire

/-! ## The order of doubles as numbers -/

/-- The exact value of a finite double. -/
noncomputable def Finite.value (x : Finite) : ℝ :=
  x.signedUnits / 2 ^ 1074

theorem Finite.value_lt_iff {x y : Finite} : x.value < y.value ↔ x.signedUnits < y.signedUnits := by
  rw [value, value, div_lt_div_iff_of_pos_right (by positivity), Int.cast_lt]

/-- Finite doubles are compared by their values. -/
theorem Binary64.lt_finite_iff {x y : Finite} :
    (finite x).lt (finite y) = true ↔ x.value < y.value := by
  rw [Finite.value_lt_iff, ← Finite.signedRank_lt_iff]
  exact decide_eq_true_iff

/-- A range with its lower bound and without its upper bound holds a number exactly when the lower
bound is below the upper one. -/
theorem exists_between_iff {lower upper : ℝ} :
    (∃ number, lower ≤ number ∧ number < upper) ↔ lower < upper :=
  ⟨fun ⟨_, hlower, hupper⟩ => hlower.trans_lt hupper, fun h => ⟨lower, le_rfl, h⟩⟩

/-! ## Findings that say that a range is empty -/

/-- An advisory finding that says of the range at a position, in the ranges of the node at a path,
that it holds nothing. -/
def Finding.SaysEmpty (path : String) (position : Nat) (finding : Finding) : Prop :=
  finding.fatal = false ∧ ∃ wording, finding.message =
    path ++ ".ranges[" ++ String.ofList (Nat.toDigits 10 position) ++ "]: " ++ wording ++
      ", bucket is always empty"

namespace AggregationProblem

theorem saysEmpty_emptyRange (path : String) (position : Nat) (lower upper : Binary64) :
    ((emptyRange position lower upper).located path).SaysEmpty path position := by
  refine ⟨rfl, "from " ++ lower.plainText ++ " is greater than to " ++ upper.plainText, ?_⟩
  have hmessage : (emptyRange position lower upper).message = "from " ++ lower.plainText ++
      " is greater than to " ++ upper.plainText ++ ", bucket is always empty" := rfl
  have hcolon : "]: " = "]" ++ ": " := rfl
  simp only [located, place, hmessage, hcolon, String.append_assoc]

/-- Of all problems only crossed bounds are said to leave a range empty. -/
theorem eq_emptyRange_of_saysEmpty {problem : AggregationProblem} {path : String} {position : Nat}
    (h : (problem.located path).SaysEmpty path position) :
    ∃ lower upper, problem = .emptyRange position lower upper := by
  obtain ⟨hfatal, wording, hmessage⟩ := h
  have hchars := congrArg String.toList hmessage
  simp only [located, String.toList_append, List.append_assoc] at hchars
  have htail := List.append_cancel_left hchars
  cases problem with
  | emptyRange reported lower upper =>
      simp only [place, String.toList_append, String.toList_ofList, List.append_assoc] at htail
      have hposition : reported = position :=
        position_eq_of_digits (List.append_cancel_left htail)
      exact ⟨lower, upper, by rw [hposition]⟩
  | wholeRange reported =>
      have hwhole : (wholeRange reported).message =
          "range has neither from nor to and matches every date" := rfl
      have hlast := congrArg List.getLast? htail
      simp [hwhole, List.getLast?_append, List.getLast?_cons] at hlast
  | idleThreshold | idleSort => simp [place] at htail
  | _ => cases hfatal

end AggregationProblem

/-- What is found part by part is found in the part at some position. -/
theorem mem_problemsFrom_iff {α : Type} {problems : Nat → α → List AggregationProblem}
    {start : Nat} {parts : List α} {problem : AggregationProblem} :
    problem ∈ problemsFrom problems start parts ↔
      ∃ position part, parts[position]? = some part ∧
        problem ∈ problems (start + position) part := by
  induction parts generalizing start with
  | nil => simp [problemsFrom]
  | cons first rest ih =>
      rw [problemsFrom, List.mem_append, ih]
      constructor
      · rintro (hfirst | ⟨position, part, hpart, hproblem⟩)
        · exact ⟨0, first, rfl, hfirst⟩
        · refine ⟨position + 1, part, hpart, ?_⟩
          rwa [Nat.add_right_comm, Nat.add_assoc] at hproblem
      · rintro ⟨position, part, hpart, hproblem⟩
        cases position with
        | zero =>
            obtain rfl : first = part := Option.some.inj hpart
            exact .inl hproblem
        | succ position =>
            refine .inr ⟨position, part, hpart, ?_⟩
            rwa [Nat.add_right_comm, Nat.add_assoc]

/-- A range is found to be empty when its upper bound is below its lower one. -/
theorem NumberRange.emptyRange_mem_problems_iff {range : NumberRange} {position reported : Nat}
    {lower upper : Binary64} :
    .emptyRange reported lower upper ∈ range.problems position ↔
      reported = position ∧ range.lower = some lower ∧ range.upper = some upper ∧
        upper.lt lower = true := by
  simp only [problems, List.mem_append, mem_problemIf, reduceCtorEq, and_false, false_or]
  unfold crossedBounds
  split
  · next hlower hupper =>
      rw [mem_problemIf, hlower, hupper]
      constructor
      · rintro ⟨hless, hsame⟩
        cases hsame
        exact ⟨rfl, rfl, rfl, hless⟩
      · rintro ⟨rfl, hfirst, hsecond, hless⟩
        cases hfirst
        cases hsecond
        exact ⟨hless, rfl⟩
  · next hunset =>
      constructor
      · intro hmem
        cases hmem
      · rintro ⟨-, hlower, hupper, -⟩
        exact absurd hupper (hunset _ _ hlower)

namespace Aggregation

/-- The findings about ranges of numbers that call a range empty are those about the bounds of that
range: neither the other ranges nor the children have such a finding. -/
theorem mem_findings_saysEmpty_iff {body : RangeBuckets} {children : List (String × Aggregation)}
    {path : String} {position : Nat} {finding : Finding} :
    finding ∈ findings path (.bucket (.range body) children) ∧ finding.SaysEmpty path position ↔
      ∃ range lower upper, body.ranges[position]? = some range ∧ range.lower = some lower ∧
        range.upper = some upper ∧ upper.lt lower = true ∧
        finding = (AggregationProblem.emptyRange position lower upper).located path := by
  have hfindings : findings path (.bucket (.range body) children) =
      located (Division.range body).problems path ++ findingsNamed (path ++ ".aggs") children := by
    rw [findings, filterFindings, List.append_nil]
    rintro query ⟨⟩
  rw [hfindings, List.mem_append]
  constructor
  · rintro ⟨hown | hchild, htold⟩
    · obtain ⟨problem, hproblem, rfl⟩ := List.mem_map.1 hown
      obtain ⟨lower, upper, rfl⟩ := AggregationProblem.eq_emptyRange_of_saysEmpty htold
      simp only [Division.problems, List.mem_append, mem_problemIf, reduceCtorEq, and_false,
        false_or, mem_problemsFrom_iff, Nat.zero_add] at hproblem
      obtain ⟨place, range, hrange, hcrossed⟩ := hproblem
      obtain ⟨rfl, hlower, hupper, hless⟩ := NumberRange.emptyRange_mem_problems_iff.1 hcrossed
      exact ⟨range, lower, upper, hrange, hlower, hupper, hless, rfl⟩
    · -- a finding about a child goes on behind the path in another way
      obtain ⟨tail, htail⟩ := at_of_mem_findingsNamed hchild
      obtain ⟨-, wording, hmessage⟩ := htold
      have hchars := congrArg String.toList (htail.symm.trans hmessage)
      simp only [String.toList_append, List.append_assoc] at hchars
      have hbehind := List.append_cancel_left hchars
      simp at hbehind
  · rintro ⟨range, lower, upper, hrange, hlower, hupper, hless, rfl⟩
    refine ⟨.inl (List.mem_map.2 ⟨_, ?_, rfl⟩), AggregationProblem.saysEmpty_emptyRange ..⟩
    refine List.mem_append_right _ (mem_problemsFrom_iff.2 ⟨position, range, hrange, ?_⟩)
    exact NumberRange.emptyRange_mem_problems_iff.2 ⟨(Nat.zero_add _).symm, hlower, hupper, hless⟩

/-- The report about ranges of numbers and a range whose bounds are finite. The report says that the
range holds nothing exactly when the upper bound is below the lower one, in one finding, whatever
else it has. So of bounds that differ it says so exactly when no number is between them. -/
theorem emptyRange_reported_iff {body : RangeBuckets} {children : List (String × Aggregation)}
    {position : Nat} {range : NumberRange} {lower upper : Finite}
    (hrange : body.ranges[position]? = some range) (hlower : range.lower = some (.finite lower))
    (hupper : range.upper = some (.finite upper)) :
    ((∃ finding ∈ (bucket (.range body) children).validate.findings,
        finding.SaysEmpty "range" position) ↔ upper.value < lower.value) ∧
      (∀ finding ∈ (bucket (.range body) children).validate.findings,
        finding.SaysEmpty "range" position →
          finding = (AggregationProblem.emptyRange position (.finite lower)
            (.finite upper)).located "range") ∧
      (lower.value ≠ upper.value →
        ((∃ finding ∈ (bucket (.range body) children).validate.findings,
            finding.SaysEmpty "range" position) ↔
          ¬ ∃ number : ℝ, lower.value ≤ number ∧ number < upper.value)) := by
  have hreport (finding : Finding) :
      finding ∈ (bucket (.range body) children).validate.findings ∧
          finding.SaysEmpty "range" position ↔
        upper.value < lower.value ∧ finding = (AggregationProblem.emptyRange position
          (.finite lower) (.finite upper)).located "range" := by
    rw [validate, Report.mem_findings_ofList, ← Binary64.lt_finite_iff]
    refine mem_findings_saysEmpty_iff.trans ?_
    constructor
    · rintro ⟨found, first, second, hfound, hfirst, hsecond, hless, rfl⟩
      obtain rfl : range = found := Option.some.inj (hrange.symm.trans hfound)
      obtain rfl : .finite lower = first := Option.some.inj (hlower.symm.trans hfirst)
      obtain rfl : .finite upper = second := Option.some.inj (hupper.symm.trans hsecond)
      exact ⟨hless, rfl⟩
    · rintro ⟨hless, rfl⟩
      exact ⟨range, _, _, hrange, hlower, hupper, hless, rfl⟩
  have hcrossed : (∃ finding ∈ (bucket (.range body) children).validate.findings,
      finding.SaysEmpty "range" position) ↔ upper.value < lower.value := by
    simp only [hreport, exists_and_left, exists_eq, and_true]
  refine ⟨hcrossed, fun finding hmem htold => ((hreport finding).1 ⟨hmem, htold⟩).2, ?_⟩
  intro hdifferent
  rw [hcrossed, exists_between_iff, not_lt]
  exact ⟨le_of_lt, fun hle => lt_of_le_of_ne hle (Ne.symm hdifferent)⟩

/-- A range from a hundred down to zero. -/
def fallingRange : NumberRange where
  lower := some (.finite hundred)
  upper := some (.finite (.zero false))

/-- Ranges of no field, the first of which has a bound that is not a number. -/
def flawedRanges : RangeBuckets where
  field := ""
  ranges := [⟨none, some (.nan false), none⟩, fallingRange]

/-- Beside other findings, the report says that nothing lies from a hundred down to zero. -/
theorem emptyRange_reported_iff_flawedRanges :
    flawedRanges.ranges[1]? = some fallingRange ∧
      fallingRange.lower = some (.finite hundred) ∧
      fallingRange.upper = some (.finite (.zero false)) ∧
      hundred.value ≠ (Finite.zero false).value ∧
      (∃ finding ∈ (bucket (.range flawedRanges) []).validate.findings,
        finding.SaysEmpty "range" 1) ∧
      ¬ ∃ number : ℝ, hundred.value ≤ number ∧ number < (Finite.zero false).value := by
  have hless : (Finite.zero false).value < hundred.value :=
    Finite.value_lt_iff.2 (by decide +kernel)
  obtain ⟨htold, -, hdifferent⟩ :=
    @emptyRange_reported_iff flawedRanges [] 1 fallingRange hundred (.zero false) rfl rfl rfl
  have hreported := htold.2 hless
  exact ⟨rfl, rfl, rfl, hless.ne', hreported, (hdifferent hless.ne').1 hreported⟩

/-- One range from a hundred to a hundred. -/
def closedOff : RangeBuckets where
  field := "price"
  ranges := [⟨none, some (.finite hundred), some (.finite hundred)⟩]

/-- No number lies from a hundred, included, to a hundred, excluded, and nothing is reported about
such a range. -/
theorem emptyRange_unreported :
    (bucket (.range closedOff) []).validate.findings = [] ∧
      ¬ ((∃ finding ∈ (bucket (.range closedOff) []).validate.findings,
            finding.SaysEmpty "range" 0) ↔
          ¬ ∃ number : ℝ, hundred.value ≤ number ∧ number < hundred.value) := by
  have hnone : (bucket (.range closedOff) []).validate.findings = [] := by decide +kernel
  refine ⟨hnone, fun hclaim => ?_⟩
  have hempty : ¬ ∃ number : ℝ, hundred.value ≤ number ∧ number < hundred.value := by
    rw [exists_between_iff]
    exact lt_irrefl _
  obtain ⟨finding, hmem, -⟩ := hclaim.2 hempty
  rw [hnone] at hmem
  cases hmem

end Aggregation

end SearchWire
