import SearchWire.Bulk.Request
import SearchWire.Proofs.Json.Outcome
import SearchWire.Proofs.Validation.Report

/-!
# What the default index of a batch decides

The framing of a batch asks one thing of its default index: which one there is,
when it is not empty. Two batches of the same actions, of which only the first
lacks a default, have the same text exactly when every action names its index
itself (`BulkRequest.text_eq_iff`). Their paths always differ
(`BulkRequest.length_path_lt`).
-/

namespace SearchWire

namespace BulkProblem

/-- Whether a problem is that an action has no index. -/
def isNoIndex : BulkProblem → Bool
  | .noIndex _ _ => true
  | .noActions | .noId _ _ => false

/-- The last letter tells a missing index from the other problems. -/
theorem getLast?_message (problem : BulkProblem) :
    problem.message.toList.getLast? = some (if problem.isNoIndex then 't' else 'd') := by
  cases problem with
  | noActions => decide
  | noIndex position kind | noId position kind =>
      rw [message, String.toList_append, List.getLast?_append]
      rfl

theorem isNoIndex_eq_of_finding_eq {first second : BulkProblem}
    (h : first.finding = second.finding) : first.isNoIndex = second.isNoIndex := by
  have hmessage : first.message = second.message := congrArg Finding.message h
  have hlast := first.getLast?_message
  rw [hmessage, second.getLast?_message] at hlast
  cases hfirst : first.isNoIndex <;> cases hsecond : second.isNoIndex <;>
    simp [hfirst, hsecond] at hlast ⊢

end BulkProblem

/-- An action lacks an index exactly when it names none and there is no default. -/
theorem BulkAction.exists_isNoIndex_iff (hasDefault : Bool) (position : Nat) (action : BulkAction) :
    (∃ problem ∈ action.problems hasDefault position, problem.isNoIndex = true) ↔
      hasDefault = false ∧ action.ownIndex = "" := by
  have hid : ¬ ∃ problem ∈ (if action.kind.needsId && action.id.isEmpty then
      [BulkProblem.noId position action.kind] else []), problem.isNoIndex = true := by
    split <;> simp [BulkProblem.isNoIndex]
  simp only [problems, List.mem_append, or_and_right, exists_or, hid, or_false]
  by_cases hown : action.ownIndex = ""
  · cases hasDefault <;> simp [hown, BulkProblem.isNoIndex]
  · simp [hown]

/-- An action that names its index breaks the same rules with a default and without one. -/
theorem BulkAction.problems_congr {action : BulkAction} (h : action.ownIndex ≠ "")
    (position : Nat) : action.problems true position = action.problems false position := by
  simp [problems, h]

namespace BulkRequest

theorem actionProblems_congr {actions : List BulkAction}
    (h : ∀ action ∈ actions, action.ownIndex ≠ "") (position : Nat) :
    actionProblems true position actions = actionProblems false position actions := by
  induction actions generalizing position with
  | nil => rfl
  | cons action rest ih =>
      obtain ⟨haction, hrest⟩ := List.forall_mem_cons.1 h
      rw [actionProblems, actionProblems, BulkAction.problems_congr haction, ih hrest]

/-- Some action lacks an index exactly when one names none and there is no default. -/
theorem exists_isNoIndex_iff (hasDefault : Bool) (position : Nat) (actions : List BulkAction) :
    (∃ problem ∈ actionProblems hasDefault position actions, problem.isNoIndex = true) ↔
      hasDefault = false ∧ ∃ action ∈ actions, action.ownIndex = "" := by
  induction actions generalizing position with
  | nil => simp [actionProblems]
  | cons action rest ih =>
      simp only [actionProblems, List.mem_append, or_and_right, exists_or, ih,
        BulkAction.exists_isNoIndex_iff, List.mem_cons, exists_eq_left, and_or_left]

variable {first second : BulkRequest}

/-- Batches with the same default have the same text, whether an empty default is set or not. -/
theorem text_congr (hactions : first.actions = second.actions)
    (hdefault : first.effectiveDefault = second.effectiveDefault) : first.text = second.text := by
  rw [text, text, validate, validate, problems, problems, hactions, hdefault]

theorem path_congr (hrefresh : first.refresh = second.refresh)
    (hdefault : first.effectiveDefault = second.effectiveDefault) : first.path = second.path := by
  rw [path, path, hrefresh, hdefault]

/-- A batch that is refused as invalid is refused with its whole report. -/
theorem eq_validate_of_text_eq_error {request : BulkRequest} {report : Report}
    (h : request.text = .error (.invalid report)) : report = request.validate := by
  rw [text] at h
  cases hsound : request.validate.whenSound () with
  | error failure =>
      rw [hsound, Outcome.error_bind, Report.eq_of_whenSound_eq_error hsound] at h
      exact (Failure.invalid.inj (Except.error.inj h)).symm
  | ok =>
      rw [hsound, Outcome.ok_bind] at h
      split at h <;> cases h

/-- A batch is invalid when an action lacks an index. -/
theorem text_of_noIndex {request : BulkRequest} (hdefault : request.effectiveDefault = none)
    (haction : ∃ action ∈ request.actions, action.ownIndex = "") :
    request.text = .error (.invalid request.validate) ∧
      ∃ problem : BulkProblem, problem.isNoIndex = true ∧
        problem.finding ∈ request.validate.findings := by
  obtain ⟨problem, hproblem, hlack⟩ := (exists_isNoIndex_iff false 0 _).2 ⟨rfl, haction⟩
  have hmem : problem.finding ∈ request.problems.map BulkProblem.finding := by
    refine List.mem_map_of_mem (List.mem_append_right _ ?_)
    rw [hdefault]
    exact hproblem
  have hfatal : request.validate.isFatal = true :=
    Report.isFatal_ofList_iff.2 ⟨problem.finding, hmem, rfl⟩
  refine ⟨?_, problem, hlack, Report.mem_findings_ofList.2 hmem⟩
  rw [text, Report.whenSound_of_fatal hfatal]
  rfl

/-- Nothing is found about a missing index where there is a default. -/
theorem not_noIndex_of_default {request : BulkRequest} (hdefault : request.effectiveDefault ≠ none)
    {problem : BulkProblem} (h : problem.finding ∈ request.validate.findings) :
    problem.isNoIndex = false := by
  obtain ⟨other, hother, hfinding⟩ := List.mem_map.1 (Report.mem_findings_ofList.1 h)
  rw [← BulkProblem.isNoIndex_eq_of_finding_eq hfinding]
  rcases List.mem_append.1 hother with hempty | hactions
  · split at hempty
    · obtain rfl := List.mem_singleton.1 hempty
      rfl
    · cases hempty
  · rw [Option.isSome_iff_ne_none.2 hdefault] at hactions
    refine Bool.eq_false_iff.2 fun hlack => ?_
    exact absurd ((exists_isNoIndex_iff _ _ _).1 ⟨other, hactions, hlack⟩).1 nofun

/-- Whether there is a default shows in the text exactly when some action needs one. -/
theorem text_eq_iff (hactions : first.actions = second.actions)
    (hfirst : first.effectiveDefault = none) (hsecond : second.effectiveDefault ≠ none) :
    first.text = second.text ↔ ∀ action ∈ first.actions, action.ownIndex ≠ "" := by
  constructor
  · intro hsame action haction hown
    obtain ⟨hrefused, problem, hlack, hfinding⟩ := text_of_noIndex hfirst ⟨action, haction, hown⟩
    rw [hsame] at hrefused
    rw [eq_validate_of_text_eq_error hrefused] at hfinding
    exact absurd (not_noIndex_of_default hsecond hfinding) (by simp [hlack])
  · intro hown
    have hproblems := actionProblems_congr hown 0
    rw [text, text, validate, validate, problems, problems, ← hactions, hfirst,
      Option.isSome_iff_ne_none.2 hsecond, hproblems]
    rfl

/-- A default makes the path longer. -/
theorem length_path_lt (hrefresh : first.refresh = second.refresh)
    (hfirst : first.effectiveDefault = none) (hsecond : second.effectiveDefault ≠ none) :
    first.path.length < second.path.length := by
  obtain ⟨index, hindex⟩ := Option.ne_none_iff_exists'.1 hsecond
  have hslash : 0 < "/".length := by decide
  rw [path, path, hfirst, hindex, hrefresh]
  simp only [String.length_append]
  omega

end BulkRequest

end SearchWire
