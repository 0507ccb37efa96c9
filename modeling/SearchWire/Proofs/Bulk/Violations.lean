import Mathlib.Data.List.Nodup
import SearchWire.Proofs.Bulk.DefaultIndex

/-!
# What a batch is refused for

`BulkRequest.Breaks` states the rules for a batch and its actions without a look
at the report. The report has one finding for each rule that is broken at a
position, in the order of the positions, and no two of these have the same
message. A batch that breaks no rule fails only at its documents, and then at
the first one without a JSON form. `BulkRequest.violations_reported` puts this
together: it says of every outcome of writing a batch when it arises.
-/

namespace SearchWire

namespace BulkProblem

/-- Where a problem stands in a report. An action has two places, the first for its index and the
second for its id. -/
def rank : BulkProblem → Nat
  | .noActions => 0
  | .noIndex position _ => 2 * position
  | .noId position _ => 2 * position + 1

/-- The place of an action shows its position and its operation. -/
theorem eq_of_actionPlace_eq {position place : Nat} {kind other : ActionKind}
    {rest after : List Char}
    (h : (actionPlace position kind).toList ++ ':' :: rest =
      (actionPlace place other).toList ++ ':' :: after) : position = place ∧ kind = other := by
  simp only [actionPlace, String.toList_append, String.toList_ofList, List.append_assoc] at h
  have hplace := List.append_cancel_left h
  obtain rfl : position = place := position_eq_of_digits hplace
  have hkind := List.append_cancel_left (List.append_cancel_left hplace)
  cases kind <;> cases other <;> first | exact ⟨rfl, rfl⟩ | simp [ActionKind.text] at hkind

/-- The place of an action is not that of the batch. -/
theorem actionPlace_append_ne {position : Nat} {kind : ActionKind} {rest : String} :
    actionPlace position kind ++ rest ≠ noActions.message := by
  intro h
  have hchars := congrArg String.toList h
  simp only [actionPlace, message, String.toList_append, List.append_assoc] at hchars
  have hstart : ['b', 'u', 'l', 'k', '.'] = ['b', 'u', 'l', 'k', ':'] :=
    congrArg (List.take 5) hchars
  exact absurd hstart (by decide)

/-- Different problems have different messages. -/
theorem message_injective {first second : BulkProblem} (h : first.message = second.message) :
    first = second := by
  have hkind : first.isNoIndex = second.isNoIndex :=
    isNoIndex_eq_of_finding_eq (congrArg (Finding.mk · true) h)
  have hchars := congrArg String.toList h
  cases first with
  | noActions =>
      cases second with
      | noActions => rfl
      | noIndex | noId => exact absurd h.symm actionPlace_append_ne
  | noIndex position kind =>
      cases second with
      | noIndex place other =>
          rw [message, message, String.toList_append, String.toList_append] at hchars
          obtain ⟨rfl, rfl⟩ := eq_of_actionPlace_eq hchars
          rfl
      | noActions | noId => cases hkind
  | noId position kind =>
      cases second with
      | noId place other =>
          rw [message, message, String.toList_append, String.toList_append] at hchars
          obtain ⟨rfl, rfl⟩ := eq_of_actionPlace_eq hchars
          rfl
      | noActions => exact absurd h actionPlace_append_ne
      | noIndex => cases hkind

end BulkProblem

/-- The rules that a batch breaks: it has no actions, or at a position stands an action without an
index where the batch has none to lend, or one that concerns an existing document without its id. -/
inductive BulkRequest.Breaks (request : BulkRequest) : BulkProblem → Prop where
  | noActions (h : request.actions = []) : Breaks request .noActions
  | noIndex {position : Nat} {action : BulkAction}
      (haction : request.actions[position]? = some action) (hown : action.ownIndex = "")
      (hdefault : ∀ index, request.defaultIndex = some index → index = "") :
      Breaks request (.noIndex position action.kind)
  | noId {position : Nat} {action : BulkAction}
      (haction : request.actions[position]? = some action)
      (hkind : action.kind = .update ∨ action.kind = .delete) (hid : action.id = "") :
      Breaks request (.noId position action.kind)

/-- The fault of the document of an action, if the document has no JSON form. -/
def BulkAction.sourceFault? (action : BulkAction) : Option Fault :=
  action.document?.bind fun document =>
    match document.source with
    | .ok _ => none
    | .error fault => some fault

/-! ## The problems of the actions -/

theorem BulkAction.mem_problems_iff {hasDefault : Bool} {position : Nat} {action : BulkAction}
    {problem : BulkProblem} :
    problem ∈ action.problems hasDefault position ↔
      (action.ownIndex = "" ∧ hasDefault = false) ∧ problem = .noIndex position action.kind ∨
        ((action.kind = .update ∨ action.kind = .delete) ∧ action.id = "") ∧
          problem = .noId position action.kind := by
  have hneeds : action.kind.needsId = true ↔ action.kind = .update ∨ action.kind = .delete := by
    cases action.kind <;> simp [ActionKind.needsId]
  simp only [problems, List.mem_append, List.mem_ite_nil_right, List.mem_singleton,
    Bool.and_eq_true, String.isEmpty_iff, Bool.not_eq_true', hneeds]

/-- The problems of an action stand at its two places. -/
theorem BulkAction.half_rank {hasDefault : Bool} {position : Nat} {action : BulkAction}
    {problem : BulkProblem} (h : problem ∈ action.problems hasDefault position) :
    problem.rank / 2 = position := by
  rcases mem_problems_iff.1 h with ⟨-, rfl⟩ | ⟨-, rfl⟩
  · show 2 * position / 2 = position
    omega
  · show (2 * position + 1) / 2 = position
    omega

theorem BulkAction.pairwise_problems (hasDefault : Bool) (position : Nat) (action : BulkAction) :
    (action.problems hasDefault position).Pairwise
      fun first second => first.rank < second.rank := by
  unfold problems
  split <;> split <;> simp [BulkProblem.rank]

namespace BulkRequest

/-- The problems of the actions are those of each at its position. -/
theorem actionProblems_eq (hasDefault : Bool) (position : Nat) (actions : List BulkAction) :
    actionProblems hasDefault position actions =
      (actions.zipIdx position).flatMap fun entry => entry.1.problems hasDefault entry.2 := by
  induction actions generalizing position with
  | nil => rfl
  | cons action rest ih => rw [actionProblems, List.zipIdx_cons, List.flatMap_cons, ih]

/-- The problems of the actions come in the order of their places. -/
theorem pairwise_actionProblems (hasDefault : Bool) (actions : List BulkAction) :
    (actionProblems hasDefault 0 actions).Pairwise fun first second =>
      first.rank < second.rank := by
  have hpositions : (actions.zipIdx.map Prod.snd).Pairwise (· < ·) := by
    rw [List.zipIdx_map_snd]
    exact List.pairwise_lt_range'
  rw [actionProblems_eq, List.pairwise_flatMap]
  refine ⟨fun entry _ => entry.1.pairwise_problems hasDefault entry.2, ?_⟩
  refine (List.pairwise_map.1 hpositions).imp fun hlt first hfirst second hsecond => ?_
  have hrank := BulkAction.half_rank hfirst
  have hrank' := BulkAction.half_rank hsecond
  omega

variable {request : BulkRequest}

theorem isSome_effectiveDefault_eq_false_iff :
    request.effectiveDefault.isSome = false ↔
      ∀ index, request.defaultIndex = some index → index = "" := by
  unfold effectiveDefault
  cases request.defaultIndex with
  | none => simp
  | some index => simp [Option.filter]

/-- The problems that are found are the rules that are broken. -/
theorem mem_problems_iff {problem : BulkProblem} :
    problem ∈ request.problems ↔ request.Breaks problem := by
  have hactions : problem ∈ actionProblems request.effectiveDefault.isSome 0 request.actions ↔
      ∃ position, ∃ action : BulkAction, request.actions[position]? = some action ∧
        problem ∈ action.problems request.effectiveDefault.isSome position := by
    rw [actionProblems_eq, List.mem_flatMap]
    constructor
    · rintro ⟨⟨action, position⟩, hentry, hproblem⟩
      exact ⟨position, action, List.mk_mem_zipIdx_iff_getElem?.1 hentry, hproblem⟩
    · rintro ⟨position, action, haction, hproblem⟩
      exact ⟨(action, position), List.mk_mem_zipIdx_iff_getElem?.2 haction, hproblem⟩
  rw [problems, List.mem_append, hactions, List.mem_ite_nil_right, List.mem_singleton,
    List.isEmpty_iff]
  constructor
  · rintro (⟨hempty, rfl⟩ | ⟨position, action, haction, hproblem⟩)
    · exact .noActions hempty
    · rcases BulkAction.mem_problems_iff.1 hproblem with
        ⟨⟨hown, hdefault⟩, rfl⟩ | ⟨⟨hkind, hid⟩, rfl⟩
      · exact .noIndex haction hown (isSome_effectiveDefault_eq_false_iff.1 hdefault)
      · exact .noId haction hkind hid
  · intro hbreaks
    cases hbreaks with
    | noActions hempty => exact .inl ⟨hempty, rfl⟩
    | noIndex haction hown hdefault =>
        have hnone := isSome_effectiveDefault_eq_false_iff.2 hdefault
        exact .inr ⟨_, _, haction, BulkAction.mem_problems_iff.2 (.inl ⟨⟨hown, hnone⟩, rfl⟩)⟩
    | noId haction hkind hid =>
        exact .inr ⟨_, _, haction, BulkAction.mem_problems_iff.2 (.inr ⟨⟨hkind, hid⟩, rfl⟩)⟩

theorem problems_of_no_actions (h : request.actions = []) : request.problems = [.noActions] := by
  simp [problems, actionProblems, h]

theorem pairwise_problems (request : BulkRequest) :
    request.problems.Pairwise fun first second => first.rank < second.rank := by
  cases hactions : request.actions with
  | nil =>
      rw [problems_of_no_actions hactions]
      exact List.pairwise_singleton _ _
  | cons action rest =>
      have hproblems : request.problems =
          actionProblems request.effectiveDefault.isSome 0 request.actions := by
        simp [problems, hactions]
      rw [hproblems]
      exact pairwise_actionProblems _ _

/-! ## The report -/

theorem nodup_messages (request : BulkRequest) :
    (request.problems.map BulkProblem.message).Nodup := by
  have hproblems : request.problems.Nodup :=
    request.pairwise_problems.imp fun {first second} hlt (hsame : first = second) =>
      Nat.lt_irrefl _ (hsame ▸ hlt)
  exact hproblems.map fun _ _ h => BulkProblem.message_injective h

/-- No finding about a batch is left out as a repetition of another one. -/
theorem findings_validate (request : BulkRequest) :
    request.validate.findings = request.problems.map BulkProblem.finding := by
  refine Report.findings_ofList_of_nodup (List.Nodup.of_map Finding.message ?_)
  rw [List.map_map]
  exact request.nodup_messages

theorem fatalCount_validate (request : BulkRequest) :
    request.validate.fatalCount = request.problems.length := by
  rw [Report.fatalCount, findings_validate, List.countP_map]
  exact List.countP_eq_length.2 fun _ _ => rfl

theorem isFatal_validate_iff : request.validate.isFatal = true ↔ request.problems ≠ [] := by
  rw [Report.isFatal, findings_validate, List.any_map]
  cases request.problems with
  | nil => simp
  | cons problem rest => simp [BulkProblem.finding]

/-! ## The documents -/

theorem lines_eq_error_iff {action : BulkAction} {fault : Fault} :
    action.lines = .error fault ↔ action.sourceFault? = some fault := by
  unfold BulkAction.lines BulkAction.sourceFault?
  cases action.document? with
  | none => simp
  | some document => cases hsource : document.source <;> simp [hsource]

/-- The lines of a batch fail with the first document that has no JSON form. -/
theorem linesOf_eq_error_iff {actions : List BulkAction} {fault : Fault} :
    linesOf actions = .error fault ↔ actions.findSome? BulkAction.sourceFault? = some fault := by
  induction actions with
  | nil => simp [linesOf]
  | cons action rest ih =>
      rw [linesOf, List.findSome?_cons]
      cases hlines : action.lines with
      | error found => simp [lines_eq_error_iff.1 hlines]
      | ok lines =>
          have hsound : action.sourceFault? = none := by
            refine Option.eq_none_iff_forall_ne_some.2 fun found hfound => ?_
            rw [lines_eq_error_iff.2 hfound] at hlines
            cases hlines
          rw [hsound, ← ih]
          cases linesOf rest <;> simp

/-- A batch that breaks a rule is refused with its report, whatever its documents are. -/
theorem text_of_problems (h : request.problems ≠ []) :
    request.text = .error (.invalid request.validate) := by
  rw [text, Report.whenSound_of_fatal (isFatal_validate_iff.2 h)]
  rfl

/-- A batch that breaks no rule is written when its lines are. -/
theorem text_of_no_problems (h : request.problems = []) :
    request.text =
      match linesOf request.actions with
      | .ok lines => .ok (String.ofList (lines.flatMap lineText))
      | .error fault => .error (.json fault) := by
  have hsound : ¬ request.validate.isFatal = true := fun hfatal => isFatal_validate_iff.1 hfatal h
  rw [text, Report.whenSound_of_not_fatal hsound]
  rfl

/-- The report about a batch has one finding for each rule that the batch breaks at a position, by
position and an index before an id; all of them are fatal and none is taken for a repetition. The
batch is refused with this report exactly when there is such a finding, whatever its documents are;
otherwise it fails with the fault of the first document that has no JSON form, and is written when
every document has one. -/
theorem violations_reported (request : BulkRequest) :
    (∀ problem, problem ∈ request.problems ↔ request.Breaks problem) ∧
      request.problems.Pairwise (fun first second => first.rank < second.rank) ∧
      (request.actions = [] → request.problems = [.noActions]) ∧
      (request.problems.map BulkProblem.message).Nodup ∧
      request.validate.findings =
        request.problems.map (fun problem => ⟨problem.message, true⟩) ∧
      request.validate.fatalCount = request.problems.length ∧
      (∀ failure, request.text = .error failure ↔
        (request.problems ≠ [] ∧ failure = .invalid request.validate) ∨
          (request.problems = [] ∧ ∃ fault, failure = .json fault ∧
            request.actions.findSome? BulkAction.sourceFault? = some fault)) ∧
      ((∃ body, request.text = .ok body) ↔
        request.problems = [] ∧ ∀ action ∈ request.actions, action.sourceFault? = none) := by
  refine ⟨fun _ => mem_problems_iff, request.pairwise_problems, problems_of_no_actions,
    request.nodup_messages, request.findings_validate, request.fatalCount_validate,
    fun failure => ?_, ?_⟩
  · by_cases hproblems : request.problems = []
    · rw [text_of_no_problems hproblems]
      simp only [hproblems, ne_eq, not_true_eq_false, false_and, false_or, true_and,
        ← linesOf_eq_error_iff]
      cases linesOf request.actions <;> simp [eq_comm]
    · simp [text_of_problems hproblems, hproblems, eq_comm]
  · rw [← List.findSome?_eq_none_iff]
    by_cases hproblems : request.problems = []
    · rw [text_of_no_problems hproblems, and_iff_right hproblems]
      cases hlines : linesOf request.actions with
      | error fault => simp [linesOf_eq_error_iff.1 hlines]
      | ok lines =>
          refine iff_of_true ⟨_, rfl⟩ (Option.eq_none_iff_forall_ne_some.2 fun fault hfault => ?_)
          rw [linesOf_eq_error_iff.2 hfault] at hlines
          cases hlines
    · simp [text_of_problems hproblems, hproblems]

end BulkRequest

end SearchWire
