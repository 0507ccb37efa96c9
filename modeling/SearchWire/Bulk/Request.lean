import SearchWire.Bulk.Action
import SearchWire.Validation.Failure
import SearchWire.Json.Text

/-!
# Bulk requests and their framing

A bulk request is written as lines. Every action has a line that names the
operation, the id and the index, and every action with a document has a second
line with that document; each line ends with a line break. `BulkRequest.text`
writes nothing when the report has a fatal finding, and otherwise fails with the
first document that has no JSON form.
-/

namespace SearchWire

open Json

/-- An ordered batch of bulk actions. -/
structure BulkRequest where
  actions : List BulkAction := []
  defaultIndex : Option String := none
  refresh : Option Refresh := none

/-- A rule that a bulk request or one of its actions breaks. -/
inductive BulkProblem where
  | noActions
  | noIndex (position : Nat) (kind : ActionKind)
  | noId (position : Nat) (kind : ActionKind)
deriving DecidableEq

namespace BulkProblem

/-- The place of an action in a batch. -/
def actionPlace (position : Nat) (kind : ActionKind) : String :=
  "bulk.actions[" ++ String.ofList (Nat.toDigits 10 position) ++ "]." ++ kind.text

/-- The wording of a problem, with its place. -/
def message : BulkProblem → String
  | .noActions => "bulk: at least one action is required"
  | .noIndex position kind =>
      actionPlace position kind ++ ": index is required when no default index is set"
  | .noId position kind => actionPlace position kind ++ ": id is required"

/-- The finding of a problem; every one is fatal. -/
def finding (problem : BulkProblem) : Finding :=
  ⟨problem.message, true⟩

end BulkProblem

/-- Whether an operation needs the id of an existing document. -/
def ActionKind.needsId : ActionKind → Bool
  | .update | .delete => true
  | .create | .index => false

namespace BulkAction

/-- The rules that the action at a position breaks. -/
def problems (hasDefault : Bool) (position : Nat) (action : BulkAction) : List BulkProblem :=
  (if action.ownIndex.isEmpty && !hasDefault then [.noIndex position action.kind] else []) ++
    (if action.kind.needsId && action.id.isEmpty then [.noId position action.kind] else [])

/-- The entry of a string that is not empty. -/
def entryUnlessEmpty (name value : String) : List (String × Json) :=
  if value.isEmpty then [] else [(name, .string value)]

/-- The line that names the operation, the id and the index. -/
def metadata (action : BulkAction) : Json :=
  single action.kind.text
    (record (entryUnlessEmpty "_id" action.id ++ entryUnlessEmpty "_index" action.ownIndex))

/-- The line of a document; an update sends it as a partial document. -/
def sourceLine (kind : ActionKind) (source : Json) : Json :=
  if kind = .update then single "doc" source else source

/-- The lines of an action. -/
def lines (action : BulkAction) : Except Fault (List Json) :=
  match action.document? with
  | none => .ok [action.metadata]
  | some document => do
      let source ← document.source
      return [action.metadata, sourceLine action.kind source]

end BulkAction

namespace BulkRequest

/-- Appends an action. -/
def withAction (request : BulkRequest) (action : BulkAction) : BulkRequest :=
  { request with actions := request.actions ++ [action] }

/-- Sets the default index. -/
def withDefaultIndex (request : BulkRequest) (index : String) : BulkRequest :=
  { request with defaultIndex := some index }

/-- Sets the refresh policy. -/
def withRefresh (request : BulkRequest) (refresh : Refresh) : BulkRequest :=
  { request with refresh := some refresh }

/-- The default index, if it is set and not empty. -/
def effectiveDefault (request : BulkRequest) : Option String :=
  request.defaultIndex.filter (!·.isEmpty)

/-- The problems of the actions, the first of which has the given position. -/
def actionProblems (hasDefault : Bool) : Nat → List BulkAction → List BulkProblem
  | _, [] => []
  | position, action :: rest =>
      action.problems hasDefault position ++ actionProblems hasDefault (position + 1) rest

/-- The rules that a request breaks. -/
def problems (request : BulkRequest) : List BulkProblem :=
  (if request.actions.isEmpty then [.noActions] else []) ++
    actionProblems request.effectiveDefault.isSome 0 request.actions

/-- The report about a request. -/
def validate (request : BulkRequest) : Report :=
  Report.ofList (request.problems.map BulkProblem.finding)

/-- The lines of all actions, or the fault of the first document without a JSON form. -/
def linesOf : List BulkAction → Except Fault (List Json)
  | [] => .ok []
  | action :: rest => do
      let first ← action.lines
      let others ← linesOf rest
      return first ++ others

/-- A line with its line break. -/
def lineText (line : Json) : List Char :=
  line.text ++ ['\n']

/-- The written form of a request. -/
def text (request : BulkRequest) : Except Failure String := do
  request.validate.whenSound ()
  match linesOf request.actions with
  | .ok lines => .ok (String.ofList (lines.flatMap lineText))
  | .error fault => .error (.json fault)

/-- The path of a request. -/
def path (request : BulkRequest) : String :=
  (match request.effectiveDefault with
    | some index => "/" ++ index ++ "/_bulk"
    | none => "/_bulk") ++
    match request.refresh with
    | some refresh => "?refresh=" ++ refresh.text
    | none => ""

end BulkRequest

end SearchWire
