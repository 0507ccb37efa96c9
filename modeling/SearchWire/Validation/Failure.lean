import SearchWire.Validation.Report
import SearchWire.Json.Fault

/-!
# Failures of requests and responses

A request fails on its report or on a document that has no JSON form; a response
fails on the body or on one named result in it. `Failure.message` is the wording.
-/

namespace SearchWire

/-- Why a request cannot be written or a response cannot be read. -/
inductive Failure where
  | invalid (report : Report)
  | unreadable (name : String) (fault : Fault)
  | json (fault : Fault)
deriving DecidableEq

namespace Failure

/-- The wording of a failure. -/
def message : Failure → String
  | .invalid report => "validation failed: " ++ report.display
  | .unreadable name fault => "failed to decode result `" ++ name ++ "`: " ++ fault.message
  | .json fault => "JSON error: " ++ fault.message

end Failure

/-- The text of a request, unless its report has a fatal finding. -/
def Report.whenSound {α : Type} (report : Report) (text : α) : Except Failure α :=
  match report.verdict with
  | .ok () => .ok text
  | .error whole => .error (.invalid whole)

end SearchWire
