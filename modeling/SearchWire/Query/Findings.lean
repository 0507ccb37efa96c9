import SearchWire.Query.Basic
import SearchWire.Validation.Report

/-!
# Findings about queries

`Query.problems` says which rules a single node breaks, without its subqueries.
`Query.findings` walks the whole tree and places every problem: a subquery is
located under its parent by the role it plays there, its position among the
clauses and its kind. The rules about clauses follow those of the clauses
themselves.
-/

namespace SearchWire

/-- A rule that a query node breaks. -/
inductive QueryProblem where
  | noField
  | noPath
  | noQuery
  | noValues
  | noBounds
  | noIds
  | noShouldClause
deriving DecidableEq

namespace QueryProblem

/-- A problem that makes a query meaningless is fatal; one that makes it match nothing, or less
strict than it looks, is not. -/
def fatal : QueryProblem → Bool
  | .noField | .noPath | .noQuery => true
  | .noValues | .noBounds | .noIds | .noShouldClause => false

/-- The wording of a problem. -/
def message : QueryProblem → String
  | .noField => "field is required"
  | .noPath => "path is required"
  | .noQuery => "query is required"
  | .noValues => "no values given, matches nothing"
  | .noBounds => "no bounds given, matches any value"
  | .noIds => "no ids given, matches nothing"
  | .noShouldClause => "minimum_should_match is set but there are no should clauses"

/-- The finding of a problem at a place. -/
def located (problem : QueryProblem) (path : String) : Finding :=
  ⟨path ++ ": " ++ problem.message, problem.fatal⟩

end QueryProblem

/-- The problem, when the condition holds. -/
def problemIf {α : Type} (condition : Bool) (problem : α) : List α :=
  if condition then [problem] else []

/-- The rules that a leaf query breaks. -/
def LeafQuery.problems : LeafQuery → List QueryProblem
  | .matchAll _ => []
  | .term query => problemIf query.field.isEmpty .noField
  | .terms query =>
      problemIf query.field.isEmpty .noField ++ problemIf query.values.isEmpty .noValues
  | .fullText query => problemIf query.field.isEmpty .noField
  | .phrase query => problemIf query.field.isEmpty .noField
  | .beginsWith query => problemIf query.field.isEmpty .noField
  | .wildcard query => problemIf query.field.isEmpty .noField
  | .regexp query => problemIf query.field.isEmpty .noField
  | .range query =>
      problemIf query.field.isEmpty .noField ++ problemIf (!query.hasBounds) .noBounds
  | .fieldExists field => problemIf field.isEmpty .noField
  | .ids values => problemIf values.isEmpty .noIds

namespace Query

/-- The rules that a node breaks, its subqueries aside. -/
def problems : Query → List QueryProblem
  | .leaf query => query.problems
  | .nested path query _ => problemIf path.isEmpty .noPath ++ problemIf query.isNone .noQuery
  | .bool _ _ should _ options =>
      problemIf (should.isEmpty && (options.minimumShouldMatch.getD 0 > 0)) .noShouldClause

/-- The findings of problems at one place. -/
def located (problems : List QueryProblem) (path : String) : List Finding :=
  problems.map fun problem => problem.located path

/-- The place of the query that another query or a request holds in a role. -/
def childPath (path role kind : String) : String :=
  path ++ "." ++ role ++ "." ++ kind

/-- The place of a clause of a boolean query. -/
def clausePath (path role : String) (position : Nat) (kind : String) : String :=
  childPath path (role ++ "[" ++ String.ofList (Nat.toDigits 10 position) ++ "]") kind

mutual

/-- The findings about a query and its subqueries, placed from a path on. -/
def findings (path : String) : Query → List Finding
  | .leaf query => located query.problems path
  | .nested objectPath query options =>
      located (problems (.nested objectPath query options)) path ++ findingsOption path query
  | .bool must mustNot should filter options =>
      findingsList path "must" 0 must ++ findingsList path "must_not" 0 mustNot ++
        findingsList path "should" 0 should ++ findingsList path "filter" 0 filter ++
        located (problems (.bool must mustNot should filter options)) path
termination_by structural query => query

/-- The findings about the query of a nested query. -/
def findingsOption (path : String) : Option Query → List Finding
  | some query => findings (childPath path "query" query.kind) query
  | none => []
termination_by structural query => query

/-- The findings about the clauses of one role, the first of which has the given position. -/
def findingsList (path role : String) (position : Nat) : List Query → List Finding
  | [] => []
  | query :: rest =>
      findings (clausePath path role position query.kind) query ++
        findingsList path role (position + 1) rest
termination_by structural queries => queries

end

/-- The report about a query. -/
def validate (query : Query) : Report :=
  Report.ofList (query.findings query.kind)

end Query

end SearchWire
