import SearchWire.Aggregation.Basic
import SearchWire.Query.Findings
import SearchWire.Binary64.Text

/-!
# Findings about aggregations

`LeafAggregation.problems` and `Division.problems` say which rules a node
breaks, its children and its filter query aside. `Aggregation.findings` walks
the tree: a child is located under its parent by `aggs`, its name and its kind,
and an empty name is reported just before the findings about the child.
-/

namespace SearchWire

/-- A rule that an aggregation node breaks. Positions are those of ranges. -/
inductive AggregationProblem where
  | noField
  | unknownMetric (tag : String)
  | idleThreshold
  | percentOutside (percent : Binary64)
  | idleSort
  | includedTwice
  | excludedTwice
  | noInterval
  | emptyInterval (entry : String)
  | noRange
  | boundNotFinite (position : Nat) (bound : String)
  | emptyRange (position : Nat) (lower upper : Binary64)
  | wholeRange (position : Nat)
  | noFilter
deriving DecidableEq

namespace AggregationProblem

/-- A problem that makes an aggregation meaningless is fatal; settings without effect and ranges
that hold nothing or everything are not. -/
def fatal : AggregationProblem → Bool
  | .noField | .unknownMetric _ | .percentOutside _ | .includedTwice | .excludedTwice
  | .noInterval | .emptyInterval _ | .noRange | .boundNotFinite _ _ | .noFilter => true
  | .idleThreshold | .idleSort | .emptyRange _ _ _ | .wholeRange _ => false

/-- Where in its node a problem lies: at the node itself, or at one of its ranges. -/
def place : AggregationProblem → String
  | .boundNotFinite position _ | .emptyRange position _ _ | .wholeRange position =>
      ".ranges[" ++ String.ofList (Nat.toDigits 10 position) ++ "]"
  | _ => ""

/-- The wording of a problem. -/
def message : AggregationProblem → String
  | .noField => "field is required"
  | .unknownMetric tag =>
      "unknown metric `" ++ tag ++ "`, expected one of cardinality, max, min, avg, sum"
  | .idleThreshold => "precision_threshold only applies to cardinality and is ignored"
  | .percentOutside percent => "percent " ++ percent.plainText ++ " is outside 0..=100"
  | .idleSort => "no sort, from or size set; buckets pass through unchanged"
  | .includedTwice => "include pattern and include values are mutually exclusive"
  | .excludedTwice => "exclude pattern and exclude values are mutually exclusive"
  | .noInterval => "calendar_interval or fixed_interval is required"
  | .emptyInterval entry => entry ++ " is required"
  | .noRange => "at least one range is required"
  | .boundNotFinite _ bound => bound ++ " must be a finite number"
  | .emptyRange _ lower upper =>
      "from " ++ lower.plainText ++ " is greater than to " ++ upper.plainText ++
        ", bucket is always empty"
  | .wholeRange _ => "range has neither from nor to and matches every date"
  | .noFilter => "filter query is required"

/-- The finding of a problem at a place. -/
def located (problem : AggregationProblem) (path : String) : Finding :=
  ⟨path ++ problem.place ++ ": " ++ problem.message, problem.fatal⟩

end AggregationProblem

/-- Whether a percent lies between 0 and 100. -/
def isPercent (percent : Binary64) : Bool :=
  (Binary64.ofNat 0).le percent && percent.le (Binary64.ofNat 100)

/-- Whether a bound is set and not finite. -/
def isUnbounded (bound : Option Binary64) : Bool :=
  match bound with
  | some value => !value.isFinite
  | none => false

/-- The problem of a range whose lower bound is above its upper bound. -/
def crossedBounds (position : Nat) (range : NumberRange) : List AggregationProblem :=
  match range.lower, range.upper with
  | some lower, some upper => problemIf (upper.lt lower) (.emptyRange position lower upper)
  | _, _ => []

/-- The rules that one range of numbers breaks. -/
def NumberRange.problems (position : Nat) (range : NumberRange) : List AggregationProblem :=
  problemIf (isUnbounded range.lower) (.boundNotFinite position "from") ++
    problemIf (isUnbounded range.upper) (.boundNotFinite position "to") ++
    crossedBounds position range

/-- The rules that one range of dates breaks. -/
def DateRange.problems (position : Nat) (range : DateRange) : List AggregationProblem :=
  problemIf (range.lower.isNone && range.upper.isNone) (.wholeRange position)

/-- The problems of a list of parts, each of which knows its position. -/
def problemsFrom {α : Type} (problems : Nat → α → List AggregationProblem) (position : Nat) :
    List α → List AggregationProblem
  | [] => []
  | part :: rest => problems position part ++ problemsFrom problems (position + 1) rest

/-- The rules that a leaf aggregation breaks. -/
def LeafAggregation.problems : LeafAggregation → List AggregationProblem
  | .metric body =>
      problemIf body.field.isEmpty .noField ++
        problemIf (!body.kind.isKnown) (.unknownMetric body.kind.tag) ++
        problemIf (body.precisionThreshold.isSome && body.kind != .cardinality) .idleThreshold
  | .percentiles body =>
      problemIf body.field.isEmpty .noField ++
        (body.percents.filter (!isPercent ·)).map .percentOutside
  | .bucketSort body =>
      problemIf (body.sort.isEmpty && body.start.isNone && body.size.isNone) .idleSort

/-- The rules that the width of the buckets breaks. -/
def Interval.problems : Option Interval → List AggregationProblem
  | none => [.noInterval]
  | some (.calendar unit) => problemIf unit.isEmpty (.emptyInterval "calendar_interval")
  | some (.fixed duration) => problemIf duration.isEmpty (.emptyInterval "fixed_interval")

/-- The rules that a bucket aggregation breaks, its filter query and its children aside. -/
def Division.problems : Division → List AggregationProblem
  | .terms body =>
      problemIf body.field.isEmpty .noField ++
        problemIf (body.includePattern.isSome && !body.includeValues.isEmpty) .includedTwice ++
        problemIf (body.excludePattern.isSome && !body.excludeValues.isEmpty) .excludedTwice
  | .dateHistogram body =>
      problemIf body.field.isEmpty .noField ++ Interval.problems body.interval
  | .range body =>
      problemIf body.field.isEmpty .noField ++ problemIf body.ranges.isEmpty .noRange ++
        problemsFrom NumberRange.problems 0 body.ranges
  | .dateRange body =>
      problemIf body.field.isEmpty .noField ++ problemIf body.ranges.isEmpty .noRange ++
        problemsFrom DateRange.problems 0 body.ranges
  | .filter query => problemIf query.isNone .noFilter

namespace Aggregation

/-- The findings of problems at one place. -/
def located (problems : List AggregationProblem) (path : String) : List Finding :=
  problems.map fun problem => problem.located path

/-- The findings about the query of a filter. -/
def filterFindings (path : String) : Division → List Finding
  | .filter (some query) => query.findings (Query.childPath path "filter" query.kind)
  | _ => []

/-- The finding about a child without a name. -/
def nameFindings (path name : String) : List Finding :=
  problemIf name.isEmpty ⟨path ++ ": aggregation name is required", true⟩

mutual

/-- The findings about an aggregation and its children, placed from a path on. -/
def findings (path : String) : Aggregation → List Finding
  | .leaf aggregation => located aggregation.problems path
  | .bucket division children =>
      located division.problems path ++ filterFindings path division ++
        findingsNamed (path ++ ".aggs") children
termination_by structural aggregation => aggregation

/-- The findings about named aggregations at a path. -/
def findingsNamed (path : String) : List (String × Aggregation) → List Finding
  | [] => []
  | (name, aggregation) :: rest =>
      nameFindings path name ++
        findings (Query.childPath path name aggregation.kind) aggregation ++
        findingsNamed path rest
termination_by structural children => children

end

/-- The report about an aggregation. -/
def validate (aggregation : Aggregation) : Report :=
  Report.ofList (aggregation.findings aggregation.kind)

end Aggregation

end SearchWire
