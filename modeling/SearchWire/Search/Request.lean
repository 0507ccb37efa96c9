import SearchWire.Aggregation.Compile
import SearchWire.Aggregation.Findings
import SearchWire.Validation.Failure
import SearchWire.Json.Text

/-!
# Search requests and their written form

A search request names the indices, a query, aggregations and the paging,
sorting and source filtering of hits. `Query.text`, `Aggregation.text` and
`SearchRequest.text` write the JSON form of a node unless its report has a fatal
finding, in which case they fail with the whole report.
-/

namespace SearchWire

open Json

/-- The written form of a query. -/
def Query.text (query : Query) : Except Failure String :=
  query.validate.whenSound query.compile.toText

/-- The written form of an aggregation. -/
def Aggregation.text (aggregation : Aggregation) : Except Failure String :=
  aggregation.validate.whenSound aggregation.compile.toText

/-- Which part of the source of hits is returned. -/
inductive SourceFilter where
  | disabled
  | fields (patterns : List String)
  | filter (includes excludes : List String)
deriving DecidableEq

/-- The JSON form of a source filter. -/
def SourceFilter.compile : SourceFilter → Json
  | .disabled => .bool false
  | .fields patterns => strings patterns
  | .filter includes excludes =>
      record
        (unlessEmpty "includes" (includes.map .string) ++
          unlessEmpty "excludes" (excludes.map .string))

/-- A search over some indices, or over all of them when none is named. -/
structure SearchRequest where
  indices : List String := []
  query : Option Query := none
  aggregations : List (String × Aggregation) := []
  start : Option Nat := none
  size : Option Nat := none
  sort : List SortKey := []
  source : Option SourceFilter := none
  trackTotalHits : Option Bool := none

namespace SearchRequest

/-- Appends indices. -/
def withIndices (request : SearchRequest) (indices : List String) : SearchRequest :=
  { request with indices := request.indices ++ indices }

/-- Sets the query. -/
def withQuery (request : SearchRequest) (query : Query) : SearchRequest :=
  { request with query := some query }

/-- Adds a named aggregation, in place of the one with that name. -/
def withAggregation (request : SearchRequest) (name : String) (aggregation : Aggregation) :
    SearchRequest :=
  { request with aggregations := Named.insert name aggregation request.aggregations }

/-- Sets the first hit returned; a negative number leaves it to the store. -/
def withStart (request : SearchRequest) (value : Int) : SearchRequest :=
  { request with start := countOf value }

/-- Sets the number of hits returned; a negative number leaves it to the store. -/
def withSize (request : SearchRequest) (value : Int) : SearchRequest :=
  { request with size := countOf value }

/-- Appends a criterion of the order of hits. -/
def withSort (request : SearchRequest) (sortKey : SortKey) : SearchRequest :=
  { request with sort := request.sort ++ [sortKey] }

/-- Sets the source filter. -/
def withSource (request : SearchRequest) (source : SourceFilter) : SearchRequest :=
  { request with source := some source }

/-- Sets whether all hits are counted. -/
def withTrackTotalHits (request : SearchRequest) (track : Bool) : SearchRequest :=
  { request with trackTotalHits := some track }

/-- The path of the request. -/
def path (request : SearchRequest) : String :=
  if request.indices.isEmpty then "/_search"
  else "/" ++ ",".intercalate request.indices ++ "/_search"

/-- The findings about the names of indices, the first of which has the given position. -/
def indexFindings (place : String) : Nat → List String → List Finding
  | _, [] => []
  | position, index :: rest =>
      problemIf index.isEmpty
          ⟨place ++ ".indices[" ++ String.ofList (Nat.toDigits 10 position) ++
            "]: index name is required", true⟩ ++
        indexFindings place (position + 1) rest

/-- The findings about the query of a request. -/
def queryFindings (place : String) : Option Query → List Finding
  | some query => query.findings (Query.childPath place "query" query.kind)
  | none => []

/-- The findings about a request and its nodes, placed from a path on. -/
def findings (place : String) (request : SearchRequest) : List Finding :=
  indexFindings place 0 request.indices ++ queryFindings place request.query ++
    Aggregation.findingsNamed (place ++ ".aggs") request.aggregations

/-- The report about a request. -/
def validate (request : SearchRequest) : Report :=
  Report.ofList (request.findings "search")

/-- The JSON form of a request. -/
def compile (request : SearchRequest) : Json :=
  record
    (optional "query" (request.query.map Query.compile) ++
      (if request.aggregations.isEmpty then []
        else [("aggs", record (Aggregation.compileEntries request.aggregations))]) ++
      optionalNat "from" request.start ++
      optionalNat "size" request.size ++
      unlessEmpty "sort" (SortKey.compileAll request.sort) ++
      optional "_source" (request.source.map SourceFilter.compile) ++
      optionalBool "track_total_hits" request.trackTotalHits)

/-- The written form of a request. -/
def text (request : SearchRequest) : Except Failure String :=
  request.validate.whenSound request.compile.toText

end SearchRequest

end SearchWire
