import SearchWire.Aggregation.Basic
import SearchWire.Query.Compile

/-!
# The JSON form of aggregations

A leaf compiles to an object with one entry, named by its kind. A bucket
aggregation has a second entry `aggs` beside it when it has children; the
children stand there under their names, in the order of the names.
-/

namespace SearchWire

open Json

/-- The pattern of a filter on values, or else its list when that is not empty. -/
def patternOrValues (name : String) (pattern : Option String) (values : List String) :
    List (String × Json) :=
  match pattern with
  | some text => [(name, .string text)]
  | none => unlessEmpty name (values.map .string)

/-- The body of a leaf aggregation. -/
def LeafAggregation.body : LeafAggregation → Json
  | .metric body =>
      record
        (("field", .string body.field) :: optional "missing" body.missing ++
          (if body.kind = .cardinality then
            optionalNat "precision_threshold" body.precisionThreshold
          else []))
  | .percentiles body =>
      record
        (("field", .string body.field) ::
          unlessEmpty "percents" (body.percents.map .ofBinary64) ++
          optional "missing" body.missing ++
          optionalBool "keyed" body.keyed)
  | .bucketSort body =>
      record
        (unlessEmpty "sort" (SortKey.compileAll body.sort) ++
          optionalNat "from" body.start ++
          optionalNat "size" body.size ++
          optionalString "gap_policy" (body.gapPolicy.map GapPolicy.text))

/-- The entry of the width of the buckets. -/
def Interval.entry : Interval → String × Json
  | .calendar unit => ("calendar_interval", .string unit)
  | .fixed duration => ("fixed_interval", .string duration)

/-- The JSON form of a range of numbers. -/
def NumberRange.compile (range : NumberRange) : Json :=
  record
    (optionalString "key" range.key ++ optionalDouble "from" range.lower ++
      optionalDouble "to" range.upper)

/-- The JSON form of a range of dates. -/
def DateRange.compile (range : DateRange) : Json :=
  record
    (optionalString "key" range.key ++ optionalString "from" range.lower ++
      optionalString "to" range.upper)

/-- The body of a bucket aggregation, its children aside. -/
def Division.body : Division → Json
  | .terms body =>
      record
        (("field", .string body.field) ::
          optionalNat "size" body.size ++
          optionalNat "shard_size" body.shardSize ++
          optionalNat "min_doc_count" body.minDocCount ++
          unlessEmpty "order" (SortKey.compileAll body.order) ++
          patternOrValues "include" body.includePattern body.includeValues ++
          patternOrValues "exclude" body.excludePattern body.excludeValues ++
          optional "missing" body.missing)
  | .dateHistogram body =>
      record
        (("field", .string body.field) ::
          (body.interval.map Interval.entry).toList ++
          optionalString "format" body.format ++
          optionalString "time_zone" body.timeZone ++
          optionalString "offset" body.offset ++
          optionalNat "min_doc_count" body.minDocCount ++
          unlessEmpty "order" (SortKey.compileAll body.order))
  | .range body =>
      record
        (("field", .string body.field) ::
          ("ranges", .array (body.ranges.map NumberRange.compile)) ::
          (optionalBool "keyed" body.keyed ++ optional "missing" body.missing))
  | .dateRange body =>
      record
        (("field", .string body.field) ::
          optionalString "format" body.format ++
          optionalString "time_zone" body.timeZone ++
          ("ranges", .array (body.ranges.map DateRange.compile)) ::
          optionalBool "keyed" body.keyed)
  | .filter query => Query.compileOption query

namespace Aggregation

mutual

/-- The JSON form of an aggregation. -/
def compile : Aggregation → Json
  | .leaf aggregation => single aggregation.kind aggregation.body
  | .bucket division children =>
      record
        ((division.kind, division.body) ::
          (if children.isEmpty then [] else [("aggs", record (compileEntries children))]))

/-- The entries of named aggregations. -/
def compileEntries : List (String × Aggregation) → List (String × Json)
  | [] => []
  | (name, aggregation) :: rest => (name, compile aggregation) :: compileEntries rest

end

end Aggregation

end SearchWire
