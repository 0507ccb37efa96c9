import SearchWire.Query.Basic
import SearchWire.Search.SortKey
import SearchWire.Calendar.Instant
import SearchWire.Text.Named

/-!
# Aggregations

A leaf aggregation computes a value or reshapes the buckets of its parent; a
bucket aggregation divides the documents and holds named aggregations of each
bucket. The children of a bucket aggregation are listed by increasing name, and
`Aggregation.withChild` replaces the child that has the name already.
-/

namespace SearchWire

/-- A metric with a single value. A tag outside the known five is kept, so that validation can
refuse it. -/
inductive MetricKind where
  | cardinality
  | max
  | min
  | avg
  | sum
  | unknown (tag : String)
deriving DecidableEq

namespace MetricKind

/-- The metric of a tag. -/
def ofTag (tag : String) : MetricKind :=
  if tag = "cardinality" then .cardinality
  else if tag = "max" then .max
  else if tag = "min" then .min
  else if tag = "avg" then .avg
  else if tag = "sum" then .sum
  else .unknown tag

/-- The tag of a metric. -/
def tag : MetricKind → String
  | .cardinality => "cardinality"
  | .max => "max"
  | .min => "min"
  | .avg => "avg"
  | .sum => "sum"
  | .unknown tag => tag

/-- Whether a metric is one of the five. -/
def isKnown : MetricKind → Bool
  | .unknown _ => false
  | .cardinality | .max | .min | .avg | .sum => true

end MetricKind

/-- A single value over a field. The precision threshold concerns the cardinality alone. -/
structure MetricAggregation where
  kind : MetricKind
  field : String
  missing : Option Json := none
  precisionThreshold : Option Nat := none

/-- Percentile estimates over a field; without percents the store chooses them. -/
structure PercentilesAggregation where
  field : String
  percents : List Binary64 := []
  missing : Option Json := none
  keyed : Option Bool := none

/-- What a pipeline does with buckets that lack a value. -/
inductive GapPolicy where
  | skip
  | insertZeros
  | keepValues
deriving DecidableEq

/-- The gap policy on the wire. -/
def GapPolicy.text : GapPolicy → String
  | .skip => "skip"
  | .insertZeros => "insert_zeros"
  | .keepValues => "keep_values"

/-- Sorts and truncates the buckets of the parent. -/
structure BucketSort where
  sort : List SortKey := []
  start : Option Nat := none
  size : Option Nat := none
  gapPolicy : Option GapPolicy := none
deriving DecidableEq

/-- An aggregation without children. -/
inductive LeafAggregation where
  | metric (metric : MetricAggregation)
  | percentiles (percentiles : PercentilesAggregation)
  | bucketSort (bucketSort : BucketSort)

/-- One bucket for each value of a field. Included and excluded values are given by a pattern or by
a list, and not by both. -/
structure TermsBuckets where
  field : String
  size : Option Nat := none
  shardSize : Option Nat := none
  minDocCount : Option Nat := none
  order : List SortKey := []
  includePattern : Option String := none
  includeValues : List String := []
  excludePattern : Option String := none
  excludeValues : List String := []
  missing : Option Json := none

/-- The width of the buckets of a date histogram: a unit of the calendar, or a fixed duration. -/
inductive Interval where
  | calendar (unit : String)
  | fixed (duration : String)
deriving DecidableEq

/-- Buckets of equal width over a date field. -/
structure DateHistogram where
  field : String
  interval : Option Interval := none
  format : Option String := none
  timeZone : Option String := none
  offset : Option String := none
  minDocCount : Option Nat := none
  order : List SortKey := []
deriving DecidableEq

/-- A range of numbers, from the lower bound inclusive to the upper bound exclusive. -/
structure NumberRange where
  key : Option String := none
  lower : Option Binary64 := none
  upper : Option Binary64 := none
deriving DecidableEq

/-- Buckets over ranges of a numeric field. -/
structure RangeBuckets where
  field : String
  ranges : List NumberRange := []
  keyed : Option Bool := none
  missing : Option Json := none

/-- A range of dates, whose bounds are date expressions. -/
structure DateRange where
  key : Option String := none
  lower : Option String := none
  upper : Option String := none
deriving DecidableEq

/-- Buckets over ranges of a date field. -/
structure DateRangeBuckets where
  field : String
  format : Option String := none
  timeZone : Option String := none
  ranges : List DateRange := []
  keyed : Option Bool := none
deriving DecidableEq

/-- How a bucket aggregation divides the documents. -/
inductive Division where
  | terms (terms : TermsBuckets)
  | dateHistogram (histogram : DateHistogram)
  | range (ranges : RangeBuckets)
  | dateRange (ranges : DateRangeBuckets)
  | filter (query : Option Query)

/-- An aggregation. -/
inductive Aggregation where
  | leaf (aggregation : LeafAggregation)
  | bucket (division : Division) (children : List (String × Aggregation))

/-- The name of a leaf aggregation on the wire. -/
def LeafAggregation.kind : LeafAggregation → String
  | .metric body => body.kind.tag
  | .percentiles _ => "percentiles"
  | .bucketSort _ => "bucket_sort"

/-- The name of a bucket aggregation on the wire. -/
def Division.kind : Division → String
  | .terms _ => "terms"
  | .dateHistogram _ => "date_histogram"
  | .range _ => "range"
  | .dateRange _ => "date_range"
  | .filter _ => "filter"

namespace Aggregation

/-- The name of an aggregation on the wire. -/
def kind : Aggregation → String
  | .leaf aggregation => aggregation.kind
  | .bucket division _ => division.kind

/-- The children of a bucket aggregation; a leaf cannot have any. -/
def children? : Aggregation → Option (List (String × Aggregation))
  | .leaf _ => none
  | .bucket _ children => some children

/-- Adds a named child to a bucket aggregation, in place of the child with that name. -/
def withChild (parent : Aggregation) (name : String) (child : Aggregation) : Aggregation :=
  match parent with
  | .leaf aggregation => .leaf aggregation
  | .bucket division children => .bucket division (Named.insert name child children)

end Aggregation

namespace MetricAggregation

/-- Sets the value of documents without the field. -/
def withMissing (metric : MetricAggregation) (value : Json) : MetricAggregation :=
  { metric with missing := some value }

/-- Sets the precision threshold; a negative one leaves it to the store. -/
def withPrecisionThreshold (metric : MetricAggregation) (value : Int) : MetricAggregation :=
  { metric with precisionThreshold := countOf value }

end MetricAggregation

namespace BucketSort

/-- Appends a criterion. -/
def withSort (bucketSort : BucketSort) (sortKey : SortKey) : BucketSort :=
  { bucketSort with sort := bucketSort.sort ++ [sortKey] }

/-- Sets the first bucket kept; a negative number leaves it to the store. -/
def withStart (bucketSort : BucketSort) (value : Int) : BucketSort :=
  { bucketSort with start := countOf value }

/-- Sets the number of buckets kept; a negative number leaves it to the store. -/
def withSize (bucketSort : BucketSort) (value : Int) : BucketSort :=
  { bucketSort with size := countOf value }

/-- Sets what happens to buckets that lack a value. -/
def withGapPolicy (bucketSort : BucketSort) (policy : GapPolicy) : BucketSort :=
  { bucketSort with gapPolicy := some policy }

end BucketSort

namespace TermsBuckets

/-- Sets the number of buckets; a negative number leaves it to the store. -/
def withSize (terms : TermsBuckets) (value : Int) : TermsBuckets :=
  { terms with size := countOf value }

/-- Sets the number of buckets per shard; a negative number leaves it to the store. -/
def withShardSize (terms : TermsBuckets) (value : Int) : TermsBuckets :=
  { terms with shardSize := countOf value }

/-- Sets the least number of documents of a bucket; a negative number leaves it to the store. -/
def withMinDocCount (terms : TermsBuckets) (value : Int) : TermsBuckets :=
  { terms with minDocCount := countOf value }

/-- Appends a criterion of the order of buckets. -/
def withOrder (terms : TermsBuckets) (sortKey : SortKey) : TermsBuckets :=
  { terms with order := terms.order ++ [sortKey] }

/-- Sets the pattern of included values. -/
def withInclude (terms : TermsBuckets) (pattern : String) : TermsBuckets :=
  { terms with includePattern := some pattern }

/-- Sets the list of included values. -/
def withIncludeValues (terms : TermsBuckets) (values : List String) : TermsBuckets :=
  { terms with includeValues := values }

/-- Sets the pattern of excluded values. -/
def withExclude (terms : TermsBuckets) (pattern : String) : TermsBuckets :=
  { terms with excludePattern := some pattern }

/-- Sets the list of excluded values. -/
def withExcludeValues (terms : TermsBuckets) (values : List String) : TermsBuckets :=
  { terms with excludeValues := values }

/-- Sets the value of documents without the field. -/
def withMissing (terms : TermsBuckets) (value : Json) : TermsBuckets :=
  { terms with missing := some value }

end TermsBuckets

namespace DateHistogram

/-- Sets the width of the buckets. -/
def withInterval (histogram : DateHistogram) (interval : Interval) : DateHistogram :=
  { histogram with interval := some interval }

/-- Sets the format of the keys. -/
def withFormat (histogram : DateHistogram) (format : String) : DateHistogram :=
  { histogram with format := some format }

/-- Sets the time zone of the buckets. -/
def withTimeZone (histogram : DateHistogram) (timeZone : String) : DateHistogram :=
  { histogram with timeZone := some timeZone }

/-- Sets the offset of the buckets. -/
def withOffset (histogram : DateHistogram) (offset : String) : DateHistogram :=
  { histogram with offset := some offset }

/-- Sets the least number of documents of a bucket; a negative number leaves it to the store. -/
def withMinDocCount (histogram : DateHistogram) (value : Int) : DateHistogram :=
  { histogram with minDocCount := countOf value }

/-- Appends a criterion of the order of buckets. -/
def withOrder (histogram : DateHistogram) (sortKey : SortKey) : DateHistogram :=
  { histogram with order := histogram.order ++ [sortKey] }

end DateHistogram

namespace RangeBuckets

/-- Appends a range. -/
def withRange (buckets : RangeBuckets) (range : NumberRange) : RangeBuckets :=
  { buckets with ranges := buckets.ranges ++ [range] }

/-- Appends the range between two numbers. -/
def between (buckets : RangeBuckets) (lower upper : Binary64) : RangeBuckets :=
  buckets.withRange ⟨none, some lower, some upper⟩

/-- Appends the range from a number up. -/
def above (buckets : RangeBuckets) (lower : Binary64) : RangeBuckets :=
  buckets.withRange ⟨none, some lower, none⟩

/-- Appends the range below a number. -/
def below (buckets : RangeBuckets) (upper : Binary64) : RangeBuckets :=
  buckets.withRange ⟨none, none, some upper⟩

end RangeBuckets

namespace DateRangeBuckets

/-- Appends a range. -/
def withRange (buckets : DateRangeBuckets) (range : DateRange) : DateRangeBuckets :=
  { buckets with ranges := buckets.ranges ++ [range] }

/-- Appends the range between two date expressions. -/
def between (buckets : DateRangeBuckets) (lower upper : String) : DateRangeBuckets :=
  buckets.withRange ⟨none, some lower, some upper⟩

/-- Appends the range between two instants, written to the millisecond. -/
def betweenInstants (buckets : DateRangeBuckets) (lower upper : Instant) : DateRangeBuckets :=
  buckets.between lower.text upper.text

/-- Appends the range from a date expression on. -/
def after (buckets : DateRangeBuckets) (lower : String) : DateRangeBuckets :=
  buckets.withRange ⟨none, some lower, none⟩

/-- Appends the range before a date expression. -/
def before (buckets : DateRangeBuckets) (upper : String) : DateRangeBuckets :=
  buckets.withRange ⟨none, none, some upper⟩

end DateRangeBuckets

end SearchWire
