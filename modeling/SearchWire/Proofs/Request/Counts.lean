import SearchWire.Proofs.Request.Locations

/-!
# Counts after any sequence of calls

A count is an option that a call sets to a number, and that a negative number
leaves to the store. `Counted` says what a builder with counts has to obey: a
call changes no count but the one it gives a number for, and the form holds each
count under its key. Then `Counted.entry?_counts` gives what stands under a key
after any sequence of calls, which the last number given for it decides.
-/

namespace SearchWire

open Json

/-! ## Builders with counts -/

/-- What stands under the key of a count after numbers were given for counts: the number given last
for this one, unless it is negative. -/
def lastCount (key : String) (given : List (String × Int)) : Option Json :=
  (Named.last? key given).bind fun value => if 0 ≤ value then some (.int value) else none

/-- A count after a call that may give a number for some count. -/
def afterCall (given : Option (String × Int)) (key : String) (before : Option Nat) : Option Nat :=
  match given with
  | some (other, value) => if other = key then countOf value else before
  | none => before

/-- A builder with counts among its options. -/
structure Counted (State Call : Type) where
  /-- What a call makes of what is built so far. -/
  apply : State → Call → State
  /-- The number that a call gives, with the key of its count. -/
  given? : Call → Option (String × Int)
  /-- The counts that are held, with their keys. -/
  counts : State → List (String × Option Nat)
  /-- The object that is written. -/
  body : State → Json
  counts_apply : ∀ state call, counts (apply state call) =
    (counts state).map fun count => (count.1, afterCall (given? call) count.1 count.2)
  entry?_body : ∀ {state count}, count ∈ counts state →
    entry? count.1 (body state) = count.2.map .nat

theorem map_nat_countOf (value : Int) :
    (countOf value).map Json.nat = if 0 ≤ value then some (.int value) else none := by
  unfold countOf
  split
  next hnegative => rw [if_neg (by omega), Option.map_none]
  next hcount =>
    rw [if_pos (by omega), Option.map_some, Json.nat, Int.toNat_of_nonneg (by omega), Json.int]

namespace Counted

variable {State Call : Type} (builder : Counted State Call)

/-- The first of some calls decides a count when no later one gives a number for it. -/
theorem last?_cons_elim (call : Call) (calls : List Call) (key : String) (before : Option Nat) :
    (Named.last? key ((call :: calls).filterMap builder.given?)).elim before countOf =
      (Named.last? key (calls.filterMap builder.given?)).elim
        (afterCall (builder.given? call) key before) countOf := by
  cases hgiven : builder.given? call with
  | none => rw [List.filterMap_cons_none hgiven, afterCall]
  | some given =>
      rw [List.filterMap_cons_some hgiven, Named.last?_cons]
      cases Named.last? key (calls.filterMap builder.given?) with
      | some value => rfl
      | none =>
          simp only [afterCall, Option.none_or, Option.elim_none]
          split <;> rfl

/-- After any sequence of calls, a count is decided by the last number given for it, and is as it
was at the start when there is none. -/
theorem counts_foldl (calls : List Call) (state : State) :
    builder.counts (calls.foldl builder.apply state) =
      (builder.counts state).map fun count =>
        (count.1, (Named.last? count.1 (calls.filterMap builder.given?)).elim count.2 countOf) := by
  induction calls generalizing state with
  | nil => exact (List.map_id _).symm
  | cons call calls ih =>
      rw [List.foldl_cons, ih, builder.counts_apply, List.map_map]
      refine List.map_congr_left fun count _ => Prod.ext rfl ?_
      exact (builder.last?_cons_elim call calls count.1 count.2).symm

/-- After any sequence of calls, the form has the key of a count exactly when the last number given
for the count is not negative, and this number stands there. -/
theorem entry?_counts {start : State} {key : String} (hstart : (key, none) ∈ builder.counts start)
    (calls : List Call) :
    entry? key (builder.body (calls.foldl builder.apply start)) =
      lastCount key (calls.filterMap builder.given?) := by
  have hheld : (key, (Named.last? key (calls.filterMap builder.given?)).elim none countOf) ∈
      builder.counts (calls.foldl builder.apply start) := by
    rw [builder.counts_foldl]
    exact List.mem_map.2 ⟨_, hstart, rfl⟩
  rw [builder.entry?_body hheld, lastCount]
  cases Named.last? key (calls.filterMap builder.given?) with
  | none => rfl
  | some value => exact map_nat_countOf value

end Counted

/-! ## Buckets of terms -/

/-- A call on a terms aggregation. -/
inductive TermsCall where
  | size (value : Int)
  | shardSize (value : Int)
  | minDocCount (value : Int)
  | order (sortKey : SortKey)
  | includePattern (pattern : String)
  | includeValues (values : List String)
  | excludePattern (pattern : String)
  | excludeValues (values : List String)
  | missing (value : Json)
  | child (name : String) (aggregation : Aggregation)

namespace TermsCall

/-- A terms aggregation with its children after one more call. A child goes where
`Aggregation.withChild` puts it. -/
def apply (built : TermsBuckets × List (String × Aggregation)) :
    TermsCall → TermsBuckets × List (String × Aggregation)
  | size value => (built.1.withSize value, built.2)
  | shardSize value => (built.1.withShardSize value, built.2)
  | minDocCount value => (built.1.withMinDocCount value, built.2)
  | order sortKey => (built.1.withOrder sortKey, built.2)
  | includePattern pattern => (built.1.withInclude pattern, built.2)
  | includeValues values => (built.1.withIncludeValues values, built.2)
  | excludePattern pattern => (built.1.withExclude pattern, built.2)
  | excludeValues values => (built.1.withExcludeValues values, built.2)
  | missing value => (built.1.withMissing value, built.2)
  | child name aggregation => (built.1, Named.insert name aggregation built.2)

/-- The number that a call gives, with the key of its count. -/
def given? : TermsCall → Option (String × Int)
  | size value => some ("size", value)
  | shardSize value => some ("shard_size", value)
  | minDocCount value => some ("min_doc_count", value)
  | order _ | includePattern _ | includeValues _ | excludePattern _ | excludeValues _ | missing _
  | child _ _ => none

/-- The terms aggregation of a field after calls. -/
def build (field : String) (calls : List TermsCall) : Aggregation :=
  let built := calls.foldl apply ({ field }, [])
  .bucket (.terms built.1) built.2

def counted : Counted (TermsBuckets × List (String × Aggregation)) TermsCall where
  apply := apply
  given? := given?
  counts built := [("size", built.1.size), ("shard_size", built.1.shardSize),
    ("min_doc_count", built.1.minDocCount)]
  body built := Division.body (.terms built.1)
  counts_apply built call := by cases call <;> rfl
  entry?_body {built count} hcount := by
    rw [Division.body_eq, Division.bodyBy]
    refine entry?_slot ["field", "size", "shard_size", "min_doc_count", "order", "include",
      "exclude", "missing"] (by decide) rfl ?_
    simp only [List.mem_cons, List.not_mem_nil, or_false] at hcount
    rcases hcount with rfl | rfl | rfl <;> simp [Division.slots]

theorem at?_count (field : String) (calls : List TermsCall) {key : String}
    (hkey : key ∈ ["size", "shard_size", "min_doc_count"]) :
    at? [.name "terms", .name key] (build field calls).compile =
      lastCount key (calls.filterMap given?) := by
  have hstart : (key, none) ∈ counted.counts ({ field }, []) := by simpa [counted] using hkey
  let built := calls.foldl apply ({ field }, [])
  have hbody := Aggregation.at?_body (.terms built.1) built.2 [.name key]
  rw [at?_singleton] at hbody
  exact hbody.trans (counted.entry?_counts hstart calls)

end TermsCall

/-! ## Date histograms -/

/-- A call on a date histogram. -/
inductive HistogramCall where
  | interval (interval : Interval)
  | format (format : String)
  | timeZone (timeZone : String)
  | offset (offset : String)
  | minDocCount (value : Int)
  | order (sortKey : SortKey)
  | child (name : String) (aggregation : Aggregation)

namespace HistogramCall

/-- A date histogram with its children after one more call. A child goes where
`Aggregation.withChild` puts it. -/
def apply (built : DateHistogram × List (String × Aggregation)) :
    HistogramCall → DateHistogram × List (String × Aggregation)
  | interval width => (built.1.withInterval width, built.2)
  | format text => (built.1.withFormat text, built.2)
  | timeZone text => (built.1.withTimeZone text, built.2)
  | offset text => (built.1.withOffset text, built.2)
  | minDocCount value => (built.1.withMinDocCount value, built.2)
  | order sortKey => (built.1.withOrder sortKey, built.2)
  | child name aggregation => (built.1, Named.insert name aggregation built.2)

/-- The number that a call gives, with the key of its count. -/
def given? : HistogramCall → Option (String × Int)
  | minDocCount value => some ("min_doc_count", value)
  | interval _ | format _ | timeZone _ | offset _ | order _ | child _ _ => none

/-- The date histogram of a field after calls. -/
def build (field : String) (calls : List HistogramCall) : Aggregation :=
  let built := calls.foldl apply ({ field }, [])
  .bucket (.dateHistogram built.1) built.2

def counted : Counted (DateHistogram × List (String × Aggregation)) HistogramCall where
  apply := apply
  given? := given?
  counts built := [("min_doc_count", built.1.minDocCount)]
  body built := Division.body (.dateHistogram built.1)
  counts_apply built call := by cases call <;> rfl
  entry?_body {built count} hcount := by
    rw [Division.body_eq, Division.bodyBy]
    refine entry?_slot ["field", "calendar_interval", "fixed_interval", "format", "time_zone",
      "offset", "min_doc_count", "order"] (by decide) rfl ?_
    obtain rfl := List.mem_singleton.1 hcount
    simp [Division.slots]

theorem at?_minDocCount (field : String) (calls : List HistogramCall) :
    at? [.name "date_histogram", .name "min_doc_count"] (build field calls).compile =
      lastCount "min_doc_count" (calls.filterMap given?) := by
  let built := calls.foldl apply ({ field }, [])
  have hbody := Aggregation.at?_body (.dateHistogram built.1) built.2 [.name "min_doc_count"]
  rw [at?_singleton] at hbody
  exact hbody.trans (counted.entry?_counts (.head _) calls)

end HistogramCall

/-! ## Bucket sorts -/

/-- A call on a bucket sort. -/
inductive BucketSortCall where
  | sort (sortKey : SortKey)
  | start (value : Int)
  | size (value : Int)
  | gapPolicy (policy : GapPolicy)

namespace BucketSortCall

/-- A bucket sort after one more call. -/
def apply (built : BucketSort) : BucketSortCall → BucketSort
  | sort sortKey => built.withSort sortKey
  | start value => built.withStart value
  | size value => built.withSize value
  | gapPolicy policy => built.withGapPolicy policy

/-- The number that a call gives, with the key of its count. -/
def given? : BucketSortCall → Option (String × Int)
  | start value => some ("from", value)
  | size value => some ("size", value)
  | sort _ | gapPolicy _ => none

/-- The bucket sort after calls. -/
def build (calls : List BucketSortCall) : Aggregation :=
  .leaf (.bucketSort (calls.foldl apply {}))

def counted : Counted BucketSort BucketSortCall where
  apply := apply
  given? := given?
  counts built := [("from", built.start), ("size", built.size)]
  body built := LeafAggregation.body (.bucketSort built)
  counts_apply built call := by cases call <;> rfl
  entry?_body {built count} hcount := by
    rw [LeafAggregation.body_eq]
    refine entry?_slot ["sort", "from", "size", "gap_policy"] (by decide) rfl ?_
    simp only [List.mem_cons, List.not_mem_nil, or_false] at hcount
    rcases hcount with rfl | rfl <;> simp [LeafAggregation.slots]

theorem at?_count (calls : List BucketSortCall) {key : String} (hkey : key ∈ ["from", "size"]) :
    at? [.name "bucket_sort", .name key] (build calls).compile =
      lastCount key (calls.filterMap given?) := by
  have hstart : (key, none) ∈ counted.counts {} := by simpa [counted] using hkey
  refine (at?_single _ _ _).trans ?_
  rw [at?_singleton]
  exact counted.entry?_counts hstart calls

end BucketSortCall

/-! ## Search requests -/

/-- A call on a search request. -/
inductive SearchCall where
  | indices (indices : List String)
  | query (query : Query)
  | aggregation (name : String) (aggregation : Aggregation)
  | start (value : Int)
  | size (value : Int)
  | sort (sortKey : SortKey)
  | source (source : SourceFilter)
  | trackTotalHits (track : Bool)

namespace SearchCall

/-- A search request after one more call. -/
def apply (built : SearchRequest) : SearchCall → SearchRequest
  | indices names => built.withIndices names
  | query asked => built.withQuery asked
  | aggregation name added => built.withAggregation name added
  | start value => built.withStart value
  | size value => built.withSize value
  | sort sortKey => built.withSort sortKey
  | source shown => built.withSource shown
  | trackTotalHits track => built.withTrackTotalHits track

/-- The number that a call gives, with the key of its count. -/
def given? : SearchCall → Option (String × Int)
  | start value => some ("from", value)
  | size value => some ("size", value)
  | indices _ | query _ | aggregation _ _ | sort _ | source _ | trackTotalHits _ => none

/-- The search request after calls. -/
def build (calls : List SearchCall) : SearchRequest :=
  calls.foldl apply {}

def counted : Counted SearchRequest SearchCall where
  apply := apply
  given? := given?
  counts built := [("from", built.start), ("size", built.size)]
  body built := built.compile
  counts_apply built call := by cases call <;> rfl
  entry?_body {built count} hcount := by
    rw [SearchRequest.compile_eq]
    refine entry?_slot ["query", "aggs", "from", "size", "sort", "_source", "track_total_hits"]
      (by decide) rfl ?_
    simp only [List.mem_cons, List.not_mem_nil, or_false] at hcount
    rcases hcount with rfl | rfl <;> simp [SearchRequest.slots]

theorem at?_count (calls : List SearchCall) {key : String} (hkey : key ∈ ["from", "size"]) :
    at? [.name key] (build calls).compile = lastCount key (calls.filterMap given?) := by
  have hstart : (key, none) ∈ counted.counts {} := by simpa [counted] using hkey
  rw [at?_singleton]
  exact counted.entry?_counts hstart calls

end SearchCall

/-! ## Metrics -/

/-- A call on a metric. -/
inductive MetricCall where
  | missing (value : Json)
  | precisionThreshold (value : Int)

namespace MetricCall

/-- A metric after one more call. -/
def apply (built : MetricAggregation) : MetricCall → MetricAggregation
  | missing value => built.withMissing value
  | precisionThreshold value => built.withPrecisionThreshold value

/-- The number that a call gives, with the key of its count. -/
def given? : MetricCall → Option (String × Int)
  | precisionThreshold value => some ("precision_threshold", value)
  | missing _ => none

/-- The metric of a field after calls. -/
def build (kind : MetricKind) (field : String) (calls : List MetricCall) : Aggregation :=
  .leaf (.metric (calls.foldl apply { kind, field }))

/-- The parts of a metric have distinct names. -/
theorem entry?_metric {metric : MetricAggregation} {name : String} {slot : Option Json}
    (hmem : (name, slot) ∈ (LeafAggregation.metric metric).slots record) :
    entry? name (LeafAggregation.body (.metric metric)) = slot := by
  rw [LeafAggregation.body_eq]
  exact entry?_slot ["field", "missing", "precision_threshold"] (by decide) rfl hmem

def counted : Counted MetricAggregation MetricCall where
  apply := apply
  given? := given?
  counts built :=
    if built.kind = .cardinality then [("precision_threshold", built.precisionThreshold)] else []
  body built := LeafAggregation.body (.metric built)
  counts_apply built call := by
    by_cases hkind : built.kind = .cardinality <;>
      cases call <;>
        simp [apply, given?, hkind, MetricAggregation.withMissing,
          MetricAggregation.withPrecisionThreshold, afterCall]
  entry?_body {built count} hcount := by
    split at hcount
    next hkind =>
      obtain rfl := List.mem_singleton.1 hcount
      exact entry?_metric (by simp [LeafAggregation.slots, hkind])
    next => cases hcount

/-- No call changes what a metric computes. -/
theorem kind_foldl (calls : List MetricCall) (built : MetricAggregation) :
    (calls.foldl apply built).kind = built.kind := by
  induction calls generalizing built with
  | nil => rfl
  | cons call calls ih =>
      rw [List.foldl_cons, ih]
      cases call <;> rfl

theorem at?_precisionThreshold (kind : MetricKind) (field : String) (calls : List MetricCall) :
    at? [.name kind.tag, .name "precision_threshold"] (build kind field calls).compile =
      if kind = .cardinality then lastCount "precision_threshold" (calls.filterMap given?)
      else none := by
  have hkept : (calls.foldl apply { kind, field }).kind = kind := kind_foldl calls _
  rw [build, Aggregation.compile, LeafAggregation.kind, hkept, at?_single, at?_singleton]
  split
  next hkind =>
    subst hkind
    exact counted.entry?_counts (.head _) calls
  next hkind => exact entry?_metric (by simp [LeafAggregation.slots, hkept, hkind])

end MetricCall

/-! ## Written counts -/

/-- After any sequence of calls, the form of what was built has the key of a count exactly when the
last number given for the count is not negative, and this number stands there; calls that give no
number for the count do not matter. A metric other than the cardinality never has a precision
threshold. -/
theorem counts_written :
    (∀ (field : String) (calls : List TermsCall) (key : String),
      key ∈ ["size", "shard_size", "min_doc_count"] →
        at? [.name "terms", .name key] (TermsCall.build field calls).compile =
          lastCount key (calls.filterMap TermsCall.given?)) ∧
    (∀ (field : String) (calls : List HistogramCall),
      at? [.name "date_histogram", .name "min_doc_count"]
          (HistogramCall.build field calls).compile =
        lastCount "min_doc_count" (calls.filterMap HistogramCall.given?)) ∧
    (∀ (calls : List BucketSortCall) (key : String), key ∈ ["from", "size"] →
      at? [.name "bucket_sort", .name key] (BucketSortCall.build calls).compile =
        lastCount key (calls.filterMap BucketSortCall.given?)) ∧
    (∀ (calls : List SearchCall) (key : String), key ∈ ["from", "size"] →
      at? [.name key] (SearchCall.build calls).compile =
        lastCount key (calls.filterMap SearchCall.given?)) ∧
    ∀ (kind : MetricKind) (field : String) (calls : List MetricCall),
      at? [.name kind.tag, .name "precision_threshold"]
          (MetricCall.build kind field calls).compile =
        if kind = .cardinality then
          lastCount "precision_threshold" (calls.filterMap MetricCall.given?)
        else none :=
  ⟨fun field calls _ => TermsCall.at?_count field calls, HistogramCall.at?_minDocCount,
    fun calls _ => BucketSortCall.at?_count calls, fun calls _ => SearchCall.at?_count calls,
    MetricCall.at?_precisionThreshold⟩

/-- Calls that set a size and take it back, beside two counts at the ends of their range. -/
def unlimitedTerms : List TermsCall :=
  [.size 5, .shardSize (2 ^ 63 - 1), .order ⟨"_count", .desc⟩, .minDocCount 0,
    .child "top" (BucketSortCall.build [.size 1]), .size (-2 ^ 63)]

theorem counts_written_unlimitedTerms :
    let form := (TermsCall.build "host" unlimitedTerms).compile
    at? [.name "terms", .name "size"] form = none ∧
      at? [.name "terms", .name "shard_size"] form = some (.int (2 ^ 63 - 1)) ∧
      at? [.name "terms", .name "min_doc_count"] form = some (.int 0) :=
  ⟨counts_written.1 "host" unlimitedTerms "size" (by decide),
    counts_written.1 "host" unlimitedTerms "shard_size" (by decide),
    counts_written.1 "host" unlimitedTerms "min_doc_count" (by decide)⟩

end SearchWire
