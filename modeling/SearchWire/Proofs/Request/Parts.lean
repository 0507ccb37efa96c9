import SearchWire.Proofs.Request.QueryForm

/-!
# The parts of a node and the objects built from them

`Node.builtBy` says which entries a node puts into each object of its JSON form,
in which order, and leaves open how an object is made of its entries. A part that
may be missing is a slot. `Node.compile_eq_builtBy` says that the JSON form of a
node is built so by `Json.record`, which sets one entry after another.
-/

namespace SearchWire

open Json

/-- How an object is made of entries. -/
abbrev Builder := List (String × Json) → Json

/-! ## Queries -/

namespace Query

/-- The parts of a nested query. -/
def nestedSlots (path : String) (query : Option Query) (options : NestedOptions) :
    List (String × Option Json) :=
  [("path", some (.string path)), ("query", some (compileOption query)),
    ("score_mode", (options.scoreMode.map ScoreMode.text).map .string),
    ("ignore_unmapped", options.ignoreUnmapped.map .bool)]

/-- The parts of a boolean query. -/
def boolSlots (must mustNot should filter : List Query) (options : BoolOptions) :
    List (String × Option Json) :=
  [("must", arraySlot (must.map compile)), ("must_not", arraySlot (mustNot.map compile)),
    ("should", arraySlot (should.map compile)), ("filter", arraySlot (filter.map compile)),
    ("minimum_should_match", options.minimumShouldMatch.map .int),
    ("boost", options.boost.map ofBinary64)]

end Query

/-- A value under a field, alone or under a name beside the options that are set. -/
def Json.underFieldBy (build : Builder) (field valueName : String) (value : Json)
    (options : List (String × Json)) : Json :=
  build [(field, if options.isEmpty then value else build ((valueName, value) :: options))]

/-- The body of a leaf query. -/
def LeafQuery.bodyBy (build : Builder) (query : LeafQuery) : Json :=
  match query with
  | .matchAll _ => build (present query.slots)
  | .term held => underFieldBy build held.field "value" held.value (present query.slots)
  | .terms held => build ((held.field, .array held.values) :: present query.slots)
  | .fullText held => underFieldBy build held.field "query" held.query (present query.slots)
  | .phrase held => underFieldBy build held.field "query" (.string held.query) (present query.slots)
  | .beginsWith held =>
      underFieldBy build held.field "value" (.string held.value) (present query.slots)
  | .wildcard held =>
      underFieldBy build held.field "value" (.string held.pattern) (present query.slots)
  | .regexp held =>
      underFieldBy build held.field "value" (.string held.pattern) (present query.slots)
  | .range held => build [(held.field, build (present query.slots))]
  | .fieldExists field => build [("field", .string field)]
  | .ids values => build [("values", strings values)]

/-! ## Sorting, ranges and the filter of sources -/

/-- The form of a sort key. -/
def SortKey.builtBy (build : Builder) (sortKey : SortKey) : Json :=
  build [(sortKey.key, .string sortKey.direction.text)]

/-- The slot of an order. -/
def orderSlot (build : Builder) (order : List SortKey) : Option Json :=
  arraySlot (order.map (SortKey.builtBy build))

/-- The parts of a range of numbers. -/
def NumberRange.slots (range : NumberRange) : List (String × Option Json) :=
  [("key", range.key.map .string), ("from", range.lower.map ofBinary64),
    ("to", range.upper.map ofBinary64)]

/-- The parts of a range of dates. -/
def DateRange.slots (range : DateRange) : List (String × Option Json) :=
  [("key", range.key.map .string), ("from", range.lower.map .string),
    ("to", range.upper.map .string)]

/-- The form of a source filter. -/
def SourceFilter.builtBy (build : Builder) : SourceFilter → Json
  | .disabled => .bool false
  | .fields patterns => strings patterns
  | .filter includes excludes =>
      build (present [("includes", arraySlot (includes.map .string)),
        ("excludes", arraySlot (excludes.map .string))])

/-! ## Aggregations -/

/-- The slot of a filter on values: its pattern, or else its list when that is not empty. -/
def patternSlot (pattern : Option String) (values : List String) : Option Json :=
  match pattern with
  | some text => some (.string text)
  | none => arraySlot (values.map .string)

/-- The unit of an interval of the calendar. -/
def Interval.unit? : Interval → Option String
  | .calendar unit => some unit
  | .fixed _ => none

/-- The duration of a fixed interval. -/
def Interval.duration? : Interval → Option String
  | .calendar _ => none
  | .fixed duration => some duration

/-- The parts of a leaf aggregation. A precision threshold is a part of the cardinality alone. -/
def LeafAggregation.slots (build : Builder) : LeafAggregation → List (String × Option Json)
  | .metric body =>
      [("field", some (.string body.field)), ("missing", body.missing),
        ("precision_threshold",
          if body.kind = .cardinality then body.precisionThreshold.map .nat else none)]
  | .percentiles body =>
      [("field", some (.string body.field)), ("percents", arraySlot (body.percents.map ofBinary64)),
        ("missing", body.missing), ("keyed", body.keyed.map .bool)]
  | .bucketSort body =>
      [("sort", orderSlot build body.sort), ("from", body.start.map .nat),
        ("size", body.size.map .nat),
        ("gap_policy", (body.gapPolicy.map GapPolicy.text).map .string)]

/-- The parts of a division; the one part of a filter is its query. -/
def Division.slots (build : Builder) : Division → List (String × Option Json)
  | .terms body =>
      [("field", some (.string body.field)), ("size", body.size.map .nat),
        ("shard_size", body.shardSize.map .nat), ("min_doc_count", body.minDocCount.map .nat),
        ("order", orderSlot build body.order),
        ("include", patternSlot body.includePattern body.includeValues),
        ("exclude", patternSlot body.excludePattern body.excludeValues), ("missing", body.missing)]
  | .dateHistogram body =>
      [("field", some (.string body.field)),
        ("calendar_interval", (body.interval.bind Interval.unit?).map .string),
        ("fixed_interval", (body.interval.bind Interval.duration?).map .string),
        ("format", body.format.map .string), ("time_zone", body.timeZone.map .string),
        ("offset", body.offset.map .string), ("min_doc_count", body.minDocCount.map .nat),
        ("order", orderSlot build body.order)]
  | .range body =>
      [("field", some (.string body.field)),
        ("ranges", some (.array (body.ranges.map fun range => build (present range.slots)))),
        ("keyed", body.keyed.map .bool), ("missing", body.missing)]
  | .dateRange body =>
      [("field", some (.string body.field)), ("format", body.format.map .string),
        ("time_zone", body.timeZone.map .string),
        ("ranges", some (.array (body.ranges.map fun range => build (present range.slots)))),
        ("keyed", body.keyed.map .bool)]
  | .filter _ => []

/-- The body of a division. -/
def Division.bodyBy (build : Builder) (division : Division) : Json :=
  match division with
  | .filter query => Query.compileOption query
  | .terms _ | .dateHistogram _ | .range _ | .dateRange _ => build (present (division.slots build))

theorem Division.kind_ne_aggs (division : Division) : division.kind ≠ "aggs" := by
  cases division <;> simp [kind]

/-- The slot of named aggregations. -/
def aggregationsSlot (build : Builder) (named : List (String × Aggregation)) : Option Json :=
  if named.isEmpty then none
  else some (build (named.map fun entry => (entry.1, entry.2.compile)))

/-- The parts of a search request. -/
def SearchRequest.slots (build : Builder) (request : SearchRequest) :
    List (String × Option Json) :=
  [("query", request.query.map Query.compile),
    ("aggs", aggregationsSlot build request.aggregations), ("from", request.start.map .nat),
    ("size", request.size.map .nat), ("sort", orderSlot build request.sort),
    ("_source", request.source.map (SourceFilter.builtBy build)),
    ("track_total_hits", request.trackTotalHits.map .bool)]

/-! ## Nodes -/

/-- The form of a node, in which its objects are made of their entries by a builder. The nodes that
it holds stand there by their own forms. -/
def Node.builtBy (build : Builder) : Node → Json
  | .query (.leaf held) => build [(held.kind, held.bodyBy build)]
  | .query (.nested path held options) =>
      build [("nested", build (present (Query.nestedSlots path held options)))]
  | .query (.bool must mustNot should filter options) =>
      build [("bool", build (present (Query.boolSlots must mustNot should filter options)))]
  | .aggregation (.leaf held) => build [(held.kind, build (present (held.slots build)))]
  | .aggregation (.bucket division children) =>
      build (present [(division.kind, some (division.bodyBy build)),
        ("aggs", aggregationsSlot build children)])
  | .search request => build (present (request.slots build))

/-! ## The JSON form -/

theorem optional_some (name : String) (value : Json) :
    optional name (some value) = [(name, value)] := rfl

theorem LeafQuery.body_eq_bodyBy (query : LeafQuery) : query.body = query.bodyBy record := by
  rw [LeafQuery.body_eq]
  cases query <;> rfl

theorem SortKey.compileAll_eq (order : List SortKey) :
    compileAll order = order.map (builtBy record) := rfl

theorem NumberRange.compile_eq (range : NumberRange) :
    range.compile = record (present range.slots) := by
  simp [compile, slots, present, optionalString, optionalDouble]

theorem DateRange.compile_eq (range : DateRange) :
    range.compile = record (present range.slots) := by
  simp [compile, slots, present, optionalString]

theorem SourceFilter.compile_eq (source : SourceFilter) :
    source.compile = source.builtBy record := by
  cases source with
  | disabled => rfl
  | fields patterns => rfl
  | filter includes excludes => simp [compile, builtBy, present, unlessEmpty_eq]

theorem patternOrValues_eq (name : String) (pattern : Option String) (values : List String) :
    patternOrValues name pattern values = optional name (patternSlot pattern values) := by
  cases pattern with
  | none => exact unlessEmpty_eq name _
  | some text => rfl

theorem Interval.entry_eq (interval : Option Interval) :
    (interval.map Interval.entry).toList =
      optional "calendar_interval" ((interval.bind Interval.unit?).map .string) ++
        optional "fixed_interval" ((interval.bind Interval.duration?).map .string) := by
  cases interval with
  | none => rfl
  | some interval => cases interval <;> rfl

theorem LeafAggregation.body_eq (aggregation : LeafAggregation) :
    aggregation.body = record (present (aggregation.slots record)) := by
  cases aggregation with
  | metric held =>
      by_cases hkind : held.kind = .cardinality
      · simp [LeafAggregation.body, slots, present, optional_some, optionalNat, hkind]
      · simp [LeafAggregation.body, slots, present, hkind, Json.optional]
  | percentiles held =>
      simp [LeafAggregation.body, slots, present, optional_some, unlessEmpty_eq, optionalBool]
  | bucketSort held =>
      simp [LeafAggregation.body, slots, present, unlessEmpty_eq, orderSlot,
        SortKey.compileAll_eq, optionalNat, optionalString]

theorem Division.body_eq (division : Division) : division.body = division.bodyBy record := by
  cases division with
  | terms held =>
      simp [Division.body, bodyBy, slots, present, optional_some, unlessEmpty_eq,
        patternOrValues_eq, orderSlot, SortKey.compileAll_eq, optionalNat]
  | dateHistogram held =>
      simp [Division.body, bodyBy, slots, present, optional_some, unlessEmpty_eq,
        Interval.entry_eq, orderSlot, SortKey.compileAll_eq, optionalNat, optionalString]
  | range held =>
      have hranges : held.ranges.map NumberRange.compile =
          held.ranges.map fun range => record (present range.slots) :=
        List.map_congr_left fun range _ => range.compile_eq
      simp [Division.body, bodyBy, slots, present, optional_some, optionalBool, hranges]
  | dateRange held =>
      have hranges : held.ranges.map DateRange.compile =
          held.ranges.map fun range => record (present range.slots) :=
        List.map_congr_left fun range _ => range.compile_eq
      simp [Division.body, bodyBy, slots, present, optional_some, optionalBool, optionalString,
        hranges]
  | filter query => rfl

theorem Aggregation.compileEntries_eq_map (named : List (String × Aggregation)) :
    compileEntries named = named.map fun entry => (entry.1, entry.2.compile) := by
  induction named with
  | nil => rfl
  | cons entry rest ih =>
      obtain ⟨name, aggregation⟩ := entry
      rw [compileEntries, ih, List.map_cons]

theorem aggregationsSlot_eq (named : List (String × Aggregation)) :
    (if named.isEmpty then [] else [("aggs", record (Aggregation.compileEntries named))]) =
      optional "aggs" (aggregationsSlot record named) := by
  rw [aggregationsSlot, Aggregation.compileEntries_eq_map]
  split <;> rfl

/-- The JSON form of a bucket aggregation is built by setting one entry after another. -/
theorem Aggregation.compile_bucket (division : Division) (children : List (String × Aggregation)) :
    compile (.bucket division children) =
      record (present [(division.kind, some (division.bodyBy record)),
        ("aggs", aggregationsSlot record children)]) := by
  rw [compile, Division.body_eq, aggregationsSlot_eq]
  simp [present, optional_some]

/-- The JSON form of a search request is built by setting one entry after another. -/
theorem SearchRequest.compile_eq (request : SearchRequest) :
    request.compile = record (present (request.slots record)) := by
  have hsource : request.source.map SourceFilter.compile =
      request.source.map (SourceFilter.builtBy record) :=
    congrArg (request.source.map ·) (funext SourceFilter.compile_eq)
  rw [compile, aggregationsSlot_eq, hsource]
  simp [slots, present, unlessEmpty_eq, orderSlot, SortKey.compileAll_eq, optionalNat, optionalBool]

/-- The JSON form of a node is built by setting one entry after another. -/
theorem Node.compile_eq_builtBy (node : Node) : node.compile = node.builtBy record := by
  cases node with
  | query held =>
      cases held with
      | leaf held =>
          show single held.kind held.body = single held.kind (held.bodyBy record)
          rw [LeafQuery.body_eq_bodyBy]
      | nested path held options => exact Query.compile_nested path held options
      | bool must mustNot should filter options =>
          exact Query.compile_bool must mustNot should filter options
  | aggregation held =>
      cases held with
      | leaf held =>
          show single held.kind held.body = single held.kind (record (present (held.slots record)))
          rw [LeafAggregation.body_eq]
      | bucket division children => exact Aggregation.compile_bucket division children
  | search request => exact request.compile_eq

end SearchWire
