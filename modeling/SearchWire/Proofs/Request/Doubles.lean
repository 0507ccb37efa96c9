import SearchWire.Proofs.Request.FatalCount
import SearchWire.Proofs.Request.Locations
import SearchWire.Proofs.Request.SearchForm

/-!
# Doubles that are set and doubles that are written

The doubles of a node are its boost and its limits, the bounds of ranges and the
percents. `Node.doubles_written` says that each of them stands at its place in
the form of any tree that holds the node. A limit that is not finite is reported
as fatal, so the limits of a request that is written are numbers there. Nothing
guards a boost, and one that is not finite is written as `null`
(`Node.boost_lost`).
-/

namespace SearchWire

open Json

/-- The keys to the boost in what a leaf query says. -/
def LeafQuery.boostKeys : LeafQuery → List Key
  | .matchAll _ | .terms _ => [.name "boost"]
  | .term query => [.name query.field, .name "boost"]
  | .fullText query => [.name query.field, .name "boost"]
  | .phrase query => [.name query.field, .name "boost"]
  | .beginsWith query => [.name query.field, .name "boost"]
  | .wildcard query => [.name query.field, .name "boost"]
  | .range query => [.name query.field, .name "boost"]
  | .regexp _ | .fieldExists _ | .ids _ => []

/-- The bounds of a range that are set, with the names under which they are written. -/
def NumberRange.bounds (range : NumberRange) : List (List Key × Binary64) :=
  (range.lower.toList.map fun bound => ([.name "from"], bound)) ++
    range.upper.toList.map fun bound => ([.name "to"], bound)

namespace Node

/-- The boost of a node, with the keys to it in the form of the node. -/
def boost? : Node → Option (List Key × Binary64)
  | .query (.leaf held) => held.boost?.map fun boost => (.name held.kind :: held.boostKeys, boost)
  | .query (.nested _ _ _) => none
  | .query (.bool _ _ _ _ options) =>
      options.boost.map fun boost => ([.name "bool", .name "boost"], boost)
  | .aggregation _ | .search _ => none

/-- The bounds of the ranges and the percents of a node, with the keys to them in the form of the
node. -/
def limits : Node → List (List Key × Binary64)
  | .aggregation (.leaf (.percentiles body)) =>
      body.percents.zipIdx.map fun entry =>
        ([.name "percentiles", .name "percents", .item entry.2], entry.1)
  | .aggregation (.bucket (.range body) _) =>
      body.ranges.zipIdx.flatMap fun entry =>
        entry.1.bounds.map fun bound =>
          ([.name "range", .name "ranges", .item entry.2] ++ bound.1, bound.2)
  | _ => []

/-- The double stands at a place of the form of a tree, as a number that is equal to it. -/
def WritesNumber (node : Node) (keys : List Key) (double : Binary64) : Prop :=
  ∃ value, double = .finite value ∧ at? keys node.compile = some (.number (.float value))

end Node

/-! ## Doubles in the form of their node -/

/-- A boost that is set is an option of its query. -/
theorem LeafQuery.mem_slots_boost {query : LeafQuery} {boost : Binary64}
    (h : query.boost? = some boost) : ("boost", some (ofBinary64 boost)) ∈ query.slots := by
  cases query with
  | matchAll | term | terms | fullText | phrase | beginsWith | wildcard | range =>
      simp only [LeafQuery.boost?] at h
      simp [LeafQuery.slots, h]
  | regexp | fieldExists | ids => cases h

/-- A boost that is set stands among what a leaf query says. -/
theorem LeafQuery.at?_boostKeys {query : LeafQuery} {boost : Binary64}
    (h : query.boost? = some boost) : at? query.boostKeys query.body = some (ofBinary64 boost) := by
  have hslot := mem_slots_boost h
  rw [LeafQuery.body_eq]
  cases query with
  | matchAll held => exact at?_name (entry?_present ["boost"] (by decide) rfl hslot) []
  | term held => exact at?_underField "value" ["boost"] (by decide) rfl held.field held.value hslot
  | terms held =>
      have hset : held.boost = some boost := h
      -- the boost is set last, whatever the field
      have hlast : entry? "boost" (record ((held.field, .array held.values) ::
          present (LeafQuery.terms held).slots)) = some (ofBinary64 boost) := by
        rw [entry?_record, Named.last?_cons, LeafQuery.slots, hset]
        rfl
      exact at?_name hlast []
  | fullText held =>
      exact at?_underField "query" ["operator", "fuzziness", "boost"] (by decide) rfl held.field
        held.query hslot
  | phrase held =>
      exact at?_underField "query" ["slop", "boost"] (by decide) rfl held.field _ hslot
  | beginsWith held | wildcard held =>
      exact at?_underField "value" ["case_insensitive", "boost"] (by decide) rfl held.field _ hslot
  | range held =>
      have hentry := entry?_present ["gt", "gte", "lt", "lte", "format", "time_zone", "boost"]
        (by decide) rfl hslot
      exact (at?_single held.field _ _).trans (at?_name hentry [])
  | regexp | fieldExists | ids => cases h

/-- A bound that is set stands in the form of its range. -/
theorem NumberRange.at?_bounds {range : NumberRange} {place : List Key × Binary64}
    (h : place ∈ range.bounds) :
    at? place.1 (record (present range.slots)) = some (ofBinary64 place.2) := by
  rcases List.mem_append.1 h with hlower | hupper
  · obtain ⟨bound, hbound, rfl⟩ := List.mem_map.1 hlower
    refine at?_name (entry?_present ["key", "from", "to"] (by decide) rfl ?_) []
    rw [slots, Option.mem_toList.1 hbound]
    exact .tail _ (.head _)
  · obtain ⟨bound, hbound, rfl⟩ := List.mem_map.1 hupper
    refine at?_name (entry?_present ["key", "from", "to"] (by decide) rfl ?_) []
    rw [slots, Option.mem_toList.1 hbound]
    exact .tail _ (.tail _ (.head _))

namespace Node

/-- A boost that is set stands in the form of its node. -/
theorem at?_boost {node : Node} {place : List Key × Binary64} (h : place ∈ node.boost?) :
    at? place.1 node.compile = some (ofBinary64 place.2) := by
  cases node with
  | query parent =>
      cases parent with
      | leaf held =>
          obtain ⟨boost, hboost, rfl⟩ := Option.map_eq_some_iff.1 h
          exact (at?_single held.kind _ _).trans (LeafQuery.at?_boostKeys hboost)
      | nested path asked options => cases h
      | bool must mustNot should filter options =>
          obtain ⟨boost, hboost, rfl⟩ := Option.map_eq_some_iff.1 h
          have hform : (query (.bool must mustNot should filter options)).compile =
              single "bool"
                (record (present (Query.boolSlots must mustNot should filter options))) :=
            Query.compile_bool must mustNot should filter options
          rw [hform, at?_single]
          refine at?_name (entry?_present
            ["must", "must_not", "should", "filter", "minimum_should_match", "boost"]
            (by decide) rfl ?_) []
          rw [Query.boolSlots, hboost]
          simp
  | aggregation | search => cases h

/-- A percent stands at its position in the form of its node. -/
theorem at?_percent {body : PercentilesAggregation} {position : Nat} {percent : Binary64}
    (h : body.percents[position]? = some percent) :
    at? [.name "percentiles", .name "percents", .item position]
      (aggregation (.leaf (.percentiles body))).compile = some (ofBinary64 percent) := by
  have hitem : (body.percents.map ofBinary64)[position]? = some (ofBinary64 percent) := by
    rw [List.getElem?_map, h, Option.map_some]
  have hform : (aggregation (.leaf (.percentiles body))).compile =
      single "percentiles" (LeafAggregation.percentiles body).body := rfl
  rw [hform, LeafAggregation.body_eq, at?_single]
  exact at?_slotItem ["field", "percents", "missing", "keyed"] (by decide) rfl (.tail _ (.head _))
    hitem []

/-- A range stands at its position in the form of its node. -/
theorem at?_range {body : RangeBuckets} {children : List (String × Aggregation)} {position : Nat}
    {range : NumberRange} (h : body.ranges[position]? = some range) (rest : List Key) :
    at? (.name "range" :: .name "ranges" :: .item position :: rest)
      (aggregation (.bucket (.range body) children)).compile =
        at? rest (record (present range.slots)) := by
  have hitem : (body.ranges.map fun range => record (present range.slots))[position]? =
      some (record (present range.slots)) := by
    rw [List.getElem?_map, h, Option.map_some]
  have hranges : entry? "ranges" (Division.range body).body =
      some (.array (body.ranges.map fun range => record (present range.slots))) := by
    rw [Division.body_eq]
    exact entry?_present ["field", "ranges", "keyed", "missing"] (by decide) rfl (.tail _ (.head _))
  exact Aggregation.at?_listed children hranges hitem rest

/-- A limit is a percent or a bound of a range. -/
theorem exists_of_mem_limits {node : Node} {place : List Key × Binary64} (h : place ∈ node.limits) :
    (∃ body position percent, node = .aggregation (.leaf (.percentiles body)) ∧
        body.percents[position]? = some percent ∧
        place = ([.name "percentiles", .name "percents", .item position], percent)) ∨
      ∃ body children position range bound,
        node = .aggregation (.bucket (.range body) children) ∧
        body.ranges[position]? = some range ∧ bound ∈ range.bounds ∧
        place = (.name "range" :: .name "ranges" :: .item position :: bound.1, bound.2) := by
  cases node with
  | query | search => cases h
  | aggregation parent =>
      cases parent with
      | leaf held =>
          cases held with
          | metric | bucketSort => cases h
          | percentiles body =>
              obtain ⟨⟨percent, position⟩, hmem, rfl⟩ := List.mem_map.1 h
              exact .inl ⟨body, position, percent, rfl, List.mem_zipIdx_iff_getElem?.1 hmem, rfl⟩
      | bucket division children =>
          cases division with
          | terms | dateHistogram | dateRange | filter => cases h
          | range body =>
              obtain ⟨⟨range, position⟩, hmem, hplace⟩ := List.mem_flatMap.1 h
              obtain ⟨bound, hbound, rfl⟩ := List.mem_map.1 hplace
              exact .inr ⟨body, children, position, range, bound, rfl,
                List.mem_zipIdx_iff_getElem?.1 hmem, hbound, rfl⟩

/-- A limit that is set stands in the form of its node. -/
theorem at?_limit {node : Node} {place : List Key × Binary64} (h : place ∈ node.limits) :
    at? place.1 node.compile = some (ofBinary64 place.2) := by
  rcases exists_of_mem_limits h with ⟨body, position, percent, rfl, hpercent, rfl⟩ |
    ⟨body, children, position, range, bound, rfl, hrange, hbound, rfl⟩
  · exact at?_percent hpercent
  · exact (at?_range hrange bound.1).trans (NumberRange.at?_bounds hbound)

/-- A limit that is not finite breaks a fatal rule. -/
theorem breaksFatalRule_of_limit {node : Node} {place : List Key × Binary64}
    (h : place ∈ node.limits) (hfinite : place.2.isFinite = false) : node.BreaksFatalRule := by
  have hnumber (number : Finite) : place.2 ≠ .finite number := by
    intro hset
    rw [hset] at hfinite
    cases hfinite
  rcases exists_of_mem_limits h with ⟨body, position, percent, rfl, hpercent, rfl⟩ |
    ⟨body, children, position, range, bound, rfl, hrange, hbound, rfl⟩
  · refine .percentOutside (List.mem_of_getElem? hpercent) ?_
    rintro ⟨value, hvalue, -⟩
    exact hnumber value hvalue
  · have hset : range.lower = some bound.2 ∨ range.upper = some bound.2 := by
      rcases List.mem_append.1 hbound with hlower | hupper
      · obtain ⟨lower, hmem, rfl⟩ := List.mem_map.1 hlower
        exact .inl (Option.mem_toList.1 hmem)
      · obtain ⟨upper, hmem, rfl⟩ := List.mem_map.1 hupper
        exact .inr (Option.mem_toList.1 hmem)
    exact .boundNotFinite (List.mem_of_getElem? hrange) ⟨bound.2, hset, hnumber⟩

/-- A double that is finite is written as a number equal to it, and no other is. -/
theorem writesNumber_iff {node : Node} {keys : List Key} {double : Binary64}
    (h : at? keys node.compile = some (ofBinary64 double)) :
    node.WritesNumber keys double ↔ double.isFinite = true := by
  constructor
  · rintro ⟨value, rfl, -⟩
    rfl
  · intro hfinite
    cases double with
    | finite value => exact ⟨value, rfl, h⟩
    | infinite | nan => cases hfinite

/-- The doubles of a request at any depth, when its named aggregations are in order. A limit that is
not finite has a fatal finding, so in a request that is written every limit is a number equal to the
one that was set. A boost that was set stands there as well, as such a number exactly when it is
finite. -/
theorem doubles_written {node : Node} (h : node.Arranged) :
    (∀ address part, (address, part) ∈ node.parts → ∀ place ∈ part.limits,
        place.2.isFinite = false → ∃ finding ∈ node.validate.findings, finding.fatal = true ∧
          finding ∈ part.ownFindings (node.kind ++ addressText address)) ∧
      ∀ text, node.text = .ok text → text = node.compile.toText ∧
        ∀ address part, (address, part) ∈ node.parts →
          (∀ place ∈ part.limits, node.WritesNumber (addressKeys address ++ place.1) place.2) ∧
          ∀ place ∈ part.boost?,
            at? (addressKeys address ++ place.1) node.compile = some (ofBinary64 place.2) ∧
            (node.WritesNumber (addressKeys address ++ place.1) place.2 ↔
              place.2.isFinite = true) := by
  constructor
  · intro address part hpart place hplace hfinite
    have hbreaks := breaksFatalRule_of_limit hplace hfinite
    exact exists_fatal_of_mem_flawedParts (mem_flawedParts_iff.2 ⟨hpart, hbreaks⟩)
  · intro text htext
    have htree := htext
    rw [text_eq] at htext
    refine ⟨Report.eq_of_whenSound_eq_ok htext, fun address part hpart => ?_⟩
    have hform := at?_parts h hpart
    constructor
    · intro place hplace
      have hsound := sound_of_text_eq_ok htree (within_of_mem_parts hpart)
      have hfinite : place.2.isFinite = true := by
        by_contra hnot
        exact hsound (breaksFatalRule_of_limit hplace (Bool.eq_false_of_not_eq_true hnot))
      refine (writesNumber_iff ?_).2 hfinite
      rw [at?_append, hform, Option.bind_some, at?_limit hplace]
    · intro place hplace
      have hstands : at? (addressKeys address ++ place.1) node.compile =
          some (ofBinary64 place.2) := by
        rw [at?_append, hform, Option.bind_some, at?_boost hplace]
      exact ⟨hstands, writesNumber_iff hstands⟩

/-- In the costly search, the boost of the filter and the percent beside it are written as they
were set. -/
theorem doubles_written_costlySearch :
    (search SearchRequest.costlySearch).Arranged ∧
      ∃ text, (search SearchRequest.costlySearch).text = .ok text ∧
        (search SearchRequest.costlySearch).WritesNumber
          [.name "aggs", .name "paid", .name "filter", .name "terms", .name "boost"] (.ofNat 2) ∧
        (search SearchRequest.costlySearch).WritesNumber
          [.name "aggs", .name "paid", .name "aggs", .name "price", .name "percentiles",
            .name "percents", .item 0] (.ofNat 50) := by
  have harranged := SearchRequest.arranged_costlySearch
  have hsound : ¬ (search SearchRequest.costlySearch).validate.isFatal = true := by decide +kernel
  have htext : (search SearchRequest.costlySearch).text =
      .ok (search SearchRequest.costlySearch).compile.toText := by
    rw [text_eq, Report.whenSound_of_not_fatal hsound]
  have hpaid : (.named "paid", aggregation ((SearchRequest.paidOrders.withChild "buyers"
      SearchRequest.buyers).withChild "price" SearchRequest.middlePrice)) ∈
        (search SearchRequest.costlySearch).held := .tail _ (.head _)
  have hfilter := mem_parts_of_held hpaid (mem_parts_of_held (.head _) (self_mem_parts _))
  have hprice := mem_parts_of_held hpaid
    (mem_parts_of_held (.tail _ (.tail _ (.head _))) (self_mem_parts _))
  obtain ⟨-, hwritten⟩ := (doubles_written harranged).2 _ htext
  have hboost (boost : Binary64) (hset : Query.paidStatus.boost = some boost) :
      (search SearchRequest.costlySearch).WritesNumber
        [.name "aggs", .name "paid", .name "filter", .name "terms", .name "boost"] boost :=
    ((hwritten _ _ hfilter).2 _ (Option.map_eq_some_iff.2 ⟨boost, hset, rfl⟩)).2.2
      (Query.unambiguous_paidStatus.boost boost hset)
  have htwo : Query.paidStatus.boost = some (.ofNat 2) := by decide +kernel
  have hpercent (percent : Binary64) (hset : percent = .ofNat 50) :
      (search SearchRequest.costlySearch).WritesNumber
        [.name "aggs", .name "paid", .name "aggs", .name "price", .name "percentiles",
          .name "percents", .item 0] percent := by
    have hfirst : [Binary64.ofNat 50][0]? = some percent := hset ▸ rfl
    have hlimit : (([.name "percentiles", .name "percents", .item 0] : List Key), percent) ∈
        (aggregation SearchRequest.middlePrice).limits :=
      List.mem_map.2 ⟨(percent, 0), List.mem_zipIdx_iff_getElem?.2 hfirst, rfl⟩
    exact (hwritten _ _ hprice).1 _ hlimit
  exact ⟨harranged, _, htext, hboost _ htwo, hpercent _ rfl⟩

/-- A term with a boost that is not a number. -/
def boostedTerm : TermQuery where
  field := "a"
  value := .nat 1
  boost := some (.nan false)

/-- A boost can be lost: no rule is broken, and the query is written with `null` for the boost. -/
theorem boost_lost :
    (query (.leaf (.term boostedTerm))).validate.findings = [] ∧
      (query (.leaf (.term boostedTerm))).text =
        .ok "\x7b\"term\":\x7b\"a\":\x7b\"value\":1,\"boost\":null\x7d\x7d\x7d" ∧
      ([.name "term", .name "a", .name "boost"], .nan false) ∈
        (query (.leaf (.term boostedTerm))).boost? ∧
      ¬ (query (.leaf (.term boostedTerm))).WritesNumber [.name "term", .name "a", .name "boost"]
        (.nan false) := by
  have hsound : ¬ (query (.leaf (.term boostedTerm))).validate.isFatal = true := by decide
  have hform : (query (.leaf (.term boostedTerm))).compile.toText =
      "\x7b\"term\":\x7b\"a\":\x7b\"value\":1,\"boost\":null\x7d\x7d\x7d" := by
    decide +kernel
  refine ⟨rfl, ?_, rfl, ?_⟩
  · rw [text_eq, Report.whenSound_of_not_fatal hsound, hform]
  · rintro ⟨value, hvalue, -⟩
    cases hvalue

end Node

end SearchWire
