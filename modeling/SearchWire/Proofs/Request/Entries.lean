import Mathlib.Data.List.Induction
import Mathlib.Data.List.Nodup
import SearchWire.Proofs.Request.SearchForm

/-!
# Every part that is set has an entry of its own

An object is built by setting its entries one after another, and an entry whose
name is present takes the place of the earlier one. `Json.NeverReplaces` says
that this does not happen to a list of entries, and a `Builder.Lawful` may do
anything with a list to which it does. `Node.builtBy_eq_compile` says that the
form of a node does not depend on that, so no entry is lost, with one exception:
a terms query on the field `boost` loses its values to its boost.
-/

namespace SearchWire

open Json

/-! ## Entries that replace none -/

namespace Json

/-- Setting entries one after another, none finds its name among those that are present. -/
def NeverReplaces (entries : List (String × Json)) : Prop :=
  ∀ before entry after, entries = before ++ entry :: after →
    ∀ built, record before = .object built → entry.1 ∉ built.map Prod.fst

theorem mem_names_insertEntry {name other : String} {value : Json}
    {entries : List (String × Json)} :
    other ∈ (insertEntry name value entries).map Prod.fst ↔
      other = name ∨ other ∈ entries.map Prod.fst := by
  by_cases hpresent : name ∈ entries.map Prod.fst
  · rw [names_insertEntry_of_mem value hpresent]
    constructor
    · exact .inr
    · rintro (rfl | hmem)
      · exact hpresent
      · exact hmem
  · rw [insertEntry_of_notMem value hpresent, List.map_append, List.mem_append, or_comm]
    simp

/-- An object has the names that were set. -/
theorem mem_names_record {name : String} {entries built : List (String × Json)}
    (h : record entries = .object built) :
    name ∈ built.map Prod.fst ↔ name ∈ entries.map Prod.fst := by
  suffices hall : ∀ start : List (String × Json),
      name ∈ (entries.foldl (fun built entry => insertEntry entry.1 entry.2 built) start).map
          Prod.fst ↔ name ∈ start.map Prod.fst ∨ name ∈ entries.map Prod.fst by
    have hbuilt := hall []
    rw [Json.object.inj h] at hbuilt
    simpa using hbuilt
  clear h
  induction entries with
  | nil => simp
  | cons entry rest ih =>
      intro start
      rw [List.foldl_cons, ih, mem_names_insertEntry, List.map_cons, List.mem_cons, or_assoc,
        or_left_comm]

/-- No entry replaces another exactly when the names are distinct. -/
theorem neverReplaces_iff {entries : List (String × Json)} :
    NeverReplaces entries ↔ (entries.map Prod.fst).Nodup := by
  constructor
  · intro h
    induction entries using List.reverseRecOn with
    | nil => exact List.nodup_nil
    | append_singleton before entry ih =>
        have hbefore : NeverReplaces before := by
          intro first other rest hsplit
          exact h first other (rest ++ [entry]) (by rw [hsplit]; simp)
        have hentry : entry.1 ∉ before.map Prod.fst := by
          have habsent := h before entry [] rfl _ rfl
          rwa [mem_names_record rfl] at habsent
        rw [List.map_append, List.map_singleton, ← List.concat_eq_append]
        exact List.Nodup.concat hentry (ih hbefore)
  · intro h before entry after hsplit built hbuilt
    rw [mem_names_record hbuilt]
    rw [hsplit, List.map_append, List.map_cons] at h
    exact fun hmem => (List.nodup_append.1 h).2.2 _ hmem _ List.mem_cons_self rfl

end Json

/-! ## Builders -/

/-- A builder makes of entries what setting them makes, as long as none replaces another. What it
makes of other entries is open. -/
def Builder.Lawful (build : Builder) : Prop :=
  ∀ entries, NeverReplaces entries → build entries = record entries

/-- Listing the entries is lawful. -/
theorem lawful_object : Builder.Lawful Json.object :=
  fun _ h => (record_of_nodup (neverReplaces_iff.1 h)).symm

namespace Builder.Lawful

variable {build : Builder} (h : build.Lawful)

include h

theorem build_of_nodup {entries : List (String × Json)} (hnames : (entries.map Prod.fst).Nodup) :
    build entries = record entries :=
  h entries (neverReplaces_iff.2 hnames)

/-- The slots of an object have different names. -/
theorem build_present (slots : List (String × Option Json)) (names : List String)
    (hdistinct : names.Nodup) (hslots : slots.map Prod.fst = names) :
    build (present slots) = record (present slots) :=
  h.build_of_nodup ((hslots ▸ hdistinct).sublist (names_present_sublist slots))

theorem build_singleton (name : String) (value : Json) :
    build [(name, value)] = single name value :=
  h.build_of_nodup (List.nodup_singleton name)

/-- Options have names of their own, so the value beside them is not lost. -/
theorem underFieldBy_eq (field valueName : String) (value : Json)
    (slots : List (String × Option Json)) (names : List String)
    (hdistinct : (valueName :: names).Nodup) (hslots : slots.map Prod.fst = names) :
    underFieldBy build field valueName value (present slots) =
      underField field valueName value (present slots) := by
  have hlong : build ((valueName, value) :: present slots) =
      record ((valueName, value) :: present slots) :=
    h.build_present ((valueName, some value) :: slots) _ hdistinct (congrArg _ hslots)
  rw [underFieldBy, underField, h.build_singleton, hlong]

theorem orderSlot_eq (order : List SortKey) : orderSlot build order = orderSlot record order := by
  have hkey (sortKey : SortKey) : sortKey.builtBy build = sortKey.builtBy record :=
    h.build_singleton _ _
  rw [orderSlot, orderSlot, funext hkey]

theorem source_eq (source : SourceFilter) : source.builtBy build = source.builtBy record := by
  cases source with
  | disabled => rfl
  | fields patterns => rfl
  | filter includes excludes => exact h.build_present _ ["includes", "excludes"] (by decide) rfl

/-- Named aggregations have different names. -/
theorem aggregationsSlot_eq {named : List (String × Aggregation)} (hnamed : Named.Sorted named) :
    aggregationsSlot build named = aggregationsSlot record named := by
  have hentries : build (named.map fun entry => (entry.1, entry.2.compile)) =
      record (named.map fun entry => (entry.1, entry.2.compile)) := by
    refine h.build_of_nodup ?_
    rw [List.map_map]
    exact hnamed.nodup
  rw [aggregationsSlot, aggregationsSlot, hentries]

theorem leafAggregation_slots_eq (aggregation : LeafAggregation) :
    aggregation.slots build = aggregation.slots record := by
  cases aggregation with
  | metric | percentiles => rfl
  | bucketSort body => rw [LeafAggregation.slots, LeafAggregation.slots, h.orderSlot_eq]

theorem division_slots_eq (division : Division) :
    division.slots build = division.slots record := by
  have hrange (range : NumberRange) : build (present range.slots) = record (present range.slots) :=
    h.build_present _ ["key", "from", "to"] (by decide) rfl
  have hdates (range : DateRange) : build (present range.slots) = record (present range.slots) :=
    h.build_present _ ["key", "from", "to"] (by decide) rfl
  cases division with
  | terms body => rw [Division.slots, Division.slots, h.orderSlot_eq]
  | dateHistogram body => rw [Division.slots, Division.slots, h.orderSlot_eq]
  | range body => simp only [Division.slots, hrange]
  | dateRange body => simp only [Division.slots, hdates]
  | filter query => rfl

theorem request_slots_eq {request : SearchRequest} (hnamed : Named.Sorted request.aggregations) :
    request.slots build = request.slots record := by
  rw [SearchRequest.slots, SearchRequest.slots, h.orderSlot_eq, h.aggregationsSlot_eq hnamed,
    funext h.source_eq]

theorem leafAggregation_eq (aggregation : LeafAggregation) :
    build (present (aggregation.slots build)) = record (present (aggregation.slots record)) := by
  rw [h.leafAggregation_slots_eq]
  cases aggregation with
  | metric body =>
      exact h.build_present _ ["field", "missing", "precision_threshold"] (by decide) rfl
  | percentiles body =>
      exact h.build_present _ ["field", "percents", "missing", "keyed"] (by decide) rfl
  | bucketSort body =>
      exact h.build_present _ ["sort", "from", "size", "gap_policy"] (by decide) rfl

theorem division_eq (division : Division) : division.bodyBy build = division.bodyBy record := by
  unfold Division.bodyBy
  rw [h.division_slots_eq]
  cases division with
  | terms body =>
      exact h.build_present _
        ["field", "size", "shard_size", "min_doc_count", "order", "include", "exclude", "missing"]
        (by decide) rfl
  | dateHistogram body =>
      exact h.build_present _
        ["field", "calendar_interval", "fixed_interval", "format", "time_zone", "offset",
          "min_doc_count", "order"] (by decide) rfl
  | range body => exact h.build_present _ ["field", "ranges", "keyed", "missing"] (by decide) rfl
  | dateRange body =>
      exact h.build_present _ ["field", "format", "time_zone", "ranges", "keyed"] (by decide) rfl
  | filter query => rfl

/-- The body of a leaf query is built alike, unless the boost of a terms query takes the place of
its values. -/
theorem leafQuery_eq {query : LeafQuery}
    (hkept : ∀ held, query = .terms held → held.field = "boost" → held.boost = none) :
    query.bodyBy build = query.bodyBy record := by
  cases query with
  | matchAll boost => exact h.build_present _ ["boost"] (by decide) rfl
  | term held => exact h.underFieldBy_eq _ _ _ _ ["boost"] (by decide) rfl
  | terms held => exact h.build_of_nodup (LeafQuery.nodup_terms (hkept held rfl))
  | fullText held =>
      exact h.underFieldBy_eq _ _ _ _ ["operator", "fuzziness", "boost"] (by decide) rfl
  | phrase held => exact h.underFieldBy_eq _ _ _ _ ["slop", "boost"] (by decide) rfl
  | beginsWith held | wildcard held =>
      exact h.underFieldBy_eq _ _ _ _ ["case_insensitive", "boost"] (by decide) rfl
  | regexp held =>
      exact h.underFieldBy_eq _ _ _ _ ["flags", "case_insensitive", "max_determinized_states"]
        (by decide) rfl
  | range held =>
      have hbounds := h.build_present (LeafQuery.range held).slots
        ["gt", "gte", "lt", "lte", "format", "time_zone", "boost"] (by decide) rfl
      show build [(held.field, build (present (LeafQuery.range held).slots))] = _
      rw [hbounds]
      exact h.build_singleton _ _
  | fieldExists field => exact h.build_singleton _ _
  | ids values => exact h.build_singleton _ _

end Builder.Lawful

/-! ## Nodes -/

namespace Node

/-- A terms query on the field `boost` with a boost: both are set under one name. -/
def LosesValues (node : Node) : Prop :=
  ∃ query : TermsQuery, node = .query (.leaf (.terms query)) ∧ query.field = "boost" ∧
    query.boost ≠ none

theorem boost_none_of_not_losesValues {query : LeafQuery}
    (h : ¬ (Node.query (.leaf query)).LosesValues) (held : TermsQuery)
    (hquery : query = .terms held) (hfield : held.field = "boost") : held.boost = none :=
  Decidable.by_contra fun hboost => h ⟨held, by rw [hquery], hfield, hboost⟩

/-- The form of a node does not depend on what a builder makes of entries that replace others. -/
theorem builtBy_eq_compile {build : Builder} (h : build.Lawful) {node : Node}
    (hnamed : Named.Sorted node.aggregations) (hkept : ¬ node.LosesValues) :
    node.builtBy build = node.compile := by
  rw [compile_eq_builtBy]
  cases node with
  | query held =>
      cases held with
      | leaf held =>
          have hbody : held.bodyBy build = held.bodyBy record :=
            h.leafQuery_eq (boost_none_of_not_losesValues hkept)
          show build [(held.kind, held.bodyBy build)] = record [(held.kind, held.bodyBy record)]
          rw [hbody]
          exact h.build_singleton _ _
      | nested path held options =>
          have hslots := h.build_present (Query.nestedSlots path held options)
            ["path", "query", "score_mode", "ignore_unmapped"] (by decide) rfl
          show build [("nested", build (present (Query.nestedSlots path held options)))] = _
          rw [hslots]
          exact h.build_singleton _ _
      | bool must mustNot should filter options =>
          have hslots := h.build_present
            (Query.boolSlots must mustNot should filter options)
            ["must", "must_not", "should", "filter", "minimum_should_match", "boost"]
            (by decide) rfl
          show build [("bool", build (present
            (Query.boolSlots must mustNot should filter options)))] = _
          rw [hslots]
          exact h.build_singleton _ _
  | aggregation held =>
      cases held with
      | leaf held =>
          show build [(held.kind, build (present (held.slots build)))] = _
          rw [h.leafAggregation_eq]
          exact h.build_singleton _ _
      | bucket division children =>
          have hchildren : aggregationsSlot build children = aggregationsSlot record children :=
            h.aggregationsSlot_eq hnamed
          show build (present [(division.kind, some (division.bodyBy build)),
            ("aggs", aggregationsSlot build children)]) = _
          rw [h.division_eq, hchildren]
          exact h.build_present _ [division.kind, "aggs"] (by simp [division.kind_ne_aggs]) rfl
  | search request =>
      have hslots : request.slots build = request.slots record := h.request_slots_eq hnamed
      show build (present (request.slots build)) = _
      rw [hslots]
      exact h.build_present _
        ["query", "aggs", "from", "size", "sort", "_source", "track_total_hits"] (by decide) rfl

end Node

/-! ## What stands under the field of a query -/

namespace LeafQuery

/-- A value alone, or listed under a name beside the options that are set. -/
def beside (valueName : String) (value : Json) (slots : List (String × Option Json)) : Json :=
  if (present slots).isEmpty then value else .object ((valueName, value) :: present slots)

/-- The field of a query and what the query says of it; some queries have no field. -/
def own? (query : LeafQuery) : Option (String × Json) :=
  match query with
  | .term held => some (held.field, beside "value" held.value query.slots)
  | .terms held => some (held.field, .array held.values)
  | .fullText held => some (held.field, beside "query" held.query query.slots)
  | .phrase held => some (held.field, beside "query" (.string held.query) query.slots)
  | .beginsWith held => some (held.field, beside "value" (.string held.value) query.slots)
  | .wildcard held => some (held.field, beside "value" (.string held.pattern) query.slots)
  | .regexp held => some (held.field, beside "value" (.string held.pattern) query.slots)
  | .range held => some (held.field, .object (present query.slots))
  | .matchAll _ | .fieldExists _ | .ids _ => none

variable {query : LeafQuery} {field : String} {own : Json}

/-- Where every part is listed, what a query says of its field comes first. -/
theorem bodyBy_object (h : query.own? = some (field, own)) :
    ∃ rest, query.bodyBy .object = .object ((field, own) :: rest) := by
  cases query with
  | matchAll | fieldExists | ids => exact absurd h nofun
  | terms held =>
      obtain ⟨rfl, rfl⟩ := Prod.mk.inj (Option.some.inj h)
      exact ⟨_, rfl⟩
  | term | fullText | phrase | beginsWith | wildcard | regexp | range =>
      obtain ⟨rfl, rfl⟩ := Prod.mk.inj (Option.some.inj h)
      exact ⟨[], rfl⟩

/-- What a query says of its field stands under the field. -/
theorem body_entry (h : query.own? = some (field, own))
    (hkept : ¬ (Node.query (.leaf query)).LosesValues) : entry? field query.body = some own := by
  have hbody := lawful_object.leafQuery_eq (Node.boost_none_of_not_losesValues hkept)
  obtain ⟨rest, hobject⟩ := bodyBy_object h
  rw [body_eq_bodyBy, ← hbody, hobject]
  exact List.lookup_cons_self

/-- The boost of a terms query on the field `boost` takes the place of the values. -/
theorem body_of_losesValues {held : TermsQuery} {boost : Binary64} (hfield : held.field = "boost")
    (hboost : held.boost = some boost) : (terms held).body = single "boost" (ofBinary64 boost) := by
  simp [body, hfield, hboost, optionalDouble, Json.optional, record, insertEntry, single]

theorem array_ne_ofBinary64 (values : List Json) (double : Binary64) :
    Json.array values ≠ ofBinary64 double := by
  cases double <;> simp [ofBinary64]

theorem body_entry_iff (h : query.own? = some (field, own)) :
    entry? field query.body = some own ↔ ¬ (Node.query (.leaf query)).LosesValues := by
  refine ⟨?_, body_entry h⟩
  rintro hentry ⟨held, hquery, hfield, hboost⟩
  obtain ⟨boost, hboost⟩ := Option.ne_none_iff_exists'.1 hboost
  obtain rfl : query = terms held := Query.leaf.inj (Node.query.inj hquery)
  obtain ⟨hname, hown⟩ := Prod.mk.inj (Option.some.inj h)
  rw [body_of_losesValues hfield hboost, ← hname, hfield, ← hown] at hentry
  simp only [single, entry?, List.lookup_cons_self, Option.some.injEq] at hentry
  exact array_ne_ofBinary64 _ _ hentry.symm

end LeafQuery

namespace Node

/-- A node is written with every part that is set, unless its values are lost. -/
theorem compile_eq_builtBy_object_iff {node : Node} (hnamed : Named.Sorted node.aggregations) :
    node.compile = node.builtBy .object ↔ ¬ node.LosesValues := by
  constructor
  · rintro hsame ⟨held, rfl, hfield, hboost⟩
    obtain ⟨boost, hboost⟩ := Option.ne_none_iff_exists'.1 hboost
    have hbody : (LeafQuery.terms held).body = (LeafQuery.terms held).bodyBy .object :=
      (single_injective hsame).2
    rw [LeafQuery.body_of_losesValues hfield hboost] at hbody
    simp [LeafQuery.bodyBy, LeafQuery.slots, hboost, present, optional_some, single] at hbody
  · exact fun hkept => (builtBy_eq_compile lawful_object hnamed hkept).symm

/-- Whether a node keeps every part that is set. In the tree of a request whose named aggregations
are in order, the object of a node lists an entry for every part that is set exactly when the node
is no terms query on the field `boost` with a boost of its own. The objects of any other node do not
depend on what a builder makes of an entry that replaces another, since no entry does. What a query
says of its field stands under the field in exactly the same cases. -/
theorem compile_keeps_entries {node part : Node} (h : node.Arranged) (hpart : part.Within node) :
    (¬ part.LosesValues ↔ part.compile = part.builtBy .object) ∧
      (¬ part.LosesValues → ∀ build : Builder, build.Lawful → part.builtBy build = part.compile) ∧
      ∀ query field own, part = .query (.leaf query) → query.own? = some (field, own) →
        (¬ part.LosesValues ↔ entry? field query.body = some own) := by
  have hnamed : Named.Sorted part.aggregations := h part hpart
  refine ⟨(compile_eq_builtBy_object_iff hnamed).symm, ?_, ?_⟩
  · intro hkept build hbuild
    exact builtBy_eq_compile hbuild hnamed hkept
  · rintro query field own rfl hown
    exact (LeafQuery.body_entry_iff hown).symm

/-- The query for paid orders in the filter of a search keeps its values under its field. -/
theorem compile_keeps_entries_paidStatus :
    (Node.search SearchRequest.costlySearch).Arranged ∧
      entry? "status" (LeafQuery.terms Query.paidStatus).body = some (.array [.string "paid"]) := by
  have hpart : (Node.query (.leaf (.terms Query.paidStatus))).Within
      (.search SearchRequest.costlySearch) := by
    refine .head (b := .query Query.costlyOrders) ?_ (.single ?_)
    · exact List.mem_cons_self
    · exact List.mem_cons_self
  have hkept : ¬ (Node.query (.leaf (.terms Query.paidStatus))).LosesValues := by
    rintro ⟨held, hheld, hfield, -⟩
    obtain rfl := LeafQuery.terms.inj (Query.leaf.inj (Node.query.inj hheld))
    exact absurd hfield (by decide)
  have harranged := SearchRequest.arranged_costlySearch
  exact ⟨harranged, ((compile_keeps_entries harranged hpart).2.2 _ _ _ rfl rfl).1 hkept⟩

/-- Documents paid for with a boost, with a boost for the query. -/
def boostedPayment : TermsQuery where
  field := "boost"
  values := [.string "paid"]
  boost := some (.ofNat 2)

/-- A query that is written, though its boost has taken the place of its values. -/
theorem values_lost :
    (Node.query (.leaf (.terms boostedPayment))).text =
        .ok "\x7b\"terms\":\x7b\"boost\":2.0\x7d\x7d" ∧
      (Node.query (.leaf (.terms boostedPayment))).compile ≠
        (Node.query (.leaf (.terms boostedPayment))).builtBy .object ∧
      entry? "boost" (LeafQuery.terms boostedPayment).body ≠ some (.array [.string "paid"]) := by
  have hlost : (Node.query (.leaf (.terms boostedPayment))).LosesValues :=
    ⟨boostedPayment, rfl, rfl, nofun⟩
  have hsound : ¬ (Node.query (.leaf (.terms boostedPayment))).validate.isFatal = true := by
    decide +kernel
  have hform : (Node.query (.leaf (.terms boostedPayment))).compile.toText =
      "\x7b\"terms\":\x7b\"boost\":2.0\x7d\x7d" := by
    decide +kernel
  refine ⟨?_, ?_, ?_⟩
  · rw [text_eq, Report.whenSound_of_not_fatal hsound, hform]
  · intro hsame
    have hnamed : Named.Sorted (Node.query (.leaf (.terms boostedPayment))).aggregations :=
      Named.Sorted.nil
    exact (compile_eq_builtBy_object_iff hnamed).1 hsame hlost
  · intro hkept
    exact (LeafQuery.body_entry_iff rfl).1 hkept hlost

end Node

end SearchWire
