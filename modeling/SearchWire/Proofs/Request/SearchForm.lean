import SearchWire.Proofs.Request.AggregationForm

/-!
# The text of a search determines the search

`SearchRequest.eq_of_compile_eq` reads a request back from the slots of its JSON
form. What a written request keeps by its report (`Node.sound_of_text_eq_ok`),
the order of its named aggregations and the conditions of
`Node.Unambiguous` are all that is needed, and `SearchRequest.eq_of_bytes_eq`
says so of the bytes that are sent. The indices are not part of them.
-/

namespace SearchWire

open Json

attribute [ext] SearchRequest

/-- No node of a request that is written breaks a fatal rule. -/
theorem Node.sound_of_text_eq_ok {node part : Node} {text : String} (htext : node.text = .ok text)
    (hpart : part.Within node) : ¬ part.BreaksFatalRule := by
  intro hbreaks
  have hfatal : node.validate.isFatal = true := by
    rw [validate_eq, Report.isFatal_ofList_iff, hasFatal_findings_iff]
    exact ⟨part, hpart, hbreaks⟩
  rw [text_eq, Report.whenSound_of_fatal hfatal] at htext
  cases htext

/-- Lists of strings are told from each other, from a truth value and from an object. -/
theorem SourceFilter.builtBy_injective : Function.Injective (SourceFilter.builtBy record) := by
  intro first second h
  cases first with
  | disabled => cases second <;> first | rfl | cases h
  | fields patterns =>
      cases second with
      | fields others => rw [List.map_injective_iff.2 string_injective (Json.array.inj h)]
      | disabled | filter => cases h
  | filter includes excludes =>
      cases second with
      | filter others rest =>
          have hslots := record_present_injective ["includes", "excludes"] (by decide) rfl rfl h
          simp only [List.cons.injEq, Prod.mk.injEq, true_and, and_true] at hslots
          obtain ⟨hincludes, hexcludes⟩ := hslots
          rw [List.map_injective_iff.2 string_injective (arraySlot_injective hincludes),
            List.map_injective_iff.2 string_injective (arraySlot_injective hexcludes)]
      | disabled | fields => cases h

namespace SearchRequest

/-- The form of a request determines all of it but the indices, given that every node can be told
from its form. -/
theorem eq_of_compile_eq {first second : SearchRequest}
    (hfirst : ∀ part : Node, part.Within (.search first) → part.Legible)
    (hsecond : ∀ part : Node, part.Within (.search second) → part.Legible)
    (hindices : first.indices = second.indices) (h : first.compile = second.compile) :
    first = second := by
  rw [compile_eq, compile_eq] at h
  have hslots := record_present_injective
    ["query", "aggs", "from", "size", "sort", "_source", "track_total_hits"] (by decide) rfl rfl h
  simp only [slots, List.cons.injEq, Prod.mk.injEq, true_and, and_true] at hslots
  obtain ⟨hquery, haggs, hstart, hsize, hsort, hsource, htrack⟩ := hslots
  have hquery : first.query = second.query := by
    cases hheld : first.query with
    | none =>
        rw [hheld] at hquery
        exact (Option.map_eq_none_iff.1 hquery.symm).symm
    | some held =>
        rw [hheld] at hquery
        obtain ⟨other, hother, hsame⟩ := Option.map_eq_some_iff.1 hquery.symm
        have hbelow {request : SearchRequest} {query : Query} (hset : request.query = some query) :
            Node.query query ∈ (Node.search request).children :=
          Node.query_mem_children (Option.mem_toList.2 hset)
        rw [hother, Query.eq_of_compile_eq (fun part hpart => ?_) (fun part hpart => ?_) hsame.symm]
        · exact (hfirst _ (.head (hbelow hheld) hpart)).unambiguous
        · exact (hsecond _ (.head (hbelow hother) hpart)).unambiguous
  have haggregations : first.aggregations = second.aggregations := by
    have hbelow {request : SearchRequest} {entry : String × Aggregation}
        (hentry : entry ∈ request.aggregations) :
        Node.aggregation entry.2 ∈ (Node.search request).children :=
      Node.aggregation_mem_children hentry
    refine aggregationsSlot_injective (hfirst _ .refl).arranged (hsecond _ .refl).arranged
      (fun entry hentry other hother => ?_) haggs
    exact Aggregation.eq_of_compile_eq
      (fun part hpart => hfirst part (.head (hbelow hentry) hpart))
      fun part hpart => hsecond part (.head (hbelow hother) hpart)
  exact SearchRequest.ext hindices hquery haggregations (Option.map_injective nat_injective hstart)
    (Option.map_injective nat_injective hsize) (orderSlot_injective hsort)
    (Option.map_injective SourceFilter.builtBy_injective hsource)
    (Option.map_injective bool_injective htrack)

/-- What is sent of a search determines it. Two searches of the same indices that are both written,
so that no node has a fatal finding, whose named aggregations are in order and whose nodes are all
unambiguous, are equal when the bytes of their texts are: the query, every aggregation at every
depth under its name, the paging, the sorting, the source filter and the counting of hits. -/
theorem eq_of_bytes_eq {first second : SearchRequest} {text other : String}
    (harranged : (Node.search first).Arranged) (hotherArranged : (Node.search second).Arranged)
    (hfirst : ∀ part : Node, part.Within (.search first) → part.Unambiguous)
    (hsecond : ∀ part : Node, part.Within (.search second) → part.Unambiguous)
    (hindices : first.indices = second.indices)
    (htext : first.text = .ok text) (hother : second.text = .ok other)
    (hbytes : utf8Bytes text = utf8Bytes other) : first = second := by
  have hlegible {request : SearchRequest} {written : String} (hwritten : request.text = .ok written)
      (hordered : (Node.search request).Arranged)
      (hclear : ∀ part : Node, part.Within (.search request) → part.Unambiguous)
      (part : Node) (hpart : part.Within (.search request)) : part.Legible := by
    have htree : (Node.search request).text = .ok written := hwritten
    exact ⟨Node.sound_of_text_eq_ok htree hpart, hordered part hpart, hclear part hpart⟩
  have hsame := utf8Bytes_injective hbytes
  rw [Report.eq_of_whenSound_eq_ok htext, Report.eq_of_whenSound_eq_ok hother] at hsame
  exact eq_of_compile_eq (hlegible htext harranged hfirst) (hlegible hother hotherArranged hsecond)
    hindices (Json.toText_injective hsame)

/-- How many customers there are. -/
def buyers : Aggregation :=
  .leaf (.metric { kind := .cardinality, field := "customer", precisionThreshold := some 100 })

/-- The middle of the prices. -/
def middlePrice : Aggregation :=
  .leaf (.percentiles { field := "price", percents := [.ofNat 50] })

/-- The paid orders, to be divided no further. -/
def paidOrders : Aggregation :=
  .bucket (.filter (some (.leaf (.terms Query.paidStatus)))) []

/-- Ten costly orders, with the buyers and the middle price of the paid ones. -/
def costlySearch : SearchRequest :=
  SearchRequest.withAggregation
    { indices := ["orders"], query := some Query.costlyOrders, size := some 10 }
    "paid" ((paidOrders.withChild "buyers" buyers).withChild "price" middlePrice)

/-- The same search, its parts set in another order. -/
def costlySearchByStep : SearchRequest :=
  ((SearchRequest.withAggregation { indices := ["orders"] } "paid"
    ((paidOrders.withChild "price" middlePrice).withChild "buyers" buyers)).withSize 10).withQuery
      Query.costlyOrdersByStep

theorem arranged_costlySearch : (Node.search costlySearch).Arranged := by
  refine Node.arranged_withAggregation ?_ ?_ "paid"
  · exact Node.arranged_iff_named.2 ⟨Named.Sorted.nil, List.forall_mem_nil _⟩
  · refine Node.arranged_withChild (Node.arranged_withChild ?_ ?_ _) ?_ _
    · exact Node.arranged_iff_named.2 ⟨Named.Sorted.nil, List.forall_mem_nil _⟩
    · exact Node.arranged_leaf _
    · exact Node.arranged_leaf _

theorem unambiguous_query {held : Query}
    (h : ∀ part : Query, Node.Within (.query part) (.query held) → part.Unambiguous)
    (part : Node) (hpart : part.Within (.query held)) : part.Unambiguous := by
  obtain ⟨query, rfl⟩ := Node.eq_query_of_within hpart
  exact h query hpart

theorem unambiguous_costlySearch :
    ∀ part : Node, part.Within (.search costlySearch) → part.Unambiguous := by
  have hpaid : (Query.leaf (.terms Query.paidStatus)).Unambiguous := Query.unambiguous_paidStatus
  have hquery := unambiguous_query (Query.forall_within hpaid (List.forall_mem_nil _))
  have hbuyers : (Node.aggregation buyers).Unambiguous := fun hkind => absurd rfl hkind
  have hprice : (Node.aggregation middlePrice).Unambiguous := trivial
  have hsearch : (Node.search costlySearch).children = [.query Query.costlyOrders,
      .aggregation ((paidOrders.withChild "buyers" buyers).withChild "price" middlePrice)] := rfl
  have hdivision : (Node.aggregation
      ((paidOrders.withChild "buyers" buyers).withChild "price" middlePrice)).children =
        [.query (.leaf (.terms Query.paidStatus)), .aggregation buyers, .aggregation middlePrice] :=
    rfl
  rw [Node.forall_within_iff, hsearch, List.forall_mem_cons, List.forall_mem_singleton]
  refine ⟨trivial, unambiguous_query Query.unambiguous_costlyOrders, ?_⟩
  rw [Node.forall_within_iff, hdivision, List.forall_mem_cons, List.forall_mem_cons,
    List.forall_mem_singleton]
  exact ⟨trivial, hquery, Node.forall_within_iff.2 ⟨hbuyers, List.forall_mem_nil _⟩,
    Node.forall_within_iff.2 ⟨hprice, List.forall_mem_nil _⟩⟩

theorem eq_of_bytes_eq_costlySearch :
    ∃ text, costlySearch.text = .ok text ∧ costlySearchByStep.text = .ok text ∧
      costlySearch = costlySearchByStep := by
  have hsound : ¬ costlySearch.validate.isFatal = true := by decide +kernel
  have htext : costlySearch.text = .ok costlySearch.compile.toText :=
    Report.whenSound_of_not_fatal hsound _
  exact ⟨_, htext, htext,
    eq_of_bytes_eq arranged_costlySearch arranged_costlySearch unambiguous_costlySearch
      unambiguous_costlySearch rfl htext htext rfl⟩

end SearchRequest

end SearchWire
