import SearchWire.Proofs.Request.Tree
import SearchWire.Proofs.Text.Named

/-!
# Requests whose named aggregations are in order

The named aggregations of a node come from insertions, which keep them in the
order of their names, each name once. `Node.Arranged` says so of every node of a
tree. A tree that is built by adding aggregations is arranged
(`arranged_withChild`, `arranged_withAggregation`), and only the named
aggregations of a node matter for it (`arranged_iff_named`).
-/

namespace SearchWire

namespace Node

/-- A property of all nodes of a tree is a property of its root and of the trees below it. -/
theorem forall_within_iff {p : Node → Prop} {node : Node} :
    (∀ part : Node, part.Within node → p part) ↔
      p node ∧ ∀ child ∈ node.children, ∀ part : Node, part.Within child → p part := by
  constructor
  · intro h
    exact ⟨h node .refl, fun child hchild part hpart => h part (.head hchild hpart)⟩
  · rintro ⟨hnode, hbelow⟩ part hpart
    rcases hpart.cases_head with rfl | ⟨child, hchild, hpart⟩
    · exact hnode
    · exact hbelow child hchild part hpart

/-- The named aggregations of every node of a tree stand in the order of their names. -/
def Arranged (node : Node) : Prop :=
  ∀ part : Node, part.Within node → Named.Sorted part.aggregations

theorem arranged_iff {node : Node} :
    node.Arranged ↔ Named.Sorted node.aggregations ∧ ∀ child ∈ node.children, child.Arranged :=
  forall_within_iff

/-- The tree of a query consists of queries. -/
theorem eq_query_of_within {part : Node} {held : Query} (h : part.Within (.query held)) :
    ∃ query, part = .query query := by
  induction h with
  | refl => exact ⟨held, rfl⟩
  | tail _ hchild ih =>
      obtain ⟨query, rfl⟩ := ih
      rw [children, aggregations, List.map_nil, List.append_nil] at hchild
      obtain ⟨child, -, rfl⟩ := List.mem_map.1 hchild
      exact ⟨child, rfl⟩

/-- Queries hold no aggregations, so there is nothing to arrange. -/
theorem arranged_query (held : Query) : (Node.query held).Arranged := by
  intro part hpart
  obtain ⟨query, rfl⟩ := eq_query_of_within hpart
  exact Named.Sorted.nil

/-- Only the named aggregations of a node matter for whether it is arranged. -/
theorem arranged_iff_named {node : Node} :
    node.Arranged ↔ Named.Sorted node.aggregations ∧
      ∀ entry ∈ node.aggregations, (Node.aggregation entry.2).Arranged := by
  rw [arranged_iff]
  constructor
  · rintro ⟨hsorted, hchildren⟩
    exact ⟨hsorted, fun entry hentry => hchildren _ (aggregation_mem_children hentry)⟩
  · rintro ⟨hsorted, hnamed⟩
    refine ⟨hsorted, fun child hchild => ?_⟩
    rcases List.mem_append.1 hchild with hquery | haggregation
    · obtain ⟨held, -, rfl⟩ := List.mem_map.1 hquery
      exact arranged_query held
    · obtain ⟨entry, hentry, rfl⟩ := List.mem_map.1 haggregation
      exact hnamed entry hentry

end Node

/-- Insertions keep named aggregations in order, at every depth. -/
theorem Aggregation.arranged_insert {named : List (String × Aggregation)} {name : String}
    {aggregation : Aggregation}
    (h : Named.Sorted named ∧ ∀ entry ∈ named, (Node.aggregation entry.2).Arranged)
    (haggregation : (Node.aggregation aggregation).Arranged) :
    Named.Sorted (Named.insert name aggregation named) ∧
      ∀ entry ∈ Named.insert name aggregation named, (Node.aggregation entry.2).Arranged := by
  refine ⟨h.1.insert name aggregation, fun entry hentry => ?_⟩
  rcases Named.mem_insert hentry with rfl | hold
  · exact haggregation
  · exact h.2 entry hold

namespace Node

theorem arranged_leaf (held : LeafAggregation) : (Node.aggregation (.leaf held)).Arranged :=
  arranged_iff_named.2 ⟨Named.Sorted.nil, List.forall_mem_nil _⟩

/-- Adding a child to an aggregation keeps the tree arranged. -/
theorem arranged_withChild {parent child : Aggregation} (h : (Node.aggregation parent).Arranged)
    (hchild : (Node.aggregation child).Arranged) (name : String) :
    (Node.aggregation (parent.withChild name child)).Arranged := by
  cases parent with
  | leaf held => exact h
  | bucket division children =>
      exact arranged_iff_named.2 (Aggregation.arranged_insert (arranged_iff_named.1 h) hchild)

/-- Adding an aggregation to a request keeps the tree arranged. -/
theorem arranged_withAggregation {request : SearchRequest} {aggregation : Aggregation}
    (h : (Node.search request).Arranged) (haggregation : (Node.aggregation aggregation).Arranged)
    (name : String) : (Node.search (request.withAggregation name aggregation)).Arranged :=
  arranged_iff_named.2 (Aggregation.arranged_insert (arranged_iff_named.1 h) haggregation)

end Node

end SearchWire
