import Mathlib.Logic.Relation
import SearchWire.Search.Request

/-!
# The tree of a request

Queries, aggregations and search requests are the nodes of one tree: a query
holds queries, an aggregation holds aggregations and, when it is a filter, a
query, and a search request holds both. `Node.children` lists what a node holds
and `Node.Within` is the relation between a node and all that stands in its
tree. `Node.induction` proves a property of all nodes from their children.
-/

namespace SearchWire

/-- A part of a request that is validated and written. -/
inductive Node where
  | query (query : Query)
  | aggregation (aggregation : Aggregation)
  | search (request : SearchRequest)

/-- The query that a filter aggregation holds. -/
def Division.query? : Division → Option Query
  | .filter query => query
  | .terms _ | .dateHistogram _ | .range _ | .dateRange _ => none

namespace Node

/-- The name of a node on the wire. -/
def kind : Node → String
  | .query held => held.kind
  | .aggregation held => held.kind
  | .search _ => "search"

/-- The findings about a node and its tree, placed from a path on. -/
def findings (path : String) : Node → List Finding
  | .query held => held.findings path
  | .aggregation held => held.findings path
  | .search request => request.findings path

/-- The report about a node. -/
def validate : Node → Report
  | .query held => held.validate
  | .aggregation held => held.validate
  | .search request => request.validate

/-- The JSON form of a node. -/
def compile : Node → Json
  | .query held => held.compile
  | .aggregation held => held.compile
  | .search request => request.compile

/-- The written form of a node. -/
def text : Node → Except Failure String
  | .query held => held.text
  | .aggregation held => held.text
  | .search request => request.text

/-- The named aggregations that a node holds. -/
def aggregations : Node → List (String × Aggregation)
  | .query _ => []
  | .aggregation (.leaf _) => []
  | .aggregation (.bucket _ children) => children
  | .search request => request.aggregations

/-- The queries that a node holds. -/
def queries : Node → List Query
  | .query (.leaf _) => []
  | .query (.nested _ held _) => held.toList
  | .query (.bool must mustNot should filter _) => must ++ mustNot ++ should ++ filter
  | .aggregation (.leaf _) => []
  | .aggregation (.bucket division _) => division.query?.toList
  | .search request => request.query.toList

/-- The nodes that a node holds. -/
def children (node : Node) : List Node :=
  node.queries.map .query ++ node.aggregations.map fun entry => .aggregation entry.2

theorem query_mem_children {node : Node} {held : Query} (h : held ∈ node.queries) :
    query held ∈ node.children :=
  List.mem_append_left _ (List.mem_map_of_mem h)

theorem aggregation_mem_children {node : Node} {entry : String × Aggregation}
    (h : entry ∈ node.aggregations) : aggregation entry.2 ∈ node.children :=
  List.mem_append_right _ (List.mem_map_of_mem h)

/-- The relation between a node and each node of its tree, itself included. -/
def Within (part whole : Node) : Prop :=
  Relation.ReflTransGen (fun parent child => child ∈ parent.children) whole part

/-- The report of a node is made of its findings from its own name on. -/
theorem validate_eq (node : Node) : node.validate = Report.ofList (node.findings node.kind) := by
  cases node <;> rfl

/-- A node is written unless its report has a fatal finding. -/
theorem text_eq (node : Node) : node.text = node.validate.whenSound node.compile.toText := by
  cases node <;> rfl

/-- A query is larger than the queries it holds. -/
theorem sizeOf_lt_of_mem_queries {node : Node} {child : Query} (h : child ∈ node.queries) :
    sizeOf (query child) < sizeOf node := by
  cases node with
  | query parent =>
      cases parent with
      | leaf => cases h
      | nested path held options =>
          obtain rfl : held = some child := by simpa [queries] using h
          simp
          omega
      | bool must mustNot should filter options =>
          simp only [queries, List.mem_append] at h
          rcases h with ((h | h) | h) | h <;>
            have hlt := List.sizeOf_lt_of_mem h <;> simp <;> omega
  | aggregation parent =>
      cases parent with
      | leaf => cases h
      | bucket division children =>
          cases division with
          | filter held =>
              obtain rfl : held = some child := by simpa [queries, Division.query?] using h
              simp
              omega
          | terms | dateHistogram | range | dateRange => simp [queries, Division.query?] at h
  | search request =>
      obtain ⟨indices, held, aggregations, start, size, sort, source, track⟩ := request
      obtain rfl : held = some child := by simpa [queries] using h
      simp
      omega

/-- A node is larger than the aggregations it holds. -/
theorem sizeOf_lt_of_mem_aggregations {node : Node} {entry : String × Aggregation}
    (h : entry ∈ node.aggregations) : sizeOf (aggregation entry.2) < sizeOf node := by
  obtain ⟨name, child⟩ := entry
  have hlt := List.sizeOf_lt_of_mem h
  cases node with
  | query parent => cases h
  | aggregation parent =>
      cases parent with
      | leaf => cases h
      | bucket division children =>
          simp [aggregations] at hlt ⊢
          omega
  | search request =>
      obtain ⟨indices, held, aggregations, start, size, sort, source, track⟩ := request
      simp [Node.aggregations] at hlt ⊢
      omega

/-- A node is larger than its children. -/
theorem sizeOf_lt_of_mem_children {node child : Node} (h : child ∈ node.children) :
    sizeOf child < sizeOf node := by
  simp only [children, List.mem_append, List.mem_map] at h
  rcases h with ⟨held, hheld, rfl⟩ | ⟨entry, hentry, rfl⟩
  · exact sizeOf_lt_of_mem_queries hheld
  · exact sizeOf_lt_of_mem_aggregations hentry

/-- A property that holds of a node whenever it holds of the node's children holds of all nodes. -/
theorem induction {motive : Node → Prop}
    (step : ∀ node, (∀ child ∈ node.children, motive child) → motive node) (node : Node) :
    motive node :=
  step node fun child h =>
    have : sizeOf child < sizeOf node := sizeOf_lt_of_mem_children h
    induction step child
termination_by sizeOf node

end Node

end SearchWire
