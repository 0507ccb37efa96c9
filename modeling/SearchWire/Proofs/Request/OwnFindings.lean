import Mathlib.Data.List.Perm.Basic
import SearchWire.Proofs.Request.Address
import SearchWire.Proofs.Request.Refusal

/-!
# The findings about each node of a tree

`Node.ownFindings` are the findings about a node alone, the nodes it holds
aside. The findings about a tree are those about its nodes, each placed at the
address of its node (`Node.findings_perm`), and a node has a fatal finding of its
own exactly when it breaks a fatal rule (`Node.hasFatal_ownFindings_iff`).
-/

namespace SearchWire

/-- The findings about the clauses of one occurrence, each at the step to its clause. -/
theorem Query.findingsList_eq (path : String) (occurrence : Occurrence) (position : Nat)
    (queries : List Query) :
    findingsList path occurrence.text position queries =
      (queries.zipIdx position).flatMap fun entry =>
        entry.1.findings (path ++ (⟨.clause occurrence entry.2, entry.1.kind⟩ : Step).text) := by
  induction queries generalizing position with
  | nil => rfl
  | cons query rest ih =>
      rw [findingsList, ih, List.zipIdx_cons, List.flatMap_cons, ← childPath_eq]
      rfl

/-- The findings about children without a name. -/
def Aggregation.nameFindingsAll (path : String) (children : List (String × Aggregation)) :
    List Finding :=
  children.flatMap fun entry => nameFindings path entry.1

/-- The findings about named aggregations: for each of them the one about its name and those about
its tree, placed at the step to it. -/
theorem Aggregation.findingsNamed_eq (path : String) (named : List (String × Aggregation)) :
    findingsNamed (path ++ ".aggs") named =
      named.flatMap fun entry => nameFindings (path ++ ".aggs") entry.1 ++
        entry.2.findings (path ++ (⟨.named entry.1, entry.2.kind⟩ : Step).text) := by
  induction named with
  | nil => rfl
  | cons entry rest ih =>
      obtain ⟨name, aggregation⟩ := entry
      rw [findingsNamed, ih, List.flatMap_cons]
      have hplace : Query.childPath (path ++ ".aggs") name aggregation.kind =
          path ++ (⟨.named name, aggregation.kind⟩ : Step).text := by
        have hdots : ".aggs" = "." ++ "aggs" := rfl
        have hdot : "aggs." = "aggs" ++ "." := rfl
        simp only [Query.childPath, Step.text, Role.text, hdots, hdot, String.append_assoc]
      rw [hplace]

namespace Node

/-- The findings about a node itself, the nodes that it holds aside, placed from a path on. -/
def ownFindings (path : String) : Node → List Finding
  | .query held => Query.located held.problems path
  | .aggregation (.leaf held) => Aggregation.located held.problems path
  | .aggregation (.bucket division children) =>
      Aggregation.located division.problems path ++
        Aggregation.nameFindingsAll (path ++ ".aggs") children
  | .search request =>
      SearchRequest.indexFindings path 0 request.indices ++
        Aggregation.nameFindingsAll (path ++ ".aggs") request.aggregations

/-- The findings about the trees of some nodes, each placed at the step to its root. -/
def findingsBelow (path : String) (entries : List (Role × Node)) : List Finding :=
  entries.flatMap fun entry =>
    entry.2.findings (path ++ (⟨entry.1, entry.2.kind⟩ : Step).text)

theorem findingsBelow_append (path : String) (first second : List (Role × Node)) :
    findingsBelow path (first ++ second) = findingsBelow path first ++ findingsBelow path second :=
  List.flatMap_append

theorem findingsBelow_clauses (path : String) (occurrence : Occurrence) (queries : List Query) :
    findingsBelow path (clauses occurrence queries) =
      Query.findingsList path occurrence.text 0 queries := by
  rw [Query.findingsList_eq, findingsBelow, clauses, List.flatMap_map]
  rfl

/-- The findings about the query that a node holds in a role, if any. -/
theorem findingsBelow_query (path : String) (role : Role) (asked : Option Query) :
    findingsBelow path (asked.toList.map fun inner => (role, .query inner)) =
      match asked with
      | some inner => inner.findings (Query.childPath path role.text inner.kind)
      | none => [] := by
  cases asked with
  | none => rfl
  | some inner =>
      show inner.findings (path ++ (⟨role, inner.kind⟩ : Step).text) ++ [] = _
      rw [List.append_nil, ← Query.childPath_eq]

/-- The findings about the query of a filter are those about a node that it holds. -/
theorem filterFindings_eq (path : String) (division : Division) :
    Aggregation.filterFindings path division =
      findingsBelow path (division.query?.toList.map fun inner => (.filter, .query inner)) := by
  rw [findingsBelow_query]
  cases division with
  | filter asked => cases asked <;> rfl
  | terms | dateHistogram | range | dateRange => rfl

/-- The findings about the query of a search are those about a node that it holds. -/
theorem queryFindings_eq (path : String) (asked : Option Query) :
    SearchRequest.queryFindings path asked =
      findingsBelow path (asked.toList.map fun inner => (.query, .query inner)) := by
  rw [findingsBelow_query]
  cases asked <;> rfl

/-- The findings about named aggregations are those about their names and those about their
trees. -/
theorem findingsNamed_perm (path : String) (named : List (String × Aggregation)) :
    (Aggregation.findingsNamed (path ++ ".aggs") named).Perm
      (Aggregation.nameFindingsAll (path ++ ".aggs") named ++
        findingsBelow path (namedRoles named)) := by
  rw [Aggregation.findingsNamed_eq, findingsBelow, namedRoles, List.flatMap_map]
  exact (List.flatMap_append_perm named _ _).symm

/-- Findings about names may be told before those about the queries beside them. -/
theorem regroup {own queries named names below : List Finding}
    (h : named.Perm (names ++ below)) :
    (own ++ queries ++ named).Perm (own ++ names ++ (queries ++ below)) := by
  rw [List.append_assoc, List.append_assoc]
  refine .append_left own ((h.append_left queries).trans ?_)
  rw [← List.append_assoc, ← List.append_assoc]
  exact .append_right below List.perm_append_comm

/-- The findings about a node are its own and those about the trees of the nodes that it holds. -/
theorem findings_perm_step (path : String) (node : Node) :
    (node.findings path).Perm (node.ownFindings path ++ findingsBelow path node.held) := by
  cases node with
  | query parent =>
      cases parent with
      | leaf body => exact .of_eq (List.append_nil _).symm
      | nested objectPath asked options =>
          refine .of_eq ?_
          show Query.findings path _ = _ ++ findingsBelow path (asked.toList.map _)
          rw [Query.findings, findingsBelow_query]
          cases asked <;> rfl
      | bool must mustNot should filter options =>
          show (Query.findings path _).Perm _
          simp only [Query.findings, held, findingsBelow_append, findingsBelow_clauses]
          exact List.perm_append_comm
  | aggregation parent =>
      cases parent with
      | leaf body => exact .of_eq (List.append_nil _).symm
      | bucket division children =>
          show (Aggregation.findings path _).Perm _
          rw [Aggregation.findings, filterFindings_eq, held, findingsBelow_append]
          exact regroup (findingsNamed_perm path children)
  | search request =>
      show (SearchRequest.findings path request).Perm _
      rw [SearchRequest.findings, queryFindings_eq, held, findingsBelow_append]
      exact regroup (findingsNamed_perm path request.aggregations)

/-- The findings about a tree are those about each of its nodes, placed at the node's address. -/
theorem findings_perm (path : String) (node : Node) :
    (node.findings path).Perm
      (node.parts.flatMap fun part => part.2.ownFindings (path ++ addressText part.1)) := by
  induction node using Node.induction generalizing path with
  | step node ih =>
      refine (findings_perm_step path node).trans ?_
      rw [parts_eq, List.flatMap_cons, List.flatMap_assoc]
      show (node.ownFindings path ++ _).Perm (node.ownFindings (path ++ "") ++ _)
      rw [String.append_empty]
      refine .append_left _ (List.Perm.flatMap_left _ fun entry hentry => ?_)
      refine (ih entry.2 (mem_children_of_mem_held hentry) _).trans (.of_eq ?_)
      rw [List.flatMap_map]
      simp only [addressText, String.append_assoc]

/-- A finding about a tree is one about a node of it. -/
theorem mem_findings_iff {path : String} {node : Node} {finding : Finding} :
    finding ∈ node.findings path ↔
      ∃ address part, (address, part) ∈ node.parts ∧
        finding ∈ part.ownFindings (path ++ addressText address) := by
  rw [(findings_perm path node).mem_iff, List.mem_flatMap, Prod.exists]

/-- A child without a name is reported. -/
theorem hasFatal_nameFindingsAll_iff {path : String} {children : List (String × Aggregation)} :
    HasFatal (Aggregation.nameFindingsAll path children) ↔ ∃ child, ("", child) ∈ children := by
  simp only [HasFatal, Aggregation.nameFindingsAll, Aggregation.nameFindings, List.mem_flatMap,
    mem_problemIf, String.isEmpty_iff]
  constructor
  · rintro ⟨finding, ⟨⟨name, child⟩, hentry, rfl, -⟩, -⟩
    exact ⟨child, hentry⟩
  · rintro ⟨child, hentry⟩
    exact ⟨_, ⟨_, hentry, rfl, rfl⟩, rfl⟩

/-- A node has a fatal finding of its own exactly when it breaks a fatal rule. -/
theorem hasFatal_ownFindings_iff {path : String} {node : Node} :
    HasFatal (node.ownFindings path) ↔ node.BreaksFatalRule := by
  cases node with
  | query parent => rw [ownFindings, hasFatal_query_located, breaksFatalRule_query_iff]
  | aggregation parent =>
      cases parent with
      | leaf body => rw [ownFindings, hasFatal_aggregation_located, LeafAggregation.fatal_iff]
      | bucket division children =>
          rw [ownFindings, hasFatal_append, hasFatal_aggregation_located,
            hasFatal_nameFindingsAll_iff, breaksFatalRule_bucket_iff]
  | search request =>
      rw [ownFindings, hasFatal_append, SearchRequest.hasFatal_indexFindings_iff,
        hasFatal_nameFindingsAll_iff, breaksFatalRule_search_iff]

end Node

end SearchWire
