import Mathlib.Data.List.Infix
import SearchWire.Proofs.Request.OwnFindings
import SearchWire.Proofs.Request.Places

/-!
# Validation inside a larger tree

A request is validated by a walk through its tree that carries one report along
and adds each finding where it is met. `Node.inspect` is this walk, and
`Node.inspect_eq` says by induction over the tree that it adds the findings
about the node. So what a walk adds depends neither on the report that it is
given nor, but for the path in front of each message, on the place at which it
starts (`Node.inspect_relocates`).
-/

namespace SearchWire

/-! ## The walk -/

namespace Query

mutual

/-- Goes through a query from a path on and adds to a report what it finds, where it finds it. -/
def inspect (path : String) (report : Report) : Query → Report
  | .leaf query => report.addAll (located query.problems path)
  | .nested objectPath query options =>
      inspectOption path
        (report.addAll (located (problems (.nested objectPath query options)) path)) query
  | .bool must mustNot should filter options =>
      let afterMust := inspectList path "must" 0 report must
      let afterMustNot := inspectList path "must_not" 0 afterMust mustNot
      let afterShould := inspectList path "should" 0 afterMustNot should
      let afterFilter := inspectList path "filter" 0 afterShould filter
      afterFilter.addAll (located (problems (.bool must mustNot should filter options)) path)
termination_by structural query => query

/-- Goes through the query of a nested query. -/
def inspectOption (path : String) (report : Report) : Option Query → Report
  | some query => inspect (childPath path "query" query.kind) report query
  | none => report
termination_by structural query => query

/-- Goes through the clauses of one role, the first of which has the given position. -/
def inspectList (path role : String) (position : Nat) (report : Report) : List Query → Report
  | [] => report
  | query :: rest =>
      inspectList path role (position + 1)
        (inspect (clausePath path role position query.kind) report query) rest
termination_by structural queries => queries

end

mutual

/-- A walk through a query adds the findings about it. -/
theorem inspect_eq (path : String) (report : Report) (query : Query) :
    inspect path report query = report.addAll (query.findings path) := by
  cases query with
  | leaf query => rw [inspect, findings]
  | nested objectPath query options =>
      rw [inspect, findings, inspectOption_eq, Report.addAll_append]
  | bool must mustNot should filter options =>
      simp only [inspect, findings, inspectList_eq _ _ _ _ must, inspectList_eq _ _ _ _ mustNot,
        inspectList_eq _ _ _ _ should, inspectList_eq _ _ _ _ filter, Report.addAll_append]

theorem inspectOption_eq (path : String) (report : Report) (query : Option Query) :
    inspectOption path report query = report.addAll (findingsOption path query) := by
  cases query with
  | none => rfl
  | some query => exact inspect_eq _ report query

theorem inspectList_eq (path role : String) (position : Nat) (report : Report)
    (queries : List Query) :
    inspectList path role position report queries =
      report.addAll (findingsList path role position queries) := by
  cases queries with
  | nil => rfl
  | cons query rest =>
      rw [inspectList, findingsList, inspect_eq _ _ query, inspectList_eq _ _ _ _ rest,
        Report.addAll_append]

end

end Query

namespace Aggregation

/-- Goes through the query of a filter. -/
def inspectFilter (path : String) (report : Report) : Division → Report
  | .filter (some query) => query.inspect (Query.childPath path "filter" query.kind) report
  | _ => report

mutual

/-- Goes through an aggregation from a path on and adds to a report what it finds, where it finds
it. -/
def inspect (path : String) (report : Report) : Aggregation → Report
  | .leaf aggregation => report.addAll (located aggregation.problems path)
  | .bucket division children =>
      let afterOwn := report.addAll (located division.problems path)
      inspectNamed (path ++ ".aggs") (inspectFilter path afterOwn division) children
termination_by structural aggregation => aggregation

/-- Goes through named aggregations at a path. -/
def inspectNamed (path : String) (report : Report) : List (String × Aggregation) → Report
  | [] => report
  | (name, aggregation) :: rest =>
      let afterName := report.addAll (nameFindings path name)
      inspectNamed path
        (inspect (Query.childPath path name aggregation.kind) afterName aggregation) rest
termination_by structural children => children

end

theorem inspectFilter_eq (path : String) (report : Report) (division : Division) :
    inspectFilter path report division = report.addAll (filterFindings path division) := by
  cases division with
  | filter query =>
      cases query with
      | none => rfl
      | some query => exact query.inspect_eq _ report
  | terms | dateHistogram | range | dateRange => rfl

mutual

/-- A walk through an aggregation adds the findings about it. -/
theorem inspect_eq (path : String) (report : Report) (aggregation : Aggregation) :
    inspect path report aggregation = report.addAll (aggregation.findings path) := by
  cases aggregation with
  | leaf aggregation => rw [inspect, findings]
  | bucket division children =>
      rw [inspect, findings, inspectNamed_eq _ _ children, inspectFilter_eq, Report.addAll_append,
        Report.addAll_append]

theorem inspectNamed_eq (path : String) (report : Report) (named : List (String × Aggregation)) :
    inspectNamed path report named = report.addAll (findingsNamed path named) := by
  cases named with
  | nil => rfl
  | cons entry rest =>
      obtain ⟨name, aggregation⟩ := entry
      rw [inspectNamed, findingsNamed, inspectNamed_eq _ _ rest, inspect_eq _ _ aggregation,
        Report.addAll_append, Report.addAll_append]

end

end Aggregation

namespace SearchRequest

/-- Goes through the query of a request. -/
def inspectQuery (place : String) (report : Report) : Option Query → Report
  | some query => query.inspect (Query.childPath place "query" query.kind) report
  | none => report

/-- Goes through a request from a path on and adds to a report what it finds, where it finds it. -/
def inspect (place : String) (report : Report) (request : SearchRequest) : Report :=
  let afterIndices := report.addAll (indexFindings place 0 request.indices)
  let afterQuery := inspectQuery place afterIndices request.query
  Aggregation.inspectNamed (place ++ ".aggs") afterQuery request.aggregations

theorem inspectQuery_eq (place : String) (report : Report) (query : Option Query) :
    inspectQuery place report query = report.addAll (queryFindings place query) := by
  cases query with
  | none => rfl
  | some query => exact query.inspect_eq _ report

theorem inspect_eq (place : String) (report : Report) (request : SearchRequest) :
    request.inspect place report = report.addAll (request.findings place) := by
  rw [inspect, findings, Aggregation.inspectNamed_eq, inspectQuery_eq, Report.addAll_append,
    Report.addAll_append]

end SearchRequest

namespace Node

/-- Goes through a node and its tree from a path on and adds to a report what it finds, where it
finds it. -/
def inspect (path : String) (report : Report) : Node → Report
  | .query held => held.inspect path report
  | .aggregation held => held.inspect path report
  | .search request => request.inspect path report

/-- A walk through a node adds the findings about its tree. -/
theorem inspect_eq (path : String) (report : Report) (node : Node) :
    node.inspect path report = report.addAll (node.findings path) := by
  cases node with
  | query held => exact held.inspect_eq path report
  | aggregation held => exact held.inspect_eq path report
  | search request => exact request.inspect_eq path report

/-! ## The findings about one part -/

/-- The findings about one of several nodes stand together among the findings about them all. -/
theorem infix_findingsBelow {path : String} {entries : List (Role × Node)} {role : Role}
    {child : Node} (h : (role, child) ∈ entries) :
    child.findings (path ++ (⟨role, child.kind⟩ : Step).text) <:+: findingsBelow path entries := by
  rw [findingsBelow, List.flatMap_def]
  exact List.infix_of_mem_flatten (List.mem_map.2 ⟨_, h, rfl⟩)

/-- The findings about a named aggregation stand together behind the one about its name. -/
theorem infix_findingsNamed {path : String} {named : List (String × Aggregation)} {role : Role}
    {child : Node} (h : (role, child) ∈ namedRoles named) :
    child.findings (path ++ (⟨role, child.kind⟩ : Step).text) <:+:
      Aggregation.findingsNamed (path ++ ".aggs") named := by
  obtain ⟨entry, hentry, hsame⟩ := List.mem_map.1 h
  obtain ⟨rfl, rfl⟩ := Prod.mk.inj hsame
  rw [Aggregation.findingsNamed_eq, List.flatMap_def]
  refine List.IsInfix.trans ?_ (List.infix_of_mem_flatten (List.mem_map.2 ⟨entry, hentry, rfl⟩))
  exact (List.suffix_append _ _).isInfix

/-- The findings about a node that another one holds stand together among those about the latter. -/
theorem infix_findings_of_held {path : String} {node child : Node} {role : Role}
    (h : (role, child) ∈ node.held) :
    child.findings (path ++ (⟨role, child.kind⟩ : Step).text) <:+: node.findings path := by
  cases node with
  | query parent =>
      refine (infix_findingsBelow h).trans ?_
      cases parent with
      | leaf body => cases h
      | nested objectPath asked options =>
          rw [held, findingsBelow_query, findings, Query.findings]
          cases asked with
          | none => exact List.nil_infix
          | some inner => exact (List.suffix_append _ _).isInfix
      | bool must mustNot should filter options =>
          simp only [held, findingsBelow_append, findingsBelow_clauses, findings, Query.findings]
          exact (List.prefix_append _ _).isInfix
  | aggregation parent =>
      cases parent with
      | leaf body => cases h
      | bucket division children =>
          rw [findings, Aggregation.findings, filterFindings_eq]
          rcases List.mem_append.1 h with hquery | hchild
          · exact (infix_findingsBelow hquery).trans (List.infix_append _ _ _)
          · exact (infix_findingsNamed hchild).trans (List.suffix_append _ _).isInfix
  | search request =>
      rw [findings, SearchRequest.findings, queryFindings_eq]
      rcases List.mem_append.1 h with hquery | hchild
      · exact (infix_findingsBelow hquery).trans (List.infix_append _ _ _)
      · exact (infix_findingsNamed hchild).trans (List.suffix_append _ _).isInfix

/-- The findings about a node of a tree stand together among those about the tree. -/
theorem infix_findings (path : String) {node part : Node} {address : List Step}
    (h : (address, part) ∈ node.parts) :
    part.findings (path ++ addressText address) <:+: node.findings path := by
  induction address generalizing node path with
  | nil =>
      rcases mem_parts_iff.1 h with ⟨-, rfl⟩ | ⟨_, _, _, _, hsame, _⟩
      · rw [addressText, String.append_empty]
      · cases hsame
  | cons step rest ih =>
      rcases mem_parts_iff.1 h with ⟨hroot, -⟩ | ⟨role, child, _, hheld, hsame, hrest⟩
      · cases hroot
      · obtain ⟨rfl, rfl⟩ := List.cons.inj hsame
        have hbelow := ih (path ++ (⟨role, child.kind⟩ : Step).text) hrest
        rw [addressText, ← String.append_assoc]
        exact hbelow.trans (infix_findings_of_held hheld)

/-! ## Relocation -/

/-- The findings about a node, each once and in order, are the same from every path on, but for the
path itself. -/
theorem findings_ofList_findings (path : String) (node : Node) :
    (Report.ofList (node.findings path)).findings =
      (Report.ofList (node.findings "")).findings.map (Finding.under path) := by
  rw [← Report.findings_ofList_map (Finding.under_injective path), ← findings_append,
    String.append_empty]

/-- The walk through a node, from any path on and whatever has been reported before. It leaves what
is there in front, adds nothing twice, and adds exactly what it finds when nothing has been reported
before; that is the report about the node alone, in the same order, with the path in place of the
name of the node at the front of each message. What the walk does in the tree of a part is to add
the report of a walk through the part alone, from the place of the part on. -/
theorem inspect_relocates (node : Node) (path : String) (report : Report) :
    report.findings <+: (node.inspect path report).findings ∧
      (node.inspect path report).findings.Nodup ∧
      node.inspect path report = report.extend (node.inspect path .empty) ∧
      node.validate = node.inspect node.kind .empty ∧
      (∃ relative : List Finding,
        node.validate.findings = relative.map (Finding.under node.kind) ∧
          (node.inspect path .empty).findings = relative.map (Finding.under path)) ∧
      ∀ address part, (address, part) ∈ node.parts → ∃ before after : List Finding,
        node.inspect path report =
          ((report.addAll before).extend (part.inspect (path ++ addressText address) .empty)).addAll
            after := by
  have hall := node.inspect_eq path report
  have hempty (node : Node) (path : String) :
      node.inspect path .empty = Report.ofList (node.findings path) := node.inspect_eq path .empty
  refine ⟨?_, (node.inspect path report).nodup, ?_, ?_,
    ⟨(Report.ofList (node.findings "")).findings, ?_, ?_⟩, ?_⟩
  · rw [hall]
    exact report.prefix_addAll _
  · rw [hall, hempty]
    exact report.addAll_eq_extend _
  · rw [validate_eq, hempty]
  · rw [validate_eq]
    exact findings_ofList_findings node.kind node
  · rw [hempty]
    exact findings_ofList_findings path node
  · intro address part hpart
    obtain ⟨before, after, hsplit⟩ := infix_findings path hpart
    refine ⟨before, after, ?_⟩
    rw [hall, ← hsplit, Report.addAll_append, Report.addAll_append, hempty,
      ← Report.addAll_eq_extend]

end Node

end SearchWire
