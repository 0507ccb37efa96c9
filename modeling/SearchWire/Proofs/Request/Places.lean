import SearchWire.Proofs.Request.Tree

/-!
# Where the findings about a node are placed

The findings about a node carry the path from which the node is validated.
`Node.findings_append` says that a longer path does nothing but stand in front
of each of them: neither which findings there are nor their order depends on
where a node stands. So every finding about a node is `Finding.At` its path, and
findings about different members of a request are told apart by their paths.
-/

namespace SearchWire

namespace Finding

/-- A finding with a path in front of its wording. -/
def under (place : String) (finding : Finding) : Finding :=
  ⟨place ++ finding.message, finding.fatal⟩

/-- The wording of a finding begins with a path. -/
def At (path : String) (finding : Finding) : Prop :=
  ∃ rest, finding.message = path ++ rest

/-- Findings under one path are different when they are different without it. -/
theorem under_injective (place : String) : Function.Injective (under place) := by
  intro first second h
  obtain ⟨hmessage, hfatal⟩ := Finding.mk.inj h
  have hchars := congrArg String.toList hmessage
  rw [String.toList_append, String.toList_append] at hchars
  have hsame : first.message = second.message :=
    String.toList_inj.1 (List.append_cancel_left hchars)
  exact congr (congrArg Finding.mk hsame) hfatal

theorem at_of_mem_map_under {path : String} {finding : Finding} {findings : List Finding}
    (h : finding ∈ findings.map (under path)) : finding.At path := by
  obtain ⟨relative, -, rfl⟩ := List.mem_map.1 h
  exact ⟨relative.message, rfl⟩

end Finding

theorem QueryProblem.located_append (problem : QueryProblem) (place path : String) :
    problem.located (place ++ path) = (problem.located path).under place := by
  simp [located, Finding.under, String.append_assoc]

theorem AggregationProblem.located_append (problem : AggregationProblem) (place path : String) :
    problem.located (place ++ path) = (problem.located path).under place := by
  simp [located, Finding.under, String.append_assoc]

namespace Query

theorem childPath_append (place path role kind : String) :
    childPath (place ++ path) role kind = place ++ childPath path role kind := by
  simp [childPath, String.append_assoc]

theorem located_append (problems : List QueryProblem) (place path : String) :
    located problems (place ++ path) = (located problems path).map (Finding.under place) := by
  rw [located, located, List.map_map]
  exact List.map_congr_left fun problem _ => problem.located_append place path

/-- Clauses carry the path of their node. -/
theorem findingsList_append {place : String} {queries : List Query}
    (h : ∀ query ∈ queries, ∀ path,
      query.findings (place ++ path) = (query.findings path).map (Finding.under place))
    (path role : String) (position : Nat) :
    findingsList (place ++ path) role position queries =
      (findingsList path role position queries).map (Finding.under place) := by
  induction queries generalizing position with
  | nil => simp [findingsList]
  | cons query rest ih =>
      have hrest := ih (fun other hother => h other (List.mem_cons_of_mem _ hother)) (position + 1)
      rw [findingsList, findingsList, clausePath, childPath_append, h query List.mem_cons_self,
        hrest, List.map_append]
      rfl

end Query

namespace Aggregation

theorem located_append (problems : List AggregationProblem) (place path : String) :
    located problems (place ++ path) = (located problems path).map (Finding.under place) := by
  rw [located, located, List.map_map]
  exact List.map_congr_left fun problem _ => problem.located_append place path

theorem nameFindings_append (place path name : String) :
    nameFindings (place ++ path) name = (nameFindings path name).map (Finding.under place) := by
  by_cases hname : name.isEmpty = true
  · simp [nameFindings, problemIf, hname, Finding.under, String.append_assoc]
  · simp [nameFindings, problemIf, hname]

/-- Named aggregations carry the path of their node. -/
theorem findingsNamed_append {place : String} {children : List (String × Aggregation)}
    (h : ∀ entry ∈ children, ∀ path,
      entry.2.findings (place ++ path) = (entry.2.findings path).map (Finding.under place))
    (path : String) :
    findingsNamed (place ++ path) children =
      (findingsNamed path children).map (Finding.under place) := by
  induction children with
  | nil => simp [findingsNamed]
  | cons entry rest ih =>
      obtain ⟨name, aggregation⟩ := entry
      have hfirst := h (name, aggregation) List.mem_cons_self
      have hrest := ih fun other hother => h other (List.mem_cons_of_mem _ hother)
      rw [findingsNamed, findingsNamed, nameFindings_append, Query.childPath_append, hfirst, hrest,
        List.map_append, List.map_append]

end Aggregation

theorem SearchRequest.indexFindings_append (place path : String) (position : Nat)
    (indices : List String) :
    indexFindings (place ++ path) position indices =
      (indexFindings path position indices).map (Finding.under place) := by
  induction indices generalizing position with
  | nil => rfl
  | cons index rest ih =>
      rw [indexFindings, indexFindings, ih, List.map_append]
      by_cases hindex : index.isEmpty = true
      · simp [problemIf, hindex, Finding.under, String.append_assoc]
      · simp [problemIf, hindex]

namespace Node

/-- A node carries its path when its children do. -/
theorem findings_append_step {place : String} (node : Node)
    (h : ∀ child ∈ node.children, ∀ path,
      child.findings (place ++ path) = (child.findings path).map (Finding.under place))
    (path : String) :
    node.findings (place ++ path) = (node.findings path).map (Finding.under place) := by
  -- the hypothesis about children, once for queries and once for named aggregations
  have hquery (held : Query) (hheld : held ∈ node.queries) (path : String) :
      held.findings (place ++ path) = (held.findings path).map (Finding.under place) :=
    h _ (query_mem_children hheld) path
  have hnamed (entry : String × Aggregation) (hentry : entry ∈ node.aggregations) (path : String) :
      entry.2.findings (place ++ path) = (entry.2.findings path).map (Finding.under place) :=
    h _ (aggregation_mem_children hentry) path
  cases node with
  | query held =>
      cases held with
      | leaf held => simp only [findings, Query.findings, Query.located_append]
      | nested objectPath held options =>
          cases held with
          | none =>
              simp only [findings, Query.findings, Query.findingsOption, Query.located_append,
                List.append_nil]
          | some held =>
              have hheld := hquery held List.mem_cons_self
              simp only [findings, Query.findings, Query.findingsOption, Query.located_append,
                Query.childPath_append, hheld, List.map_append]
      | bool must mustNot should filter options =>
          simp only [queries, List.mem_append, or_imp, forall_and] at hquery
          obtain ⟨⟨⟨hmust, hmustNot⟩, hshould⟩, hfilter⟩ := hquery
          simp only [findings, Query.findings, Query.findingsList_append hmust,
            Query.findingsList_append hmustNot, Query.findingsList_append hshould,
            Query.findingsList_append hfilter, Query.located_append, List.map_append]
  | aggregation held =>
      cases held with
      | leaf held => simp only [findings, Aggregation.findings, Aggregation.located_append]
      | bucket division children =>
          have hfilter : Aggregation.filterFindings (place ++ path) division =
              (Aggregation.filterFindings path division).map (Finding.under place) := by
            cases division with
            | filter held =>
                cases held with
                | none => rfl
                | some held =>
                    have hheld := hquery held List.mem_cons_self
                    simp only [Aggregation.filterFindings, Query.childPath_append, hheld]
            | terms | dateHistogram | range | dateRange => rfl
          have hchildren : Aggregation.findingsNamed (place ++ (path ++ ".aggs")) children =
              (Aggregation.findingsNamed (path ++ ".aggs") children).map (Finding.under place) :=
            Aggregation.findingsNamed_append hnamed _
          simp only [findings, Aggregation.findings, Aggregation.located_append, hfilter,
            String.append_assoc, hchildren, List.map_append]
  | search request =>
      have hheld : SearchRequest.queryFindings (place ++ path) request.query =
          (SearchRequest.queryFindings path request.query).map (Finding.under place) := by
        cases hset : request.query with
        | none => rfl
        | some held =>
            have hfindings := hquery held (by simp [queries, hset])
            simp only [SearchRequest.queryFindings, Query.childPath_append, hfindings]
      have hchildren : Aggregation.findingsNamed (place ++ (path ++ ".aggs")) request.aggregations =
          (Aggregation.findingsNamed (path ++ ".aggs") request.aggregations).map
            (Finding.under place) :=
        Aggregation.findingsNamed_append hnamed _
      simp only [findings, SearchRequest.findings, SearchRequest.indexFindings_append, hheld,
        String.append_assoc, hchildren, List.map_append]

/-- A path in front of the path of a node stands in front of every finding about it. -/
theorem findings_append (place path : String) (node : Node) :
    node.findings (place ++ path) = (node.findings path).map (Finding.under place) := by
  induction node using Node.induction generalizing path with
  | step node ih => exact findings_append_step node ih path

/-- Every finding about a node begins with the path of the node. -/
theorem at_of_mem_findings {path : String} {node : Node} {finding : Finding}
    (h : finding ∈ node.findings path) : finding.At path := by
  have hpath := findings_append path "" node
  rw [String.append_empty] at hpath
  exact Finding.at_of_mem_map_under (hpath ▸ h)

end Node

/-- Every finding about named aggregations begins with their path. -/
theorem Aggregation.at_of_mem_findingsNamed {path : String} {finding : Finding}
    {named : List (String × Aggregation)} (h : finding ∈ findingsNamed path named) :
    finding.At path := by
  have hpath : findingsNamed (path ++ "") named =
      (findingsNamed "" named).map (Finding.under path) := by
    refine findingsNamed_append (fun entry _ below => ?_) ""
    exact Node.findings_append path below (.aggregation entry.2)
  rw [String.append_empty] at hpath
  exact Finding.at_of_mem_map_under (hpath ▸ h)

end SearchWire
