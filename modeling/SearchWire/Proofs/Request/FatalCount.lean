import SearchWire.Proofs.Request.Apart

/-!
# Every node that breaks a fatal rule is reported

`Node.flawedParts` are the nodes of a tree that break a fatal rule. When no label
of a named aggregation begins with the label of one beside it, the report of the
tree has a fatal finding about each of them, and these are all different
(`Node.length_flawedParts_le`); names without a dot are enough for that. The
condition cannot be left out: an aggregation may have a name that looks like the
way to another one, and then the finding about one of them is taken for a
repetition (`Node.problem_hidden`).
-/

namespace SearchWire

namespace Node

instance : DecidablePred BreaksFatalRule := fun node =>
  decidable_of_iff ((node.ownFindings "").any (·.fatal) = true) (by
    rw [← @hasFatal_ownFindings_iff "" node, HasFatal, List.any_eq_true])

/-- The nodes of a tree that break a fatal rule, with their addresses. -/
def flawedParts (node : Node) : List (List Step × Node) :=
  node.parts.filter fun part => part.2.BreaksFatalRule

theorem mem_flawedParts_iff {node part : Node} {address : List Step} :
    (address, part) ∈ node.flawedParts ↔
      (address, part) ∈ node.parts ∧ part.BreaksFatalRule := by
  rw [flawedParts, List.mem_filter, decide_eq_true_eq]

/-- The report about a tree consists of the findings about its nodes. -/
theorem mem_validate_iff {node : Node} {finding : Finding} :
    finding ∈ node.validate.findings ↔
      ∃ address part, (address, part) ∈ node.parts ∧
        finding ∈ part.ownFindings (node.kind ++ addressText address) := by
  rw [validate_eq, Report.mem_findings_ofList, mem_findings_iff]

/-- A node that breaks a fatal rule has a fatal finding in the report about the tree. -/
theorem exists_fatal_of_mem_flawedParts {node part : Node} {address : List Step}
    (h : (address, part) ∈ node.flawedParts) :
    ∃ finding ∈ node.validate.findings, finding.fatal = true ∧
      finding ∈ part.ownFindings (node.kind ++ addressText address) := by
  obtain ⟨hpart, hbreaks⟩ := mem_flawedParts_iff.1 h
  obtain ⟨finding, hown, hfatal⟩ := hasFatal_ownFindings_iff.2 hbreaks
  exact ⟨finding, mem_validate_iff.2 ⟨address, part, hpart, hown⟩, hfatal, hown⟩

/-- When each of some things has something told about it, and nothing is told about two of them,
no more of them are listed than is told. -/
theorem length_le_of_reported {parts : List (List Step × Node)} {findings : List Finding}
    (hparts : parts.Nodup) (own : List Step × Node → List Finding)
    (hreported : ∀ part ∈ parts, ∃ finding ∈ findings, finding ∈ own part)
    (happart : ∀ part ∈ parts, ∀ other ∈ parts, ∀ finding ∈ own part, finding ∈ own other →
      part = other) : parts.length ≤ findings.length := by
  have : Nonempty Finding := ⟨⟨"", true⟩⟩
  choose! report hmem hown using hreported
  have hnodup : (parts.map report).Nodup := by
    refine hparts.map_on fun part hpart other hother hsame => ?_
    exact happart part hpart other hother _ (hown part hpart) (hsame ▸ hown other hother)
  have hsubset : parts.map report ⊆ findings := by
    intro finding hfinding
    obtain ⟨part, hpart, rfl⟩ := List.mem_map.1 hfinding
    exact hmem part hpart
  have hlength := (List.subperm_of_subset hnodup hsubset).length_le
  rwa [List.length_map] at hlength

/-- In a tree whose named aggregations are in order and have labels that do not begin with one
another, findings about different nodes have different messages. -/
theorem part_eq_of_message_eq {node : Node} (harranged : node.Arranged) (hapart : node.Apart)
    {path : String} {address place : List Step} {part other : Node}
    (hpart : (address, part) ∈ node.parts) (hother : (place, other) ∈ node.parts)
    {finding twin : Finding} (hfinding : finding ∈ part.ownFindings (path ++ addressText address))
    (htwin : twin ∈ other.ownFindings (path ++ addressText place))
    (h : finding.message = twin.message) : address = place ∧ part = other := by
  have haddress : address = place := address_eq_of_message_eq hapart hpart hother hfinding htwin h
  exact Prod.mk.inj (List.inj_on_of_nodup_map (nodup_parts harranged) hpart hother haddress)

/-- No node's problem is hidden by another's, in a tree whose named aggregations are in order and
have labels that do not begin with one another. The findings about two different nodes never have
the same message, each node that breaks a fatal rule has a fatal finding of its own in the report,
and so the fatal findings are at least as many as these nodes. -/
theorem length_flawedParts_le {node : Node} (harranged : node.Arranged) (hapart : node.Apart) :
    (∀ address part place other, (address, part) ∈ node.parts → (place, other) ∈ node.parts →
        ∀ finding ∈ part.ownFindings (node.kind ++ addressText address),
        ∀ twin ∈ other.ownFindings (node.kind ++ addressText place),
          finding.message = twin.message → address = place ∧ part = other) ∧
      (∀ address part, (address, part) ∈ node.parts → part.BreaksFatalRule →
        ∃ finding ∈ node.validate.findings, finding.fatal = true ∧
          finding ∈ part.ownFindings (node.kind ++ addressText address)) ∧
      node.flawedParts.length ≤ node.validate.fatalCount := by
  refine ⟨?_, fun address part hpart hbreaks =>
    exists_fatal_of_mem_flawedParts (mem_flawedParts_iff.2 ⟨hpart, hbreaks⟩), ?_⟩
  · intro address part place other hpart hother finding hfinding twin htwin h
    exact part_eq_of_message_eq harranged hapart hpart hother hfinding htwin h
  · have hnodup : node.flawedParts.Nodup :=
      (List.Nodup.of_map Prod.fst (nodup_parts harranged)).filter _
    rw [Report.fatalCount, List.countP_eq_length_filter]
    refine length_le_of_reported hnodup
      (fun part => part.2.ownFindings (node.kind ++ addressText part.1)) ?_ ?_
    · rintro ⟨address, part⟩ hpart
      obtain ⟨finding, hmem, hfatal, hown⟩ := exists_fatal_of_mem_flawedParts hpart
      exact ⟨finding, List.mem_filter.2 ⟨hmem, hfatal⟩, hown⟩
    · rintro ⟨address, part⟩ hpart ⟨place, other⟩ hother finding hfinding htwin
      obtain ⟨rfl, rfl⟩ := part_eq_of_message_eq harranged hapart (List.mem_of_mem_filter hpart)
        (List.mem_of_mem_filter hother) hfinding htwin rfl
      rfl

end Node

/-! ## Names that look like the way to another aggregation -/

namespace Aggregation

/-- The average of a field that was left out. -/
def fieldless : Aggregation :=
  .leaf (.metric { kind := .avg, field := "" })

/-- Buckets for the values of a field. -/
def valuesOf (field : String) : Aggregation :=
  .bucket (.terms { field := field }) []

/-- Buckets by kind, with an average whose field was left out. -/
def byKind : Aggregation :=
  (valuesOf "kind").withChild "b" fieldless

/-- Buckets by status, then by kind, with another such average beside the latter. -/
def averagesBeside (name : String) : Aggregation :=
  ((valuesOf "status").withChild "a" byKind).withChild name fieldless

end Aggregation

namespace Node

open Aggregation

theorem arranged_valuesOf (field : String) : (aggregation (valuesOf field)).Arranged :=
  arranged_iff_named.2 ⟨Named.Sorted.nil, List.forall_mem_nil _⟩

theorem arranged_averagesBeside (name : String) : (aggregation (averagesBeside name)).Arranged := by
  have hbyKind : (aggregation byKind).Arranged :=
    arranged_withChild (arranged_valuesOf "kind") (arranged_leaf _) "b"
  have hbyStatus := arranged_withChild (arranged_valuesOf "status") hbyKind "a"
  exact arranged_withChild hbyStatus (arranged_leaf _) name

theorem parts_fieldless : (aggregation fieldless).parts = [([], .aggregation fieldless)] := by
  rw [parts_eq]
  rfl

theorem parts_byKind : (aggregation byKind).parts =
    [([], .aggregation byKind), ([⟨.named "b", "avg"⟩], .aggregation fieldless)] := by
  have hheld : (aggregation byKind).held = [(.named "b", .aggregation fieldless)] := rfl
  rw [parts_eq, hheld, List.flatMap_singleton, parts_fieldless]
  rfl

theorem parts_averagesBeside {name : String}
    (hheld : (aggregation (averagesBeside name)).held =
      [(.named "a", .aggregation byKind), (.named name, .aggregation fieldless)]) :
    (aggregation (averagesBeside name)).parts =
      [([], .aggregation (averagesBeside name)), ([⟨.named "a", "terms"⟩], .aggregation byKind),
        ([⟨.named "a", "terms"⟩, ⟨.named "b", "avg"⟩], .aggregation fieldless),
        ([⟨.named name, "avg"⟩], .aggregation fieldless)] := by
  rw [parts_eq, hheld, List.flatMap_cons, List.flatMap_singleton, parts_byKind, parts_fieldless]
  rfl

/-- Two averages without a field have names without a dot, so both are reported. -/
theorem length_flawedParts_le_averagesBeside :
    (aggregation (averagesBeside "b")).Arranged ∧ (aggregation (averagesBeside "b")).Apart ∧
      (aggregation (averagesBeside "b")).flawedParts.length = 2 ∧
      2 ≤ (aggregation (averagesBeside "b")).validate.fatalCount := by
  have hheld : (aggregation (averagesBeside "b")).held =
      [(.named "a", .aggregation byKind), (.named "b", .aggregation fieldless)] := rfl
  have hparts := parts_averagesBeside hheld
  have harranged := arranged_averagesBeside "b"
  have hnames : ∀ part ∈ (aggregation (averagesBeside "b")).parts,
      ∀ entry ∈ part.2.aggregations, '.' ∉ entry.1.toList := by
    rw [hparts]
    decide
  have hapart : (aggregation (averagesBeside "b")).Apart := by
    refine apart_of_undotted harranged fun part hpart => ?_
    obtain ⟨address, hmem⟩ := within_iff.1 hpart
    exact hnames _ hmem
  have hflawed : (aggregation (averagesBeside "b")).flawedParts.length = 2 := by
    rw [flawedParts, hparts]
    rfl
  exact ⟨harranged, hapart, hflawed, hflawed ▸ (length_flawedParts_le harranged hapart).2.2⟩

/-- A problem can be hidden: an average under the name `a.terms.aggs.b` is reported as the one
named `b` under `a`, so two nodes break a fatal rule and the report has one fatal finding. -/
theorem problem_hidden :
    (aggregation (averagesBeside "a.terms.aggs.b")).Arranged ∧
      (∀ part ∈ (aggregation (averagesBeside "a.terms.aggs.b")).parts,
        ∀ entry ∈ part.2.aggregations, entry.1 ≠ "") ∧
      (aggregation (averagesBeside "a.terms.aggs.b")).flawedParts.length = 2 ∧
      (aggregation (averagesBeside "a.terms.aggs.b")).validate.fatalCount = 1 := by
  have hheld : (aggregation (averagesBeside "a.terms.aggs.b")).held =
      [(.named "a", .aggregation byKind),
        (.named "a.terms.aggs.b", .aggregation fieldless)] := rfl
  have hparts := parts_averagesBeside hheld
  refine ⟨arranged_averagesBeside _, ?_, ?_, rfl⟩
  · rw [hparts]
    decide
  · rw [flawedParts, hparts]
    rfl

end Node

end SearchWire
