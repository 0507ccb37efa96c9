import SearchWire.Proofs.Binary64.Order
import SearchWire.Proofs.Json.Determined
import SearchWire.Proofs.Request.Tree
import SearchWire.Proofs.Validation.Report

/-!
# Which requests are refused

`Node.BreaksFatalRule` lists the rules that a node must keep on its own, whatever
the rest of the tree is like. `Node.text_refused_iff` says that a request is
refused exactly when some node of its tree breaks one of them, that the refusal
carries the whole report, and that every other request is written in full: as a
text without white space that spells its JSON form and no other value.
-/

namespace SearchWire

/-- The field of a leaf query, for the kinds that test one. -/
def LeafQuery.field? : LeafQuery → Option String
  | .matchAll _ | .ids _ => none
  | .term query => some query.field
  | .terms query => some query.field
  | .fullText query => some query.field
  | .phrase query => some query.field
  | .beginsWith query => some query.field
  | .wildcard query => some query.field
  | .regexp query => some query.field
  | .range query => some query.field
  | .fieldExists field => some field

/-- The field of a leaf aggregation, for the kinds that read one. -/
def LeafAggregation.field? : LeafAggregation → Option String
  | .metric body => some body.field
  | .percentiles body => some body.field
  | .bucketSort _ => none

/-- The field by which documents are divided, for the divisions that read one. -/
def Division.field? : Division → Option String
  | .terms body => some body.field
  | .dateHistogram body => some body.field
  | .range body => some body.field
  | .dateRange body => some body.field
  | .filter _ => none

/-- A range has a bound that is set to anything but a number. -/
def NumberRange.Endless (range : NumberRange) : Prop :=
  ∃ bound, (range.lower = some bound ∨ range.upper = some bound) ∧ ∀ number, bound ≠ .finite number

namespace Node

/-- The field of a node, for the kinds that have one. -/
def field? : Node → Option String
  | .query (.leaf held) => held.field?
  | .query (.nested _ _ _) | .query (.bool _ _ _ _ _) => none
  | .aggregation (.leaf held) => held.field?
  | .aggregation (.bucket division _) => division.field?
  | .search _ => none

/-- A node breaks a fatal rule on its own, its children aside. -/
inductive BreaksFatalRule : Node → Prop where
  | emptyField {node} : node.field? = some "" → BreaksFatalRule node
  | nestedWithoutPath (held options) : BreaksFatalRule (.query (.nested "" held options))
  | nestedWithoutQuery (path options) : BreaksFatalRule (.query (.nested path none options))
  | filterWithoutQuery (children) :
      BreaksFatalRule (.aggregation (.bucket (.filter none) children))
  | unknownMetric {metric tag} :
      metric.kind = .unknown tag → BreaksFatalRule (.aggregation (.leaf (.metric metric)))
  -- `2 ^ 1074` units of the smallest positive double make one
  | percentOutside {body percent} :
      percent ∈ body.percents →
      (¬ ∃ value : Finite, percent = .finite value ∧
        0 ≤ value.signedUnits ∧ value.signedUnits ≤ 100 * 2 ^ 1074) →
      BreaksFatalRule (.aggregation (.leaf (.percentiles body)))
  | includedTwice {body children} :
      body.includePattern ≠ none → body.includeValues ≠ [] →
      BreaksFatalRule (.aggregation (.bucket (.terms body) children))
  | excludedTwice {body children} :
      body.excludePattern ≠ none → body.excludeValues ≠ [] →
      BreaksFatalRule (.aggregation (.bucket (.terms body) children))
  | noInterval {body children} :
      body.interval = none → BreaksFatalRule (.aggregation (.bucket (.dateHistogram body) children))
  | emptyInterval {body children} :
      body.interval = some (.calendar "") ∨ body.interval = some (.fixed "") →
      BreaksFatalRule (.aggregation (.bucket (.dateHistogram body) children))
  | noRange {body children} :
      body.ranges = [] → BreaksFatalRule (.aggregation (.bucket (.range body) children))
  | noDateRange {body children} :
      body.ranges = [] → BreaksFatalRule (.aggregation (.bucket (.dateRange body) children))
  | boundNotFinite {body children range} :
      range ∈ body.ranges → range.Endless →
      BreaksFatalRule (.aggregation (.bucket (.range body) children))
  | namelessAggregation {node child} : ("", child) ∈ node.aggregations → BreaksFatalRule node
  | emptyIndex {request} : "" ∈ request.indices → BreaksFatalRule (.search request)

end Node

/-- Placing the problems of a query keeps which of them are fatal. -/
@[simp] theorem hasFatal_query_located {problems : List QueryProblem} {path : String} :
    HasFatal (Query.located problems path) ↔ ∃ problem ∈ problems, problem.fatal = true := by
  simp [HasFatal, Query.located, QueryProblem.located]

/-- Placing the problems of an aggregation keeps which of them are fatal. -/
@[simp] theorem hasFatal_aggregation_located {problems : List AggregationProblem} {path : String} :
    HasFatal (Aggregation.located problems path) ↔ ∃ problem ∈ problems, problem.fatal = true := by
  simp [HasFatal, Aggregation.located, AggregationProblem.located]

@[simp] theorem mem_problemIf {α : Type} {condition : Bool} {problem other : α} :
    other ∈ problemIf condition problem ↔ condition = true ∧ other = problem := by
  cases condition <;> simp [problemIf]

@[simp] theorem exists_mem_problemIf {α : Type} {condition : Bool} {problem : α} {p : α → Prop} :
    (∃ other ∈ problemIf condition problem, p other) ↔ condition = true ∧ p problem := by
  cases condition <;> simp [problemIf]

/-! ## The rules of single nodes -/

/-- A leaf query has a fatal problem exactly when its field is empty. -/
theorem LeafQuery.fatal_iff (query : LeafQuery) :
    (∃ problem ∈ query.problems, problem.fatal = true) ↔ query.field? = some "" := by
  cases query <;>
    simp [LeafQuery.problems, LeafQuery.field?, QueryProblem.fatal, or_and_right, exists_or,
      and_assoc]

/-- A leaf aggregation has a fatal problem exactly when it breaks a fatal rule. -/
theorem LeafAggregation.fatal_iff (aggregation : LeafAggregation) :
    (∃ problem ∈ aggregation.problems, problem.fatal = true) ↔
      (Node.aggregation (.leaf aggregation)).BreaksFatalRule := by
  constructor
  · rintro ⟨problem, hmem, hfatal⟩
    cases aggregation with
    | metric body =>
        simp only [problems, List.mem_append, mem_problemIf] at hmem
        rcases hmem with (⟨hempty, -⟩ | ⟨hunknown, -⟩) | ⟨-, rfl⟩
        · exact .emptyField (by simpa [Node.field?, field?] using hempty)
        · cases hkind : body.kind with
          | unknown tag => exact .unknownMetric hkind
          | cardinality | max | min | avg | sum => simp [hkind, MetricKind.isKnown] at hunknown
        · cases hfatal
    | percentiles body =>
        simp only [problems, List.mem_append, mem_problemIf, List.mem_map, List.mem_filter] at hmem
        rcases hmem with ⟨hempty, -⟩ | ⟨percent, ⟨hpercent, houtside⟩, -⟩
        · exact .emptyField (by simpa [Node.field?, field?] using hempty)
        · refine .percentOutside hpercent fun hinside => ?_
          simp [isPercent_iff.2 hinside] at houtside
    | bucketSort body =>
        obtain ⟨-, rfl⟩ : _ ∧ problem = .idleSort := by simpa [problems] using hmem
        cases hfatal
  · intro h
    cases h with
    | emptyField hfield =>
        refine ⟨.noField, ?_, rfl⟩
        cases aggregation <;> simp_all [Node.field?, field?, problems]
    | @unknownMetric metric tag hkind =>
        exact ⟨.unknownMetric tag,
          by simp [problems, hkind, MetricKind.isKnown, MetricKind.tag], rfl⟩
    | @percentOutside body percent hpercent houtside =>
        refine ⟨.percentOutside percent, ?_, rfl⟩
        have hnot : isPercent percent = false := by
          simpa only [Bool.not_eq_true] using mt isPercent_iff.1 houtside
        simp [problems, hpercent, hnot]
    | namelessAggregation hchild => cases hchild

/-- Problems found part by part are fatal exactly when those of some part are. -/
theorem fatal_problemsFrom_iff {α : Type} {problems : Nat → α → List AggregationProblem}
    {bad : α → Prop}
    (h : ∀ position part, (∃ problem ∈ problems position part, problem.fatal = true) ↔ bad part)
    (position : Nat) (parts : List α) :
    (∃ problem ∈ problemsFrom problems position parts, problem.fatal = true) ↔
      ∃ part ∈ parts, bad part := by
  induction parts generalizing position with
  | nil => simp [problemsFrom]
  | cons part rest ih =>
      simp only [problemsFrom, List.mem_append, or_and_right, exists_or, h, ih, List.mem_cons,
        exists_eq_left]

/-- A bound is unbounded when it is set to anything but a number. -/
theorem isUnbounded_iff {bound : Option Binary64} :
    isUnbounded bound = true ↔ ∃ value, bound = some value ∧ ∀ number, value ≠ .finite number := by
  cases bound with
  | none => simp [isUnbounded]
  | some value => cases value <;> simp [isUnbounded, Binary64.isFinite]

/-- A range of numbers has a fatal problem exactly when one of its bounds is no number. -/
theorem NumberRange.fatal_iff (position : Nat) (range : NumberRange) :
    (∃ problem ∈ range.problems position, problem.fatal = true) ↔ range.Endless := by
  have hcrossed : ¬ ∃ problem ∈ crossedBounds position range, problem.fatal = true := by
    rintro ⟨problem, hmem, hfatal⟩
    unfold crossedBounds at hmem
    split at hmem
    · obtain ⟨-, rfl⟩ := mem_problemIf.1 hmem
      cases hfatal
    · cases hmem
  simp only [problems, List.mem_append, or_and_right, exists_or, exists_mem_problemIf, hcrossed,
    or_false, isUnbounded_iff]
  simp only [AggregationProblem.fatal, and_true, Endless, or_and_right, exists_or]

/-- A range of dates has no fatal problem. -/
theorem DateRange.fatal_iff (position : Nat) (range : DateRange) :
    (∃ problem ∈ range.problems position, problem.fatal = true) ↔ False := by
  simp only [problems, exists_mem_problemIf, AggregationProblem.fatal, Bool.false_eq_true,
    and_false]

/-- The width of the buckets has a fatal problem exactly when it is missing or empty. -/
theorem Interval.fatal_iff (interval : Option Interval) :
    (∃ problem ∈ Interval.problems interval, problem.fatal = true) ↔
      interval = none ∨ interval = some (.calendar "") ∨ interval = some (.fixed "") := by
  cases interval with
  | none => simp [problems, AggregationProblem.fatal]
  | some interval =>
      cases interval <;> simp only [problems, exists_mem_problemIf] <;>
        simp [AggregationProblem.fatal]

/-- A bucket aggregation breaks a fatal rule by itself exactly when a problem of its division is
fatal or a child has no name. -/
theorem Node.breaksFatalRule_bucket_iff {division : Division}
    {children : List (String × Aggregation)} :
    BreaksFatalRule (.aggregation (.bucket division children)) ↔
      (∃ problem ∈ division.problems, problem.fatal = true) ∨ ∃ child, ("", child) ∈ children := by
  cases division with
  | terms body =>
      simp only [Division.problems, List.mem_append, or_and_right, exists_or, exists_mem_problemIf]
      simp only [AggregationProblem.fatal, and_true, String.isEmpty_iff, Bool.and_eq_true,
        Option.isSome_iff_ne_none, Bool.not_eq_true', List.isEmpty_eq_false_iff]
      constructor
      · intro h
        cases h with
        | emptyField hempty => exact .inl (.inl (.inl (Option.some.inj hempty)))
        | includedTwice hpattern hvalues => exact .inl (.inl (.inr ⟨hpattern, hvalues⟩))
        | excludedTwice hpattern hvalues => exact .inl (.inr ⟨hpattern, hvalues⟩)
        | namelessAggregation hchild => exact .inr ⟨_, hchild⟩
      · rintro (((hempty | ⟨hpattern, hvalues⟩) | ⟨hpattern, hvalues⟩) | ⟨child, hchild⟩)
        · exact .emptyField (congrArg some hempty)
        · exact .includedTwice hpattern hvalues
        · exact .excludedTwice hpattern hvalues
        · exact .namelessAggregation hchild
  | dateHistogram body =>
      simp only [Division.problems, List.mem_append, or_and_right, exists_or, exists_mem_problemIf,
        Interval.fatal_iff]
      simp only [AggregationProblem.fatal, and_true, String.isEmpty_iff]
      constructor
      · intro h
        cases h with
        | emptyField hempty => exact .inl (.inl (Option.some.inj hempty))
        | noInterval hnone => exact .inl (.inr (.inl hnone))
        | emptyInterval hempty => exact .inl (.inr (.inr hempty))
        | namelessAggregation hchild => exact .inr ⟨_, hchild⟩
      · rintro ((hempty | hnone | hempty) | ⟨child, hchild⟩)
        · exact .emptyField (congrArg some hempty)
        · exact .noInterval hnone
        · exact .emptyInterval hempty
        · exact .namelessAggregation hchild
  | range body =>
      simp only [Division.problems, List.mem_append, or_and_right, exists_or, exists_mem_problemIf,
        fatal_problemsFrom_iff NumberRange.fatal_iff]
      simp only [AggregationProblem.fatal, and_true, String.isEmpty_iff, List.isEmpty_iff]
      constructor
      · intro h
        cases h with
        | emptyField hempty => exact .inl (.inl (.inl (Option.some.inj hempty)))
        | noRange hnone => exact .inl (.inl (.inr hnone))
        | boundNotFinite hrange hbound => exact .inl (.inr ⟨_, hrange, hbound⟩)
        | namelessAggregation hchild => exact .inr ⟨_, hchild⟩
      · rintro (((hempty | hnone) | ⟨range, hrange, hbound⟩) | ⟨child, hchild⟩)
        · exact .emptyField (congrArg some hempty)
        · exact .noRange hnone
        · exact .boundNotFinite hrange hbound
        · exact .namelessAggregation hchild
  | dateRange body =>
      simp only [Division.problems, List.mem_append, or_and_right, exists_or, exists_mem_problemIf,
        fatal_problemsFrom_iff DateRange.fatal_iff, and_false, exists_false, or_false]
      simp only [AggregationProblem.fatal, and_true, String.isEmpty_iff, List.isEmpty_iff]
      constructor
      · intro h
        cases h with
        | emptyField hempty => exact .inl (.inl (Option.some.inj hempty))
        | noDateRange hnone => exact .inl (.inr hnone)
        | namelessAggregation hchild => exact .inr ⟨_, hchild⟩
      · rintro ((hempty | hnone) | ⟨child, hchild⟩)
        · exact .emptyField (congrArg some hempty)
        · exact .noDateRange hnone
        · exact .namelessAggregation hchild
  | filter query =>
      simp only [Division.problems, exists_mem_problemIf, AggregationProblem.fatal, and_true,
        Option.isNone_iff_eq_none]
      constructor
      · intro h
        cases h with
        | emptyField hempty => cases hempty
        | filterWithoutQuery => exact .inl rfl
        | namelessAggregation hchild => exact .inr ⟨_, hchild⟩
      · rintro (rfl | ⟨child, hchild⟩)
        · exact .filterWithoutQuery children
        · exact .namelessAggregation hchild

namespace Node

/-- A query node breaks a fatal rule by itself exactly when one of its problems is fatal. -/
theorem breaksFatalRule_query_iff {held : Query} :
    BreaksFatalRule (.query held) ↔ ∃ problem ∈ held.problems, problem.fatal = true := by
  cases held with
  | leaf held =>
      rw [Query.problems, LeafQuery.fatal_iff]
      constructor
      · intro h
        cases h with
        | emptyField hempty => exact hempty
        | namelessAggregation hchild => cases hchild
      · exact fun hempty => .emptyField hempty
  | nested path held options =>
      simp only [Query.problems, List.mem_append, or_and_right, exists_or, exists_mem_problemIf,
        QueryProblem.fatal, and_true, String.isEmpty_iff, Option.isNone_iff_eq_none]
      constructor
      · intro h
        cases h with
        | emptyField hempty => cases hempty
        | nestedWithoutPath => exact .inl rfl
        | nestedWithoutQuery => exact .inr rfl
        | namelessAggregation hchild => cases hchild
      · rintro (rfl | rfl)
        · exact .nestedWithoutPath held options
        · exact .nestedWithoutQuery path options
  | bool must mustNot should filter options =>
      simp only [Query.problems, exists_mem_problemIf, QueryProblem.fatal, Bool.false_eq_true,
        and_false, iff_false]
      intro h
      cases h with
      | emptyField hempty => cases hempty
      | namelessAggregation hchild => cases hchild

/-- A search request breaks a fatal rule by itself when an index or an aggregation has no name. -/
theorem breaksFatalRule_search_iff {request : SearchRequest} :
    BreaksFatalRule (.search request) ↔
      "" ∈ request.indices ∨ ∃ child, ("", child) ∈ request.aggregations := by
  constructor
  · intro h
    cases h with
    | emptyField hempty => cases hempty
    | emptyIndex hindex => exact .inl hindex
    | namelessAggregation hchild => exact .inr ⟨_, hchild⟩
  · rintro (hindex | ⟨child, hchild⟩)
    · exact .emptyIndex hindex
    · exact .namelessAggregation hchild

end Node

/-! ## The rules of a whole tree -/

/-- Clauses have a fatal finding exactly when some clause has. -/
theorem Query.hasFatal_findingsList_iff {refused : Query → Prop} {queries : List Query}
    (h : ∀ query ∈ queries, ∀ path, HasFatal (query.findings path) ↔ refused query)
    (path role : String) (position : Nat) :
    HasFatal (findingsList path role position queries) ↔ ∃ query ∈ queries, refused query := by
  induction queries generalizing position with
  | nil => simp [findingsList]
  | cons query rest ih =>
      have hrest := ih (fun other hother => h other (List.mem_cons_of_mem _ hother))
      simp only [findingsList, hasFatal_append, h query List.mem_cons_self, hrest, List.mem_cons,
        exists_eq_or_imp]

/-- Named aggregations have a fatal finding exactly when some name is empty or some aggregation has
one. -/
theorem Aggregation.hasFatal_findingsNamed_iff (refused : Aggregation → Prop)
    {children : List (String × Aggregation)}
    (h : ∀ entry ∈ children, ∀ path, HasFatal (entry.2.findings path) ↔ refused entry.2)
    (path : String) :
    HasFatal (findingsNamed path children) ↔
      (∃ child, ("", child) ∈ children) ∨ ∃ entry ∈ children, refused entry.2 := by
  induction children with
  | nil => simp [findingsNamed]
  | cons entry rest ih =>
      obtain ⟨name, aggregation⟩ := entry
      have hrest := ih (fun other hother => h other (List.mem_cons_of_mem _ hother))
      have hfirst := h (name, aggregation) List.mem_cons_self
      have hname : HasFatal (nameFindings path name) ↔ "" = name := by
        rw [eq_comm]
        simp only [HasFatal, nameFindings, exists_mem_problemIf, String.isEmpty_iff, and_true]
      simp only [findingsNamed, hasFatal_append, hname, hfirst, hrest, List.mem_cons, Prod.mk.injEq,
        exists_eq_or_imp, exists_or, exists_and_left, exists_eq, and_true, or_assoc]
      exact or_congr Iff.rfl or_left_comm

/-- Names of indices have a fatal finding exactly when one of them is empty. -/
theorem SearchRequest.hasFatal_indexFindings_iff (place : String) (position : Nat)
    (indices : List String) :
    HasFatal (indexFindings place position indices) ↔ "" ∈ indices := by
  induction indices generalizing position with
  | nil => simp [indexFindings]
  | cons index rest ih =>
      have hindex (message : String) :
          HasFatal (problemIf index.isEmpty ⟨message, true⟩) ↔ "" = index := by
        rw [eq_comm]
        simp only [HasFatal, exists_mem_problemIf, String.isEmpty_iff, and_true]
      simp only [indexFindings, hasFatal_append, hindex, ih, List.mem_cons]

namespace Node

/-- A node has a fatal finding exactly when it breaks a fatal rule by itself or a child has one. -/
theorem hasFatal_findings_step {refused : Node → Prop} (node : Node)
    (h : ∀ child ∈ node.children, ∀ path, HasFatal (child.findings path) ↔ refused child)
    (path : String) :
    HasFatal (node.findings path) ↔
      node.BreaksFatalRule ∨ ∃ child ∈ node.children, refused child := by
  -- the hypothesis about children, once for queries and once for named aggregations
  have hquery (held : Query) (hheld : held ∈ node.queries) (path : String) :
      HasFatal (held.findings path) ↔ refused (query held) :=
    h _ (query_mem_children hheld) path
  have hnamed (entry : String × Aggregation) (hentry : entry ∈ node.aggregations) (path : String) :
      HasFatal (entry.2.findings path) ↔ refused (aggregation entry.2) :=
    h _ (aggregation_mem_children hentry) path
  simp only [children, List.mem_append, List.mem_map, or_and_right, exists_or,
    exists_exists_and_eq_and]
  cases node with
  | query held =>
      rw [breaksFatalRule_query_iff]
      cases held with
      | leaf held => simp [findings, Query.findings, queries, aggregations, Query.problems]
      | nested objectPath held options =>
          cases held with
          | none => simp [findings, Query.findings, Query.findingsOption, queries, aggregations]
          | some held =>
              have hheld := hquery held (by simp [queries])
              simp [findings, Query.findings, Query.findingsOption, queries, aggregations, hheld]
      | bool must mustNot should filter options =>
          simp only [queries, List.mem_append, or_imp, forall_and] at hquery
          obtain ⟨⟨⟨hmust, hmustNot⟩, hshould⟩, hfilter⟩ := hquery
          simp only [findings, Query.findings, hasFatal_append, hasFatal_query_located,
            Query.hasFatal_findingsList_iff hmust, Query.hasFatal_findingsList_iff hmustNot,
            Query.hasFatal_findingsList_iff hshould, Query.hasFatal_findingsList_iff hfilter,
            queries, aggregations, List.mem_append, or_and_right, exists_or, List.not_mem_nil,
            false_and, exists_false, or_false]
          rw [or_comm]
  | aggregation held =>
      cases held with
      | leaf held =>
          rw [← LeafAggregation.fatal_iff]
          simp [findings, Aggregation.findings, queries, aggregations]
      | bucket division children =>
          have hchildren (path : String) :
              HasFatal (Aggregation.findingsNamed path children) ↔
                (∃ child, ("", child) ∈ children) ∨
                  ∃ entry ∈ children, refused (aggregation entry.2) :=
            Aggregation.hasFatal_findingsNamed_iff (fun held => refused (aggregation held)) hnamed
              path
          have hfilter : HasFatal (Aggregation.filterFindings path division) ↔
              ∃ held ∈ division.query?.toList, refused (query held) := by
            cases division with
            | filter held =>
                cases held with
                | none => simp [Aggregation.filterFindings, Division.query?]
                | some held =>
                    have hheld := hquery held (by simp [queries, Division.query?])
                    simp [Aggregation.filterFindings, Division.query?, hheld]
            | terms | dateHistogram | range | dateRange =>
                simp [Aggregation.filterFindings, Division.query?]
          simp only [findings, Aggregation.findings, hasFatal_append, hasFatal_aggregation_located,
            hfilter, hchildren, queries, aggregations, breaksFatalRule_bucket_iff]
          rw [or_or_or_comm]
  | search request =>
      have hchildren (path : String) :
          HasFatal (Aggregation.findingsNamed path request.aggregations) ↔
            (∃ child, ("", child) ∈ request.aggregations) ∨
              ∃ entry ∈ request.aggregations, refused (aggregation entry.2) :=
        Aggregation.hasFatal_findingsNamed_iff (fun held => refused (aggregation held)) hnamed path
      have hheld : HasFatal (SearchRequest.queryFindings path request.query) ↔
          ∃ held ∈ request.query.toList, refused (query held) := by
        cases hset : request.query with
        | none => simp [SearchRequest.queryFindings]
        | some held =>
            simp [SearchRequest.queryFindings, hquery held (by simp [queries, hset])]
      simp only [findings, SearchRequest.findings, hasFatal_append,
        SearchRequest.hasFatal_indexFindings_iff, hheld, hchildren, queries, aggregations,
        breaksFatalRule_search_iff]
      rw [or_or_or_comm]

/-- What holds of some node of a tree holds of the node itself or in the tree of a child. -/
theorem exists_within_iff {p : Node → Prop} {node : Node} :
    (∃ part, part.Within node ∧ p part) ↔
      p node ∨ ∃ child ∈ node.children, ∃ part, part.Within child ∧ p part := by
  constructor
  · rintro ⟨part, hwithin, hp⟩
    rcases Relation.ReflTransGen.cases_head hwithin with rfl | ⟨child, hchild, hbelow⟩
    · exact .inl hp
    · exact .inr ⟨child, hchild, part, hbelow, hp⟩
  · rintro (hp | ⟨child, hchild, part, hbelow, hp⟩)
    · exact ⟨node, .refl, hp⟩
    · exact ⟨part, .head hchild hbelow, hp⟩

/-- Some node of the tree breaks a fatal rule. -/
def Flawed (node : Node) : Prop :=
  ∃ part : Node, part.Within node ∧ part.BreaksFatalRule

/-- A node has a fatal finding exactly when its tree is flawed. -/
theorem hasFatal_findings_iff (node : Node) (path : String) :
    HasFatal (node.findings path) ↔ node.Flawed := by
  induction node using Node.induction generalizing path with
  | step node ih => rw [hasFatal_findings_step node ih, Flawed, exists_within_iff]; rfl

/-- A node is refused exactly when some node of its tree breaks a fatal rule, and then with its
whole report. Any other node is written as the text of its JSON form, whatever else was found. What
is written spells this form without white space, and no other value; and whoever reads its bytes
reads a written value that shows the form. -/
theorem text_refused_iff (node : Node) :
    ((∃ report, node.text = .error (.invalid report)) ↔ node.Flawed) ∧
      (∀ report, node.text = .error (.invalid report) → report = node.validate) ∧
      (¬ node.Flawed → node.text = .ok node.compile.toText) ∧
      ((∀ finding ∈ node.validate.findings, finding.fatal = false) →
        node.text = .ok node.compile.toText) ∧
      ∀ text, node.text = .ok text →
        (∀ value : Json, value.SpelledBy text.toList ↔ value = node.compile) ∧
          ∃ written : Raw, written.Shows node.compile ∧
            ∀ (α : Type) (decoder : Decoder α),
              decodeBody decoder (Symbol.ofBytes text.toUTF8) = decoder nestingLimit written := by
  have hfatal : node.validate.isFatal = true ↔ node.Flawed := by
    rw [validate_eq, Report.isFatal_ofList_iff, hasFatal_findings_iff]
  rw [text_eq]
  by_cases h : node.validate.isFatal = true
  · have hadvisory : ¬ ∀ finding ∈ node.validate.findings, finding.fatal = false := by
      simpa [Report.isFatal] using h
    rw [Report.whenSound_of_fatal h]
    refine ⟨by simp [← hfatal, h], ?_, fun hsound => absurd (hfatal.1 h) hsound,
      fun hall => absurd hall hadvisory, ?_⟩
    · intro report hreport
      cases hreport
      rfl
    · intro text htext
      cases htext
  · rw [Report.whenSound_of_not_fatal h]
    refine ⟨by simp [← hfatal, h], ?_, fun _ => rfl, fun _ => rfl, ?_⟩
    · intro report hreport
      cases hreport
    · rintro _ ⟨⟩
      exact ⟨fun _ => Json.spelledBy_toText_iff, node.compile.written, node.compile.written_shows,
        fun _ decoder => Json.decodeBody_toText decoder node.compile⟩

end Node

end SearchWire
