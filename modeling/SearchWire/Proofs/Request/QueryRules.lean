import SearchWire.Proofs.Request.Apart

/-!
# Every broken rule of a query is reported once

`Query.Breaks` says which rules a query breaks by itself, and
`Query.violations` lists the pairs of an address in a query and a rule that the
query there breaks. `Query.validate_exact` says that validation reports each of
these pairs by one finding of its own and nothing else, and that no finding is
taken for a repetition of another.
-/

namespace SearchWire

namespace QueryProblem

/-- The rules of queries. -/
def all : List QueryProblem :=
  [.noField, .noPath, .noQuery, .noValues, .noBounds, .noIds, .noShouldClause]

theorem mem_all (rule : QueryProblem) : rule ∈ all := by
  cases rule <;> decide

theorem nodup_all : all.Nodup := by
  decide

/-- Each rule has a wording of its own. -/
theorem message_injective : Function.Injective message := by
  intro first second h
  cases first <;> cases second <;> first | rfl | exact absurd h (by decide)

end QueryProblem

namespace Query

/-- A query breaks a rule by itself, its subqueries aside. -/
inductive Breaks : Query → QueryProblem → Prop where
  | noField {body : LeafQuery} : body.field? = some "" → Breaks (.leaf body) .noField
  | noPath (asked options) : Breaks (.nested "" asked options) .noPath
  | noQuery (path options) : Breaks (.nested path none options) .noQuery
  | noValues {body : TermsQuery} : body.values = [] → Breaks (.leaf (.terms body)) .noValues
  | noBounds {body : RangeQuery} :
      body.gt = none → body.gte = none → body.lt = none → body.lte = none →
      Breaks (.leaf (.range body)) .noBounds
  | noIds : Breaks (.leaf (.ids [])) .noIds
  | noShouldClause {must mustNot filter options count} :
      options.minimumShouldMatch = some count → 0 < count →
      Breaks (.bool must mustNot [] filter options) .noShouldClause

/-- The rules found at a leaf query are those that it breaks. -/
theorem mem_leafProblems_iff {body : LeafQuery} {rule : QueryProblem} :
    rule ∈ body.problems ↔ Breaks (.leaf body) rule := by
  constructor
  · intro h
    cases body with
    | matchAll boost => cases h
    | term | fullText | phrase | beginsWith | wildcard | regexp | fieldExists =>
        obtain ⟨hempty, rfl⟩ := mem_problemIf.1 h
        exact .noField (congrArg some (String.isEmpty_iff.1 hempty))
    | terms body =>
        rcases List.mem_append.1 h with hfield | hvalues
        · obtain ⟨hempty, rfl⟩ := mem_problemIf.1 hfield
          exact .noField (congrArg some (String.isEmpty_iff.1 hempty))
        · obtain ⟨hempty, rfl⟩ := mem_problemIf.1 hvalues
          exact .noValues (List.isEmpty_iff.1 hempty)
    | range body =>
        rcases List.mem_append.1 h with hfield | hbounds
        · obtain ⟨hempty, rfl⟩ := mem_problemIf.1 hfield
          exact .noField (congrArg some (String.isEmpty_iff.1 hempty))
        · obtain ⟨hnone, rfl⟩ := mem_problemIf.1 hbounds
          simp only [RangeQuery.hasBounds, Bool.not_eq_true', Bool.or_eq_false_iff,
            Option.isSome_eq_false_iff, Option.isNone_iff_eq_none] at hnone
          exact .noBounds hnone.1.1.1 hnone.1.1.2 hnone.1.2 hnone.2
    | ids values =>
        obtain ⟨hempty, rfl⟩ := mem_problemIf.1 h
        rw [List.isEmpty_iff.1 hempty]
        exact .noIds
  · intro h
    cases h with
    | noField hfield =>
        cases body <;> simp_all [LeafQuery.field?, LeafQuery.problems]
    | noValues hvalues => simp [LeafQuery.problems, hvalues]
    | noBounds hgt hgte hlt hlte =>
        simp [LeafQuery.problems, RangeQuery.hasBounds, hgt, hgte, hlt, hlte]
    | noIds => simp [LeafQuery.problems]

/-- The rules found at a query are those that it breaks. -/
theorem mem_problems_iff {query : Query} {rule : QueryProblem} :
    rule ∈ query.problems ↔ query.Breaks rule := by
  cases query with
  | leaf body => exact mem_leafProblems_iff
  | nested path asked options =>
      simp only [problems, List.mem_append, mem_problemIf, String.isEmpty_iff,
        Option.isNone_iff_eq_none]
      constructor
      · rintro (⟨rfl, rfl⟩ | ⟨rfl, rfl⟩)
        · exact .noPath asked options
        · exact .noQuery path options
      · rintro (_ | _)
        · exact .inl ⟨rfl, rfl⟩
        · exact .inr ⟨rfl, rfl⟩
  | bool must mustNot should filter options =>
      simp only [problems, mem_problemIf, Bool.and_eq_true, List.isEmpty_iff, decide_eq_true_eq]
      constructor
      · rintro ⟨⟨rfl, hpositive⟩, rfl⟩
        cases hcount : options.minimumShouldMatch with
        | none => simp [hcount] at hpositive
        | some count => exact .noShouldClause hcount (by simpa [hcount] using hpositive)
      · intro h
        cases h with
        | noShouldClause hcount hpositive =>
            exact ⟨⟨rfl, by simpa [hcount] using hpositive⟩, rfl⟩

/-- No rule is found twice at one query. -/
theorem nodup_problems (query : Query) : query.problems.Nodup := by
  cases query with
  | leaf body =>
      cases body with
      | matchAll boost => exact List.nodup_nil
      | term | terms | fullText | phrase | beginsWith | wildcard | regexp | range | fieldExists
      | ids => simp only [problems, LeafQuery.problems, problemIf]; split_ifs <;> decide
  | nested path asked options => simp only [problems, problemIf]; split_ifs <;> decide
  | bool must mustNot should filter options => simp only [problems, problemIf]; split_ifs <;> decide

instance (query : Query) : DecidablePred query.Breaks := fun _ =>
  decidable_of_iff _ mem_problems_iff

end Query

/-- The rules that a query at a node breaks by itself. -/
def Node.brokenRules : Node → List QueryProblem
  | .query held => QueryProblem.all.filter held.Breaks
  | .aggregation _ | .search _ => []

theorem Node.mem_brokenRules_iff {held : Query} {rule : QueryProblem} :
    rule ∈ (Node.query held).brokenRules ↔ held.Breaks rule := by
  show rule ∈ QueryProblem.all.filter held.Breaks ↔ _
  rw [List.mem_filter, decide_eq_true_eq, and_iff_right rule.mem_all]

theorem Node.nodup_brokenRules (node : Node) : node.brokenRules.Nodup := by
  cases node with
  | query held =>
      show (QueryProblem.all.filter held.Breaks).Nodup
      exact QueryProblem.nodup_all.filter _
  | aggregation | search => exact List.nodup_nil

namespace Query

/-- The rules found at a query are those that it breaks, each once. -/
theorem problems_perm (query : Query) : query.problems.Perm (Node.query query).brokenRules :=
  (List.perm_ext_iff_of_nodup query.nodup_problems (Node.nodup_brokenRules _)).2 fun _ =>
    mem_problems_iff.trans Node.mem_brokenRules_iff.symm

/-- The pairs of an address in a query and a rule that the query there breaks. -/
def violations (query : Query) : List (List Step × QueryProblem) :=
  (Node.query query).parts.flatMap fun part => part.2.brokenRules.map fun rule => (part.1, rule)

theorem mem_violations_iff {query : Query} {address : List Step} {rule : QueryProblem} :
    (address, rule) ∈ query.violations ↔
      ∃ part, (address, .query part) ∈ (Node.query query).parts ∧ part.Breaks rule := by
  constructor
  · intro h
    obtain ⟨⟨place, node⟩, hpart, hrule⟩ := List.mem_flatMap.1 h
    obtain ⟨broken, hbroken, hsame⟩ := List.mem_map.1 hrule
    obtain ⟨rfl, rfl⟩ := Prod.mk.inj hsame
    obtain ⟨part, rfl⟩ := Node.eq_query_of_within (Node.within_of_mem_parts hpart)
    exact ⟨part, hpart, Node.mem_brokenRules_iff.1 hbroken⟩
  · rintro ⟨part, hpart, hbreaks⟩
    have hrule : rule ∈ (Node.query part).brokenRules := Node.mem_brokenRules_iff.2 hbreaks
    exact List.mem_flatMap.2 ⟨_, hpart, List.mem_map_of_mem hrule⟩

/-- No pair is listed twice. -/
theorem nodup_violations (query : Query) : query.violations.Nodup := by
  refine List.nodup_flatMap.2 ⟨fun part _ => ?_, ?_⟩
  · exact part.2.nodup_brokenRules.map fun first second h => (Prod.mk.inj h).2
  · refine (List.pairwise_map.1 (Node.nodup_parts (Node.arranged_query query))).imp fun hne => ?_
    intro pair hfirst hsecond
    obtain ⟨rule, -, rfl⟩ := List.mem_map.1 hfirst
    obtain ⟨other, -, hsame⟩ := List.mem_map.1 hsecond
    exact hne (Prod.mk.inj hsame).1.symm

/-- The findings about a query are those of its violations. -/
theorem findings_perm (query : Query) (path : String) :
    (query.findings path).Perm
      (query.violations.map fun pair => pair.2.located (path ++ addressText pair.1)) := by
  refine (Node.findings_perm path (.query query)).trans ?_
  rw [violations, List.map_flatMap]
  refine List.Perm.flatMap_left _ fun part hpart => ?_
  obtain ⟨held, hheld⟩ := Node.eq_query_of_within (Node.within_of_mem_parts hpart)
  rw [hheld, List.map_map]
  exact held.problems_perm.map _

/-- Different violations of a query have different messages. -/
theorem nodup_messages (query : Query) (path : String) :
    (query.violations.map fun pair =>
      (pair.2.located (path ++ addressText pair.1)).message).Nodup := by
  refine query.nodup_violations.map_on ?_
  rintro ⟨address, rule⟩ hfirst ⟨place, other⟩ hsecond hmessage
  obtain ⟨part, hpart, hbreaks⟩ := mem_violations_iff.1 hfirst
  obtain ⟨twin, htwin, htwinBreaks⟩ := mem_violations_iff.1 hsecond
  obtain rfl : address = place :=
    Node.address_eq_of_message_eq (Node.apart_query query) hpart htwin
      (List.mem_map_of_mem (mem_problems_iff.2 hbreaks))
      (List.mem_map_of_mem (mem_problems_iff.2 htwinBreaks)) hmessage
  have hrule : rule = other :=
    QueryProblem.message_injective (String.append_right_inj _ |>.1 hmessage)
  rw [hrule]

/-- Validation of a query reports each pair of a part of the query and a rule that it breaks by
exactly one finding, and nothing else: no finding is left out as a repetition of another, since
different pairs have different messages, and the report counts the pairs and the fatal ones. -/
theorem validate_exact (query : Query) :
    (∀ address rule, (address, rule) ∈ query.violations ↔
        ∃ part, (address, .query part) ∈ (Node.query query).parts ∧ part.Breaks rule) ∧
      query.violations.Nodup ∧
      (query.violations.map fun pair =>
        (pair.2.located (query.kind ++ addressText pair.1)).message).Nodup ∧
      query.validate.findings = query.findings query.kind ∧
      query.validate.findings.Perm (query.violations.map fun pair =>
        pair.2.located (query.kind ++ addressText pair.1)) ∧
      query.validate.size = query.violations.length ∧
      query.validate.fatalCount = query.violations.countP (·.2.fatal) := by
  have hperm := query.findings_perm query.kind
  have hnodup : (query.findings query.kind).Nodup := by
    refine hperm.nodup_iff.2 (List.Nodup.of_map Finding.message ?_)
    rw [List.map_map]
    exact query.nodup_messages query.kind
  have hall : query.validate.findings = query.findings query.kind :=
    Report.findings_ofList_of_nodup hnodup
  refine ⟨fun _ _ => mem_violations_iff, query.nodup_violations, query.nodup_messages _, hall,
    hall ▸ hperm, ?_, ?_⟩
  · rw [Report.size, hall, hperm.length_eq, List.length_map]
  · rw [Report.fatalCount, hall, hperm.countP_eq, List.countP_map]
    rfl

end Query

end SearchWire
