import Mathlib.Data.Option.Basic
import SearchWire.Proofs.Json.Determined
import SearchWire.Proofs.Json.Slots
import SearchWire.Proofs.Request.Tree
import SearchWire.Proofs.Text.Utf8
import SearchWire.Proofs.Validation.Report

/-!
# The text of a query determines the query

A query that is not `Query.Unambiguous` may share its JSON form with another
one: an object as the value of a term looks like the long form, a terms query on
the field `boost` loses its values to its boost, and a boost that is not finite
is written as `null`. Otherwise each kind of query is a list of slots, from
which the query can be told (`eq_of_body_eq`), and `Query.eq_of_utf8Bytes_eq`
follows from the children to the whole tree.
-/

namespace SearchWire

open Json

/-- The boost of a leaf query. -/
def LeafQuery.boost? : LeafQuery → Option Binary64
  | .matchAll boost => boost
  | .term query => query.boost
  | .terms query => query.boost
  | .fullText query => query.boost
  | .phrase query => query.boost
  | .beginsWith query => query.boost
  | .wildcard query => query.boost
  | .range query => query.boost
  | .regexp _ | .fieldExists _ | .ids _ => none

/-- The JSON form of a leaf query leaves no doubt which query it is. -/
structure LeafQuery.Unambiguous (query : LeafQuery) : Prop where
  boost : ∀ boost ∈ query.boost?, boost.isFinite = true
  value : ∀ term, query = .term term → term.value.NoObject
  text : ∀ fullText, query = .fullText fullText → fullText.query.NoObject
  field : ∀ terms, query = .terms terms → terms.field = "boost" → terms.boost = none

/-- The JSON form of a query leaves no doubt which query it is, its subqueries aside. -/
def Query.Unambiguous : Query → Prop
  | .leaf query => query.Unambiguous
  | .nested _ _ _ => True
  | .bool _ _ _ _ options => ∀ boost ∈ options.boost, boost.isFinite = true

/-! ## Queries that share a form -/

namespace LeafQuery

/-- An object as the value of a term may be the long form of another term. -/
theorem body_term_object (field : String) (value : Json) (boost : Binary64) :
    (term ⟨field, .object [("value", value), ("boost", .ofBinary64 boost)], none⟩).body =
      (term ⟨field, value, some boost⟩).body := rfl

/-- An object as the text of a match query may be the long form of another one. -/
theorem body_fullText_object (field : String) (query : Json) (operator : Operator) :
    (fullText ⟨field, .object [("query", query), ("operator", .string operator.text)], none, none,
      none⟩).body = (fullText ⟨field, query, some operator, none, none⟩).body := rfl

/-- A terms query on the field `boost` loses its values to its boost. -/
theorem body_terms_boost (values others : List Json) (boost : Binary64) :
    (terms ⟨"boost", values, some boost⟩).body = (terms ⟨"boost", others, some boost⟩).body := rfl

/-- Boosts that are not finite are all written alike. -/
theorem body_matchAll_of_not_finite {first second : Binary64} (hfirst : first.isFinite = false)
    (hsecond : second.isFinite = false) :
    (matchAll (some first)).body = (matchAll (some second)).body := by
  have hnull (boost : Binary64) (h : boost.isFinite = false) : ofBinary64 boost = .null := by
    cases boost with
    | finite value => cases h
    | infinite | nan => rfl
  simp only [body, optionalDouble, Option.map_some, hnull first hfirst, hnull second hsecond]

end LeafQuery

/-! ## Parts of a form -/

theorem Operator.text_injective : Function.Injective Operator.text := by
  intro first second h
  cases first <;> cases second <;> first | rfl | exact absurd h (by decide)

theorem ScoreMode.text_injective : Function.Injective ScoreMode.text := by
  intro first second h
  cases first <;> cases second <;> first | rfl | exact absurd h (by decide)

theorem Json.string_injective : Function.Injective Json.string :=
  fun _ _ h => Json.string.inj h

theorem Json.bool_injective : Function.Injective Json.bool :=
  fun _ _ h => Json.bool.inj h

theorem Json.int_injective : Function.Injective Json.int :=
  fun _ _ h => Number.int.inj (Json.number.inj h)

theorem Json.nat_injective : Function.Injective Json.nat :=
  fun _ _ h => Int.ofNat.inj (Number.int.inj (Json.number.inj h))

/-- The form of a finite boost determines it. -/
theorem boost_eq {first second : Option Binary64} (hfirst : ∀ boost ∈ first, boost.isFinite = true)
    (hsecond : ∀ boost ∈ second, boost.isFinite = true)
    (h : first.map ofBinary64 = second.map ofBinary64) : first = second := by
  cases first with
  | none => exact (Option.map_eq_none_iff.1 h.symm).symm
  | some x =>
      cases second with
      | none => cases h
      | some y =>
          have hx := hfirst x rfl
          have hy := hsecond y rfl
          cases x with
          | finite x =>
              cases y with
              | finite y => cases h; rfl
              | infinite | nan => cases hy
          | infinite | nan => cases hx

/-- The slot of a list that is left out when it is empty. -/
def arraySlot (items : List Json) : Option Json :=
  if items.isEmpty then none else some (.array items)

theorem arraySlot_injective : Function.Injective arraySlot := by
  intro first second h
  cases first <;> cases second <;> first | rfl | cases h; rfl | cases h

/-- Lists with equal forms are equal when the forms of their members determine these. -/
theorem eq_of_map_eq {α β : Type} {form : α → β} {first second : List α}
    (hmembers : ∀ a ∈ first, ∀ b ∈ second, form a = form b → a = b)
    (h : first.map form = second.map form) : first = second := by
  induction first generalizing second with
  | nil => exact (List.map_eq_nil_iff.1 h.symm).symm
  | cons a rest ih =>
      obtain ⟨b, others, rfl, hb, hothers⟩ := List.map_eq_cons_iff.1 h.symm
      have hrest : rest = others :=
        ih (fun c hc d hd => hmembers c (List.mem_cons_of_mem _ hc) d (List.mem_cons_of_mem _ hd))
          hothers.symm
      rw [hmembers a List.mem_cons_self b List.mem_cons_self hb.symm, hrest]

theorem unlessEmpty_eq (name : String) (items : List Json) :
    unlessEmpty name items = optional name (arraySlot items) := by
  cases items <;> rfl

/-! ## Leaf queries -/

attribute [ext] TermQuery TermsQuery MatchQuery PhraseQuery PrefixQuery WildcardQuery RegexpQuery
  RangeQuery NestedOptions BoolOptions

namespace LeafQuery

/-- The options of a leaf query as slots, in the order in which they are written. -/
def slots : LeafQuery → List (String × Option Json)
  | .matchAll boost => [("boost", boost.map ofBinary64)]
  | .term query => [("boost", query.boost.map ofBinary64)]
  | .terms query => [("boost", query.boost.map ofBinary64)]
  | .fullText query =>
      [("operator", (query.operator.map Operator.text).map .string),
        ("fuzziness", query.fuzziness.map .string), ("boost", query.boost.map ofBinary64)]
  | .phrase query => [("slop", query.slop.map .nat), ("boost", query.boost.map ofBinary64)]
  | .beginsWith query =>
      [("case_insensitive", query.caseInsensitive.map .bool),
        ("boost", query.boost.map ofBinary64)]
  | .wildcard query =>
      [("case_insensitive", query.caseInsensitive.map .bool),
        ("boost", query.boost.map ofBinary64)]
  | .regexp query =>
      [("flags", query.flags.map .string), ("case_insensitive", query.caseInsensitive.map .bool),
        ("max_determinized_states", query.maxDeterminizedStates.map .nat)]
  | .range query =>
      [("gt", query.gt), ("gte", query.gte), ("lt", query.lt), ("lte", query.lte),
        ("format", query.format.map .string), ("time_zone", query.timeZone.map .string),
        ("boost", query.boost.map ofBinary64)]
  | .fieldExists _ | .ids _ => []

/-- What a leaf query says, by its slots. -/
theorem body_eq (query : LeafQuery) :
    query.body =
      match query with
      | .matchAll _ => record (present query.slots)
      | .term held => underField held.field "value" held.value (present query.slots)
      | .terms held => record ((held.field, .array held.values) :: present query.slots)
      | .fullText held => underField held.field "query" held.query (present query.slots)
      | .phrase held => underField held.field "query" (.string held.query) (present query.slots)
      | .beginsWith held => underField held.field "value" (.string held.value) (present query.slots)
      | .wildcard held => underField held.field "value" (.string held.pattern) (present query.slots)
      | .regexp held => underField held.field "value" (.string held.pattern) (present query.slots)
      | .range held => single held.field (record (present query.slots))
      | .fieldExists field => single "field" (.string field)
      | .ids values => single "values" (strings values) := by
  cases query <;> simp [body, slots, present, optionalDouble, optionalString, optionalNat,
    optionalBool]

theorem noObject_string (value : String) : (Json.string value).NoObject :=
  fun _ => nofun

theorem eq_of_matchAll {first second : Option Binary64} (hfirst : (matchAll first).Unambiguous)
    (hsecond : (matchAll second).Unambiguous)
    (h : (matchAll first).body = (matchAll second).body) : first = second := by
  rw [body_eq, body_eq] at h
  have hslots := record_present_injective ["boost"] (by decide) rfl rfl h
  simp only [slots, List.cons.injEq, Prod.mk.injEq, true_and, and_true] at hslots
  exact boost_eq hfirst.boost hsecond.boost hslots

theorem eq_of_term {first second : TermQuery} (hfirst : (term first).Unambiguous)
    (hsecond : (term second).Unambiguous) (h : (term first).body = (term second).body) :
    first = second := by
  rw [body_eq, body_eq] at h
  obtain ⟨hfield, hvalue, hslots⟩ := underField_injective "value"
    ["boost"] (by decide) rfl rfl
    (hfirst.value first rfl) (hsecond.value second rfl) h
  simp only [slots, List.cons.injEq, Prod.mk.injEq, true_and, and_true] at hslots
  exact TermQuery.ext hfield hvalue (boost_eq hfirst.boost hsecond.boost hslots)

/-- The values of a terms query and its boost have different names, unless the field is `boost`. -/
theorem nodup_terms {query : TermsQuery} (h : query.field = "boost" → query.boost = none) :
    (((query.field, Json.array query.values) :: present (terms query).slots).map
      Prod.fst).Nodup := by
  rw [List.map_cons, List.nodup_cons]
  cases hboost : query.boost with
  | none => simp [slots, present, hboost, Json.optional]
  | some boost =>
      have hfield : query.field ≠ "boost" := fun hsame => by
        simp [h hsame] at hboost
      simp [slots, present, hboost, Json.optional, hfield]

theorem eq_of_terms {first second : TermsQuery} (hfirst : (terms first).Unambiguous)
    (hsecond : (terms second).Unambiguous) (h : (terms first).body = (terms second).body) :
    first = second := by
  rw [body_eq, body_eq] at h
  dsimp only at h
  rw [record_of_nodup (nodup_terms (hfirst.field first rfl)),
    record_of_nodup (nodup_terms (hsecond.field second rfl))] at h
  obtain ⟨hvalues, hpresent⟩ := List.cons.inj (Json.object.inj h)
  obtain ⟨hfield, hvalues⟩ := Prod.ext_iff.1 hvalues
  have hslots := present_injective (by decide : ["boost"].Nodup) rfl rfl hpresent
  simp only [slots, List.cons.injEq, Prod.mk.injEq, true_and, and_true] at hslots
  exact TermsQuery.ext hfield (Json.array.inj hvalues) (boost_eq hfirst.boost hsecond.boost hslots)

theorem eq_of_fullText {first second : MatchQuery} (hfirst : (fullText first).Unambiguous)
    (hsecond : (fullText second).Unambiguous) (h : (fullText first).body = (fullText second).body) :
    first = second := by
  rw [body_eq, body_eq] at h
  obtain ⟨hfield, hquery, hslots⟩ := underField_injective "query"
    ["operator", "fuzziness", "boost"] (by decide) rfl rfl
    (hfirst.text first rfl) (hsecond.text second rfl) h
  simp only [slots, List.cons.injEq, Prod.mk.injEq, true_and, and_true] at hslots
  obtain ⟨hoperator, hfuzziness, hboost⟩ := hslots
  have htext := Option.map_injective string_injective hoperator
  exact MatchQuery.ext hfield hquery (Option.map_injective Operator.text_injective htext)
    (Option.map_injective string_injective hfuzziness) (boost_eq hfirst.boost hsecond.boost hboost)

theorem eq_of_phrase {first second : PhraseQuery} (hfirst : (phrase first).Unambiguous)
    (hsecond : (phrase second).Unambiguous) (h : (phrase first).body = (phrase second).body) :
    first = second := by
  rw [body_eq, body_eq] at h
  obtain ⟨hfield, hquery, hslots⟩ := underField_injective "query"
    ["slop", "boost"] (by decide) rfl rfl
    (noObject_string _) (noObject_string _) h
  simp only [slots, List.cons.injEq, Prod.mk.injEq, true_and, and_true] at hslots
  obtain ⟨hslop, hboost⟩ := hslots
  exact PhraseQuery.ext hfield (string_injective hquery) (Option.map_injective nat_injective hslop)
    (boost_eq hfirst.boost hsecond.boost hboost)

theorem eq_of_beginsWith {first second : PrefixQuery} (hfirst : (beginsWith first).Unambiguous)
    (hsecond : (beginsWith second).Unambiguous)
    (h : (beginsWith first).body = (beginsWith second).body) : first = second := by
  rw [body_eq, body_eq] at h
  obtain ⟨hfield, hvalue, hslots⟩ := underField_injective "value"
    ["case_insensitive", "boost"] (by decide) rfl rfl
    (noObject_string _) (noObject_string _) h
  simp only [slots, List.cons.injEq, Prod.mk.injEq, true_and, and_true] at hslots
  obtain ⟨hcase, hboost⟩ := hslots
  exact PrefixQuery.ext hfield (string_injective hvalue) (Option.map_injective bool_injective hcase)
    (boost_eq hfirst.boost hsecond.boost hboost)

theorem eq_of_wildcard {first second : WildcardQuery} (hfirst : (wildcard first).Unambiguous)
    (hsecond : (wildcard second).Unambiguous) (h : (wildcard first).body = (wildcard second).body) :
    first = second := by
  rw [body_eq, body_eq] at h
  obtain ⟨hfield, hvalue, hslots⟩ := underField_injective "value"
    ["case_insensitive", "boost"] (by decide) rfl rfl
    (noObject_string _) (noObject_string _) h
  simp only [slots, List.cons.injEq, Prod.mk.injEq, true_and, and_true] at hslots
  obtain ⟨hcase, hboost⟩ := hslots
  exact WildcardQuery.ext hfield (string_injective hvalue)
    (Option.map_injective bool_injective hcase) (boost_eq hfirst.boost hsecond.boost hboost)

theorem eq_of_regexp {first second : RegexpQuery} (h : (regexp first).body = (regexp second).body) :
    first = second := by
  rw [body_eq, body_eq] at h
  obtain ⟨hfield, hvalue, hslots⟩ := underField_injective "value"
    ["flags", "case_insensitive", "max_determinized_states"] (by decide) rfl rfl
    (noObject_string _) (noObject_string _) h
  simp only [slots, List.cons.injEq, Prod.mk.injEq, true_and, and_true] at hslots
  obtain ⟨hflags, hcase, hstates⟩ := hslots
  exact RegexpQuery.ext hfield (string_injective hvalue)
    (Option.map_injective string_injective hflags) (Option.map_injective bool_injective hcase)
    (Option.map_injective nat_injective hstates)

theorem eq_of_range {first second : RangeQuery} (hfirst : (range first).Unambiguous)
    (hsecond : (range second).Unambiguous) (h : (range first).body = (range second).body) :
    first = second := by
  rw [body_eq, body_eq] at h
  obtain ⟨hfield, hrecord⟩ := single_injective h
  have hslots := record_present_injective
    ["gt", "gte", "lt", "lte", "format", "time_zone", "boost"] (by decide) rfl rfl hrecord
  simp only [slots, List.cons.injEq, Prod.mk.injEq, true_and, and_true] at hslots
  obtain ⟨hgt, hgte, hlt, hlte, hformat, hzone, hboost⟩ := hslots
  exact RangeQuery.ext hfield hgt hgte hlt hlte (Option.map_injective string_injective hformat)
    (Option.map_injective string_injective hzone) (boost_eq hfirst.boost hsecond.boost hboost)

/-- The kind and the body of a leaf query determine it. -/
theorem eq_of_body_eq {first second : LeafQuery} (hfirst : first.Unambiguous)
    (hsecond : second.Unambiguous) (hkind : first.kind = second.kind)
    (h : first.body = second.body) : first = second := by
  cases first with
  | matchAll boost =>
      cases second with
      | matchAll other => rw [eq_of_matchAll hfirst hsecond h]
      | _ => simp [kind] at hkind
  | term query =>
      cases second with
      | term other => rw [eq_of_term hfirst hsecond h]
      | _ => simp [kind] at hkind
  | terms query =>
      cases second with
      | terms other => rw [eq_of_terms hfirst hsecond h]
      | _ => simp [kind] at hkind
  | fullText query =>
      cases second with
      | fullText other => rw [eq_of_fullText hfirst hsecond h]
      | _ => simp [kind] at hkind
  | phrase query =>
      cases second with
      | phrase other => rw [eq_of_phrase hfirst hsecond h]
      | _ => simp [kind] at hkind
  | beginsWith query =>
      cases second with
      | beginsWith other => rw [eq_of_beginsWith hfirst hsecond h]
      | _ => simp [kind] at hkind
  | wildcard query =>
      cases second with
      | wildcard other => rw [eq_of_wildcard hfirst hsecond h]
      | _ => simp [kind] at hkind
  | regexp query =>
      cases second with
      | regexp other => rw [eq_of_regexp h]
      | _ => simp [kind] at hkind
  | range query =>
      cases second with
      | range other => rw [eq_of_range hfirst hsecond h]
      | _ => simp [kind] at hkind
  | fieldExists field =>
      cases second with
      | fieldExists other =>
          rw [body_eq, body_eq] at h
          rw [string_injective (single_injective h).2]
      | _ => simp [kind] at hkind
  | ids values =>
      cases second with
      | ids others =>
          rw [body_eq, body_eq] at h
          have hvalues := Json.array.inj (single_injective h).2
          rw [List.map_injective_iff.2 string_injective hvalues]
      | _ => simp [kind] at hkind

end LeafQuery

/-! ## Trees -/

namespace Query

theorem kind_leaf_ne (query : LeafQuery) : query.kind ≠ "nested" ∧ query.kind ≠ "bool" := by
  cases query <;> simp [LeafQuery.kind]

theorem compileList_eq_map (queries : List Query) : compileList queries = queries.map compile := by
  induction queries with
  | nil => rfl
  | cons query rest ih => rw [compileList, ih, List.map_cons]

/-- The form of a nested query by its slots. -/
theorem compile_nested (path : String) (query : Option Query) (options : NestedOptions) :
    compile (.nested path query options) =
      single "nested" (record (present
        [("path", some (.string path)), ("query", some (compileOption query)),
          ("score_mode", (options.scoreMode.map ScoreMode.text).map .string),
          ("ignore_unmapped", options.ignoreUnmapped.map .bool)])) := by
  simp [compile, present, Json.optional, optionalString, optionalBool]

/-- The form of a boolean query by its slots. -/
theorem compile_bool (must mustNot should filter : List Query) (options : BoolOptions) :
    compile (.bool must mustNot should filter options) =
      single "bool" (record (present
        [("must", arraySlot (must.map compile)), ("must_not", arraySlot (mustNot.map compile)),
          ("should", arraySlot (should.map compile)), ("filter", arraySlot (filter.map compile)),
          ("minimum_should_match", options.minimumShouldMatch.map .int),
          ("boost", options.boost.map ofBinary64)])) := by
  simp [compile, present, unlessEmpty_eq, optionalDouble, compileList_eq_map]

/-- A query has the form of another only if it is a query of the same kind with the same body. -/
theorem compile_eq_single (query : Query) : ∃ body, query.compile = single query.kind body := by
  cases query with
  | leaf query => exact ⟨_, rfl⟩
  | nested path query options => exact ⟨_, compile_nested path query options⟩
  | bool must mustNot should filter options =>
      exact ⟨_, compile_bool must mustNot should filter options⟩

theorem kind_eq_of_compile_eq {first second : Query} (h : first.compile = second.compile) :
    first.kind = second.kind := by
  obtain ⟨body, hbody⟩ := first.compile_eq_single
  obtain ⟨other, hother⟩ := second.compile_eq_single
  rw [hbody, hother] at h
  exact (single_injective h).1

/-- A query that is missing has a form of its own. -/
theorem compile_ne_empty (query : Query) : query.compile ≠ .object [] := by
  obtain ⟨body, hbody⟩ := query.compile_eq_single
  rw [hbody]
  exact nofun

theorem option_eq_of_compile_eq {query other : Option Query}
    (hchildren : ∀ child ∈ query, ∀ held ∈ other, child.compile = held.compile → child = held)
    (h : compileOption query = compileOption other) : query = other := by
  cases query with
  | none =>
      cases other with
      | none => rfl
      | some held => exact absurd h.symm (compile_ne_empty held)
  | some child =>
      cases other with
      | none => exact absurd h (compile_ne_empty child)
      | some held => rw [hchildren child rfl held rfl h]

/-- The form of a query determines it, given that the forms of the queries it holds do. -/
theorem eq_of_compile_eq_step {first second : Query} (hfirst : first.Unambiguous)
    (hsecond : second.Unambiguous)
    (hchildren : ∀ child ∈ (Node.query first).queries, ∀ other ∈ (Node.query second).queries,
      child.compile = other.compile → child = other)
    (h : first.compile = second.compile) : first = second := by
  have hkind := kind_eq_of_compile_eq h
  cases first with
  | leaf query =>
      cases second with
      | leaf other =>
          rw [LeafQuery.eq_of_body_eq hfirst hsecond hkind (single_injective h).2]
      | nested => exact absurd hkind (kind_leaf_ne query).1
      | bool => exact absurd hkind (kind_leaf_ne query).2
  | nested path query options =>
      cases second with
      | leaf other => exact absurd hkind.symm (kind_leaf_ne other).1
      | nested otherPath other otherOptions =>
          rw [compile_nested, compile_nested] at h
          have hslots := record_present_injective ["path", "query", "score_mode", "ignore_unmapped"]
            (by decide) rfl rfl (single_injective h).2
          simp only [List.cons.injEq, Prod.mk.injEq, true_and, and_true] at hslots
          obtain ⟨hpath, hquery, hmode, hunmapped⟩ := hslots
          have hheld : query = other := by
            refine option_eq_of_compile_eq (fun child hchild held hheld => ?_)
              (Option.some.inj hquery)
            exact hchildren child (Option.mem_toList.2 hchild) held (Option.mem_toList.2 hheld)
          have hmode := Option.map_injective ScoreMode.text_injective
            (Option.map_injective string_injective hmode)
          have hoptions := NestedOptions.ext hmode (Option.map_injective bool_injective hunmapped)
          rw [string_injective (Option.some.inj hpath), hheld, hoptions]
      | bool => simp [kind] at hkind
  | bool must mustNot should filter options =>
      cases second with
      | leaf other => exact absurd hkind.symm (kind_leaf_ne other).2
      | nested => simp [kind] at hkind
      | bool otherMust otherMustNot otherShould otherFilter otherOptions =>
          rw [compile_bool, compile_bool] at h
          have hslots := record_present_injective
            ["must", "must_not", "should", "filter", "minimum_should_match", "boost"]
            (by decide) rfl rfl (single_injective h).2
          simp only [List.cons.injEq, Prod.mk.injEq, true_and, and_true] at hslots
          obtain ⟨hmust, hmustNot, hshould, hfilter, hminimum, hboost⟩ := hslots
          have hoptions := BoolOptions.ext (Option.map_injective int_injective hminimum)
            (boost_eq hfirst hsecond hboost)
          -- each clause list is a part of the list of all subqueries
          simp only [Node.queries, List.mem_append] at hchildren
          rw [eq_of_map_eq (by grind) (arraySlot_injective hmust),
            eq_of_map_eq (by grind) (arraySlot_injective hmustNot),
            eq_of_map_eq (by grind) (arraySlot_injective hshould),
            eq_of_map_eq (by grind) (arraySlot_injective hfilter), hoptions]

/-- The form of a query determines the query and its whole tree. -/
theorem eq_of_compile_eq {first second : Query}
    (hfirst : ∀ part, Node.Within (.query part) (.query first) → part.Unambiguous)
    (hsecond : ∀ part, Node.Within (.query part) (.query second) → part.Unambiguous)
    (h : first.compile = second.compile) : first = second := by
  suffices hall : ∀ node : Node, ∀ query, node = .query query →
      (∀ part, Node.Within (.query part) (.query query) → part.Unambiguous) →
      ∀ other : Query, (∀ part, Node.Within (.query part) (.query other) → part.Unambiguous) →
        query.compile = other.compile → query = other from
    hall _ first rfl hfirst second hsecond h
  refine Node.induction fun node ih => ?_
  rintro query rfl hquery other hother hcompile
  refine eq_of_compile_eq_step (hquery query .refl) (hother other .refl) ?_ hcompile
  intro child hchild held hheld
  have hbelow := Node.query_mem_children hchild
  refine ih _ hbelow child rfl (fun part hpart => ?_) held (fun part hpart => ?_)
  · exact hquery part (.head hbelow hpart)
  · exact hother part (.head (Node.query_mem_children hheld) hpart)

/-- What is sent of a query determines it. Two queries that are both written, so neither has a fatal
finding, and whose nodes are all unambiguous, are equal when the bytes of their texts are. -/
theorem eq_of_utf8Bytes_eq {first second : Query} {text other : String}
    (hfirst : ∀ part, Node.Within (.query part) (.query first) → part.Unambiguous)
    (hsecond : ∀ part, Node.Within (.query part) (.query second) → part.Unambiguous)
    (htext : first.text = .ok text) (hother : second.text = .ok other)
    (hbytes : utf8Bytes text = utf8Bytes other) : first = second := by
  have hsame := utf8Bytes_injective hbytes
  rw [Report.eq_of_whenSound_eq_ok htext, Report.eq_of_whenSound_eq_ok hother] at hsame
  exact eq_of_compile_eq hfirst hsecond (Json.toText_injective hsame)

/-- The nodes of a tree are unambiguous when its root is and those of its subtrees are. -/
theorem forall_within {query : Query} (hquery : query.Unambiguous)
    (hchildren : ∀ child ∈ (Node.query query).queries,
      ∀ part, Node.Within (.query part) (.query child) → part.Unambiguous)
    (part : Query) (hpart : Node.Within (.query part) (.query query)) : part.Unambiguous := by
  rcases hpart.cases_head with hsame | ⟨child, hchild, hpart⟩
  · cases hsame
    exact hquery
  · rw [Node.children, Node.aggregations, List.map_nil, List.append_nil] at hchild
    obtain ⟨held, hheld, rfl⟩ := List.mem_map.1 hchild
    exact hchildren held hheld part hpart

/-- Paid orders, at a boost of two. -/
def paidStatus : TermsQuery where
  field := "status"
  values := [.string "paid"]
  boost := some (.finite ⟨false, ⟨2 ^ 62, by decide⟩⟩)

/-- Orders with an item that costs at least ten. -/
def costlyItem : Query :=
  .nested "items" (some (.leaf (.range ⟨"price", none, some (.nat 10), none, none, none, none,
    none⟩))) {}

/-- Paid orders with a costly item. -/
def costlyOrders : Query :=
  .bool [.leaf (.terms paidStatus)] [] [] [costlyItem] {}

/-- The same query, its status added by `TermsQuery.withValue`. -/
def costlyOrdersByStep : Query :=
  .bool [.leaf (.terms (TermsQuery.withValue { paidStatus with values := [] } (.string "paid")))]
    [] [] [costlyItem] {}

theorem unambiguous_paidStatus : (LeafQuery.terms paidStatus).Unambiguous := by
  constructor <;> simp [LeafQuery.boost?, paidStatus, Binary64.isFinite]

theorem unambiguous_costlyItem (part : Query)
    (hpart : Node.Within (.query part) (.query costlyItem)) : part.Unambiguous := by
  have hroot : costlyItem.Unambiguous := trivial
  refine forall_within hroot (fun child hchild => ?_) part hpart
  obtain rfl := List.mem_singleton.1 hchild
  refine forall_within ?_ (List.forall_mem_nil _)
  constructor <;> simp [LeafQuery.boost?]

theorem unambiguous_costlyOrders (part : Query)
    (hpart : Node.Within (.query part) (.query costlyOrders)) : part.Unambiguous := by
  have hroot : costlyOrders.Unambiguous := by simp [costlyOrders, Unambiguous]
  refine forall_within hroot (fun child hchild => ?_) part hpart
  have hchildren : child = .leaf (.terms paidStatus) ∨ child = costlyItem := by
    simpa [Node.queries, costlyOrders] using hchild
  rcases hchildren with rfl | rfl
  · exact forall_within unambiguous_paidStatus (List.forall_mem_nil _)
  · exact unambiguous_costlyItem

theorem eq_of_utf8Bytes_eq_costlyOrders :
    ∃ text, costlyOrders.text = .ok text ∧ costlyOrdersByStep.text = .ok text ∧
      costlyOrders = costlyOrdersByStep := by
  have hsound : ¬ costlyOrders.validate.isFatal = true := by decide
  have htext : costlyOrders.text = .ok costlyOrders.compile.toText :=
    Report.whenSound_of_not_fatal hsound _
  exact ⟨_, htext, htext,
    eq_of_utf8Bytes_eq unambiguous_costlyOrders unambiguous_costlyOrders htext htext rfl⟩

end Query

end SearchWire
