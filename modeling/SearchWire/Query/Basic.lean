import SearchWire.Json.Basic

/-!
# Queries

A query is a leaf that tests documents by one field or by identity, a `nested`
query that applies a query to the objects under a path, or a `bool` query that
combines clauses. Options that are not set are `none` and leave the choice to
the store. `Query.kind` is the name of a query on the wire.
-/

namespace SearchWire

/-- How the terms of a full-text query are combined. -/
inductive Operator where
  | and
  | or
deriving DecidableEq

/-- The operator on the wire. -/
def Operator.text : Operator → String
  | .and => "and"
  | .or => "or"

/-- How the scores of nested objects are combined. -/
inductive ScoreMode where
  | avg
  | max
  | min
  | none
  | sum
deriving DecidableEq

/-- The score mode on the wire. -/
def ScoreMode.text : ScoreMode → String
  | .avg => "avg"
  | .max => "max"
  | .min => "min"
  | .none => "none"
  | .sum => "sum"

/-- Exact match of a field with one value. -/
structure TermQuery where
  field : String
  value : Json
  boost : Option Binary64 := none

/-- Exact match of a field with any of several values. -/
structure TermsQuery where
  field : String
  values : List Json
  boost : Option Binary64 := none

/-- Full-text match of an analyzed field. -/
structure MatchQuery where
  field : String
  query : Json
  operator : Option Operator := none
  fuzziness : Option String := none
  boost : Option Binary64 := none

/-- Match of a phrase in an analyzed field. -/
structure PhraseQuery where
  field : String
  query : String
  slop : Option Nat := none
  boost : Option Binary64 := none

/-- Match of terms that begin with a text. -/
structure PrefixQuery where
  field : String
  value : String
  caseInsensitive : Option Bool := none
  boost : Option Binary64 := none

/-- Match of terms with a pattern of `*` and `?`. -/
structure WildcardQuery where
  field : String
  pattern : String
  caseInsensitive : Option Bool := none
  boost : Option Binary64 := none

/-- Match of terms with a regular expression. -/
structure RegexpQuery where
  field : String
  pattern : String
  flags : Option String := none
  caseInsensitive : Option Bool := none
  maxDeterminizedStates : Option Nat := none

/-- Match of a field between bounds. -/
structure RangeQuery where
  field : String
  gt : Option Json := none
  gte : Option Json := none
  lt : Option Json := none
  lte : Option Json := none
  format : Option String := none
  timeZone : Option String := none
  boost : Option Binary64 := none

/-- A query without subqueries. -/
inductive LeafQuery where
  | matchAll (boost : Option Binary64)
  | term (query : TermQuery)
  | terms (query : TermsQuery)
  | fullText (query : MatchQuery)
  | phrase (query : PhraseQuery)
  | beginsWith (query : PrefixQuery)
  | wildcard (query : WildcardQuery)
  | regexp (query : RegexpQuery)
  | range (query : RangeQuery)
  | fieldExists (field : String)
  | ids (values : List String)

/-- The options of a nested query. -/
structure NestedOptions where
  scoreMode : Option ScoreMode := none
  ignoreUnmapped : Option Bool := none
deriving DecidableEq

/-- The options of a boolean query. -/
structure BoolOptions where
  minimumShouldMatch : Option Int := none
  boost : Option Binary64 := none
deriving DecidableEq

/-- A query. -/
inductive Query where
  | leaf (query : LeafQuery)
  | nested (path : String) (query : Option Query) (options : NestedOptions)
  | bool (must mustNot should filter : List Query) (options : BoolOptions)

/-- The name of a leaf query on the wire. -/
def LeafQuery.kind : LeafQuery → String
  | .matchAll _ => "match_all"
  | .term _ => "term"
  | .terms _ => "terms"
  | .fullText _ => "match"
  | .phrase _ => "match_phrase"
  | .beginsWith _ => "prefix"
  | .wildcard _ => "wildcard"
  | .regexp _ => "regexp"
  | .range _ => "range"
  | .fieldExists _ => "exists"
  | .ids _ => "ids"

namespace Query

/-- The name of a query on the wire. -/
def kind : Query → String
  | .leaf query => query.kind
  | .nested _ _ _ => "nested"
  | .bool _ _ _ _ _ => "bool"

/-- Whether a boolean query has no clauses; other queries are not boolean and have none. -/
def hasNoClauses : Query → Bool
  | .bool must mustNot should filter _ =>
      must.isEmpty && mustNot.isEmpty && should.isEmpty && filter.isEmpty
  | .leaf _ | .nested _ _ _ => true

end Query

/-- Appends one more accepted value. -/
def TermsQuery.withValue (query : TermsQuery) (value : Json) : TermsQuery :=
  { query with values := query.values ++ [value] }

/-- Whether any bound is set. -/
def RangeQuery.hasBounds (query : RangeQuery) : Bool :=
  query.gt.isSome || query.gte.isSome || query.lt.isSome || query.lte.isSome

end SearchWire
