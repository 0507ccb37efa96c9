import SearchWire.Query.Basic

/-!
# The JSON form of queries

A query compiles to an object with one entry, named by its kind. A leaf over a
field uses the short form `field: value` when no option is set and the long form
with one entry per option otherwise. An option that is not set leaves no entry.
-/

namespace SearchWire

namespace Json

/-- The entry of an optional string. -/
def optionalString (name : String) (value : Option String) : List (String × Json) :=
  optional name (value.map .string)

/-- The entry of an optional truth value. -/
def optionalBool (name : String) (value : Option Bool) : List (String × Json) :=
  optional name (value.map .bool)

/-- The entry of an optional natural number. -/
def optionalNat (name : String) (value : Option Nat) : List (String × Json) :=
  optional name (value.map .nat)

/-- The entry of an optional double. -/
def optionalDouble (name : String) (value : Option Binary64) : List (String × Json) :=
  optional name (value.map .ofBinary64)

/-- The short form of a value under a field when there are no options, and the long form, in which
the value has a name beside the options, otherwise. -/
def underField (field valueName : String) (value : Json) (options : List (String × Json)) : Json :=
  single field
    (if options.isEmpty then value else record ((valueName, value) :: options))

end Json

open Json

namespace LeafQuery

/-- What a leaf query says under the name of its kind. -/
def body : LeafQuery → Json
  | .matchAll boost => record (optionalDouble "boost" boost)
  | .term query =>
      underField query.field "value" query.value (optionalDouble "boost" query.boost)
  | .terms query =>
      record ((query.field, .array query.values) :: optionalDouble "boost" query.boost)
  | .fullText query =>
      underField query.field "query" query.query
        (optionalString "operator" (query.operator.map Operator.text) ++
          optionalString "fuzziness" query.fuzziness ++
          optionalDouble "boost" query.boost)
  | .phrase query =>
      underField query.field "query" (.string query.query)
        (optionalNat "slop" query.slop ++ optionalDouble "boost" query.boost)
  | .beginsWith query =>
      underField query.field "value" (.string query.value)
        (optionalBool "case_insensitive" query.caseInsensitive ++
          optionalDouble "boost" query.boost)
  | .wildcard query =>
      underField query.field "value" (.string query.pattern)
        (optionalBool "case_insensitive" query.caseInsensitive ++
          optionalDouble "boost" query.boost)
  | .regexp query =>
      underField query.field "value" (.string query.pattern)
        (optionalString "flags" query.flags ++
          optionalBool "case_insensitive" query.caseInsensitive ++
          optionalNat "max_determinized_states" query.maxDeterminizedStates)
  | .range query =>
      single query.field
        (record
          (optional "gt" query.gt ++ optional "gte" query.gte ++
            optional "lt" query.lt ++ optional "lte" query.lte ++
            optionalString "format" query.format ++
            optionalString "time_zone" query.timeZone ++
            optionalDouble "boost" query.boost))
  | .fieldExists field => single "field" (.string field)
  | .ids values => single "values" (strings values)

end LeafQuery

namespace Query

mutual

/-- The JSON form of a query. -/
def compile : Query → Json
  | .leaf query => single query.kind query.body
  | .nested path query options =>
      single "nested"
        (record
          (("path", .string path) :: ("query", compileOption query) ::
            (optionalString "score_mode" (options.scoreMode.map ScoreMode.text) ++
              optionalBool "ignore_unmapped" options.ignoreUnmapped)))
  | .bool must mustNot should filter options =>
      single "bool"
        (record
          (unlessEmpty "must" (compileList must) ++
            unlessEmpty "must_not" (compileList mustNot) ++
            unlessEmpty "should" (compileList should) ++
            unlessEmpty "filter" (compileList filter) ++
            optional "minimum_should_match" (options.minimumShouldMatch.map .int) ++
            optionalDouble "boost" options.boost))

/-- The JSON form of a query that may be missing. -/
def compileOption : Option Query → Json
  | some query => compile query
  | none => .object []

/-- The JSON forms of clauses, in order. -/
def compileList : List Query → List Json
  | [] => []
  | query :: rest => compile query :: compileList rest

end

end Query

end SearchWire
