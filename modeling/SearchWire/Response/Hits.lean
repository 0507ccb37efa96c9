import SearchWire.Json.Value
import SearchWire.Json.Span
import SearchWire.Validation.Failure

/-!
# Hits of a search

A hit keeps the source of its document as a span until `Hit.source` decodes it.
The total number of hits is exact or a lower bound; older versions of the store
report it as a bare number, which is exact.
-/

namespace SearchWire

/-- How a number of hits relates to the true one. -/
inductive TotalRelation where
  | exact
  | lowerBound
deriving DecidableEq

/-- The relation on the wire. -/
def TotalRelation.text : TotalRelation → String
  | .exact => "eq"
  | .lowerBound => "gte"

/-- The relations under their names on the wire. -/
def TotalRelation.named : List (String × TotalRelation) :=
  [("eq", .exact), ("gte", .lowerBound)]

/-- The number of all hits of a search. -/
structure TotalHits where
  value : Nat
  relation : TotalRelation
deriving DecidableEq

namespace TotalHits

/-- Reads a natural number of sixty-four bits. -/
def countOf? : Json → Option Nat
  | .number (.int value) => if 0 ≤ value ∧ value < 2 ^ 64 then some value.toNat else none
  | _ => none

/-- Reads a relation: its name, or an object that maps its name to `null`. -/
def relationOf? : Json → Option TotalRelation
  | .string name => TotalRelation.named.lookup name
  | .object [(name, .null)] => TotalRelation.named.lookup name
  | _ => none

/-- Reads the value and the relation from the members of an object, each of which may stand
once. -/
def fieldsOf? : Option Nat → Option TotalRelation → List (String × Json) → Option TotalHits
  | some value, relation, [] => some ⟨value, relation.getD .exact⟩
  | none, _, [] => none
  | value, relation, (name, json) :: rest =>
      if name = "value" then
        match value, countOf? json with
        | none, some count => fieldsOf? (some count) relation rest
        | _, _ => none
      else if name = "relation" then
        match relation, relationOf? json with
        | none, some found => fieldsOf? value (some found) rest
        | _, _ => none
      else fieldsOf? value relation rest

/-- The number of hits that a value with all its members stands for. -/
def ofJson? : Json → Option TotalHits
  | .object entries => fieldsOf? none none entries
  | other => (countOf? other).map fun count => ⟨count, .exact⟩

end TotalHits

/-- Decodes a number of hits. -/
def Decode.totalHits : Decoder TotalHits :=
  fun depth value => do
    let content ← members depth value
    match TotalHits.ofJson? content with
    | some total => return total
    | none => .error (.mismatch (.noForm "TotalHitsRepr"))

/-- One matching document. -/
structure Hit where
  index : String := ""
  id : Option String := none
  score : Option Binary64 := none
  rawSource : Option Span := none
  sort : List Json := []

namespace Hit

/-- Decodes the source of a hit; `none` when the hit carries none. -/
def source {α : Type} (hit : Hit) (decoder : Decoder α) : Except Failure (Option α) :=
  match hit.rawSource with
  | none => .ok none
  | some span =>
      match span.decode decoder with
      | .ok value => .ok (some value)
      | .error fault => .error (.json fault)

/-- The fields of a hit read so far. -/
structure Partial where
  index : Option String := none
  id : Option (Option String) := none
  score : Option (Option Binary64) := none
  rawSource : Option (Option Span) := none
  sort : Option (List Json) := none

/-- The hit of the fields read, absent ones being empty. -/
def Partial.finish (fields : Partial) : Hit :=
  ⟨fields.index.getD "", fields.id.getD none, fields.score.getD none,
    fields.rawSource.getD none, fields.sort.getD []⟩

/-- Reads one member. -/
def step (depth : Nat) (fields : Partial) (name : String) (value : Raw) :
    Except Fault Partial := do
  if name = "_index" then
    return { fields with index := ← Decode.once name fields.index (Decode.string depth value) }
  else if name = "_id" then
    let id ← Decode.once name fields.id (Decode.optional Decode.string depth value)
    return { fields with id }
  else if name = "_score" then
    let score ← Decode.once name fields.score (Decode.optional Decode.double depth value)
    return { fields with score }
  else if name = "_source" then
    let rawSource ← Decode.once name fields.rawSource (Decode.optional Decode.span depth value)
    return { fields with rawSource }
  else if name = "sort" then
    let sort ← Decode.once name fields.sort (Decode.list Decode.json depth value)
    return { fields with sort }
  else
    value.skip
    return fields

/-- Reads a hit from the members of an object. -/
def ofMembers (depth : Nat) (members : Members) : Except Fault Hit :=
  Partial.finish <$> Decode.walk (step depth) members {}

/-- Reads a hit from an array in the order of its fields. -/
def ofItems (depth : Nat) (items : Items) : Except Fault (Hit × Items) := do
  let (index, items) ← Decode.next (Decode.string depth) items
  let (id, items) ← Decode.next (Decode.optional Decode.string depth) items
  let (score, items) ← Decode.next (Decode.optional Decode.double depth) items
  let (rawSource, items) ← Decode.next (Decode.optional Decode.span depth) items
  let (sort, items) ← Decode.next (Decode.list Decode.json depth) items
  return (Partial.finish ⟨index, id, score, rawSource, sort⟩, items)

end Hit

/-- Decodes a hit. -/
def Decode.hit : Decoder Hit :=
  record "Hit" Hit.ofMembers Hit.ofItems

/-- The hits of a search. -/
structure Hits where
  total : Option TotalHits := none
  maxScore : Option Binary64 := none
  hits : List Hit := []

namespace Hits

/-- The fields of the hits read so far. -/
structure Partial where
  total : Option (Option TotalHits) := none
  maxScore : Option (Option Binary64) := none
  hits : Option (List Hit) := none

/-- The hits of the fields read, absent ones being empty. -/
def Partial.finish (fields : Partial) : Hits :=
  ⟨fields.total.getD none, fields.maxScore.getD none, fields.hits.getD []⟩

/-- Reads one member. -/
def step (depth : Nat) (fields : Partial) (name : String) (value : Raw) :
    Except Fault Partial := do
  if name = "total" then
    let total ← Decode.once name fields.total (Decode.optional Decode.totalHits depth value)
    return { fields with total }
  else if name = "max_score" then
    let maxScore ← Decode.once name fields.maxScore (Decode.optional Decode.double depth value)
    return { fields with maxScore }
  else if name = "hits" then
    let hits ← Decode.once name fields.hits (Decode.list Decode.hit depth value)
    return { fields with hits }
  else
    value.skip
    return fields

/-- Reads the hits from the members of an object. -/
def ofMembers (depth : Nat) (members : Members) : Except Fault Hits :=
  Partial.finish <$> Decode.walk (step depth) members {}

/-- Reads the hits from an array in the order of their fields. -/
def ofItems (depth : Nat) (items : Items) : Except Fault (Hits × Items) := do
  let (total, items) ← Decode.next (Decode.optional Decode.totalHits depth) items
  let (maxScore, items) ← Decode.next (Decode.optional Decode.double depth) items
  let (hits, items) ← Decode.next (Decode.list Decode.hit depth) items
  return (Partial.finish ⟨total, maxScore, hits⟩, items)

end Hits

/-- Decodes the hits of a search. -/
def Decode.hits : Decoder Hits :=
  record "Hits" Hits.ofMembers Hits.ofItems

end SearchWire
