import SearchWire.Response.RawResults
import SearchWire.Response.StoreError
import SearchWire.Response.ShardStats
import SearchWire.Response.Hits

/-!
# Responses to searches

A response is an object whose known members are decoded and whose other members
are kept as spans. Of a known member that is repeated the last one counts. The
members of `aggregations` are named results, a later one replacing an earlier
one; an unknown member of the response becomes a named result as well unless its
name is taken.
-/

namespace SearchWire

/-- A decoded response to a search. -/
structure SearchResponse where
  took : Nat := 0
  timedOut : Bool := false
  shards : Option ShardStats := none
  hits : Option Hits := none
  error : Option StoreError := none
  status : Option Nat := none
  aggregations : RawResults := {}

namespace SearchResponse

/-- A response that is being read, with the unknown members met so far, the last one first. -/
structure Progress where
  response : SearchResponse := {}
  unknown : List (String × Span) := []

/-- Reads one member. -/
def step (depth : Nat) (progress : Progress) (name : String) (value : Raw) :
    Except Fault Progress := do
  let response := progress.response
  if name = "took" then
    let took ← Decode.nat64 depth value
    return { progress with response := { response with took } }
  else if name = "timed_out" then
    let timedOut ← Decode.bool depth value
    return { progress with response := { response with timedOut } }
  else if name = "_shards" then
    let shards ← Decode.optional Decode.shardStats depth value
    return { progress with response := { response with shards } }
  else if name = "hits" then
    let hits ← Decode.optional Decode.hits depth value
    return { progress with response := { response with hits } }
  else if name = "error" then
    let error ← Decode.optional Decode.storeError depth value
    return { progress with response := { response with error } }
  else if name = "status" then
    let status ← Decode.optional Decode.nat16 depth value
    return { progress with response := { response with status } }
  else if name = "aggregations" then
    let results ← Decode.rawResults depth value
    let aggregations := response.aggregations.insertAll results.entries
    return { progress with response := { response with aggregations } }
  else
    let span ← Span.ofRaw value
    return { progress with unknown := (name, span) :: progress.unknown }

/-- Adds the unknown members to the named results where their names are free. -/
def Progress.finish (progress : Progress) : SearchResponse :=
  let addUnknown (results : RawResults) (entry : String × Span) : RawResults :=
    results.insertNew entry.1 entry.2
  { progress.response with
    aggregations := progress.unknown.reverse.foldl addUnknown progress.response.aggregations }

/-- Decodes a response. -/
def decoder : Decoder SearchResponse :=
  fun depth value =>
    Progress.finish <$> Decode.object "a search response object" step {} depth value

/-- Decodes the body of a response. -/
def ofBytes (body : ByteArray) : Except Failure SearchResponse :=
  match decodeBody decoder (Symbol.ofBytes body) with
  | .ok response => .ok response
  | .error fault => .error (.json fault)

/-- The number of all hits, when the store reported one. -/
def totalHits (response : SearchResponse) : Option Nat := do
  let hits ← response.hits
  let total ← hits.total
  return total.value

/-- The hits of a response. -/
def hitList (response : SearchResponse) : List Hit :=
  match response.hits with
  | some found => found.hits
  | none => []

end SearchResponse

end SearchWire
