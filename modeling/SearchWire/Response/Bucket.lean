import SearchWire.Response.RawResults
import SearchWire.Json.Value

/-!
# Buckets of aggregation results

A bucket mixes well-known members with the results of named sub-aggregations,
which are kept as spans. Of a repeated member the last one counts. Buckets
arrive as an array or as an object whose names are the keys; a bucket without a
key of its own then takes its name.
-/

namespace SearchWire

/-- One bucket of an aggregation result. -/
structure Bucket where
  key : Option Json := none
  keyAsString : Option String := none
  docCount : Nat := 0
  lower : Option Binary64 := none
  upper : Option Binary64 := none
  lowerAsString : Option String := none
  upperAsString : Option String := none
  docCountErrorUpperBound : Option Int := none
  sumOtherDocCount : Option Nat := none
  subResults : RawResults := {}

namespace Bucket

/-- The key of a bucket, when it is a string. -/
def keyString (bucket : Bucket) : Option String :=
  match bucket.key with
  | some (.string key) => some key
  | _ => none

/-- Whether a bucket has a key, as a value or in its written form. -/
def hasKey (key : String) (bucket : Bucket) : Bool :=
  bucket.keyString == some key || bucket.keyAsString == some key

/-- Reads one member. -/
def step (depth : Nat) (bucket : Bucket) (name : String) (value : Raw) : Except Fault Bucket := do
  if name = "key" then
    return { bucket with key := some (← Decode.json depth value) }
  else if name = "key_as_string" then
    return { bucket with keyAsString := ← Decode.optional Decode.string depth value }
  else if name = "doc_count" then
    return { bucket with docCount := ← Decode.nat64 depth value }
  else if name = "from" then
    return { bucket with lower := ← Decode.optional Decode.double depth value }
  else if name = "to" then
    return { bucket with upper := ← Decode.optional Decode.double depth value }
  else if name = "from_as_string" then
    return { bucket with lowerAsString := ← Decode.optional Decode.string depth value }
  else if name = "to_as_string" then
    return { bucket with upperAsString := ← Decode.optional Decode.string depth value }
  else if name = "doc_count_error_upper_bound" then
    return { bucket with docCountErrorUpperBound := ← Decode.optional Decode.int64 depth value }
  else if name = "sum_other_doc_count" then
    return { bucket with sumOtherDocCount := ← Decode.optional Decode.nat64 depth value }
  else
    let span ← Span.ofRaw value
    return { bucket with subResults := bucket.subResults.insert name span }

end Bucket

/-- Decodes a bucket. -/
def Decode.bucket : Decoder Bucket :=
  object "an aggregation bucket object" Bucket.step {}

namespace Buckets

/-- Reads the buckets of an object: a bucket without a key takes its name. -/
def ofMembers (depth : Nat) : Members → Except Fault (List Bucket)
  | .closed _ => .ok []
  | .torn damage _ => .error (.damage damage)
  | .member _ name _ value more => do
      let key ← name.read
      let bucket ← Decode.bucket depth value
      let rest ← ofMembers depth more
      return { bucket with key := bucket.key <|> some (.string key) } :: rest

/-- The first bucket with a key. -/
def find? (key : String) (buckets : List Bucket) : Option Bucket :=
  List.find? (Bucket.hasKey key) buckets

end Buckets

/-- Decodes buckets in either form. -/
def Decode.buckets : Decoder (List Bucket)
  | depth + 1, .array items => each (bucket depth) items
  | depth + 1, .object members => Buckets.ofMembers depth members
  | 0, .array _ => .error (.damage .tooDeep)
  | 0, .object _ => .error (.damage .tooDeep)
  | _, other => other.refuse "an array of buckets or an object of keyed buckets"

/-- The result of a terms aggregation. -/
structure TermsResult where
  docCountErrorUpperBound : Option Int := none
  sumOtherDocCount : Option Nat := none
  buckets : List Bucket

namespace TermsResult

/-- The fields read so far. -/
structure Partial where
  docCountErrorUpperBound : Option (Option Int) := none
  sumOtherDocCount : Option (Option Nat) := none
  buckets : Option (List Bucket) := none

/-- Reads one member. -/
def step (depth : Nat) (fields : Partial) (name : String) (value : Raw) :
    Except Fault Partial := do
  if name = "doc_count_error_upper_bound" then
    let docCountErrorUpperBound ←
      Decode.once name fields.docCountErrorUpperBound (Decode.optional Decode.int64 depth value)
    return { fields with docCountErrorUpperBound }
  else if name = "sum_other_doc_count" then
    let sumOtherDocCount ←
      Decode.once name fields.sumOtherDocCount (Decode.optional Decode.nat64 depth value)
    return { fields with sumOtherDocCount }
  else if name = "buckets" then
    return { fields with buckets := ← Decode.once name fields.buckets (Decode.buckets depth value) }
  else
    value.skip
    return fields

/-- Reads a result from the members of an object. -/
def ofMembers (depth : Nat) (members : Members) : Except Fault TermsResult := do
  let fields ← Decode.walk (step depth) members {}
  return ⟨fields.docCountErrorUpperBound.getD none, fields.sumOtherDocCount.getD none,
    ← Decode.require "buckets" fields.buckets⟩

/-- Reads a result from an array, which must reach up to the buckets. -/
def ofItems (depth : Nat) (items : Items) : Except Fault (TermsResult × Items) := do
  let (errorBound, items) ← Decode.next (Decode.optional Decode.int64 depth) items
  let (otherCount, items) ← Decode.next (Decode.optional Decode.nat64 depth) items
  let (buckets, items) ←
    Decode.nextRequired (Decode.recordExpectation "TermsResult" 3) 2 (Decode.buckets depth) items
  return (⟨errorBound.getD none, otherCount.getD none, buckets⟩, items)

end TermsResult

/-- Decodes the result of a terms aggregation. -/
def Decode.terms : Decoder TermsResult :=
  record "TermsResult" TermsResult.ofMembers TermsResult.ofItems

/-- A result that consists of its buckets: that of a date histogram or of ranges. -/
structure BucketsResult where
  buckets : List Bucket

namespace BucketsResult

/-- Reads one member. -/
def step (depth : Nat) (buckets : Option (List Bucket)) (name : String) (value : Raw) :
    Except Fault (Option (List Bucket)) := do
  if name = "buckets" then
    Decode.once name buckets (Decode.buckets depth value)
  else
    value.skip
    return buckets

/-- Reads a result from the members of an object. -/
def ofMembers (depth : Nat) (members : Members) : Except Fault BucketsResult := do
  let buckets ← Decode.walk (step depth) members none
  return ⟨← Decode.require "buckets" buckets⟩

/-- Reads a result from an array, which must hold the buckets. -/
def ofItems (record : String) (depth : Nat) (items : Items) :
    Except Fault (BucketsResult × Items) := do
  let (buckets, items) ←
    Decode.nextRequired (Decode.recordExpectation record 1) 0 (Decode.buckets depth) items
  return (⟨buckets⟩, items)

end BucketsResult

/-- Decodes the result of a date histogram. -/
def Decode.dateHistogram : Decoder BucketsResult :=
  record "DateHistogramResult" BucketsResult.ofMembers (BucketsResult.ofItems "DateHistogramResult")

/-- Decodes the result of a range or date range aggregation. -/
def Decode.range : Decoder BucketsResult :=
  record "RangeResult" BucketsResult.ofMembers (BucketsResult.ofItems "RangeResult")

/-- The result of a filter aggregation: a single bucket without a key. -/
structure FilterResult where
  docCount : Nat
  subResults : RawResults

/-- Decodes the result of a filter aggregation. -/
def Decode.filter : Decoder FilterResult :=
  fun depth value => do
    let found ← bucket depth value
    return ⟨found.docCount, found.subResults⟩

end SearchWire
