import SearchWire.Bulk.Action
import SearchWire.Json.Span
import SearchWire.Response.ShardStats
import SearchWire.Response.StoreError
import SearchWire.Validation.Failure

/-!
# Responses to bulk requests

The items of a bulk response are kept as spans while the response is read and
then decoded one by one, so an item that does not decode leaves its neighbours
alone. `BulkItem.ofSpan` decodes one item: an object with exactly one member,
whose name is the operation and whose value describes the outcome.
-/

namespace SearchWire

/-- The outcome of one bulk action. -/
structure ActionResponse where
  action : ActionKind
  index : String
  id : Option String
  version : Option Nat
  result : Option String
  shards : Option ShardStats
  seqNo : Option Nat
  primaryTerm : Option Nat
  status : Nat
  error : Option StoreError

/-- Whether an action was carried out. -/
def ActionResponse.isSuccess (response : ActionResponse) : Bool :=
  response.error.isNone && 200 ≤ response.status && response.status < 300

/-- Why an item of a bulk response does not decode. -/
inductive ItemFault where
  | keyCount (count : Nat)
  | unknownAction (name : String)
  | unreadable (fault : Fault)
deriving DecidableEq

/-- The wording of the fault of an item. -/
def ItemFault.message : ItemFault → String
  | .keyCount count =>
      "expected exactly one action key in bulk item, found " ++
        String.ofList (Decimal.digitsOf count)
  | .unknownAction name => "unknown bulk action `" ++ name ++ "`"
  | .unreadable fault => "malformed bulk item: " ++ fault.message

namespace ItemBody

/-- The fields of an outcome read so far. -/
structure Partial where
  index : Option String := none
  id : Option (Option String) := none
  version : Option (Option Nat) := none
  result : Option (Option String) := none
  shards : Option (Option ShardStats) := none
  seqNo : Option (Option Nat) := none
  primaryTerm : Option (Option Nat) := none
  status : Option Nat := none
  error : Option (Option StoreError) := none

/-- The outcome of an action from the fields read, absent ones being empty. -/
def Partial.finish (fields : Partial) (status : Nat) (action : ActionKind) : ActionResponse where
  action
  index := fields.index.getD ""
  id := fields.id.getD none
  version := fields.version.getD none
  result := fields.result.getD none
  shards := fields.shards.getD none
  seqNo := fields.seqNo.getD none
  primaryTerm := fields.primaryTerm.getD none
  status
  error := fields.error.getD none

/-- Reads one member. -/
def step (depth : Nat) (fields : Partial) (name : String) (value : Raw) :
    Except Fault Partial := do
  if name = "_index" then
    return { fields with index := ← Decode.once name fields.index (Decode.string depth value) }
  else if name = "_id" then
    let id ← Decode.once name fields.id (Decode.optional Decode.string depth value)
    return { fields with id }
  else if name = "_version" then
    let version ← Decode.once name fields.version (Decode.optional Decode.nat64 depth value)
    return { fields with version }
  else if name = "result" then
    let result ← Decode.once name fields.result (Decode.optional Decode.string depth value)
    return { fields with result }
  else if name = "_shards" then
    let shards ← Decode.once name fields.shards (Decode.optional Decode.shardStats depth value)
    return { fields with shards }
  else if name = "_seq_no" then
    let seqNo ← Decode.once name fields.seqNo (Decode.optional Decode.nat64 depth value)
    return { fields with seqNo }
  else if name = "_primary_term" then
    let primaryTerm ←
      Decode.once name fields.primaryTerm (Decode.optional Decode.nat64 depth value)
    return { fields with primaryTerm }
  else if name = "status" then
    return { fields with status := ← Decode.once name fields.status (Decode.nat16 depth value) }
  else if name = "error" then
    let error ← Decode.once name fields.error (Decode.optional Decode.storeError depth value)
    return { fields with error }
  else
    value.skip
    return fields

/-- Reads an outcome from the members of an object. -/
def ofMembers (action : ActionKind) (depth : Nat) (members : Members) :
    Except Fault ActionResponse := do
  let fields ← Decode.walk (step depth) members {}
  let status ← Decode.require "status" fields.status
  return fields.finish status action

/-- Reads an outcome from an array, which must reach up to the status. -/
def ofItems (action : ActionKind) (depth : Nat) (items : Items) :
    Except Fault (ActionResponse × Items) := do
  let (index, items) ← Decode.next (Decode.string depth) items
  let (id, items) ← Decode.next (Decode.optional Decode.string depth) items
  let (version, items) ← Decode.next (Decode.optional Decode.nat64 depth) items
  let (result, items) ← Decode.next (Decode.optional Decode.string depth) items
  let (shards, items) ← Decode.next (Decode.optional Decode.shardStats depth) items
  let (seqNo, items) ← Decode.next (Decode.optional Decode.nat64 depth) items
  let (primaryTerm, items) ← Decode.next (Decode.optional Decode.nat64 depth) items
  let (status, items) ←
    Decode.nextRequired (Decode.recordExpectation "ItemBody" 9) 7 (Decode.nat16 depth) items
  let (error, items) ← Decode.next (Decode.optional Decode.storeError depth) items
  let fields : Partial :=
    ⟨index, id, version, result, shards, seqNo, primaryTerm, some status, error⟩
  return (fields.finish status action, items)

/-- Decodes the outcome of an action. -/
def decoder (action : ActionKind) : Decoder ActionResponse :=
  Decode.record "ItemBody" (ofMembers action) (ofItems action)

end ItemBody

namespace BulkItem

/-- Collects the members of an item; repeated names are kept. -/
def collect (_ : Nat) (entries : List (String × Span)) (name : String) (value : Raw) :
    Except Fault (List (String × Span)) :=
  (fun span => entries ++ [(name, span)]) <$> Span.ofRaw value

/-- Decodes the members of an item. -/
def entries : Decoder (List (String × Span)) :=
  Decode.object "a bulk item object" collect []

/-- Decodes one item. -/
def ofSpan (span : Span) : Except ItemFault ActionResponse :=
  match span.decode entries with
  | .error fault => .error (.unreadable fault)
  | .ok [(name, body)] =>
      match ActionKind.ofName? name with
      | none => .error (.unknownAction name)
      | some action =>
          match body.decode (ItemBody.decoder action) with
          | .ok response => .ok response
          | .error fault => .error (.unreadable fault)
  | .ok members => .error (.keyCount members.length)

end BulkItem

/-- A decoded response to a bulk request. -/
structure BulkResponse where
  took : Nat
  errors : Bool
  items : List (Except ItemFault ActionResponse)

namespace BulkResponse

/-- The fields of a response, its items still undecoded. -/
structure Envelope where
  took : Option Nat := none
  errors : Option Bool := none
  items : Option (List Span) := none

/-- Reads one member. -/
def step (depth : Nat) (fields : Envelope) (name : String) (value : Raw) :
    Except Fault Envelope := do
  if name = "took" then
    return { fields with took := ← Decode.once name fields.took (Decode.nat64 depth value) }
  else if name = "errors" then
    return { fields with errors := ← Decode.once name fields.errors (Decode.bool depth value) }
  else if name = "items" then
    return { fields with
      items := ← Decode.once name fields.items (Decode.list Decode.span depth value) }
  else
    value.skip
    return fields

/-- Reads a response from the members of an object. -/
def ofMembers (depth : Nat) (members : Members) : Except Fault Envelope :=
  Decode.walk (step depth) members {}

/-- Reads a response from an array in the order of its fields. -/
def ofItems (depth : Nat) (items : Items) : Except Fault (Envelope × Items) := do
  let (took, items) ← Decode.next (Decode.nat64 depth) items
  let (errors, items) ← Decode.next (Decode.bool depth) items
  let (spans, items) ← Decode.next (Decode.list Decode.span depth) items
  return (⟨took, errors, spans⟩, items)

/-- Decodes the envelope of a response. -/
def envelope : Decoder Envelope :=
  Decode.record "Envelope" ofMembers ofItems

/-- Decodes the items of a response one by one; absent fields are empty. -/
def Envelope.open (fields : Envelope) : BulkResponse :=
  ⟨fields.took.getD 0, fields.errors.getD false, (fields.items.getD []).map BulkItem.ofSpan⟩

/-- Decodes the body of a response. It fails only when the envelope does. -/
def ofBytes (body : ByteArray) : Except Failure BulkResponse :=
  match decodeBody envelope (Symbol.ofBytes body) with
  | .ok fields => .ok fields.open
  | .error fault => .error (.json fault)

/-- The items that decoded. -/
def decoded : List (Except ItemFault ActionResponse) → List ActionResponse
  | [] => []
  | .ok response :: rest => response :: decoded rest
  | .error _ :: rest => decoded rest

/-- The items that did not decode, with their positions from a given one on. -/
def undecoded (position : Nat) :
    List (Except ItemFault ActionResponse) → List (Nat × ItemFault)
  | [] => []
  | .ok _ :: rest => undecoded (position + 1) rest
  | .error fault :: rest => (position, fault) :: undecoded (position + 1) rest

/-- The decoded items that report a failure. -/
def failures (response : BulkResponse) : List ActionResponse :=
  (decoded response.items).filter (!·.isSuccess)

/-- The items that could not be decoded, with their positions in the batch. -/
def decodeErrors (response : BulkResponse) : List (Nat × ItemFault) :=
  undecoded 0 response.items

end BulkResponse

end SearchWire
