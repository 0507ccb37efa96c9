import SearchWire.Client.Config
import SearchWire.Client.Transport
import SearchWire.Search.Request
import SearchWire.Bulk.Request
import SearchWire.Bulk.Response
import SearchWire.Response.Search

/-!
# The client

A client fills in a request from its configuration, writes it, sends it and
decodes the answer. A request that cannot be written is never sent. An answer
with a status other than success is reported with its status and with the error
of its body when that can be read, whatever else the body holds.
-/

namespace SearchWire

/-- Why a call fails. -/
inductive ClientFailure where
  | request (failure : Failure)
  | transport (reason : String)
  | status (status : Nat) (error : Option StoreError)

namespace ClientFailure

/-- The wording of a failed call. -/
def message : ClientFailure → String
  | .request failure => failure.message
  | .transport reason => "transport failed: " ++ reason
  | .status code none => statusText code
  | .status code (some error) => statusText code ++ ": " ++ error.message
where
  /-- The wording of a status. -/
  statusText (code : Nat) : String :=
    "store returned status " ++ String.ofList (Decimal.digitsOf code)

end ClientFailure

/-- The body of an answer that reports an error. -/
structure ErrorBody where
  error : Option StoreError

namespace ErrorBody

/-- Reads one member. -/
def step (depth : Nat) (error : Option (Option StoreError)) (name : String) (value : Raw) :
    Except Fault (Option (Option StoreError)) := do
  if name = "error" then
    Decode.once name error (Decode.optional Decode.storeError depth value)
  else
    value.skip
    return error

/-- Reads the body from the members of an object. -/
def ofMembers (depth : Nat) (members : Members) : Except Fault ErrorBody := do
  let error ← Decode.walk (step depth) members none
  return ⟨error.getD none⟩

/-- Reads the body from an array. -/
def ofItems (depth : Nat) (items : Items) : Except Fault (ErrorBody × Items) := do
  let (error, items) ← Decode.next (Decode.optional Decode.storeError depth) items
  return (⟨error.getD none⟩, items)

/-- Decodes the body of an error. -/
def decoder : Decoder ErrorBody :=
  Decode.record "ErrorBody" ofMembers ofItems

/-- The error in a body, if one can be read. -/
def errorOf (body : ByteArray) : Option StoreError :=
  match decodeBody decoder (Symbol.ofBytes body) with
  | .ok found => found.error
  | .error _ => none

end ErrorBody

namespace ClientConfig

/-- Fills in a search. -/
def fillSearch (config : ClientConfig) (request : SearchRequest) : SearchRequest :=
  { request with
    indices := if request.indices.isEmpty then config.defaultIndex.toList else request.indices
    trackTotalHits := request.trackTotalHits <|> config.trackTotalHits }

/-- Fills in a bulk request. -/
def fillBulk (config : ClientConfig) (request : BulkRequest) : BulkRequest :=
  { request with
    defaultIndex := request.defaultIndex <|> config.defaultIndex
    refresh := request.refresh <|> config.refresh }

/-- Adds the parameter that asks for stack traces to a path, when it is wanted. -/
def tracePath (config : ClientConfig) (path : String) : String :=
  if config.errorTrace then
    path ++ (if path.toList.contains '?' then "&" else "?") ++ "error_trace=true"
  else path

end ClientConfig

/-- A client: its configuration and its transport. -/
structure Client where
  config : ClientConfig := {}
  transport : Transport := {}

namespace Client

/-- The body of a reply that reports success. -/
def bodyOf : Reply → Except ClientFailure ByteArray
  | .failure reason => .error (.transport reason)
  | .answer response =>
      if response.isSuccess then .ok response.body
      else .error (.status response.status (ErrorBody.errorOf response.body))

/-- Sends a written request and decodes the answer; a request that could not be written fails
without being sent. -/
def call {α : Type} (client : Client) (path contentType : String) (text : Except Failure String)
    (decode : ByteArray → Except Failure α) : Except ClientFailure α × Client :=
  match text with
  | .error failure => (.error (.request failure), client)
  | .ok body =>
      let (reply, transport) :=
        client.transport.send ⟨.post, client.config.tracePath path, body, contentType⟩
      (do
        let answer ← bodyOf reply
        match decode answer with
        | .ok value => return value
        | .error failure => .error (.request failure),
        { client with transport })

/-- Runs a search. -/
def search (client : Client) (request : SearchRequest) :
    Except ClientFailure SearchResponse × Client :=
  let filled := client.config.fillSearch request
  client.call filled.path "application/json" filled.text SearchResponse.ofBytes

/-- Runs a bulk request; the failures of single items are part of the response. -/
def bulk (client : Client) (request : BulkRequest) :
    Except ClientFailure BulkResponse × Client :=
  let filled := client.config.fillBulk request
  client.call filled.path "application/x-ndjson" filled.text BulkResponse.ofBytes

end Client

end SearchWire
