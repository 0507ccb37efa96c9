/-!
# The boundary to the network

A transport carries one request and gives back an answer or a failure. Here it
is a queue of prepared replies together with the requests that have been sent;
a transport whose queue is empty fails.
-/

namespace SearchWire

/-- The methods of requests. -/
inductive Method where
  | get
  | post
  | put
  | delete
  | head
deriving DecidableEq

/-- The method on the wire. -/
def Method.text : Method → String
  | .get => "GET"
  | .post => "POST"
  | .put => "PUT"
  | .delete => "DELETE"
  | .head => "HEAD"

/-- A request as it is sent; the path includes its parameters. -/
structure TransportRequest where
  method : Method
  path : String
  body : String
  contentType : String
deriving DecidableEq

-- Bytes have a second decision of equality in other libraries; this one is core's.
attribute [local instance (high)] ByteArray.instDecidableEq

/-- An answer of the store. -/
structure TransportResponse where
  status : Nat
  headers : List (String × String) := []
  body : ByteArray := .empty
deriving DecidableEq

namespace TransportResponse

/-- Whether the status reports success. -/
def isSuccess (response : TransportResponse) : Bool :=
  200 ≤ response.status && response.status < 300

/-- Whether two header names differ at most in the case of ASCII letters. -/
def sameName (first second : String) : Bool :=
  first.toList.map Char.toLower == second.toList.map Char.toLower

/-- The value of the first header of a name. -/
def header? (response : TransportResponse) (name : String) : Option String :=
  (response.headers.find? fun header => sameName header.1 name).map (·.2)

end TransportResponse

/-- What a transport does with one request. -/
inductive Reply where
  | answer (response : TransportResponse)
  | failure (reason : String)
deriving DecidableEq

/-- A transport with prepared replies and a record of what it has sent, the last request last. -/
structure Transport where
  replies : List Reply := []
  sent : List TransportRequest := []
deriving DecidableEq

namespace Transport

/-- The reason of a transport that has no reply left. -/
def exhausted : String :=
  "no response queued"

/-- Sends a request and takes the next reply. -/
def send (transport : Transport) (request : TransportRequest) : Reply × Transport :=
  match transport.replies with
  | [] => (.failure exhausted, { transport with sent := transport.sent ++ [request] })
  | reply :: rest => (reply, ⟨rest, transport.sent ++ [request]⟩)

end Transport

end SearchWire
