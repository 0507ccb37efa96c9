import SearchWire.Client.Client
import SearchWire.Proofs.Json.Outcome

/-!
# Runs of calls on one client

`Client.performAll` makes calls one after another. `Client.Ran` says what such a
run does: a call sends one request if the request that the configuration has
filled in can be written, and none otherwise; the requests stand in the order of
the calls, and each takes the next reply. `Call.Sends` spells out what stands on
the wire for a call, and `Call.Answered` how the reply that a call has taken
fixes its outcome. One call is settled by `perform_of_text` and
`perform_of_failure`; `Client.ran_calls` carries this along a run.
-/

namespace SearchWire

/-- A call on a client. -/
inductive Call where
  | search (request : SearchRequest)
  | bulk (request : BulkRequest)

/-- The response that a call gives. -/
inductive Answer where
  | search (response : SearchResponse)
  | bulk (response : BulkResponse)

namespace Call

/-- The text of the request that the configuration has filled in. -/
def text (config : ClientConfig) : Call → Except Failure String
  | .search request => (config.fillSearch request).text
  | .bulk request => (config.fillBulk request).text

/-- The path of the request that the configuration has filled in. -/
def path (config : ClientConfig) : Call → String
  | .search request => (config.fillSearch request).path
  | .bulk request => (config.fillBulk request).path

/-- The type of the text. -/
def contentType : Call → String
  | .search _ => "application/json"
  | .bulk _ => "application/x-ndjson"

/-- What the body of an answer decodes to. -/
def decode : Call → ByteArray → Except Failure Answer
  | .search _, body => .search <$> SearchResponse.ofBytes body
  | .bulk _, body => .bulk <$> BulkResponse.ofBytes body

/-- The request on the wire, when it can be written. -/
def wire (config : ClientConfig) (call : Call) : Option TransportRequest :=
  match call.text config with
  | .ok body => some ⟨.post, config.tracePath (call.path config), body, call.contentType⟩
  | .error _ => none

/-- How a reply fixes the outcome of the call that has taken it. -/
inductive Answered (call : Call) : Reply → Except ClientFailure Answer → Prop where
  | lost (reason : String) : Answered call (.failure reason) (.error (.transport reason))
  | refused {response : TransportResponse} (h : response.status < 200 ∨ 299 < response.status) :
      Answered call (.answer response)
        (.error (.status response.status (ErrorBody.errorOf response.body)))
  | decoded {response : TransportResponse} {answer : Answer}
      (h : 200 ≤ response.status ∧ response.status ≤ 299)
      (hdecode : call.decode response.body = .ok answer) :
      Answered call (.answer response) (.ok answer)
  | undecodable {response : TransportResponse} {fault : Fault}
      (h : 200 ≤ response.status ∧ response.status ≤ 299)
      (hdecode : call.decode response.body = .error (.json fault)) :
      Answered call (.answer response) (.error (.request (.json fault)))

/-- The outcome of a call: the failure of a request that cannot be written, whatever the reply, and
otherwise what the reply fixes. -/
inductive Settled (config : ClientConfig) (call : Call) (reply : Reply) :
    Except ClientFailure Answer → Prop where
  | unsent {failure : Failure} (h : call.text config = .error failure) :
      Settled config call reply (.error (.request failure))
  | sent {body : String} (h : call.text config = .ok body) {outcome : Except ClientFailure Answer}
      (hreply : call.Answered reply outcome) : Settled config call reply outcome

/-- A body decodes or fails as JSON. -/
theorem decode_eq_ok_or (call : Call) (body : ByteArray) :
    (∃ answer, call.decode body = .ok answer) ∨
      ∃ fault, call.decode body = .error (.json fault) := by
  cases call with
  | search request =>
      rw [decode, SearchResponse.ofBytes]
      split
      · exact .inl ⟨_, rfl⟩
      · exact .inr ⟨_, rfl⟩
  | bulk request =>
      rw [decode, BulkResponse.ofBytes]
      split
      · exact .inl ⟨_, rfl⟩
      · exact .inr ⟨_, rfl⟩

end Call

/-- The reply to the request of a position, counted from the next one on. -/
def Transport.reply (transport : Transport) (position : Nat) : Reply :=
  transport.replies.getD position (.failure exhausted)

theorem Transport.send_eq (transport : Transport) (request : TransportRequest) :
    transport.send request =
      (transport.reply 0, ⟨transport.replies.drop 1, transport.sent ++ [request]⟩) := by
  obtain ⟨replies, sent⟩ := transport
  cases replies with
  | nil => rfl
  | cons reply rest => rfl

/-- Behind the first reply the positions count from the second. -/
theorem Transport.reply_rest (transport : Transport) (sent : List TransportRequest)
    (position : Nat) :
    (⟨transport.replies.drop 1, sent⟩ : Transport).reply position =
      transport.reply (position + 1) := by
  rw [reply, reply, List.getD_eq_getElem?_getD, List.getD_eq_getElem?_getD, List.getElem?_drop,
    Nat.add_comm]

namespace Client

/-- Makes a call. -/
def perform (client : Client) : Call → Except ClientFailure Answer × Client
  | .search request => Prod.map (Answer.search <$> ·) id (client.search request)
  | .bulk request => Prod.map (Answer.bulk <$> ·) id (client.bulk request)

/-- Makes calls one after another. -/
def performAll (client : Client) : List Call → List (Except ClientFailure Answer) × Client
  | [] => ([], client)
  | call :: rest =>
      let (outcome, next) := client.perform call
      let (outcomes, final) := next.performAll rest
      (outcome :: outcomes, final)

/-- What a run of calls does. -/
structure Ran (client : Client) (calls : List Call)
    (outcomes : List (Except ClientFailure Answer)) (final : Client) : Prop where
  config : final.config = client.config
  sent : final.transport.sent =
    client.transport.sent ++ calls.filterMap (Call.wire client.config)
  replies : final.transport.replies =
    client.transport.replies.drop (calls.filterMap (Call.wire client.config)).length
  length : outcomes.length = calls.length
  settled : ∀ position (call : Call) outcome, calls[position]? = some call →
    outcomes[position]? = some outcome →
    call.Settled client.config (client.transport.reply
      ((calls.take position).filterMap (Call.wire client.config)).length) outcome

end Client

/-! ## What is sent -/

namespace ClientConfig

/-- A search is filled in: without an index it takes the configured one, without a count of hits the
configured one, and nothing else changes. -/
structure FillsSearch (config : ClientConfig) (request filled : SearchRequest) : Prop where
  indices_open : request.indices = [] → filled.indices = config.defaultIndex.toList
  indices_set : request.indices ≠ [] → filled.indices = request.indices
  hits_open : request.trackTotalHits = none → filled.trackTotalHits = config.trackTotalHits
  hits_set : ∀ track, request.trackTotalHits = some track → filled.trackTotalHits = some track
  others : filled =
    { request with indices := filled.indices, trackTotalHits := filled.trackTotalHits }

/-- A batch is filled in: without a default index it takes the configured one, without a refresh
policy the configured one, and nothing else changes. -/
structure FillsBulk (config : ClientConfig) (request filled : BulkRequest) : Prop where
  index_open : request.defaultIndex = none → filled.defaultIndex = config.defaultIndex
  index_set : ∀ index, request.defaultIndex = some index → filled.defaultIndex = some index
  refresh_open : request.refresh = none → filled.refresh = config.refresh
  refresh_set : ∀ refresh, request.refresh = some refresh → filled.refresh = some refresh
  actions : filled.actions = request.actions

/-- A path asks for stack traces when the configuration does, as its first parameter or as one
more. -/
inductive Traces (config : ClientConfig) (path : String) : String → Prop where
  | unasked (h : config.errorTrace = false) : Traces config path path
  | first (h : config.errorTrace = true) (hmark : '?' ∉ path.toList) :
      Traces config path (path ++ "?error_trace=true")
  | further (h : config.errorTrace = true) (hmark : '?' ∈ path.toList) :
      Traces config path (path ++ "&error_trace=true")

theorem fills_search (config : ClientConfig) (request : SearchRequest) :
    config.FillsSearch request (config.fillSearch request) where
  indices_open hnone := by simp [fillSearch, hnone]
  indices_set hset := by simp [fillSearch, hset]
  hits_open hnone := by simp [fillSearch, hnone]
  hits_set track hset := by simp [fillSearch, hset]
  others := rfl

theorem fills_bulk (config : ClientConfig) (request : BulkRequest) :
    config.FillsBulk request (config.fillBulk request) where
  index_open hnone := by simp [fillBulk, hnone]
  index_set index hset := by simp [fillBulk, hset]
  refresh_open hnone := by simp [fillBulk, hnone]
  refresh_set refresh hset := by simp [fillBulk, hset]
  actions := rfl

variable {config : ClientConfig}

/-- A search is filled in in one way. -/
theorem FillsSearch.eq {request filled : SearchRequest} (h : config.FillsSearch request filled) :
    filled = config.fillSearch request := by
  have hfills := config.fills_search request
  have hindices : filled.indices = (config.fillSearch request).indices := by
    by_cases hopen : request.indices = []
    · rw [h.indices_open hopen, hfills.indices_open hopen]
    · rw [h.indices_set hopen, hfills.indices_set hopen]
  have hhits : filled.trackTotalHits = (config.fillSearch request).trackTotalHits := by
    cases hset : request.trackTotalHits with
    | none => rw [h.hits_open hset, hfills.hits_open hset]
    | some track => rw [h.hits_set track hset, hfills.hits_set track hset]
  rw [h.others, hindices, hhits]
  rfl

/-- A batch is filled in in one way. -/
theorem FillsBulk.eq {request filled : BulkRequest} (h : config.FillsBulk request filled) :
    filled = config.fillBulk request := by
  have hfills := config.fills_bulk request
  have hindex : filled.defaultIndex = (config.fillBulk request).defaultIndex := by
    cases hset : request.defaultIndex with
    | none => rw [h.index_open hset, hfills.index_open hset]
    | some index => rw [h.index_set index hset, hfills.index_set index hset]
  have hrefresh : filled.refresh = (config.fillBulk request).refresh := by
    cases hset : request.refresh with
    | none => rw [h.refresh_open hset, hfills.refresh_open hset]
    | some refresh => rw [h.refresh_set refresh hset, hfills.refresh_set refresh hset]
  obtain ⟨actions, defaultIndex, refresh⟩ := filled
  rw [BulkRequest.mk.injEq]
  exact ⟨h.actions.trans hfills.actions.symm, hindex, hrefresh⟩

/-- A path asks for stack traces in one way. -/
theorem traces_iff {path traced : String} :
    config.Traces path traced ↔ traced = config.tracePath path := by
  rw [tracePath]
  constructor
  · intro h
    cases h with
    | unasked h => simp [h]
    | first h hmark => simp [h, hmark, String.append_assoc]
    | further h hmark => simp [h, hmark, String.append_assoc]
  · rintro rfl
    cases h : config.errorTrace with
    | false => exact .unasked h
    | true =>
        by_cases hmark : '?' ∈ path.toList
        · simpa [hmark, String.append_assoc] using Traces.further h hmark
        · simpa [hmark, String.append_assoc] using Traces.first h hmark

end ClientConfig

/-- What a call sends: the text of its request once the configuration has filled it in, to the path
of this request. -/
inductive Call.Sends (config : ClientConfig) : Call → TransportRequest → Prop where
  | search {request filled : SearchRequest} {body path : String}
      (hfilled : config.FillsSearch request filled) (hbody : filled.text = .ok body)
      (hpath : config.Traces filled.path path) :
      Call.Sends config (.search request) ⟨.post, path, body, "application/json"⟩
  | bulk {request filled : BulkRequest} {body path : String}
      (hfilled : config.FillsBulk request filled) (hbody : filled.text = .ok body)
      (hpath : config.Traces filled.path path) :
      Call.Sends config (.bulk request) ⟨.post, path, body, "application/x-ndjson"⟩

/-- A call that can be written has on the wire what it sends. -/
theorem Call.wire_eq_some_iff {config : ClientConfig} {call : Call} {sent : TransportRequest} :
    call.wire config = some sent ↔ call.Sends config sent := by
  constructor
  · intro h
    rw [wire] at h
    split at h
    · next body hbody =>
        cases h
        cases call with
        | search request =>
            exact .search (config.fills_search request) hbody (ClientConfig.traces_iff.2 rfl)
        | bulk request =>
            exact .bulk (config.fills_bulk request) hbody (ClientConfig.traces_iff.2 rfl)
    · cases h
  · intro h
    cases h with
    | search hfilled hbody hpath =>
        rw [hfilled.eq] at hbody hpath
        rw [wire, text, hbody, ClientConfig.traces_iff.1 hpath]
        rfl
    | bulk hfilled hbody hpath =>
        rw [hfilled.eq] at hbody hpath
        rw [wire, text, hbody, ClientConfig.traces_iff.1 hpath]
        rfl

namespace Client

/-! ## One call -/

/-- What is made of a reply is the outcome that it fixes. -/
theorem answered_of_reply {α : Type} (call : Call) (reply : Reply) {wrap : α → Answer}
    {decode : ByteArray → Except Failure α}
    (hdecode : ∀ body, call.decode body = wrap <$> decode body) :
    call.Answered reply (wrap <$> (do
      let body ← bodyOf reply
      match decode body with
      | .ok value => return value
      | .error failure => .error (.request failure))) := by
  cases reply with
  | failure reason => exact .lost reason
  | answer response =>
      by_cases hstatus : response.isSuccess = true
      · have hrange : 200 ≤ response.status ∧ response.status ≤ 299 := by
          simp only [TransportResponse.isSuccess, Bool.and_eq_true, decide_eq_true_eq] at hstatus
          omega
        rw [bodyOf, if_pos hstatus, Outcome.ok_bind]
        have hbody := hdecode response.body
        rcases call.decode_eq_ok_or response.body with ⟨answer, hanswer⟩ | ⟨fault, hfault⟩
        · rw [hanswer] at hbody
          obtain ⟨value, hvalue, rfl⟩ := Outcome.map_eq_ok_iff.1 hbody.symm
          rw [hvalue]
          exact .decoded hrange hanswer
        · rw [hfault] at hbody
          cases hvalue : decode response.body with
          | ok value =>
              rw [hvalue] at hbody
              cases hbody
          | error failure =>
              rw [hvalue] at hbody
              cases hbody
              exact .undecodable hrange hfault
      · have hrange : response.status < 200 ∨ 299 < response.status := by
          simp only [TransportResponse.isSuccess, Bool.and_eq_true, decide_eq_true_eq] at hstatus
          omega
        rw [bodyOf, if_neg hstatus, Outcome.error_bind]
        exact .refused hrange

/-- A call whose request cannot be written fails, and the client stays as it is. -/
theorem perform_of_failure {client : Client} {call : Call} {failure : Failure}
    (h : call.text client.config = .error failure) :
    client.perform call = (.error (.request failure), client) := by
  cases call with
  | search request =>
      rw [Call.text] at h
      simp [perform, search, Client.call, h]
  | bulk request =>
      rw [Call.text] at h
      simp [perform, bulk, Client.call, h]

/-- A call whose request can be written sends it and takes the next reply. -/
theorem perform_of_text {client : Client} {call : Call} {body : String}
    (h : call.text client.config = .ok body) :
    (client.perform call).2 =
        ⟨client.config, client.transport.replies.drop 1, client.transport.sent ++
          [⟨.post, client.config.tracePath (call.path client.config), body, call.contentType⟩]⟩ ∧
      call.Answered (client.transport.reply 0) (client.perform call).1 := by
  cases call with
  | search request =>
      rw [Call.text] at h
      simp only [perform, search, Client.call, h, Transport.send_eq]
      exact ⟨rfl, answered_of_reply (.search request) _ fun _ => rfl⟩
  | bulk request =>
      rw [Call.text] at h
      simp only [perform, bulk, Client.call, h, Transport.send_eq]
      exact ⟨rfl, answered_of_reply (.bulk request) _ fun _ => rfl⟩

/-! ## A run of calls -/

theorem performAll_cons (client : Client) (call : Call) (rest : List Call) :
    client.performAll (call :: rest) =
      ((client.perform call).1 :: ((client.perform call).2.performAll rest).1,
        ((client.perform call).2.performAll rest).2) := rfl

/-- A call that is not sent leaves the rest of the run as it is. -/
theorem Ran.cons_unsent {client final : Client} {call : Call} {calls : List Call}
    {outcomes : List (Except ClientFailure Answer)} {failure : Failure}
    (h : client.Ran calls outcomes final) (htext : call.text client.config = .error failure) :
    client.Ran (call :: calls) (.error (.request failure) :: outcomes) final := by
  have hwire : call.wire client.config = none := by rw [Call.wire, htext]
  refine ⟨h.config, ?_, ?_, congrArg (· + 1) h.length, ?_⟩
  · rw [List.filterMap_cons_none hwire]
    exact h.sent
  · rw [List.filterMap_cons_none hwire]
    exact h.replies
  · intro position other outcome hcall houtcome
    cases position with
    | zero =>
        cases hcall
        cases houtcome
        exact .unsent htext
    | succ position =>
        rw [List.take_succ_cons, List.filterMap_cons_none hwire]
        exact h.settled position other outcome hcall houtcome

/-- A call that is sent takes the first reply and leaves the others to the rest of the run. -/
theorem Ran.cons_sent {client next final : Client} {call : Call} {calls : List Call} {body : String}
    {outcome : Except ClientFailure Answer} {outcomes : List (Except ClientFailure Answer)}
    (h : next.Ran calls outcomes final) (htext : call.text client.config = .ok body)
    (hnext : next =
        ⟨client.config, client.transport.replies.drop 1, client.transport.sent ++
          [⟨.post, client.config.tracePath (call.path client.config), body, call.contentType⟩]⟩)
    (hreply : call.Answered (client.transport.reply 0) outcome) :
    client.Ran (call :: calls) (outcome :: outcomes) final := by
  subst hnext
  have hwire : call.wire client.config =
      some ⟨.post, client.config.tracePath (call.path client.config), body, call.contentType⟩ := by
    rw [Call.wire, htext]
  refine ⟨h.config, ?_, ?_, congrArg (· + 1) h.length, ?_⟩
  · rw [List.filterMap_cons_some hwire, h.sent, List.append_assoc]
    rfl
  · rw [List.filterMap_cons_some hwire, h.replies, List.drop_drop, List.length_cons, Nat.add_comm]
  · intro position other result hcall hresult
    cases position with
    | zero =>
        cases hcall
        cases hresult
        exact .sent htext hreply
    | succ position =>
        have hrest := h.settled position other result hcall hresult
        rw [List.take_succ_cons, List.filterMap_cons_some hwire, List.length_cons]
        -- the replies that are left start with the one behind the first
        rw [Transport.reply_rest] at hrest
        exact hrest

/-- A run sends what its calls have to send and settles each of them by its own reply. -/
theorem ran_calls (client : Client) (calls : List Call) :
    client.Ran calls (client.performAll calls).1 (client.performAll calls).2 := by
  induction calls generalizing client with
  | nil => exact ⟨rfl, (List.append_nil _).symm, rfl, rfl, fun _ _ _ hcall => nomatch hcall⟩
  | cons call rest ih =>
      rw [performAll_cons]
      cases htext : call.text client.config with
      | error failure =>
          rw [perform_of_failure htext]
          exact (ih client).cons_unsent htext
      | ok body =>
          obtain ⟨hnext, hreply⟩ := perform_of_text htext
          exact (ih _).cons_sent htext hnext hreply

/-- Every run of calls on a client, whatever its configuration and its replies: each call whose
request can be written sends it, in the order of the calls, and takes the next reply, which fixes
its outcome; any other call fails with what is wrong with its request, sends nothing and leaves the
replies to the others. What a call sends is the text of its request with the gaps filled, to the
path of this request with the parameter for stack traces when it is wanted. -/
theorem ran_performAll (client : Client) (calls : List Call) :
    client.Ran calls (client.performAll calls).1 (client.performAll calls).2 ∧
      ∀ call ∈ calls, ∀ sent,
        call.wire client.config = some sent ↔ call.Sends client.config sent :=
  ⟨ran_calls client calls, fun _ _ _ => Call.wire_eq_some_iff⟩

end Client

end SearchWire
