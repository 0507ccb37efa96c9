import SearchWire.Proofs.Client.Calls

/-!
# The effect of a call

The effect of a call is its outcome together with what it does to the transport.
`Client.effect_search_congr` and `Client.effect_bulk_congr` say what it depends
on: the text and the path of the request that the configuration has filled in,
and whether stack traces are asked for. Calls with the same effect put the same
request on the wire (`Client.wire_eq_of_effect_eq`) and, when they are refused,
are refused alike (`Client.text_eq_of_effect_eq`).
-/

namespace SearchWire

namespace Client

/-- What a call does: its outcome, the replies that it leaves and the requests that are sent. -/
def effect (client : Client) (call : Call) : Except ClientFailure Answer × Transport :=
  (client.perform call).map id Client.transport

variable {client other : Client}

/-- A call depends on the configuration through the request that it fills in and through the
parameter that asks for stack traces. -/
theorem call_congr {α : Type} (htransport : client.transport = other.transport)
    (htrace : client.config.errorTrace = other.config.errorTrace) (path contentType : String)
    (text : Except Failure String) (decode : ByteArray → Except Failure α) :
    (client.call path contentType text decode).map id Client.transport =
      (other.call path contentType text decode).map id Client.transport := by
  have hpath : client.config.tracePath path = other.config.tracePath path := by
    rw [ClientConfig.tracePath, ClientConfig.tracePath, htrace]
  cases text with
  | error failure => simp [Client.call, htransport]
  | ok body => simp [Client.call, htransport, hpath]

theorem effect_search_congr {request : SearchRequest}
    (htransport : client.transport = other.transport)
    (htrace : client.config.errorTrace = other.config.errorTrace)
    (hfill : client.config.fillSearch request = other.config.fillSearch request) :
    client.effect (.search request) = other.effect (.search request) := by
  have hcall := call_congr htransport htrace (other.config.fillSearch request).path
    "application/json" (other.config.fillSearch request).text SearchResponse.ofBytes
  rw [Prod.ext_iff] at hcall ⊢
  simp only [effect, perform, search, hfill, Prod.map_fst, Prod.map_snd, id_eq] at hcall ⊢
  exact ⟨congrArg (Answer.search <$> ·) hcall.1, hcall.2⟩

theorem effect_bulk_congr {request changed : BulkRequest}
    (htransport : client.transport = other.transport)
    (htrace : client.config.errorTrace = other.config.errorTrace)
    (htext : (client.config.fillBulk request).text = (other.config.fillBulk changed).text)
    (hpath : (client.config.fillBulk request).path = (other.config.fillBulk changed).path) :
    client.effect (.bulk request) = other.effect (.bulk changed) := by
  have hcall := call_congr htransport htrace (other.config.fillBulk changed).path
    "application/x-ndjson" (other.config.fillBulk changed).text BulkResponse.ofBytes
  rw [Prod.ext_iff] at hcall ⊢
  simp only [effect, perform, bulk, htext, hpath, Prod.map_fst, Prod.map_snd, id_eq] at hcall ⊢
  exact ⟨congrArg (Answer.bulk <$> ·) hcall.1, hcall.2⟩

/-- A call sends what it puts on the wire, behind all that has been sent before. -/
theorem sent_effect (client : Client) (call : Call) :
    (client.effect call).2.sent =
      client.transport.sent ++ (call.wire client.config).toList := by
  show (client.perform call).2.transport.sent = _
  cases htext : call.text client.config with
  | error failure =>
      rw [perform_of_failure htext, Call.wire, htext]
      exact (List.append_nil _).symm
  | ok body =>
      rw [(perform_of_text htext).1, Call.wire, htext]
      rfl

/-- A call fails with its request and sends nothing exactly when its request cannot be written. -/
theorem effect_eq_failure_iff {call : Call} {failure : Failure} :
    client.effect call = (.error (.request failure), client.transport) ↔
      call.text client.config = .error failure := by
  constructor
  · intro heffect
    cases htext : call.text client.config with
    | ok body =>
        have hsent := client.sent_effect call
        rw [heffect, Call.wire, htext] at hsent
        exact absurd hsent (by simp)
    | error other =>
        rw [effect, perform_of_failure htext] at heffect
        obtain ⟨hfailure, -⟩ := Prod.mk.inj heffect
        rw [ClientFailure.request.inj (Except.error.inj hfailure)]
  · intro htext
    rw [effect, perform_of_failure htext]
    rfl

variable {call changed : Call}

/-- Calls with the same effect put the same request on the wire. -/
theorem wire_eq_of_effect_eq (htransport : client.transport = other.transport)
    (h : client.effect call = other.effect changed) :
    call.wire client.config = changed.wire other.config := by
  have hsent := client.sent_effect call
  rw [h, other.sent_effect changed, htransport] at hsent
  have hheads := congrArg List.head? (List.append_cancel_left hsent)
  rw [Option.head?_toList, Option.head?_toList] at hheads
  exact hheads.symm

/-- Calls with the same effect have the same text, written or refused. -/
theorem text_eq_of_effect_eq (htransport : client.transport = other.transport)
    (h : client.effect call = other.effect changed) :
    call.text client.config = changed.text other.config := by
  cases htext : call.text client.config with
  | error failure =>
      rw [effect_eq_failure_iff.2 htext, htransport] at h
      exact (effect_eq_failure_iff.1 h.symm).symm
  | ok body =>
      have hwire := wire_eq_of_effect_eq htransport h
      rw [Call.wire, htext, Call.wire] at hwire
      cases hchanged : changed.text other.config with
      | error failure =>
          rw [hchanged] at hwire
          cases hwire
      | ok otherBody =>
          rw [hchanged] at hwire
          rw [(TransportRequest.mk.inj (Option.some.inj hwire)).2.2.1]

end Client

end SearchWire
