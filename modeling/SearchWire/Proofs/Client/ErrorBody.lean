import SearchWire.Proofs.Client.Calls
import SearchWire.Proofs.Json.Compose
import SearchWire.Proofs.Json.ReadBack
import SearchWire.Proofs.Json.Undamaged
import SearchWire.Proofs.Response.SearchBody

/-!
# The error of a refused call

The body of a refused answer is read twice: the client looks for the member
`error` alone and passes over the others, and a caller may read the same body as
a response. `ErrorBody.walk_of_response` says that the client finds the error
that the response holds, since whatever a response accepts has no damage, and
`ErrorBody.errorOf_congr` that no other member of an object plays a part. Only a
name that is no string does: then no error is found
(`ErrorBody.errorOf_of_not_named`).
-/

namespace SearchWire

open Raw

namespace Decode

/-! ## Responses look at everything -/

theorem thorough_storeError : Thorough storeError :=
  fun depth value => Checks.bind (thorough_members depth value) _

theorem thorough_totalHits : Thorough totalHits :=
  fun depth value => Checks.bind (thorough_members depth value) _

theorem thorough_nat16 : Thorough nat16 :=
  (thorough_intWithin _ _ _).map Int.toNat

theorem thorough_nat32 : Thorough nat32 :=
  (thorough_intWithin _ _ _).map Int.toNat

theorem thorough_nat64 : Thorough nat64 :=
  (thorough_intWithin _ _ _).map Int.toNat

theorem thorough_json : Thorough json :=
  thorough_jsonWith carried

theorem thorough_rawResults : Thorough rawResults :=
  thorough_object (fun depth _ _ value => (thorough_span depth value).map _) _ _

theorem thorough_shardStats : Thorough shardStats := by
  have hstep (depth : Nat) (fields : ShardStats.Partial) (name : String) (value : Raw) :
      Checks value (ShardStats.step depth fields name value) := by
    have hcount := thorough_nat32 depth value
    unfold ShardStats.step
    split
    · exact (hcount.once _ _).bind _
    split
    · exact (hcount.once _ _).bind _
    split
    · exact (hcount.once _ _).bind _
    split
    · exact (hcount.once _ _).bind _
    · exact (Checks.skip value).bind _
  refine thorough_record (fun depth members => (checks_walk (hstep depth) members _).bind _) ?_ _
  intro depth items
  refine .next (thorough_nat32 depth) fun _ items => ?_
  refine .next (thorough_nat32 depth) fun _ items => ?_
  refine .next (thorough_nat32 depth) fun _ items => ?_
  refine .next (thorough_nat32 depth) fun _ items => ?_
  exact .done items _

theorem thorough_hit : Thorough hit := by
  have hstep (depth : Nat) (fields : Hit.Partial) (name : String) (value : Raw) :
      Checks value (Hit.step depth fields name value) := by
    unfold Hit.step
    split
    · exact ((thorough_stringAs _ depth value).once _ _).bind _
    split
    · exact (((thorough_stringAs _).optional depth value).once _ _).bind _
    split
    · exact ((thorough_double.optional depth value).once _ _).bind _
    split
    · exact ((thorough_span.optional depth value).once _ _).bind _
    split
    · exact ((thorough_json.list depth value).once _ _).bind _
    · exact (Checks.skip value).bind _
  refine thorough_record (fun depth members => (checks_walk (hstep depth) members _).map _) ?_ _
  intro depth items
  refine .next (thorough_stringAs _ depth) fun _ items => ?_
  refine .next ((thorough_stringAs _).optional depth) fun _ items => ?_
  refine .next (thorough_double.optional depth) fun _ items => ?_
  refine .next (thorough_span.optional depth) fun _ items => ?_
  refine .next (thorough_json.list depth) fun _ items => ?_
  exact .done items _

theorem thorough_hits : Thorough hits := by
  have hstep (depth : Nat) (fields : Hits.Partial) (name : String) (value : Raw) :
      Checks value (Hits.step depth fields name value) := by
    unfold Hits.step
    split
    · exact ((thorough_totalHits.optional depth value).once _ _).bind _
    split
    · exact ((thorough_double.optional depth value).once _ _).bind _
    split
    · exact ((thorough_hit.list depth value).once _ _).bind _
    · exact (Checks.skip value).bind _
  refine thorough_record (fun depth members => (checks_walk (hstep depth) members _).map _) ?_ _
  intro depth items
  refine .next (thorough_totalHits.optional depth) fun _ items => ?_
  refine .next (thorough_double.optional depth) fun _ items => ?_
  refine .next (thorough_hit.list depth) fun _ items => ?_
  exact .done items _

end Decode

/-- A response takes a member only when its value has no damage. -/
theorem SearchResponse.Steps.damage?_eq_none {depth : Nat} {progress next : Progress}
    {name : String} {value : Raw} (h : Steps depth progress name value next) :
    value.damage? = none := by
  cases h with
  | took _ hvalue => exact Decode.thorough_nat64 _ _ _ hvalue
  | timedOut _ hvalue => exact Decode.thorough_bool _ _ _ hvalue
  | shards _ hvalue => exact Decode.thorough_shardStats.optional _ _ _ hvalue
  | hits _ hvalue => exact Decode.thorough_hits.optional _ _ _ hvalue
  | error _ hvalue => exact Decode.thorough_storeError.optional _ _ _ hvalue
  | status _ hvalue => exact Decode.thorough_nat16.optional _ _ _ hvalue
  | aggregations _ hvalue => exact Decode.thorough_rawResults _ _ _ hvalue
  | unknown _ hvalue => exact Decode.thorough_span depth _ _ hvalue

/-! ## The error of a response -/

/-- The names of the members of an object that read, in text order. -/
def Members.names : Members → List String
  | .closed _ | .torn _ _ => []
  | .member _ name _ _ more => name.read.toOption.toList ++ more.names

/-- The names of the members of the object that a body holds; none when it holds no object. -/
def bodyNames (body : ByteArray) : List String :=
  match (Document.ofSymbols (Symbol.ofBytes body)).value with
  | .object members => members.names
  | _ => []

/-- A walk that gathers names gathers those of all members. -/
theorem Members.names_of_walk {members : Members} {found result : List String}
    (h : Decode.walk (gather fun name _ => .ok name) members found = .ok result) :
    result = found ++ members.names := by
  cases members with
  | closed blank =>
      cases h
      rw [names, List.append_nil]
  | torn damage text => cases h
  | member lead name middle value more =>
      obtain ⟨key, hkey, hmore⟩ := Outcome.bind_eq_ok_iff.1 h
      rw [gather, Outcome.ok_map, Outcome.ok_bind] at hmore
      rw [names_of_walk hmore, names, hkey, List.append_assoc]
      rfl

/-- The names in an object text are those of its members. -/
theorem bodyNames_bytes (object : ObjectText) :
    bodyNames object.bytes = object.members.map MemberText.name := by
  obtain ⟨members, hlists, hdecode⟩ := object.exists_decodeBody
  obtain ⟨hvalue, -⟩ := decodeBody_eq_ok_iff.1 (hdecode fun _ value => .ok value)
  have hnames : object.entries.mapM (fun entry => (.ok entry.1 : Except Fault String)) =
      .ok (object.entries.map Prod.fst) := by
    rw [Outcome.mapM_eq_ok_iff, List.forall₂_map_right_iff, List.forall₂_same]
    exact fun _ _ => rfl
  have hwalk : Decode.walk (gather fun name _ => .ok name) members [] =
      .ok (object.entries.map Prod.fst) := by
    rw [hlists.walk_eq, run_gather, hnames, Outcome.ok_map, List.nil_append]
  rw [bodyNames, Except.ok.inj hvalue]
  show members.names = _
  rw [← List.nil_append members.names, ← Members.names_of_walk hwalk, ObjectText.entries,
    List.map_map]
  rfl

namespace ErrorBody

theorem step_error (depth : Nat) (slot : Option (Option StoreError)) (value : Raw) :
    step depth slot "error" value =
      Decode.once "error" slot (Decode.optional Decode.storeError depth value) := by
  rw [step, if_pos rfl]

theorem step_other {name : String} {value : Raw} (hname : name ≠ "error")
    (hvalue : value.damage? = none) (depth : Nat) (slot : Option (Option StoreError)) :
    step depth slot name value = .ok slot := by
  rw [step, if_neg hname, Raw.skip, hvalue]
  rfl

/-- Where a response is read to its end, with at most one member named `error`, so is the error,
and it is the one that the response holds. -/
theorem walk_of_response {depth : Nat} {members : Members}
    {progress final : SearchResponse.Progress} {slot : Option (Option StoreError)}
    (h : Decode.walk (SearchResponse.step depth) members progress = .ok final)
    (hslot : slot.getD none = progress.response.error)
    (honce : slot.toList.length + members.names.count "error" ≤ 1) :
    ∃ found, Decode.walk (step depth) members slot = .ok found ∧
      found.getD none = final.response.error := by
  cases members with
  | closed blank =>
      cases h
      exact ⟨slot, rfl, hslot⟩
  | torn damage text => cases h
  | member lead name middle value more =>
      obtain ⟨key, hkey, hwalk⟩ := Outcome.bind_eq_ok_iff.1 h
      obtain ⟨next, hnext, hmore⟩ := Outcome.bind_eq_ok_iff.1 hwalk
      have hsteps := SearchResponse.steps_of_step hnext
      have herror := hsteps.setsFields.error
      have hnames : (Members.member lead name middle value more).names = key :: more.names := by
        rw [Members.names, hkey]
        rfl
      rw [hnames] at honce
      rw [Decode.walk, hkey, Outcome.ok_bind]
      unfold SetsField at herror
      split at herror
      · next hname =>
          -- the only member of this name, so the error has not been set
          subst hname
          rw [List.count_cons_self] at honce
          have hunset : slot.toList.length = 0 := by omega
          obtain rfl : slot = none := Option.toList_eq_nil_iff.1 (List.length_eq_zero_iff.1 hunset)
          have hset : step depth none "error" value = .ok (some next.response.error) := by
            rw [step_error, herror]
            rfl
          have hlast : (some next.response.error).toList.length + more.names.count "error" ≤ 1 := by
            rw [Option.toList_some, List.length_singleton]
            omega
          rw [hset, Outcome.ok_bind]
          exact walk_of_response hmore rfl hlast
      · next hname =>
          rw [step_other hname hsteps.damage?_eq_none, Outcome.ok_bind]
          rw [List.count_cons_of_ne hname] at honce
          exact walk_of_response hmore (hslot.trans herror.symm) honce

/-- The error that the client finds in a body is the one of the response that the body decodes
to. -/
theorem errorOf_of_response {body : ByteArray} {response : SearchResponse}
    (h : SearchResponse.ofBytes body = .ok response)
    (honce : (bodyNames body).count "error" ≤ 1) : errorOf body = response.error := by
  rw [SearchResponse.ofBytes] at h
  split at h
  · next found hfound =>
      obtain rfl : found = response := Except.ok.inj h
      obtain ⟨hvalue, hblank⟩ := decodeBody_eq_ok_iff.1 hfound
      obtain ⟨progress, hobject, rfl⟩ := Outcome.map_eq_ok_iff.1 hvalue
      obtain ⟨_, members, hmembers, -⟩ := Decode.object_eq_ok hobject
      rw [hmembers] at hobject
      rw [bodyNames, hmembers] at honce
      -- the reader of the error starts unset, like the response
      have hunset : (none : Option (Option StoreError)).getD none =
          ({} : SearchResponse.Progress).response.error := rfl
      have hcount : (none : Option (Option StoreError)).toList.length +
          members.names.count "error" ≤ 1 := by
        rwa [Option.toList_none, List.length_nil, Nat.zero_add]
      obtain ⟨slot, hslot, herror⟩ := walk_of_response hobject hunset hcount
      have hdecoded : decodeBody decoder (Symbol.ofBytes body) = .ok ⟨slot.getD none⟩ := by
        refine decodeBody_eq_ok_iff.2 ⟨?_, hblank⟩
        rw [hmembers]
        exact Outcome.bind_eq_ok_iff.2 ⟨slot, hslot, rfl⟩
      rw [errorOf, hdecoded]
      exact herror
  · cases h

/-! ## Other members -/

/-- In an object the members named `error` alone are read. -/
theorem decodeBody_errors (object : ObjectText) :
    decodeBody decoder (Symbol.ofBytes object.bytes) =
      (fun slot => ⟨slot.getD none⟩) <$>
        run (step (nestingLimit - 1)) (object.entries.filter (·.1 = "error")) none := by
  obtain ⟨members, hlists, hdecode⟩ := object.exists_decodeBody
  have hskip (slot : Option (Option StoreError)) (entry : String × Span)
      (hname : decide (entry.1 = "error") = false) :
      step (nestingLimit - 1) slot entry.1 entry.2.value = .ok slot :=
    step_other (of_decide_eq_false hname) entry.2.intact _ _
  rw [run_filter hskip, ← hlists.walk_eq, hdecode]
  show ofMembers (nestingLimit - 1) members = _
  rw [ofMembers]
  cases Decode.walk (step (nestingLimit - 1)) members none <;> rfl

/-- In an object the client looks at the members named `error` alone. -/
theorem errorOf_congr {first second : ObjectText}
    (h : first.entries.filter (·.1 = "error") = second.entries.filter (·.1 = "error")) :
    errorOf first.bytes = errorOf second.bytes := by
  rw [errorOf, errorOf, decodeBody_errors, decodeBody_errors, h]

/-- In an object with one member of this name the client finds the error that the member is. -/
theorem errorOf_of_single {object : ObjectText} {value : Span} {error : Option StoreError}
    (hsingle : object.entries.filter (·.1 = "error") = [("error", value)])
    (hvalue : Decode.optional Decode.storeError (nestingLimit - 1) value.value = .ok error) :
    errorOf object.bytes = error := by
  rw [errorOf, decodeBody_errors, hsingle, run_cons, step_error, hvalue]
  rfl

/-- In an object with a name that is no string the client finds no error. -/
theorem errorOf_of_not_named {text : PaddedText} {members : Members}
    (hvalue : text.span.value = .object members) (hnames : ¬ members.Named) :
    errorOf text.bytes = none := by
  rw [errorOf, text.decodeBody_bytes, hvalue]
  cases hdecode : decoder nestingLimit (.object members) with
  | error fault => rfl
  | ok found =>
      obtain ⟨slot, hwalk, -⟩ := Outcome.bind_eq_ok_iff.1 hdecode
      exact absurd (Members.named_of_walk hwalk) hnames

end ErrorBody

namespace Client

/-- A call whose request is sent and whose answer is refused reports the status and the error of the
body. -/
theorem perform_of_refused {client : Client} {call : Call} {text : String}
    {answer : TransportResponse} (htext : call.text client.config = .ok text)
    (hreply : client.transport.reply 0 = .answer answer)
    (hstatus : answer.status < 200 ∨ 299 < answer.status) :
    (client.perform call).1 = .error (.status answer.status (ErrorBody.errorOf answer.body)) := by
  obtain ⟨-, hanswered⟩ := perform_of_text htext
  rw [hreply] at hanswered
  generalize (client.perform call).1 = outcome at hanswered
  cases hanswered with
  | refused => rfl
  | decoded hrange | undecodable hrange => omega

/-- The answer to a call that is sent has a status other than success. When its body decodes as a
response and has at most one member named `error` at its top, the call fails with that status and
with the error of the response. When its body is an object with strings for names, the failure
depends on the members named `error` alone: any call on any client fails in the same way with the
same status and a body in which the members of this name have the same values in the same order,
whatever stands beside them. With a body that is any other object, one of whose names is no string,
the call fails with the status and without an error. -/
theorem refused_as_response :
    (∀ (client : Client) (call : Call) (text : String) (answer : TransportResponse)
      (response : SearchResponse), call.text client.config = .ok text →
      client.transport.reply 0 = .answer answer →
      (answer.status < 200 ∨ 299 < answer.status) →
      SearchResponse.ofBytes answer.body = .ok response →
      (bodyNames answer.body).count "error" ≤ 1 →
      (client.perform call).1 = .error (.status answer.status response.error)) ∧
    (∀ (first second : ObjectText),
      first.entries.filter (·.1 = "error") = second.entries.filter (·.1 = "error") →
      ∀ (status : Nat), (status < 200 ∨ 299 < status) →
      ∃ failure, ∀ (client : Client) (call : Call) (text : String) (answer : TransportResponse),
        call.text client.config = .ok text → client.transport.reply 0 = .answer answer →
        answer.status = status → (answer.body = first.bytes ∨ answer.body = second.bytes) →
        (client.perform call).1 = .error failure) ∧
    ∀ (body : PaddedText) (members : Members), body.span.value = .object members →
      (∀ object : ObjectText, body.bytes ≠ object.bytes) →
      ∀ (client : Client) (call : Call) (text : String) (answer : TransportResponse),
        call.text client.config = .ok text → client.transport.reply 0 = .answer answer →
        (answer.status < 200 ∨ 299 < answer.status) → answer.body = body.bytes →
        (client.perform call).1 = .error (.status answer.status none) := by
  refine ⟨?_, ?_, ?_⟩
  · intro client call text answer response htext hreply hstatus hresponse honce
    rw [perform_of_refused htext hreply hstatus, ErrorBody.errorOf_of_response hresponse honce]
  · intro first second hsame status hstatus
    refine ⟨.status status (ErrorBody.errorOf first.bytes), ?_⟩
    rintro client call text answer htext hreply rfl hbody
    rw [perform_of_refused htext hreply hstatus]
    rcases hbody with hbody | hbody
    · rw [hbody]
    · rw [hbody, ErrorBody.errorOf_congr hsame]
  · intro body members hvalue hother client call text answer htext hreply hstatus hbody
    have hnames : ¬ members.Named := by
      rw [PaddedText.named_iff hvalue]
      exact not_exists.2 hother
    rw [perform_of_refused htext hreply hstatus, hbody,
      ErrorBody.errorOf_of_not_named hvalue hnames]

/-- A member with an error that is a bare string. -/
def missingIndex : MemberText :=
  .bare "error" (.ofJson (.string "no such index"))

/-- A response that reports an error. -/
def refusal : ObjectText :=
  .bare [missingIndex, .bare "took" (.ofJson (.nat 7))]

/-- The same error in an object that is no response. -/
def oddRefusal : ObjectText :=
  .bare [.bare "took" (.ofJson (.string "long")), missingIndex]

/-- The object `oddRefusal` with half a surrogate pair for the name of its other member. -/
def strayRefusal : PaddedText :=
  .strayNamed (.string "long") [("error", .string "no such index")]

/-- Its value is an object with a name that does not read. -/
theorem exists_strayRefusal_span :
    ∃ members, strayRefusal.span.value = .object members ∧ ¬ members.Named :=
  ⟨_, PaddedText.strayNamed_span _ _, Members.not_named_strayNamed _ _⟩

/-- A client whose next answer has the status 404 and the given body. -/
def refusedWith (body : ByteArray) : Client where
  transport := { replies := [.answer { status := 404, body := body }] }

theorem text_search_empty : (Call.search {}).text {} = .ok "\x7b\x7d" := by
  decide +kernel

theorem perform_refusedWith (body : ByteArray) :
    ((refusedWith body).perform (.search {})).1 =
      .error (.status 404 (ErrorBody.errorOf body)) := by
  have hstatus : 299 < 404 := by decide
  exact @perform_of_refused (refusedWith body) _ _ _ text_search_empty rfl (.inr hstatus)

theorem storeError_missingIndex (depth : Nat) :
    Decode.optional Decode.storeError depth missingIndex.value.span.value =
      .ok (some (.ofReason "no such index")) := by
  rw [missingIndex, MemberText.bare, PaddedText.ofJson_span, Json.written, Decode.optional,
    Decode.storeError, Decode.members, Json.read_quoted]
  · rfl
  · exact nofun

theorem refused_as_response_missingIndex :
    (∃ response, SearchResponse.ofBytes refusal.bytes = .ok response) ∧
      ((refusedWith refusal.bytes).perform (.search {})).1 =
        .error (.status 404 (some (.ofReason "no such index"))) ∧
      ((refusedWith oddRefusal.bytes).perform (.search {})).1 =
        .error (.status 404 (some (.ofReason "no such index"))) ∧
      ((refusedWith strayRefusal.bytes).perform (.search {})).1 = .error (.status 404 none) := by
  have htook (depth : Nat) :
      Decode.nat64 depth (PaddedText.ofJson (.nat 7)).span.value = .ok 7 := by
    rw [PaddedText.ofJson_span]
    exact Decode.nat64_written (by decide) depth
  have haccepts : ∀ entry ∈ refusal.entries,
      SearchResponse.Accepts SearchResponse.memberDepth entry.1 entry.2.value := by
    refine List.forall_mem_cons.2 ⟨?_, List.forall_mem_singleton.2 ?_⟩
    · have herror := storeError_missingIndex SearchResponse.memberDepth
      simpa [SearchResponse.Accepts, missingIndex, MemberText.entry, MemberText.bare] using
        ⟨_, herror⟩
    · simp [SearchResponse.Accepts, MemberText.entry, MemberText.bare, htook]
  obtain ⟨response, hresponse⟩ := (SearchResponse.ofBytes_isOk_iff refusal).2 haccepts
  have hfound : response.error = some (.ofReason "no such index") :=
    Except.ok.inj ((SearchResponse.reflects_of_ofBytes hresponse).1.error.symm.trans
      (storeError_missingIndex _))
  have honce : (bodyNames refusal.bytes).count "error" ≤ 1 := by
    rw [bodyNames_bytes]
    decide
  have hrefused := refused_as_response.1 (refusedWith refusal.bytes) (.search {}) _ _ response
    text_search_empty rfl (.inr (by decide)) hresponse honce
  obtain ⟨failure, hfailure⟩ :=
    refused_as_response.2.1 refusal oddRefusal rfl 404 (.inr (by decide))
  have hodd := hfailure (refusedWith oddRefusal.bytes) (.search {}) _ _ text_search_empty rfl rfl
    (.inr rfl)
  have hsame := hfailure (refusedWith refusal.bytes) (.search {}) _ _ text_search_empty rfl rfl
    (.inl rfl)
  obtain ⟨members, hvalue, hnames⟩ := exists_strayRefusal_span
  rw [PaddedText.named_iff hvalue, not_exists] at hnames
  have hlost := refused_as_response.2.2 strayRefusal members hvalue hnames
    (refusedWith strayRefusal.bytes) (.search {}) _ _ text_search_empty rfl (.inr (by decide)) rfl
  rw [hfound] at hrefused
  exact ⟨⟨response, hresponse⟩, hrefused, hodd.trans (hsame.symm.trans hrefused), hlost⟩

/-- Two objects that differ only in a name beside `error` may fail a call in different ways: where
the name is no string, the error is not reported. -/
theorem strayRefusal_unreported :
    oddRefusal.text = "\x7b\"took\":\"long\",\"error\":\"no such index\"\x7d".toList ∧
      ((refusedWith oddRefusal.bytes).perform (.search {})).1 =
        .error (.status 404 (some (.ofReason "no such index"))) ∧
      strayRefusal.text = "\x7b\"\\ud800\":\"long\",\"error\":\"no such index\"\x7d".toList ∧
      ((refusedWith strayRefusal.bytes).perform (.search {})).1 = .error (.status 404 none) := by
  refine ⟨by decide, ?_, by decide, ?_⟩
  · have hreported := @ErrorBody.errorOf_of_single oddRefusal _ _ rfl (storeError_missingIndex _)
    rw [perform_refusedWith, hreported]
  · obtain ⟨members, hvalue, hnames⟩ := exists_strayRefusal_span
    rw [perform_refusedWith, ErrorBody.errorOf_of_not_named hvalue hnames]

end Client

end SearchWire
