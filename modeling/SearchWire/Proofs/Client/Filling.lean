import SearchWire.Proofs.Bulk.DefaultIndex
import SearchWire.Proofs.Client.Effect

/-!
# What a configuration adds to a batch

A client fills in the default index and the refresh policy that a batch leaves
open. A default index only takes findings away, namely those about a missing
index (`BulkRequest.validate_default`), and the lines of a batch do not depend on
it (`BulkRequest.text_fillBulk`). So a batch that can be written by itself is
written alike whatever the configuration, and `Client.bulk_fillBulk` says that
nothing but the path of the call is left for the configuration to decide.
-/

namespace SearchWire

/-- Whether a finding says that an index is required. -/
def Finding.asksForIndex (finding : Finding) : Bool :=
  ": index is required when no default index is set".toList.isSuffixOf finding.message.toList

namespace BulkProblem

/-- The findings about a missing index are those that ask for one. -/
theorem asksForIndex_finding (problem : BulkProblem) :
    problem.finding.asksForIndex = problem.isNoIndex := by
  cases problem with
  | noIndex position kind =>
      show List.isSuffixOf _ (_ ++ _ : String).toList = true
      rw [List.isSuffixOf_iff_suffix, String.toList_append]
      exact List.suffix_append _ _
  | noActions => decide
  | noId position kind =>
      -- the two wordings differ in their last letter
      refine Bool.eq_false_iff.2 fun hasks => ?_
      obtain ⟨front, hfront⟩ := List.isSuffixOf_iff_suffix.1 hasks
      have hlast := (noId position kind).getLast?_message
      rw [show (noId position kind).message = (noId position kind).finding.message from rfl,
        ← hfront, List.getLast?_append] at hlast
      exact absurd (Option.some.inj hlast) (by decide : 't' ≠ 'd')

end BulkProblem

/-- With a default index an action breaks the rules that it breaks without one, but for a missing
index. -/
theorem BulkAction.problems_default (position : Nat) (action : BulkAction) :
    action.problems true position =
      (action.problems false position).filter (!·.isNoIndex) := by
  rw [problems, problems, List.filter_append]
  congr 1
  · cases action.ownIndex.isEmpty <;> rfl
  · cases action.kind.needsId && action.id.isEmpty <;> rfl

namespace BulkRequest

theorem actionProblems_default (position : Nat) (actions : List BulkAction) :
    actionProblems true position actions =
      (actionProblems false position actions).filter (!·.isNoIndex) := by
  induction actions generalizing position with
  | nil => rfl
  | cons action rest ih =>
      rw [actionProblems, actionProblems, List.filter_append, BulkAction.problems_default, ih]

variable {request filled : BulkRequest}

/-- A default index takes away the findings about a missing index, and no others. -/
theorem validate_default (hactions : filled.actions = request.actions)
    (hnone : request.effectiveDefault = none) (hdefault : filled.effectiveDefault ≠ none) :
    filled.validate.findings =
      request.validate.findings.filter fun finding => !finding.asksForIndex := by
  have hproblems : filled.problems = request.problems.filter (!·.isNoIndex) := by
    rw [problems, problems, List.filter_append, hactions, hnone,
      Option.isSome_iff_ne_none.2 hdefault, actionProblems_default]
    congr 1
    split <;> rfl
  have hfindings : filled.problems.map BulkProblem.finding =
      (request.problems.map BulkProblem.finding).filter fun finding => !finding.asksForIndex := by
    rw [hproblems, List.filter_map]
    congr 2
    funext problem
    exact congrArg (!·) problem.asksForIndex_finding.symm
  rw [validate, validate, Report.filter_findings_ofList, hfindings]

/-- A batch that can be written does not need a default index, and is written alike with one. -/
theorem text_eq_of_text_eq_ok {body : String} (hactions : filled.actions = request.actions)
    (hkept : request.defaultIndex ≠ none → filled.defaultIndex = request.defaultIndex)
    (h : request.text = .ok body) : filled.text = .ok body := by
  by_cases hsame : filled.effectiveDefault = request.effectiveDefault
  · rw [text_congr hactions hsame, h]
  · -- the defaults differ, so the batch has none of its own
    have hnone : request.defaultIndex = none :=
      Decidable.by_contra fun hset => hsame (by rw [effectiveDefault, hkept hset, effectiveDefault])
    have heffective : request.effectiveDefault = none := by rw [effectiveDefault, hnone]; rfl
    have hdefault : filled.effectiveDefault ≠ none := heffective ▸ hsame
    have hnamed : ∀ action ∈ request.actions, action.ownIndex ≠ "" := by
      intro action haction hown
      obtain ⟨hrefused, -⟩ := text_of_noIndex heffective ⟨action, haction, hown⟩
      rw [h] at hrefused
      cases hrefused
    rw [← (text_eq_iff hactions.symm heffective hdefault).2 hnamed, h]

end BulkRequest

/-- A batch that can be written by itself is written alike whatever the configuration. -/
theorem BulkRequest.text_fillBulk {request : BulkRequest} {body : String}
    (h : request.text = .ok body) (config : ClientConfig) :
    (config.fillBulk request).text = .ok body := by
  refine @text_eq_of_text_eq_ok request _ _ rfl (fun hset => ?_) h
  obtain ⟨index, hindex⟩ := Option.ne_none_iff_exists'.1 hset
  rw [ClientConfig.fillBulk, hindex]
  rfl

namespace Client

/-- The client with the configuration in which nothing is set. -/
def unconfigured (client : Client) : Client :=
  { client with config := {} }

/-- The outcome of a call depends on the text that is sent and on the reply, and on nothing else. -/
theorem fst_call_congr {α : Type} {client other : Client}
    (htransport : client.transport = other.transport) (path otherPath contentType : String)
    (text : Except Failure String) (decode : ByteArray → Except Failure α) :
    (client.call path contentType text decode).1 =
      (other.call otherPath contentType text decode).1 := by
  cases text with
  | error failure => rfl
  | ok body => simp only [Client.call, Transport.send_eq, htransport]

theorem fst_effect_bulk {client other : Client} {request : BulkRequest}
    (htransport : client.transport = other.transport)
    (htext : (client.config.fillBulk request).text = (other.config.fillBulk request).text) :
    (client.effect (.bulk request)).1 = (other.effect (.bulk request)).1 := by
  show Answer.bulk <$> (client.call _ _ _ _).1 = Answer.bulk <$> (other.call _ _ _ _).1
  rw [htext, fst_call_congr htransport]

/-- A configuration fills the gaps of a batch and changes nothing else. A batch that can be written
by itself is written alike with any configuration: what is sent is its own text, to a path that the
configuration may change, and the reply gives the outcome that it gives without a configuration. A
configured default index that fills a gap takes the findings about a missing index away, all of them
and no others, and leaves the rest in order. A default index or a refresh policy that the batch does
not set is the configured one, and what it has set itself stays. -/
theorem bulk_fillBulk (client : Client) (request : BulkRequest) :
    (∀ body, request.text = .ok body →
      (client.config.fillBulk request).text = .ok body ∧
        (client.effect (.bulk request)).2 =
          ⟨client.transport.replies.drop 1, client.transport.sent ++
            [⟨.post, client.config.tracePath (client.config.fillBulk request).path, body,
              "application/x-ndjson"⟩]⟩ ∧
        (client.effect (.bulk request)).1 = (client.unconfigured.effect (.bulk request)).1) ∧
      (request.defaultIndex = none →
        (∃ index, client.config.defaultIndex = some index ∧ index ≠ "") →
          (client.config.fillBulk request).validate.findings =
            request.validate.findings.filter fun finding => !finding.asksForIndex) ∧
      (request.defaultIndex = none →
        (client.config.fillBulk request).defaultIndex = client.config.defaultIndex) ∧
      (∀ index, request.defaultIndex = some index →
        (client.config.fillBulk request).defaultIndex = some index) ∧
      (request.refresh = none →
        (client.config.fillBulk request).refresh = client.config.refresh) ∧
      (∀ refresh, request.refresh = some refresh →
        (client.config.fillBulk request).refresh = some refresh) ∧
      (client.config.fillBulk request).actions = request.actions := by
  have hfills := client.config.fills_bulk request
  refine ⟨fun body h => ⟨BulkRequest.text_fillBulk h _, ?_, ?_⟩, ?_, hfills.index_open,
    hfills.index_set, hfills.refresh_open, hfills.refresh_set, hfills.actions⟩
  · have hcall : (Call.bulk request).text client.config = .ok body :=
      BulkRequest.text_fillBulk h client.config
    exact congrArg Client.transport (perform_of_text hcall).1
  · refine fst_effect_bulk rfl ?_
    rw [BulkRequest.text_fillBulk h, BulkRequest.text_fillBulk h]
  · rintro hnone ⟨index, hindex, hne⟩
    refine BulkRequest.validate_default rfl ?_ ?_
    · rw [BulkRequest.effectiveDefault, hnone]
      rfl
    · simp [BulkRequest.effectiveDefault, ClientConfig.fillBulk, hnone, hindex, Option.filter, hne]

-- a deletion without index and id, alone and with a configured index
example :
    let request : BulkRequest := { actions := [.delete "" ""] }
    request.validate.messages =
        ["bulk.actions[0].delete: index is required when no default index is set",
          "bulk.actions[0].delete: id is required"] ∧
      (ClientConfig.fillBulk { defaultIndex := some "orders" } request).validate.messages =
        ["bulk.actions[0].delete: id is required"] := by
  decide +kernel

end Client

end SearchWire
