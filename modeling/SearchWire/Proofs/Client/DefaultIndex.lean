import SearchWire.Proofs.Bulk.DefaultIndex
import SearchWire.Proofs.Client.Effect
import SearchWire.Proofs.Request.Places

/-!
# An empty default index

An empty index name means that there is no default: that is how the framing of
a batch reads it. A client fills in a configured default whether it is empty or
not, and only where none is set at all. `Client.effect_dropEmptyDefault` says for
which calls this shows: a search without indices is refused for the empty name
it is given, and a batch with an empty default of its own does without the
configured one. Every other call does the same with an empty default as with
none.
-/

namespace SearchWire

/-- The configuration without its default index, when that is empty. -/
def ClientConfig.dropEmptyDefault (config : ClientConfig) : ClientConfig :=
  { config with defaultIndex := config.defaultIndex.filter (!·.isEmpty) }

/-- The batch without its default index, when that is empty. -/
def BulkRequest.dropEmptyDefault (request : BulkRequest) : BulkRequest :=
  { request with defaultIndex := request.effectiveDefault }

/-- A search that leaves its indices to the configuration. -/
def Call.NamesNoIndex : Call → Prop
  | .search request => request.indices = []
  | .bulk _ => False

/-! ## Defaults -/

/-- Only an empty name is dropped. -/
theorem filter_nonempty_eq {name : Option String} (h : name ≠ some "") :
    name.filter (!·.isEmpty) = name := by
  cases name with
  | none => rfl
  | some value =>
      have hvalue : value ≠ "" := fun hempty => h (congrArg some hempty)
      simp [Option.filter, hvalue]

theorem filter_nonempty_ne_none_iff {name : Option String} :
    name.filter (!·.isEmpty) ≠ none ↔ ∃ value, name = some value ∧ value ≠ "" := by
  cases name with
  | none => simp
  | some value => by_cases hvalue : value = "" <;> simp [Option.filter, hvalue]

namespace ClientConfig

theorem dropEmptyDefault_eq {config : ClientConfig} (h : config.defaultIndex ≠ some "") :
    config.dropEmptyDefault = config := by
  rw [dropEmptyDefault, filter_nonempty_eq h]

/-- The default in effect is the same when an empty one is not filled in. -/
theorem effectiveDefault_fillBulk_dropEmptyDefault (config : ClientConfig) (request : BulkRequest) :
    (config.dropEmptyDefault.fillBulk request).effectiveDefault =
      (config.fillBulk request).effectiveDefault := by
  show (request.defaultIndex <|> config.defaultIndex.filter (!·.isEmpty)).filter (!·.isEmpty) =
    (request.defaultIndex <|> config.defaultIndex).filter (!·.isEmpty)
  cases request.defaultIndex with
  | some index => rfl
  | none =>
      by_cases hempty : config.defaultIndex = some ""
      · rw [hempty]
        rfl
      · rw [filter_nonempty_eq hempty]

end ClientConfig

namespace BulkRequest

variable {request : BulkRequest}

theorem dropEmptyDefault_eq (h : request.defaultIndex ≠ some "") :
    request.dropEmptyDefault = request := by
  rw [dropEmptyDefault, effectiveDefault, filter_nonempty_eq h]

/-- An empty default of a batch keeps the configured one out. -/
theorem effectiveDefault_fillBulk (h : request.defaultIndex = some "") (config : ClientConfig) :
    (config.fillBulk request).effectiveDefault = none := by
  simp [ClientConfig.fillBulk, effectiveDefault, h, Option.filter]

/-- The configured default comes in when the empty one is dropped. -/
theorem effectiveDefault_fillBulk_dropped (h : request.defaultIndex = some "")
    (config : ClientConfig) :
    (config.fillBulk request.dropEmptyDefault).effectiveDefault =
      config.defaultIndex.filter (!·.isEmpty) := by
  simp [ClientConfig.fillBulk, dropEmptyDefault, effectiveDefault, h, Option.filter]

section

variable {config : ClientConfig} (h : request.defaultIndex = some "")
  (hconfigured : ∃ index, config.defaultIndex = some index ∧ index ≠ "")

include h hconfigured

theorem effectiveDefault_fillBulk_dropped_ne_none :
    (config.fillBulk request.dropEmptyDefault).effectiveDefault ≠ none := by
  rw [effectiveDefault_fillBulk_dropped h]
  exact filter_nonempty_ne_none_iff.2 hconfigured

/-- The configured default shows in the text exactly when some action needs it. -/
theorem text_fillBulk_dropped_iff :
    (config.fillBulk request).text = (config.fillBulk request.dropEmptyDefault).text ↔
      ∀ action ∈ request.actions, action.ownIndex ≠ "" := by
  have hactions : (config.fillBulk request).actions =
      (config.fillBulk request.dropEmptyDefault).actions := rfl
  exact text_eq_iff hactions (effectiveDefault_fillBulk h config)
    (effectiveDefault_fillBulk_dropped_ne_none h hconfigured)

/-- The configured default always shows in the path. -/
theorem length_path_fillBulk_lt :
    (config.fillBulk request).path.length <
      (config.fillBulk request.dropEmptyDefault).path.length :=
  length_path_lt rfl (effectiveDefault_fillBulk h config)
    (effectiveDefault_fillBulk_dropped_ne_none h hconfigured)

end

end BulkRequest

namespace Client

/-- The client without its default index, when that is empty. -/
def dropEmptyDefault (client : Client) : Client :=
  { client with config := client.config.dropEmptyDefault }

/-- The client without a default index. -/
def withoutDefault (client : Client) : Client :=
  { client with config := { client.config with defaultIndex := none } }

end Client

/-! ## Searches -/

namespace SearchRequest

/-- The finding about a first index without a name. -/
def firstIndexFinding : Finding :=
  ⟨"search.indices[0]: index name is required", true⟩

theorem firstIndexFinding_mem {request : SearchRequest} (h : request.indices = [""]) :
    firstIndexFinding ∈ request.findings "search" := by
  rw [findings, h]
  exact List.mem_append_left _ (List.mem_append_left _ List.mem_cons_self)

/-- Nothing else in a search is placed at its indices. -/
theorem firstIndexFinding_notMem {request : SearchRequest} (h : request.indices = []) :
    firstIndexFinding ∉ request.findings "search" := by
  intro hmem
  rw [findings, h, indexFindings, List.nil_append, List.mem_append] at hmem
  rcases hmem with hquery | hnamed
  · cases hset : request.query with
    | none =>
        rw [hset] at hquery
        cases hquery
    | some held =>
        rw [hset] at hquery
        have hfindings : firstIndexFinding ∈
            (Node.query held).findings (Query.childPath "search" "query" held.kind) := hquery
        obtain ⟨rest, hrest⟩ := Node.at_of_mem_findings hfindings
        have hchars := congrArg String.toList hrest
        simp [firstIndexFinding, Query.childPath] at hchars
  · obtain ⟨rest, hrest⟩ := Aggregation.at_of_mem_findingsNamed hnamed
    have hchars := congrArg String.toList hrest
    simp [firstIndexFinding] at hchars

/-- A search of one index without a name is refused with a finding about that index. -/
theorem text_of_namelessIndex {request : SearchRequest} (h : request.indices = [""]) :
    request.text = .error (.invalid request.validate) ∧
      firstIndexFinding ∈ request.validate.findings := by
  have hmem := firstIndexFinding_mem h
  have hfatal : request.validate.isFatal = true :=
    Report.isFatal_ofList_iff.2 ⟨firstIndexFinding, hmem, rfl⟩
  exact ⟨Report.whenSound_of_fatal hfatal _, Report.mem_findings_ofList.2 hmem⟩

/-- A search without indices is not refused in this way. -/
theorem text_ne_of_noIndex {request : SearchRequest} (h : request.indices = []) {report : Report}
    (hreport : firstIndexFinding ∈ report.findings) :
    request.text ≠ .error (.invalid report) := by
  intro htext
  rw [Failure.invalid.inj (Report.eq_of_whenSound_eq_error htext)] at hreport
  exact firstIndexFinding_notMem h (Report.mem_findings_ofList.1 hreport)

end SearchRequest

namespace Client

variable {client : Client}

/-! ## Empty defaults of the configuration -/

/-- A search that leaves its indices to a configuration with an empty default is refused. -/
theorem effect_of_namesNoIndex {request : SearchRequest}
    (hdefault : client.config.defaultIndex = some "") (hindices : request.indices = []) :
    ∃ report, client.effect (.search request) =
        (.error (.request (.invalid report)), client.transport) ∧
      SearchRequest.firstIndexFinding ∈ report.findings := by
  have hfilled : (client.config.fillSearch request).indices = [""] := by
    simp [ClientConfig.fillSearch, hdefault, hindices]
  obtain ⟨htext, hfinding⟩ := SearchRequest.text_of_namelessIndex hfilled
  exact ⟨_, effect_eq_failure_iff.2 htext, hfinding⟩

/-- Dropping an empty default changes nothing but searches that name no index. -/
theorem effect_dropEmptyDefault_of_not {call : Call}
    (h : ¬ (client.config.defaultIndex = some "" ∧ call.NamesNoIndex)) :
    client.dropEmptyDefault.effect call = client.effect call := by
  by_cases hdefault : client.config.defaultIndex = some ""
  · cases call with
    | search request =>
        have hindices : request.indices ≠ [] := fun hnone => h ⟨hdefault, hnone⟩
        refine effect_search_congr rfl rfl ?_
        simp [dropEmptyDefault, ClientConfig.dropEmptyDefault, ClientConfig.fillSearch, hindices]
    | bulk request =>
        have heffective :=
          client.config.effectiveDefault_fillBulk_dropEmptyDefault request
        exact effect_bulk_congr rfl rfl (BulkRequest.text_congr rfl heffective)
          (BulkRequest.path_congr rfl heffective)
  · rw [dropEmptyDefault, ClientConfig.dropEmptyDefault_eq hdefault]

/-- Dropping an empty default shows in every search that names no index. -/
theorem effect_dropEmptyDefault_ne {call : Call} (hdefault : client.config.defaultIndex = some "")
    (hcall : call.NamesNoIndex) : client.dropEmptyDefault.effect call ≠ client.effect call := by
  cases call with
  | bulk => exact absurd hcall id
  | search request =>
      intro hsame
      obtain ⟨report, heffect, hfinding⟩ := effect_of_namesNoIndex hdefault hcall
      have htransport : client.dropEmptyDefault.transport = client.transport := rfl
      have htext : (client.dropEmptyDefault.config.fillSearch request).text =
          .error (.invalid report) :=
        (text_eq_of_effect_eq htransport hsame).trans (effect_eq_failure_iff.1 heffect)
      refine SearchRequest.text_ne_of_noIndex ?_ hfinding htext
      have hindices : request.indices = [] := hcall
      simp [dropEmptyDefault, ClientConfig.dropEmptyDefault, ClientConfig.fillSearch, hdefault,
        hindices, Option.filter]

/-! ## Empty defaults of batches -/

/-- A batch with an empty default of its own is treated as if no default were set anywhere. -/
theorem effect_of_emptyDefault {request : BulkRequest} (h : request.defaultIndex = some "") :
    client.effect (.bulk request) =
      client.withoutDefault.effect (.bulk { request with defaultIndex := none }) := by
  have heffective : (client.config.fillBulk request).effectiveDefault =
      (ClientConfig.fillBulk { client.config with defaultIndex := none }
        { request with defaultIndex := none }).effectiveDefault := by
    simp [ClientConfig.fillBulk, BulkRequest.effectiveDefault, h, Option.filter]
  exact effect_bulk_congr rfl rfl (BulkRequest.text_congr rfl heffective)
    (BulkRequest.path_congr rfl heffective)

/-- A longer path is sent as a longer path. -/
theorem length_tracePath (config : ClientConfig) (path : String) :
    (config.tracePath path).length =
      path.length + if config.errorTrace then "?error_trace=true".length else 0 := by
  rw [ClientConfig.tracePath]
  split
  · split <;> rw [String.length_append, String.length_append, Nat.add_assoc] <;> rfl
  · rfl

/-- What keeps a configured default from a batch: an empty default of its own, when some action
needs a default or the batch is sent. -/
def HidesDefault (client : Client) (request : BulkRequest) : Prop :=
  request.defaultIndex = some "" ∧
    (∃ index, client.config.defaultIndex = some index ∧ index ≠ "") ∧
      ((∃ action ∈ request.actions, action.ownIndex = "") ∨
        ∃ body, (Call.bulk request).text client.config = .ok body)

/-- Where a batch hides the configured default, dropping its own shows. -/
theorem effect_bulk_dropEmptyDefault_ne {request : BulkRequest} (h : client.HidesDefault request) :
    client.effect (.bulk request.dropEmptyDefault) ≠ client.effect (.bulk request) := by
  intro hsame
  obtain ⟨hown, hconfigured, hneeded⟩ := h
  have htext : (client.config.fillBulk request).text =
      (client.config.fillBulk request.dropEmptyDefault).text :=
    (text_eq_of_effect_eq rfl hsame).symm
  rcases hneeded with ⟨action, haction, hempty⟩ | ⟨body, hbody⟩
  · exact (BulkRequest.text_fillBulk_dropped_iff hown hconfigured).1 htext action haction hempty
  · -- both are sent, to different paths
    have hwire := wire_eq_of_effect_eq rfl hsame
    have hdropped : (Call.bulk request.dropEmptyDefault).text client.config = .ok body :=
      htext.symm.trans hbody
    rw [Call.wire, Call.wire, hbody, hdropped] at hwire
    have hpath := (TransportRequest.mk.inj (Option.some.inj hwire)).2.1
    have hlength := congrArg String.length hpath
    rw [length_tracePath, length_tracePath] at hlength
    have hshorter := BulkRequest.length_path_fillBulk_lt hown hconfigured
    simp only [Call.path] at hlength
    omega

/-- Where a batch hides no default, dropping its own changes nothing. -/
theorem effect_bulk_dropEmptyDefault_of_not {request : BulkRequest}
    (h : ¬ client.HidesDefault request) :
    client.effect (.bulk request.dropEmptyDefault) = client.effect (.bulk request) := by
  by_cases hown : request.defaultIndex = some ""
  · by_cases hconfigured : ∃ index, client.config.defaultIndex = some index ∧ index ≠ ""
    · have hunneeded : ¬ ((∃ action ∈ request.actions, action.ownIndex = "") ∨
          ∃ body, (Call.bulk request).text client.config = .ok body) :=
        fun hneeded => h ⟨hown, hconfigured, hneeded⟩
      obtain ⟨hnamed, hunsent⟩ := not_or.1 hunneeded
      have htext := (BulkRequest.text_fillBulk_dropped_iff hown hconfigured).2
        fun action haction hempty => hnamed ⟨action, haction, hempty⟩
      cases hfailure : (Call.bulk request).text client.config with
      | ok body => exact absurd ⟨body, hfailure⟩ hunsent
      | error failure =>
          have hdroppedFailure : (Call.bulk request.dropEmptyDefault).text client.config =
              .error failure := htext.symm.trans hfailure
          rw [effect_eq_failure_iff.2 hfailure, effect_eq_failure_iff.2 hdroppedFailure]
    · have hdropped : (client.config.fillBulk request.dropEmptyDefault).effectiveDefault =
          (client.config.fillBulk request).effectiveDefault := by
        rw [BulkRequest.effectiveDefault_fillBulk_dropped hown,
          BulkRequest.effectiveDefault_fillBulk hown]
        exact Decidable.not_not.1 (mt filter_nonempty_ne_none_iff.1 hconfigured)
      exact effect_bulk_congr rfl rfl (BulkRequest.text_congr rfl hdropped)
        (BulkRequest.path_congr rfl hdropped)
  · rw [BulkRequest.dropEmptyDefault_eq hown]

/-- When an empty default index means that there is none. Dropping the one of the configuration
changes the effect of a call exactly when the call is a search that names no index, and dropping the
one of a batch does exactly when it hides the configured default. In the first case the search is
refused, with a finding about the empty name that it has been given, and nothing is sent; in the
second the batch is treated as if no default were set, neither by itself nor by the
configuration. -/
theorem effect_dropEmptyDefault (client : Client) :
    (∀ call, client.dropEmptyDefault.effect call = client.effect call ↔
        ¬ (client.config.defaultIndex = some "" ∧ call.NamesNoIndex)) ∧
      (∀ request, client.effect (.bulk request.dropEmptyDefault) = client.effect (.bulk request) ↔
        ¬ client.HidesDefault request) ∧
      (∀ request : SearchRequest, client.config.defaultIndex = some "" → request.indices = [] →
        ∃ report, client.effect (.search request) =
            (.error (.request (.invalid report)), client.transport) ∧
          SearchRequest.firstIndexFinding ∈ report.findings) ∧
      ∀ request : BulkRequest, request.defaultIndex = some "" →
        client.effect (.bulk request) =
          client.withoutDefault.effect (.bulk { request with defaultIndex := none }) := by
  refine ⟨fun call => ⟨?_, effect_dropEmptyDefault_of_not⟩,
    fun request => ⟨?_, effect_bulk_dropEmptyDefault_of_not⟩,
    fun request => effect_of_namesNoIndex, fun request => effect_of_emptyDefault⟩
  · rintro hsame ⟨hdefault, hcall⟩
    exact effect_dropEmptyDefault_ne hdefault hcall hsame
  · intro hsame hhides
    exact effect_bulk_dropEmptyDefault_ne hhides hsame

/-- A client with a default index. -/
def configuredWith (index : String) : Client where
  config := { defaultIndex := some index }

/-- An order to be added, in a batch with an empty default index. -/
def addedOrder : BulkRequest where
  actions := [.index { id := "1", source := .ok (.object [("n", .int 1)]) }]
  defaultIndex := some ""

/-- An empty default keeps a search of everything from being sent, and a batch from going to the
configured index. -/
theorem emptyDefault_keeps_back :
    ((configuredWith "").effect (.search {})).2.sent = [] ∧
      ((configuredWith "").dropEmptyDefault.effect (.search {})).2.sent =
        [⟨.post, "/_search", "\x7b\x7d", "application/json"⟩] ∧
      ((configuredWith "orders").effect (.bulk addedOrder)).2.sent = [] ∧
      ((configuredWith "orders").effect (.bulk addedOrder.dropEmptyDefault)).2.sent =
        [⟨.post, "/orders/_bulk",
          "\x7b\"index\":\x7b\"_id\":\"1\"\x7d\x7d\n\x7b\"n\":1\x7d\n",
          "application/x-ndjson"⟩] := by
  decide +kernel

end Client

end SearchWire
