import SearchWire.Proofs.Client.Effect

/-!
# Where a call is sent

A path is read as segments between slashes, up to its first question mark, and
parameters behind that. `Call.endpoint` and `Call.parameters` say which segments
and which parameters a call is meant to have. The names of indices stand in a
path as they are, so a name with a slash or a question mark in it changes how
the path is read: `Client.endpoint_kept` says that a call goes where it is meant
to go exactly when no name that it puts into the path holds one of the two.
-/

namespace SearchWire

/-- The segments of a path, up to its first question mark. -/
def pathSegments (path : String) : List String :=
  ((path.toList.takeWhile (· != '?')).splitOn '/').map String.ofList

/-- What follows in a path from its first question mark on. -/
def pathQuery (path : String) : String :=
  String.ofList (path.toList.dropWhile (· != '?'))

/-- A text can stand in a path as one segment. -/
def IsSegment (text : String) : Prop :=
  '/' ∉ text.toList ∧ '?' ∉ text.toList

instance (text : String) : Decidable (IsSegment text) :=
  inferInstanceAs (Decidable (_ ∧ _))

/-- The characters of a path with the given segments and no parameters. -/
def plainPath (segments : List String) : List Char :=
  ['/'].intercalate ([] :: segments.map String.toList)

/-- Parameters as they follow a path. -/
def parameterText : List String → String
  | [] => ""
  | parameters => "?" ++ "&".intercalate parameters

/-- The parameter that asks for stack traces, when it is wanted. -/
def ClientConfig.traceParameters (config : ClientConfig) : List String :=
  if config.errorTrace then ["error_trace=true"] else []

namespace Call

/-- The names of indices that a call puts into its path. -/
def names (config : ClientConfig) : Call → List String
  | .search request => (config.fillSearch request).indices
  | .bulk request => (config.fillBulk request).effectiveDefault.toList

/-- The last segment of a call. -/
def verb : Call → String
  | .search _ => "_search"
  | .bulk _ => "_bulk"

/-- The segments that a call is meant to have: its names in one, if there are any, and its verb. -/
def endpoint (config : ClientConfig) (call : Call) : List String :=
  (if (call.names config).isEmpty then [] else [",".intercalate (call.names config)]) ++ [call.verb]

/-- The parameter of a batch that is to become visible at some time. -/
def refreshParameter? (config : ClientConfig) : Call → Option String
  | .search _ => none
  | .bulk request => (config.fillBulk request).refresh.map fun policy => "refresh=" ++ policy.text

/-- The parameters that a call is meant to have. -/
def parameters (config : ClientConfig) (call : Call) : List String :=
  (call.refreshParameter? config).toList ++ config.traceParameters

/-- A path is read as the endpoint and the parameters of a call. -/
structure Reaches (config : ClientConfig) (call : Call) (path : String) : Prop where
  segments : pathSegments path = "" :: call.endpoint config
  query : pathQuery path = parameterText (call.parameters config)

end Call

/-! ## Separated texts -/

/-- The pieces between separators hold no separator, and nothing that was not there. -/
theorem forall_mem_splitOn {separator : Char} {chars piece : List Char}
    (h : piece ∈ chars.splitOn separator) : separator ∉ piece ∧ piece ⊆ chars := by
  induction chars generalizing piece with
  | nil =>
      rw [List.splitOn_nil, List.mem_singleton] at h
      subst h
      exact ⟨List.not_mem_nil, List.nil_subset _⟩
  | cons first rest ih =>
      rw [List.splitOn_cons_eq_if_modifyHead] at h
      by_cases hfirst : (first == separator) = true
      · rw [if_pos hfirst, List.mem_cons] at h
        rcases h with rfl | hrest
        · exact ⟨List.not_mem_nil, List.nil_subset _⟩
        · obtain ⟨hfree, hsubset⟩ := ih hrest
          exact ⟨hfree, List.subset_cons_of_subset first hsubset⟩
      · obtain ⟨head, tail, hsplit⟩ :=
          List.exists_cons_of_ne_nil (List.splitOn_ne_nil separator rest)
        rw [if_neg hfirst, hsplit, List.modifyHead_cons, List.mem_cons] at h
        rcases h with rfl | htail
        · obtain ⟨hfree, hsubset⟩ := ih (hsplit ▸ List.mem_cons_self)
          have hseparator : separator ≠ first := fun hsame => hfirst (beq_iff_eq.2 hsame.symm)
          exact ⟨List.not_mem_cons_of_ne_of_not_mem hseparator hfree,
            List.cons_subset_cons first hsubset⟩
        · obtain ⟨hfree, hsubset⟩ := ih (hsplit ▸ List.mem_cons_of_mem _ htail)
          exact ⟨hfree, List.subset_cons_of_subset first hsubset⟩

/-- What stands between separators comes from the parts. -/
theorem mem_intercalate_iff {separator char : Char} (h : char ≠ separator)
    {parts : List (List Char)} :
    char ∈ [separator].intercalate parts ↔ ∃ part ∈ parts, char ∈ part := by
  induction parts with
  | nil => simp
  | cons first rest ih =>
      cases rest with
      | nil => simp
      | cons second rest =>
          rw [List.intercalate_cons_cons, List.mem_append, List.mem_append, ih]
          simp [h]

/-! ## Paths -/

theorem isSegment_of_mem_pathSegments {path segment : String} (h : segment ∈ pathSegments path) :
    IsSegment segment := by
  obtain ⟨piece, hpiece, rfl⟩ := List.mem_map.1 h
  obtain ⟨hslash, hsubset⟩ := forall_mem_splitOn hpiece
  rw [IsSegment, String.toList_ofList]
  refine ⟨hslash, fun hmark => ?_⟩
  have hall := List.all_eq_true.1 List.all_takeWhile _ (hsubset hmark)
  exact absurd hall (by decide)

/-- Names joined by commas make one segment exactly when each of them does. -/
theorem isSegment_intercalate_iff {texts : List String} :
    IsSegment (",".intercalate texts) ↔ ∀ text ∈ texts, IsSegment text := by
  have hslash : ('/' : Char) ≠ ',' := by decide
  have hmark : ('?' : Char) ≠ ',' := by decide
  simp only [IsSegment, String.toList_intercalate]
  show '/' ∉ [','].intercalate _ ∧ '?' ∉ [','].intercalate _ ↔ _
  rw [mem_intercalate_iff hslash, mem_intercalate_iff hmark]
  simp [forall_and]

theorem mark_notMem_plainPath {segments : List String}
    (h : ∀ segment ∈ segments, IsSegment segment) : '?' ∉ plainPath segments := by
  intro hmark
  obtain ⟨part, hpart, hmark⟩ := (mem_intercalate_iff (by decide)).1 hmark
  rcases List.mem_cons.1 hpart with rfl | hpart
  · exact List.not_mem_nil hmark
  · obtain ⟨segment, hsegment, rfl⟩ := List.mem_map.1 hpart
    exact (h segment hsegment).2 hmark

/-- Segments are read back from a plain path. -/
theorem splitOn_plainPath {segments : List String} (h : ∀ segment ∈ segments, IsSegment segment) :
    ((plainPath segments).splitOn '/').map String.ofList = "" :: segments := by
  have hparts : ∀ part ∈ [] :: segments.map String.toList, '/' ∉ part := by
    intro part hpart
    rcases List.mem_cons.1 hpart with rfl | hpart
    · exact List.not_mem_nil
    · obtain ⟨segment, hsegment, rfl⟩ := List.mem_map.1 hpart
      exact (h segment hsegment).1
  rw [plainPath, List.splitOn_intercalate '/' hparts (List.cons_ne_nil _ _), List.map_cons,
    List.map_map]
  simp

/-- Parameters begin with a question mark, if there are any. -/
theorem parameterText_eq (parameters : List String) :
    parameterText parameters = "" ∨ ∃ rest, (parameterText parameters).toList = '?' :: rest := by
  cases parameters with
  | nil => exact .inl rfl
  | cons first rest => exact .inr ⟨("&".intercalate (first :: rest)).toList, String.toList_append⟩

/-- A path that is put together from segments and parameters is read as these. -/
theorem read_path {path : String} {segments parameters : List String}
    (h : ∀ segment ∈ segments, IsSegment segment)
    (hpath : path.toList = plainPath segments ++ (parameterText parameters).toList) :
    pathSegments path = "" :: segments ∧ pathQuery path = parameterText parameters := by
  have hplain : ∀ char ∈ plainPath segments, (char != '?') = true := by
    intro char hchar
    refine bne_iff_ne.2 fun hmark => ?_
    exact mark_notMem_plainPath h (hmark ▸ hchar)
  have hends : (parameterText parameters).toList.takeWhile (· != '?') = [] ∧
      (parameterText parameters).toList.dropWhile (· != '?') =
        (parameterText parameters).toList := by
    rcases parameterText_eq parameters with hempty | ⟨rest, hrest⟩
    · rw [hempty]
      exact ⟨rfl, rfl⟩
    · rw [hrest]
      exact ⟨rfl, rfl⟩
  rw [pathSegments, pathQuery, hpath, List.takeWhile_append_of_pos hplain,
    List.dropWhile_append_of_pos hplain, hends.1, hends.2, List.append_nil, String.ofList_toList]
  exact ⟨splitOn_plainPath h, rfl⟩

/-- A request's own path has the segments of its endpoint and its own parameter. -/
theorem Call.toList_path (config : ClientConfig) (call : Call) :
    (call.path config).toList = plainPath (call.endpoint config) ++
      (parameterText (call.refreshParameter? config).toList).toList := by
  cases call with
  | search request =>
      show ((config.fillSearch request).path).toList = _
      rw [SearchRequest.path]
      by_cases hnames : (config.fillSearch request).indices.isEmpty = true
      · rw [if_pos hnames]
        simp [endpoint, names, hnames, plainPath, verb, refreshParameter?, parameterText]
      · rw [if_neg hnames]
        simp [endpoint, names, hnames, plainPath, verb, refreshParameter?, parameterText]
  | bulk request =>
      show ((config.fillBulk request).path).toList = _
      rw [BulkRequest.path]
      cases hindex : (config.fillBulk request).effectiveDefault <;>
        cases hrefresh : (config.fillBulk request).refresh <;>
          simp [endpoint, names, hindex, hrefresh, plainPath, verb, refreshParameter?,
            parameterText]

/-- The parameter that asks for stack traces joins the one that is there. -/
theorem ClientConfig.toList_tracePath (config : ClientConfig) {path : String}
    {segments : List String} {parameter : Option String} (h : '?' ∉ plainPath segments)
    (hpath : path.toList = plainPath segments ++ (parameterText parameter.toList).toList) :
    (config.tracePath path).toList =
      plainPath segments ++
        (parameterText (parameter.toList ++ config.traceParameters)).toList := by
  rw [tracePath, traceParameters]
  by_cases htrace : config.errorTrace = true
  · rw [if_pos htrace, if_pos htrace, String.toList_append, String.toList_append, hpath]
    cases parameter with
    | none => simp [parameterText, h]
    | some own => simp [parameterText]
  · rw [if_neg htrace, if_neg htrace, hpath, List.append_nil]

/-! ## Calls -/

namespace Call

variable {config : ClientConfig} {call : Call}

/-- The endpoint consists of segments exactly when the names can stand in one. -/
theorem forall_isSegment_endpoint_iff :
    (∀ segment ∈ call.endpoint config, IsSegment segment) ↔
      ∀ name ∈ call.names config, IsSegment name := by
  have hverb : IsSegment call.verb := by
    cases call with
    | search => exact (by decide : IsSegment "_search")
    | bulk => exact (by decide : IsSegment "_bulk")
  rw [endpoint, List.forall_mem_append, List.forall_mem_singleton]
  by_cases hnames : (call.names config).isEmpty = true
  · rw [if_pos hnames, List.isEmpty_iff.1 hnames]
    simp [hverb]
  · rw [if_neg hnames, List.forall_mem_singleton, isSegment_intercalate_iff]
    simp [hverb]

/-- A call reaches its endpoint exactly when its names can stand in one segment. -/
theorem reaches_iff :
    call.Reaches config (config.tracePath (call.path config)) ↔
      ∀ name ∈ call.names config, IsSegment name := by
  rw [← forall_isSegment_endpoint_iff]
  constructor
  · intro h segment hsegment
    have hread : segment ∈ pathSegments (config.tracePath (call.path config)) := by
      rw [h.segments]
      exact List.mem_cons_of_mem _ hsegment
    exact isSegment_of_mem_pathSegments hread
  · intro h
    have hpath := config.toList_tracePath (mark_notMem_plainPath h) (call.toList_path config)
    obtain ⟨hread, hquery⟩ := read_path h hpath
    exact ⟨hread, hquery⟩

end Call

namespace Client

/-- A call whose request is valid sends one request. Its path is read as the endpoint that the call
is meant for, with the parameters that are asked for and no others, exactly when no name of an index
that the call puts into the path holds a slash or a question mark. -/
theorem endpoint_kept {client : Client} {call : Call} {request : TransportRequest}
    (h : call.wire client.config = some request) :
    (client.effect call).2.sent = client.transport.sent ++ [request] ∧
      (call.Reaches client.config request.path ↔
        ∀ name ∈ call.names client.config, IsSegment name) := by
  constructor
  · rw [sent_effect, h]
    rfl
  · rw [Call.wire] at h
    split at h
    · obtain rfl := Option.some.inj h
      exact Call.reaches_iff
    · cases h

/-- A client that asks for stack traces. -/
def tracing : Client where
  config := { errorTrace := true }

/-- A search of everything in some indices. -/
def searchOf (indices : List String) : Call :=
  .search { indices }

theorem endpoint_kept_twoIndices :
    ∃ request, (searchOf ["orders", "customers"]).wire tracing.config = some request ∧
      (searchOf ["orders", "customers"]).Reaches tracing.config request.path := by
  have hwire : (searchOf ["orders", "customers"]).wire tracing.config =
      some ⟨.post, "/orders,customers/_search?error_trace=true", "\x7b\x7d",
        "application/json"⟩ := by
    decide +kernel
  exact ⟨_, hwire, (endpoint_kept hwire).2.2 (by decide +kernel)⟩

/-- A name with a question mark takes the verb out of the segments, and one with a slash adds a
segment. -/
theorem names_redirect :
    (searchOf ["orders?routing=1"]).wire tracing.config =
        some ⟨.post, "/orders?routing=1/_search&error_trace=true", "\x7b\x7d",
          "application/json"⟩ ∧
      ¬ (searchOf ["orders?routing=1"]).Reaches tracing.config
        "/orders?routing=1/_search&error_trace=true" ∧
      (searchOf ["orders/_doc"]).wire {} =
        some ⟨.post, "/orders/_doc/_search", "\x7b\x7d", "application/json"⟩ ∧
      ¬ (searchOf ["orders/_doc"]).Reaches {} "/orders/_doc/_search" := by
  have hmark : pathSegments "/orders?routing=1/_search&error_trace=true" ≠
      "" :: (searchOf ["orders?routing=1"]).endpoint tracing.config := by
    decide +kernel
  have hslash : pathSegments "/orders/_doc/_search" ≠
      "" :: (searchOf ["orders/_doc"]).endpoint {} := by
    decide +kernel
  refine ⟨by decide +kernel, ?_, by decide +kernel, ?_⟩
  · exact fun hreaches => hmark hreaches.segments
  · exact fun hreaches => hslash hreaches.segments

end Client

end SearchWire
