import SearchWire.Proofs.Response.RawResults
import SearchWire.Response.Search

/-!
# What a search response reads from its body

`SearchResponse.Steps` lists what one member of a body can do to a response that
is being read. From it follow, by induction over the members, when a body is
accepted and what the response then holds: `SearchResponse.Reflects` says this
for each field and each named result. `SearchResponse.reading` puts the two
together and adds that members with distinct names may stand in any order.
-/

namespace SearchWire

namespace SearchResponse

/-- The members of a response that are decoded. -/
def knownNames : List String :=
  ["took", "timed_out", "_shards", "hits", "error", "status", "aggregations"]

/-- Whether a member is kept as a span. -/
def isUnknown (entry : String × Span) : Bool :=
  !knownNames.contains entry.1

/-- The entries of all `aggregations` members, in text order. -/
def aggregationEntries (entries : List (String × Span)) : List (String × Span) :=
  entries.flatMap fun entry => if entry.1 = "aggregations" then entry.2.value.entries else []

/-! ## One member -/

/-- What one member of a body does to a response that is being read. -/
inductive Steps (depth : Nat) (progress : Progress) (name : String) (value : Raw) :
    Progress → Prop where
  | took {took : Nat} (hname : name = "took") (h : Decode.nat64 depth value = .ok took) :
      Steps depth progress name value
        { progress with response := { progress.response with took } }
  | timedOut {timedOut : Bool} (hname : name = "timed_out")
      (h : Decode.bool depth value = .ok timedOut) :
      Steps depth progress name value
        { progress with response := { progress.response with timedOut } }
  | shards {shards : Option ShardStats} (hname : name = "_shards")
      (h : Decode.optional Decode.shardStats depth value = .ok shards) :
      Steps depth progress name value
        { progress with response := { progress.response with shards } }
  | hits {hits : Option Hits} (hname : name = "hits")
      (h : Decode.optional Decode.hits depth value = .ok hits) :
      Steps depth progress name value
        { progress with response := { progress.response with hits } }
  | error {error : Option StoreError} (hname : name = "error")
      (h : Decode.optional Decode.storeError depth value = .ok error) :
      Steps depth progress name value
        { progress with response := { progress.response with error } }
  | status {status : Option Nat} (hname : name = "status")
      (h : Decode.optional Decode.nat16 depth value = .ok status) :
      Steps depth progress name value
        { progress with response := { progress.response with status } }
  | aggregations {results : RawResults} (hname : name = "aggregations")
      (h : Decode.rawResults depth value = .ok results) :
      Steps depth progress name value
        { progress with response := { progress.response with
            aggregations := progress.response.aggregations.insertAll results.entries } }
  | unknown {span : Span} (hname : name ∉ knownNames) (h : Span.ofRaw value = .ok span) :
      Steps depth progress name value { progress with unknown := (name, span) :: progress.unknown }

/-- Reading a member takes one of these steps. -/
theorem steps_of_step {depth : Nat} {progress next : Progress} {name : String} {value : Raw}
    (h : step depth progress name value = .ok next) : Steps depth progress name value next := by
  unfold step at h
  dsimp only at h
  split at h
  · next hname =>
      obtain ⟨_, hvalue, rfl⟩ := Outcome.bind_ok_eq_ok_iff.1 h
      exact .took hname hvalue
  split at h
  · next hname =>
      obtain ⟨_, hvalue, rfl⟩ := Outcome.bind_ok_eq_ok_iff.1 h
      exact .timedOut hname hvalue
  split at h
  · next hname =>
      obtain ⟨_, hvalue, rfl⟩ := Outcome.bind_ok_eq_ok_iff.1 h
      exact .shards hname hvalue
  split at h
  · next hname =>
      obtain ⟨_, hvalue, rfl⟩ := Outcome.bind_ok_eq_ok_iff.1 h
      exact .hits hname hvalue
  split at h
  · next hname =>
      obtain ⟨_, hvalue, rfl⟩ := Outcome.bind_ok_eq_ok_iff.1 h
      exact .error hname hvalue
  split at h
  · next hname =>
      obtain ⟨_, hvalue, rfl⟩ := Outcome.bind_ok_eq_ok_iff.1 h
      exact .status hname hvalue
  split at h
  · next hname =>
      obtain ⟨_, hvalue, rfl⟩ := Outcome.bind_ok_eq_ok_iff.1 h
      exact .aggregations hname hvalue
  · obtain ⟨_, hvalue, rfl⟩ := Outcome.bind_ok_eq_ok_iff.1 h
    refine .unknown ?_ hvalue
    simp only [knownNames, List.mem_cons, List.not_mem_nil, or_false, not_or]
    exact ⟨‹_›, ‹_›, ‹_›, ‹_›, ‹_›, ‹_›, ‹_›⟩

/-- What a member does to the fields that are decoded: each is set by the members of its name
alone. -/
structure SetsFields (depth : Nat) (progress : Progress) (name : String) (value : Raw)
    (next : Progress) : Prop where
  took : SetsField (·.response.took) "took" (Decode.nat64 depth) progress name value next
  timedOut : SetsField (·.response.timedOut) "timed_out" (Decode.bool depth) progress name value
    next
  shards : SetsField (·.response.shards) "_shards" (Decode.optional Decode.shardStats depth)
    progress name value next
  hits : SetsField (·.response.hits) "hits" (Decode.optional Decode.hits depth) progress name value
    next
  error : SetsField (·.response.error) "error" (Decode.optional Decode.storeError depth) progress
    name value next
  status : SetsField (·.response.status) "status" (Decode.optional Decode.nat16 depth) progress
    name value next

/-- A step sets the field that the member names and no other. -/
theorem Steps.setsFields {depth : Nat} {progress next : Progress} {name : String} {value : Raw}
    (h : Steps depth progress name value next) :
    SetsFields depth progress name value next := by
  cases h with
  | took hname hvalue | timedOut hname hvalue | shards hname hvalue | hits hname hvalue
    | error hname hvalue | status hname hvalue =>
      subst hname
      constructor <;> simp [SetsField, hvalue]
  | aggregations hname =>
      subst hname
      constructor <;> simp [SetsField]
  | unknown hname =>
      simp only [knownNames, List.mem_cons, List.not_mem_nil, or_false, not_or] at hname
      constructor <;> simp [SetsField, hname]

/-- A member decodes as the type of its field, if it is a known one. -/
def Accepts (depth : Nat) (name : String) (value : Raw) : Prop :=
  (name = "took" → ∃ took, Decode.nat64 depth value = .ok took) ∧
    (name = "timed_out" → ∃ timedOut, Decode.bool depth value = .ok timedOut) ∧
    (name = "_shards" → ∃ shards, Decode.optional Decode.shardStats depth value = .ok shards) ∧
    (name = "hits" → ∃ hits, Decode.optional Decode.hits depth value = .ok hits) ∧
    (name = "error" → ∃ error, Decode.optional Decode.storeError depth value = .ok error) ∧
    (name = "status" → ∃ status, Decode.optional Decode.nat16 depth value = .ok status) ∧
    (name = "aggregations" → ∃ results, Decode.rawResults depth value = .ok results)

/-- Reading a member fails only when the member is known and does not decode. -/
theorem step_isOk_iff (depth : Nat) (progress : Progress) (name : String) (span : Span) :
    (∃ next, step depth progress name span.value = .ok next) ↔ Accepts depth name span.value := by
  by_cases hknown : name ∈ knownNames
  · simp only [knownNames, List.mem_cons, List.not_mem_nil, or_false] at hknown
    rcases hknown with rfl | rfl | rfl | rfl | rfl | rfl | rfl
    all_goals simp [Accepts, step, Outcome.exists_bind_ok_eq_ok_iff]
  · have hok := Span.ofRaw_value span
    simp only [knownNames, List.mem_cons, List.not_mem_nil, or_false, not_or] at hknown
    obtain ⟨h1, h2, h3, h4, h5, h6, h7⟩ := hknown
    simp [Accepts, step, h1, h2, h3, h4, h5, h6, h7, hok]

/-! ## All members -/

/-- The depth at which the members of a body are decoded: its outer object is one level. -/
def memberDepth : Nat :=
  nestingLimit - 1

/-- A response holds what its members say: each field is its last member or the default, and under
each name stands the last entry of the `aggregations`, or else the first unknown member. -/
structure Reflects (response : SearchResponse) (entries : List (String × Span)) : Prop where
  took : TakenFrom (Decode.nat64 memberDepth) 0 response.took (Named.last? "took" entries)
  timedOut : TakenFrom (Decode.bool memberDepth) false response.timedOut
    (Named.last? "timed_out" entries)
  shards : TakenFrom (Decode.optional Decode.shardStats memberDepth) none response.shards
    (Named.last? "_shards" entries)
  hits : TakenFrom (Decode.optional Decode.hits memberDepth) none response.hits
    (Named.last? "hits" entries)
  error : TakenFrom (Decode.optional Decode.storeError memberDepth) none response.error
    (Named.last? "error" entries)
  status : TakenFrom (Decode.optional Decode.nat16 memberDepth) none response.status
    (Named.last? "status" entries)
  results : ∀ name, response.aggregations.get? name =
    (Named.last? name (aggregationEntries entries)).or
      (Named.find? name (entries.filter isUnknown))

/-- The named results and the unknown members that a response has gathered. -/
structure Progress.Gathered (entries : List (String × Span)) (progress : Progress) : Prop where
  sorted : Named.Sorted progress.response.aggregations.entries
  results : ∀ name, progress.response.aggregations.get? name =
    Named.last? name (aggregationEntries entries)
  unknown : progress.unknown.reverse = entries.filter isUnknown

theorem aggregationEntries_append (entries : List (String × Span)) (entry : String × Span) :
    aggregationEntries (entries ++ [entry]) = aggregationEntries entries ++
      if entry.1 = "aggregations" then entry.2.value.entries else [] := by
  simp [aggregationEntries]

/-- A step of another known member gathers nothing. -/
theorem Progress.Gathered.known {done : List (String × Span)} {progress next : Progress}
    (h : progress.Gathered done) {entry : String × Span} (hknown : entry.1 ∈ knownNames)
    (hname : entry.1 ≠ "aggregations")
    (hresults : next.response.aggregations = progress.response.aggregations)
    (hunknown : next.unknown = progress.unknown) : next.Gathered (done ++ [entry]) where
  sorted := by rw [hresults]; exact h.sorted
  results := by
    intro name
    rw [hresults, aggregationEntries_append, if_neg hname, List.append_nil]
    exact h.results name
  unknown := by
    have hskip : isUnknown entry = false := by simpa [isUnknown] using hknown
    rw [hunknown, h.unknown, List.filter_append, List.filter_cons_of_neg (by simp [hskip])]
    simp

/-- Every step keeps the named results and the unknown members gathered. -/
theorem Progress.Gathered.step {done : List (String × Span)} {progress next : Progress}
    (h : progress.Gathered done) {depth : Nat} {entry : String × Span}
    (hstep : Steps depth progress entry.1 entry.2.value next) :
    next.Gathered (done ++ [entry]) := by
  cases hstep with
  | took hname | timedOut hname | shards hname | hits hname | error hname | status hname =>
      exact h.known (by simp [hname, knownNames]) (by simp [hname]) rfl rfl
  | aggregations hname hvalue =>
      -- One member holds the last of its own entries under each name, so inserting what it holds
      -- leaves the same as inserting its entries one by one.
      have hentries := Decode.rawResults_entries hvalue
      have hsorted := (Named.Sorted.nil).insertAll entry.2.value.entries
      refine ⟨h.sorted.insertAll _, fun name => ?_, ?_⟩
      · have hlast := Named.last?_eq_find? hsorted.nodup name
        rw [Named.find?_insertAll] at hlast
        rw [RawResults.get?, RawResults.insertAll, Named.find?_insertAll, hentries, hlast,
          aggregationEntries_append, if_pos hname, Named.last?_append, ← h.results name]
        simp [Named.find?, RawResults.get?]
      · have hskip : isUnknown entry = false := by simp [isUnknown, hname, knownNames]
        rw [h.unknown, List.filter_append, List.filter_cons_of_neg (by simp [hskip])]
        simp
  | unknown hname hvalue =>
      have hspan := Except.ok.inj ((Span.ofRaw_value entry.2).symm.trans hvalue)
      have hother : entry.1 ≠ "aggregations" := fun hsame => hname (by simp [hsame, knownNames])
      have hkeep : isUnknown entry = true := by simpa [isUnknown] using hname
      refine ⟨h.sorted, fun name => ?_, ?_⟩
      · rw [aggregationEntries_append, if_neg hother, List.append_nil]
        exact h.results name
      · rw [List.reverse_cons, h.unknown, List.filter_append, List.filter_cons_of_pos hkeep,
          ← hspan]
        rfl

theorem decodeBody_decoder (body : ObjectText) :
    decodeBody decoder (Symbol.ofBytes body.bytes) =
      Progress.finish <$> run (step memberDepth) body.entries {} := by
  have hobject := body.decodeBody_object "a search response object" step {}
  obtain ⟨members, -, hdecode⟩ := body.exists_decodeBody
  rw [hdecode] at hobject ⊢
  rw [decoder, hobject, memberDepth]

theorem ofBytes_eq_ok_iff {body : ObjectText} {response : SearchResponse} :
    ofBytes body.bytes = .ok response ↔
      ∃ progress, run (step memberDepth) body.entries {} = .ok progress ∧
        progress.finish = response := by
  rw [ofBytes, decodeBody_decoder]
  cases run (step memberDepth) body.entries {} with
  | error fault => simp
  | ok progress => simp

/-- A response that was read gathers the named results and reflects the members of its body. -/
theorem reflects_of_run {entries : List (String × Span)} {progress : Progress}
    (hrun : run (step memberDepth) entries {} = .ok progress) :
    progress.finish.Reflects entries ∧ Named.Sorted progress.finish.aggregations.entries := by
  have hgathered : progress.Gathered entries :=
    run_induction (motive := fun done progress => progress.Gathered done)
      (fun done state entry next hdone hnext => hdone.step (steps_of_step hnext))
      (show Progress.Gathered [] {} from ⟨Named.Sorted.nil, fun _ => rfl, rfl⟩) hrun
  refine ⟨⟨?_, ?_, ?_, ?_, ?_, ?_, fun name => ?_⟩, ?_⟩
  · exact run_field (fun _ _ _ _ h => (steps_of_step h).setsFields.took) hrun
  · exact run_field (fun _ _ _ _ h => (steps_of_step h).setsFields.timedOut) hrun
  · exact run_field (fun _ _ _ _ h => (steps_of_step h).setsFields.shards) hrun
  · exact run_field (fun _ _ _ _ h => (steps_of_step h).setsFields.hits) hrun
  · exact run_field (fun _ _ _ _ h => (steps_of_step h).setsFields.error) hrun
  · exact run_field (fun _ _ _ _ h => (steps_of_step h).setsFields.status) hrun
  · rw [← hgathered.results name, ← hgathered.unknown]
    exact RawResults.get?_foldl_insertNew _ _ name
  · exact RawResults.sorted_foldl_insertNew hgathered.sorted _

/-! ## The order of members -/

/-- Among distinct names there is one `aggregations` member at most. -/
theorem aggregationEntries_of_nodup {entries : List (String × Span)}
    (h : (entries.map Prod.fst).Nodup) :
    aggregationEntries entries =
      (Named.find? "aggregations" entries).elim [] fun span => span.value.entries := by
  induction entries with
  | nil => rfl
  | cons entry rest ih =>
      obtain ⟨hentry, hrest⟩ := List.nodup_cons.1 h
      rw [Named.find?_cons, aggregationEntries, List.flatMap_cons, ← aggregationEntries, ih hrest]
      by_cases hname : entry.1 = "aggregations"
      · have hnone : Named.find? "aggregations" rest = none :=
          Named.find?_eq_none fun other hother hsame =>
            hentry (List.mem_map.2 ⟨other, hother, hsame.trans hname.symm⟩)
        simp [hname, hnone]
      · simp [hname]

/-- Members with distinct names determine the response, in whatever order they stand. -/
theorem Reflects.unique {first second : SearchResponse} {entries others : List (String × Span)}
    (hfirst : first.Reflects entries) (hsecond : second.Reflects others)
    (hsorted : Named.Sorted first.aggregations.entries)
    (hsorted' : Named.Sorted second.aggregations.entries) (hperm : entries.Perm others)
    (hnames : (entries.map Prod.fst).Nodup) : first = second := by
  have hothers : (others.map Prod.fst).Nodup := (hperm.map Prod.fst).nodup hnames
  have hfind := Named.find?_eq_of_perm hperm hnames
  have hlast (name : String) : Named.last? name entries = Named.last? name others := by
    rw [Named.last?_eq_find? hnames, Named.last?_eq_find? hothers, hfind]
  have hunknown := Named.find?_eq_of_perm (hperm.filter isUnknown)
    (hnames.sublist (List.filter_sublist.map Prod.fst))
  -- the names of results increase, so results that agree under each name are equal
  have hresults : first.aggregations.entries = second.aggregations.entries := by
    refine Named.ext_of_find? hsorted hsorted' fun name => ?_
    have hname := hfirst.results name
    rw [aggregationEntries_of_nodup hnames, hfind, ← aggregationEntries_of_nodup hothers,
      hunknown, ← hsecond.results name] at hname
    exact hname
  obtain ⟨_, _, _, _, _, _, ⟨_⟩⟩ := first
  obtain ⟨_, _, _, _, _, _, ⟨_⟩⟩ := second
  obtain rfl := (hlast "took" ▸ hfirst.took).unique hsecond.took
  obtain rfl := (hlast "timed_out" ▸ hfirst.timedOut).unique hsecond.timedOut
  obtain rfl := (hlast "_shards" ▸ hfirst.shards).unique hsecond.shards
  obtain rfl := (hlast "hits" ▸ hfirst.hits).unique hsecond.hits
  obtain rfl := (hlast "error" ▸ hfirst.error).unique hsecond.error
  obtain rfl := (hlast "status" ▸ hfirst.status).unique hsecond.status
  cases hresults
  rfl

/-! ## Bodies -/

/-- A body is accepted when each of its members is. -/
theorem ofBytes_isOk_iff (body : ObjectText) :
    (∃ response, ofBytes body.bytes = .ok response) ↔
      ∀ entry ∈ body.entries, Accepts memberDepth entry.1 entry.2.value := by
  rw [← run_isOk_iff (step_isOk_iff memberDepth) body.entries {}]
  constructor
  · rintro ⟨response, hresponse⟩
    obtain ⟨progress, hrun, -⟩ := ofBytes_eq_ok_iff.1 hresponse
    exact ⟨progress, hrun⟩
  · rintro ⟨progress, hrun⟩
    exact ⟨progress.finish, ofBytes_eq_ok_iff.2 ⟨progress, hrun, rfl⟩⟩

theorem reflects_of_ofBytes {body : ObjectText} {response : SearchResponse}
    (h : ofBytes body.bytes = .ok response) :
    response.Reflects body.entries ∧ Named.Sorted response.aggregations.entries := by
  obtain ⟨progress, hrun, rfl⟩ := ofBytes_eq_ok_iff.1 h
  exact reflects_of_run hrun

/-- Bodies with the same members under distinct names give the same response, or none both. -/
theorem toOption_ofBytes_of_perm {body other : ObjectText} (hperm : body.members.Perm other.members)
    (hnames : (body.members.map MemberText.name).Nodup) :
    (ofBytes other.bytes).toOption = (ofBytes body.bytes).toOption := by
  have hentries : body.entries.Perm other.entries := hperm.map MemberText.entry
  have hdistinct : (body.entries.map Prod.fst).Nodup := by
    rwa [ObjectText.entries, List.map_map]
  have haccepts := (ofBytes_isOk_iff body).trans
    ((forall_congr' fun _ => imp_congr_left hentries.mem_iff).trans (ofBytes_isOk_iff other).symm)
  cases hbody : ofBytes body.bytes with
  | error fault =>
      cases hother : ofBytes other.bytes with
      | error fault' => rfl
      | ok response =>
          obtain ⟨found, hfound⟩ := haccepts.2 ⟨response, hother⟩
          rw [hbody] at hfound
          cases hfound
  | ok response =>
      obtain ⟨found, hfound⟩ := haccepts.1 ⟨response, hbody⟩
      obtain ⟨hreflects, hsorted⟩ := reflects_of_ofBytes hbody
      obtain ⟨hreflects', hsorted'⟩ := reflects_of_ofBytes hfound
      rw [hfound, hreflects.unique hreflects' hsorted hsorted' hentries hdistinct]

/-- An `aggregations` member that was read is an object text, and its entries are those written in
it. -/
theorem exists_aggregations {body : ObjectText} {response : SearchResponse}
    (h : ofBytes body.bytes = .ok response) {member : MemberText} (hmember : member ∈ body.members)
    (hname : member.name = "aggregations") :
    ∃ object : ObjectText, member.value.core = object.text ∧
      member.value.span.value.entries = object.entries := by
  have haccepts := (ofBytes_isOk_iff body).1 ⟨response, h⟩ member.entry
    (List.mem_map_of_mem hmember)
  obtain ⟨-, -, -, -, -, -, hresults⟩ := haccepts
  obtain ⟨results, hresults⟩ := hresults hname
  obtain ⟨less, members, hvalue, hwalk⟩ := Decode.object_eq_ok hresults
  obtain ⟨object, hcore⟩ := member.value.exists_objectText hvalue (Members.named_of_walk hwalk)
  exact ⟨object, hcore, PaddedText.entries_span hcore⟩

/-- What a search response reads from an object text. It fails only when a known member does not
decode; otherwise each field is its last member or the default, each name holds the last entry of
the `aggregations` or else the first unknown member, and every span is the text of its member
verbatim. When the names are distinct, the order of the members does not matter. The count of
milliseconds is an integer of sixty-four bits without a sign, and the status one of sixteen bits or
`null`. -/
theorem reading (body : ObjectText) :
    ((∃ response, ofBytes body.bytes = .ok response) ↔
        ∀ entry ∈ body.entries, Accepts memberDepth entry.1 entry.2.value) ∧
      (∀ response, ofBytes body.bytes = .ok response →
        response.Reflects body.entries ∧
          ∀ member ∈ body.members, member.name = "aggregations" →
            ∃ object : ObjectText, member.value.core = object.text ∧
              member.value.span.value.entries = object.entries ∧
              ∀ inner ∈ object.members, inner.value.span.chars = inner.value.core) ∧
      (∀ member ∈ body.members,
        Span.ofSymbols (Symbol.ofChars member.value.core) = .ok member.value.span ∧
          member.value.span.chars = member.value.core) ∧
      (∀ other : ObjectText, body.members.Perm other.members →
        (body.members.map MemberText.name).Nodup →
          (ofBytes other.bytes).toOption = (ofBytes body.bytes).toOption) ∧
      (∀ (written : Raw) (took : Nat), Decode.nat64 memberDepth written = .ok took ↔
        written.IsInteger took ∧ took < 2 ^ 64) ∧
      ∀ (written : Raw) (status : Option Nat),
        Decode.optional Decode.nat16 memberDepth written = .ok status ↔
          written = .null ∧ status = none ∨
            ∃ code : Nat, status = some code ∧ written.IsInteger code ∧ code < 2 ^ 16 := by
  refine ⟨ofBytes_isOk_iff body, fun response h => ⟨(reflects_of_ofBytes h).1, ?_⟩, ?_,
    fun _ hperm hnames => toOption_ofBytes_of_perm hperm hnames,
    fun _ _ => Decode.nat64_eq_ok_iff, fun _ _ => Decode.optional_nat16_eq_ok_iff⟩
  · intro member hmember hname
    obtain ⟨object, hcore, hentries⟩ := exists_aggregations h hmember hname
    exact ⟨object, hcore, hentries, fun inner _ => inner.value.span_chars⟩
  · intro member _
    exact ⟨member.value.ofSymbols_core, member.value.span_chars⟩

end SearchResponse

end SearchWire
