import SearchWire.Bulk.Response
import SearchWire.Proofs.Json.Record

/-!
# What an outcome reads from its body

The body of a bulk item has nine fields, and the status is the only one that it
must have. `ItemBody.WellFormed` says which members make a body, and
`ItemBody.Reflects` what the response then holds. A body may also be an array
that lists its fields in order, so `ItemBody.Writes` gives the members that a
text writes in either form, and `ItemBody.decode_eq_ok_iff` speaks of both.
-/

namespace SearchWire

namespace ItemBody

/-- The fields of an outcome, in the order in which an array lists them. -/
def fieldNames : List String :=
  ["_index", "_id", "_version", "result", "_shards", "_seq_no", "_primary_term", "status", "error"]

/-- A member is well formed: it decodes as the type of its field, if it is a field. -/
def Accepts (depth : Nat) (name : String) (value : Raw) : Prop :=
  (name = "_index" → ∃ index, Decode.string depth value = .ok index) ∧
    (name = "_id" → ∃ id, Decode.optional Decode.string depth value = .ok id) ∧
    (name = "_version" → ∃ version, Decode.optional Decode.nat64 depth value = .ok version) ∧
    (name = "result" → ∃ result, Decode.optional Decode.string depth value = .ok result) ∧
    (name = "_shards" → ∃ shards, Decode.optional Decode.shardStats depth value = .ok shards) ∧
    (name = "_seq_no" → ∃ number, Decode.optional Decode.nat64 depth value = .ok number) ∧
    (name = "_primary_term" → ∃ term, Decode.optional Decode.nat64 depth value = .ok term) ∧
    (name = "status" → ∃ status, Decode.nat16 depth value = .ok status) ∧
    (name = "error" → ∃ error, Decode.optional Decode.storeError depth value = .ok error)

/-- The members of a body are well formed, no field comes twice, and the status is there. -/
structure WellFormed (depth : Nat) (entries : List (String × Span)) : Prop where
  accepts : ∀ entry ∈ entries, Accepts depth entry.1 entry.2.value
  once : NamedOnce fieldNames entries
  status : "status" ∈ entries.map Prod.fst

/-- A response holds what the members of its body say: each field is its member, and a field
without one is empty. -/
structure Reflects (depth : Nat) (response : ActionResponse) (entries : List (String × Span)) :
    Prop where
  index : TakenFrom (Decode.string depth) "" response.index (Named.last? "_index" entries)
  id : TakenFrom (Decode.optional Decode.string depth) none response.id (Named.last? "_id" entries)
  version : TakenFrom (Decode.optional Decode.nat64 depth) none response.version
    (Named.last? "_version" entries)
  result : TakenFrom (Decode.optional Decode.string depth) none response.result
    (Named.last? "result" entries)
  shards : TakenFrom (Decode.optional Decode.shardStats depth) none response.shards
    (Named.last? "_shards" entries)
  seqNo : TakenFrom (Decode.optional Decode.nat64 depth) none response.seqNo
    (Named.last? "_seq_no" entries)
  primaryTerm : TakenFrom (Decode.optional Decode.nat64 depth) none response.primaryTerm
    (Named.last? "_primary_term" entries)
  status : ∃ span, Named.last? "status" entries = some span ∧
    Decode.nat16 depth span.value = .ok response.status
  error : TakenFrom (Decode.optional Decode.storeError depth) none response.error
    (Named.last? "error" entries)

/-- An operation and the members of a body determine the response. -/
theorem Reflects.unique {depth : Nat} {first second : ActionResponse}
    {entries : List (String × Span)} (hfirst : Reflects depth first entries)
    (hsecond : Reflects depth second entries) (haction : first.action = second.action) :
    first = second := by
  obtain ⟨span, hspan, hstatus⟩ := hfirst.status
  obtain ⟨span', hspan', hstatus'⟩ := hsecond.status
  obtain rfl := Option.some.inj (hspan.symm.trans hspan')
  have hsame := Except.ok.inj (hstatus.symm.trans hstatus')
  obtain ⟨⟩ := first
  obtain ⟨⟩ := second
  obtain rfl := haction
  obtain rfl := hsame
  obtain rfl := hfirst.index.unique hsecond.index
  obtain rfl := hfirst.id.unique hsecond.id
  obtain rfl := hfirst.version.unique hsecond.version
  obtain rfl := hfirst.result.unique hsecond.result
  obtain rfl := hfirst.shards.unique hsecond.shards
  obtain rfl := hfirst.seqNo.unique hsecond.seqNo
  obtain rfl := hfirst.primaryTerm.unique hsecond.primaryTerm
  obtain rfl := hfirst.error.unique hsecond.error
  rfl

/-! ## One member -/

/-- A field has not been set. -/
def Unset (fields : Partial) (name : String) : Prop :=
  (name = "_index" → fields.index = none) ∧ (name = "_id" → fields.id = none) ∧
    (name = "_version" → fields.version = none) ∧ (name = "result" → fields.result = none) ∧
    (name = "_shards" → fields.shards = none) ∧ (name = "_seq_no" → fields.seqNo = none) ∧
    (name = "_primary_term" → fields.primaryTerm = none) ∧
    (name = "status" → fields.status = none) ∧ (name = "error" → fields.error = none)

/-- What a member does to the fields: it sets the one that it names, which must be unset, and no
other. -/
structure SetsFields (depth : Nat) (fields : Partial) (name : String) (value : Raw)
    (next : Partial) : Prop where
  index : SetsOnce (·.index) "_index" (Decode.string depth) fields name value next
  id : SetsOnce (·.id) "_id" (Decode.optional Decode.string depth) fields name value next
  version : SetsOnce (·.version) "_version" (Decode.optional Decode.nat64 depth) fields name value
    next
  result : SetsOnce (·.result) "result" (Decode.optional Decode.string depth) fields name value next
  shards : SetsOnce (·.shards) "_shards" (Decode.optional Decode.shardStats depth) fields name value
    next
  seqNo : SetsOnce (·.seqNo) "_seq_no" (Decode.optional Decode.nat64 depth) fields name value next
  primaryTerm : SetsOnce (·.primaryTerm) "_primary_term" (Decode.optional Decode.nat64 depth) fields
    name value next
  status : SetsOnce (·.status) "status" (Decode.nat16 depth) fields name value next
  error : SetsOnce (·.error) "error" (Decode.optional Decode.storeError depth) fields name value
    next

/-- Reading a member sets the field that it names and no other. -/
theorem setsFields_of_step {depth : Nat} {fields next : Partial} {name : String} {value : Raw}
    (h : step depth fields name value = .ok next) : SetsFields depth fields name value next := by
  by_cases hfield : name ∈ fieldNames
  · simp only [fieldNames, List.mem_cons, List.not_mem_nil, or_false] at hfield
    rcases hfield with rfl | rfl | rfl | rfl | rfl | rfl | rfl | rfl | rfl
    all_goals
      simp only [step, String.reduceEq, if_true, if_false, Outcome.pure_eq_ok] at h
      obtain ⟨slot, hslot, rfl⟩ := Outcome.bind_ok_eq_ok_iff.1 h
      obtain ⟨hunset, found, hfound, rfl⟩ := Decode.once_eq_ok_iff.1 hslot
      constructor <;> simp [SetsOnce, hunset, hfound]
  · simp only [fieldNames, List.mem_cons, List.not_mem_nil, or_false, not_or] at hfield
    simp only [step, hfield, if_false, Outcome.pure_eq_ok] at h
    obtain ⟨_, -, hnext⟩ := Outcome.bind_eq_ok_iff.1 h
    cases hnext
    constructor <;> simp [SetsOnce, hfield]

/-- Reading a member succeeds when the member is well formed and does not name a field that has
been set. -/
theorem step_isOk_iff (depth : Nat) (fields : Partial) (name : String) (span : Span) :
    (∃ next, step depth fields name span.value = .ok next) ↔
      Accepts depth name span.value ∧ (name ∈ fieldNames → Unset fields name) := by
  by_cases hfield : name ∈ fieldNames
  · simp only [hfield, true_implies]
    simp only [fieldNames, List.mem_cons, List.not_mem_nil, or_false] at hfield
    rcases hfield with rfl | rfl | rfl | rfl | rfl | rfl | rfl | rfl | rfl
    all_goals
      simp only [step, String.reduceEq, if_true, if_false, Outcome.pure_eq_ok,
        Outcome.exists_bind_ok_eq_ok_iff, Decode.exists_once_iff]
      simp [Accepts, Unset, and_comm]
  · have hskip : span.value.skip = .ok () := by rw [Raw.skip, span.intact]
    simp only [hfield, false_implies, and_true]
    simp only [fieldNames, List.mem_cons, List.not_mem_nil, or_false, not_or] at hfield
    simp [step, Accepts, hfield, hskip]

/-- Behind a member the fields are unset that were so before and that it does not name. -/
theorem unset_iff_of_step {depth : Nat} {fields next : Partial} {name : String} {value : Raw}
    (h : step depth fields name value = .ok next) {field : String} (hfield : field ∈ fieldNames) :
    Unset next field ↔ Unset fields field ∧ name ≠ field := by
  have hsets := setsFields_of_step h
  simp only [fieldNames, List.mem_cons, List.not_mem_nil, or_false] at hfield
  rcases hfield with rfl | rfl | rfl | rfl | rfl | rfl | rfl | rfl | rfl
  · simpa [Unset] using hsets.index.unset_iff
  · simpa [Unset] using hsets.id.unset_iff
  · simpa [Unset] using hsets.version.unset_iff
  · simpa [Unset] using hsets.result.unset_iff
  · simpa [Unset] using hsets.shards.unset_iff
  · simpa [Unset] using hsets.seqNo.unset_iff
  · simpa [Unset] using hsets.primaryTerm.unset_iff
  · simpa [Unset] using hsets.status.unset_iff
  · simpa [Unset] using hsets.error.unset_iff

/-! ## Bodies that are objects -/

/-- The fields that a run has set are those of the members. -/
theorem reflects_of_run {depth : Nat} {entries : List (String × Span)} {fields : Partial}
    {status : Nat} (hrun : run (step depth) entries {} = .ok fields)
    (hstatus : fields.status = some status) (action : ActionKind) :
    Reflects depth (fields.finish status action) entries where
  index := takenFrom_iff_slot.2
    ⟨_, run_field (fun _ _ _ _ h => (setsFields_of_step h).index.setsField) hrun, rfl⟩
  id := takenFrom_iff_slot.2
    ⟨_, run_field (fun _ _ _ _ h => (setsFields_of_step h).id.setsField) hrun, rfl⟩
  version := takenFrom_iff_slot.2
    ⟨_, run_field (fun _ _ _ _ h => (setsFields_of_step h).version.setsField) hrun, rfl⟩
  result := takenFrom_iff_slot.2
    ⟨_, run_field (fun _ _ _ _ h => (setsFields_of_step h).result.setsField) hrun, rfl⟩
  shards := takenFrom_iff_slot.2
    ⟨_, run_field (fun _ _ _ _ h => (setsFields_of_step h).shards.setsField) hrun, rfl⟩
  seqNo := takenFrom_iff_slot.2
    ⟨_, run_field (fun _ _ _ _ h => (setsFields_of_step h).seqNo.setsField) hrun, rfl⟩
  primaryTerm := takenFrom_iff_slot.2
    ⟨_, run_field (fun _ _ _ _ h => (setsFields_of_step h).primaryTerm.setsField) hrun, rfl⟩
  status := by
    have htaken := run_field (fun _ _ _ _ h => (setsFields_of_step h).status.setsField) hrun
    rw [hstatus] at htaken
    cases hspan : Named.last? "status" entries with
    | none =>
        rw [hspan] at htaken
        cases htaken
    | some span =>
        rw [hspan] at htaken
        obtain ⟨found, hfound, hsame⟩ := Outcome.map_eq_ok_iff.1 htaken
        cases hsame
        exact ⟨span, rfl, hfound⟩
  error := takenFrom_iff_slot.2
    ⟨_, run_field (fun _ _ _ _ h => (setsFields_of_step h).error.setsField) hrun, rfl⟩

/-- The members of a run that succeeds are well formed, and no field comes twice. -/
theorem exists_run_iff (depth : Nat) (entries : List (String × Span)) :
    (∃ fields, run (step depth) entries {} = .ok fields) ↔
      (∀ entry ∈ entries, Accepts depth entry.1 entry.2.value) ∧ NamedOnce fieldNames entries := by
  have hstart : ∀ entry ∈ entries, entry.1 ∈ fieldNames → Unset {} entry.1 :=
    fun _ _ _ => by simp [Unset]
  rw [run_isOk_iff_once (step_isOk_iff depth)
    (fun _ _ _ _ h field hfield => unset_iff_of_step h hfield) entries {}]
  exact and_congr_right fun _ => and_iff_left hstart

/-- A run over the members of a body sets the status. -/
theorem WellFormed.exists_run {depth : Nat} {entries : List (String × Span)}
    (h : WellFormed depth entries) :
    ∃ fields status, run (step depth) entries {} = .ok fields ∧ fields.status = some status := by
  obtain ⟨fields, hrun⟩ := (exists_run_iff depth entries).2 ⟨h.accepts, h.once⟩
  obtain ⟨⟨name, span⟩, hentry, hname⟩ := List.mem_map.1 h.status
  obtain rfl : name = "status" := hname
  have htaken := run_field (fun _ _ _ _ h => (setsFields_of_step h).status.setsField) hrun
  rw [h.once.last?_eq hentry (by simp [fieldNames])] at htaken
  obtain ⟨status, -, hstatus⟩ := Outcome.map_eq_ok_iff.1 htaken
  exact ⟨fields, status, hrun, hstatus.symm⟩

/-- The members of a body give a response for any operation. -/
theorem WellFormed.exists_reflects {depth : Nat} {entries : List (String × Span)}
    (h : WellFormed depth entries) (action : ActionKind) :
    ∃ response, response.action = action ∧ Reflects depth response entries := by
  obtain ⟨fields, status, hrun, hstatus⟩ := h.exists_run
  exact ⟨fields.finish status action, rfl, reflects_of_run hrun hstatus action⟩

/-- A response that reflects members holds a status from one of them. -/
theorem Reflects.mem_status {depth : Nat} {response : ActionResponse}
    {entries : List (String × Span)} (h : Reflects depth response entries) :
    "status" ∈ entries.map Prod.fst := by
  obtain ⟨span, hspan, -⟩ := h.status
  exact List.mem_map.2 ⟨_, List.mem_reverse.1 (Named.mem_of_find? hspan), rfl⟩

/-- The outcome of an operation is read from an object whose members are well formed, and it
reflects them. -/
theorem ofMembers_eq_ok_iff {action : ActionKind} {depth : Nat} {members : Members}
    {entries : List (String × Span)} (hlists : members.Lists entries) {response : ActionResponse} :
    ofMembers action depth members = .ok response ↔
      WellFormed depth entries ∧ response.action = action ∧ Reflects depth response entries := by
  have hsound {found : ActionResponse} (h : ofMembers action depth members = .ok found) :
      WellFormed depth entries ∧ found.action = action ∧ Reflects depth found entries := by
    rw [ofMembers, hlists.walk_eq, Outcome.bind_eq_ok_iff] at h
    obtain ⟨fields, hrun, h⟩ := h
    obtain ⟨status, hstatus, h⟩ := Outcome.bind_eq_ok_iff.1 h
    cases h
    obtain ⟨haccepts, honce⟩ := (exists_run_iff depth entries).1 ⟨fields, hrun⟩
    have hreflects := reflects_of_run hrun (Decode.require_eq_ok_iff.1 hstatus) action
    exact ⟨⟨haccepts, honce, hreflects.mem_status⟩, rfl, hreflects⟩
  refine ⟨hsound, ?_⟩
  rintro ⟨hwell, haction, hreflects⟩
  obtain ⟨fields, status, hrun, hstatus⟩ := hwell.exists_run
  have hok : ofMembers action depth members = .ok (fields.finish status action) := by
    rw [ofMembers, hlists.walk_eq, hrun, Outcome.ok_bind, hstatus]
    rfl
  obtain ⟨-, haction', hreflects'⟩ := hsound hok
  rw [hok, hreflects'.unique hreflects (haction'.trans haction.symm)]

/-! ## Bodies that are arrays -/

/-- The names of the fields are distinct. -/
theorem nodup_fieldNames : fieldNames.Nodup := by
  decide

/-- Spans that are listed in the order of the fields are found under their names. -/
theorem last?_fieldNames (spans : List Span) (position : Nat) {name : String}
    (h : fieldNames[position]? = some name) :
    Named.last? name (fieldNames.zip spans) = spans[position]? :=
  Named.last?_zip nodup_fieldNames spans h

/-- A response reflects spans that are listed in the order of the fields when each field comes from
the span at its position. -/
theorem reflects_zip_iff {depth : Nat} {response : ActionResponse} {spans : List Span} :
    Reflects depth response (fieldNames.zip spans) ↔
      TakenFrom (Decode.string depth) "" response.index spans[0]? ∧
        TakenFrom (Decode.optional Decode.string depth) none response.id spans[1]? ∧
        TakenFrom (Decode.optional Decode.nat64 depth) none response.version spans[2]? ∧
        TakenFrom (Decode.optional Decode.string depth) none response.result spans[3]? ∧
        TakenFrom (Decode.optional Decode.shardStats depth) none response.shards spans[4]? ∧
        TakenFrom (Decode.optional Decode.nat64 depth) none response.seqNo spans[5]? ∧
        TakenFrom (Decode.optional Decode.nat64 depth) none response.primaryTerm spans[6]? ∧
        (∃ span, spans[7]? = some span ∧ Decode.nat16 depth span.value = .ok response.status) ∧
        TakenFrom (Decode.optional Decode.storeError depth) none response.error spans[8]? := by
  rw [← last?_fieldNames spans 0 rfl, ← last?_fieldNames spans 1 rfl,
    ← last?_fieldNames spans 2 rfl, ← last?_fieldNames spans 3 rfl,
    ← last?_fieldNames spans 4 rfl, ← last?_fieldNames spans 5 rfl,
    ← last?_fieldNames spans 6 rfl, ← last?_fieldNames spans 7 rfl,
    ← last?_fieldNames spans 8 rfl]
  constructor
  · rintro ⟨hindex, hid, hversion, hresult, hshards, hseqNo, hprimaryTerm, hstatus, herror⟩
    exact ⟨hindex, hid, hversion, hresult, hshards, hseqNo, hprimaryTerm, hstatus, herror⟩
  · rintro ⟨hindex, hid, hversion, hresult, hshards, hseqNo, hprimaryTerm, hstatus, herror⟩
    exact ⟨hindex, hid, hversion, hresult, hshards, hseqNo, hprimaryTerm, hstatus, herror⟩

/-- The outcome of an operation is read from an array with an item for each field up to the status
at least, and it reflects them. -/
theorem ofItems_eq_ok_iff {action : ActionKind} {depth : Nat} {items : Items} {spans : List Span}
    (hlists : items.Lists spans) {response : ActionResponse} :
    (∃ rest, ofItems action depth items = .ok (response, rest) ∧ Decode.finish rest = .ok ()) ↔
      spans.length ≤ fieldNames.length ∧ response.action = action ∧
        Reflects depth response (fieldNames.zip spans) := by
  rw [← List.drop_zero (l := spans)] at hlists
  obtain ⟨items, hlists, hindex, -⟩ := hlists.next
  obtain ⟨items, hlists, hid, -⟩ := hlists.next
  obtain ⟨items, hlists, hversion, -⟩ := hlists.next
  obtain ⟨items, hlists, hresult, -⟩ := hlists.next
  obtain ⟨items, hlists, hshards, -⟩ := hlists.next
  obtain ⟨items, hlists, hseqNo, -⟩ := hlists.next
  obtain ⟨items, hlists, hprimaryTerm, -⟩ := hlists.next
  obtain ⟨items, hlists, -, hstatus⟩ := hlists.next
  obtain ⟨items, hlists, herror, -⟩ := hlists.next
  have hfinish := hlists.finish_iff.trans List.drop_eq_nil_iff
  simp only [ofItems, hindex, hid, hversion, hresult, hshards, hseqNo, hprimaryTerm, hstatus,
    herror, Outcome.pure_eq_ok, Except.ok.injEq, Prod.mk.injEq, reflects_zip_iff]
  constructor
  · rintro ⟨_, ⟨index, hindex, id, hid, version, hversion, result, hresult, shards, hshards, seqNo,
      hseqNo, term, hterm, status, hstatus, error, herror, rfl, rfl⟩, hend⟩
    exact ⟨hfinish.1 hend, rfl, takenFrom_iff_slot.2 ⟨index, hindex, rfl⟩,
      takenFrom_iff_slot.2 ⟨id, hid, rfl⟩, takenFrom_iff_slot.2 ⟨version, hversion, rfl⟩,
      takenFrom_iff_slot.2 ⟨result, hresult, rfl⟩, takenFrom_iff_slot.2 ⟨shards, hshards, rfl⟩,
      takenFrom_iff_slot.2 ⟨seqNo, hseqNo, rfl⟩, takenFrom_iff_slot.2 ⟨term, hterm, rfl⟩,
      hstatus, takenFrom_iff_slot.2 ⟨error, herror, rfl⟩⟩
  · rintro ⟨hlength, haction, htaken⟩
    obtain ⟨hindex, hid, hversion, hresult, hshards, hseqNo, hterm, hstatus, herror⟩ := htaken
    obtain ⟨index, hindex, hindex'⟩ := takenFrom_iff_slot.1 hindex
    obtain ⟨id, hid, hid'⟩ := takenFrom_iff_slot.1 hid
    obtain ⟨version, hversion, hversion'⟩ := takenFrom_iff_slot.1 hversion
    obtain ⟨result, hresult, hresult'⟩ := takenFrom_iff_slot.1 hresult
    obtain ⟨shards, hshards, hshards'⟩ := takenFrom_iff_slot.1 hshards
    obtain ⟨seqNo, hseqNo, hseqNo'⟩ := takenFrom_iff_slot.1 hseqNo
    obtain ⟨term, hterm, hterm'⟩ := takenFrom_iff_slot.1 hterm
    obtain ⟨error, herror, herror'⟩ := takenFrom_iff_slot.1 herror
    refine ⟨items, ⟨index, hindex, id, hid, version, hversion, result, hresult, shards, hshards,
      seqNo, hseqNo, term, hterm, response.status, hstatus, error, herror, ?_, rfl⟩,
      hfinish.2 hlength⟩
    rw [Partial.finish, hindex', hid', hversion', hresult', hshards', hseqNo', hterm', herror',
      ← haction]

/-! ## Bodies in either form -/

/-- The members that a text writes: those of an object, or the items of an array under the names of
the fields in order. -/
inductive Writes (text : PaddedText) : List (String × Span) → Prop where
  | object {object : ObjectText} (h : text.core = object.text) : Writes text object.entries
  | array {array : ArrayText} (h : text.core = array.text)
      (hlength : array.items.length ≤ fieldNames.length) :
      Writes text (fieldNames.zip (array.items.map PaddedText.span))

/-- Members that a response reflects are well formed when no field comes twice. -/
theorem Reflects.wellFormed {depth : Nat} {response : ActionResponse}
    {entries : List (String × Span)} (h : Reflects depth response entries)
    (honce : NamedOnce fieldNames entries) : WellFormed depth entries := by
  refine ⟨fun entry hentry => ?_, honce, h.mem_status⟩
  have hlast {field : String} (hname : entry.1 = field) (hfield : field ∈ fieldNames) :
      Named.last? field entries = some entry.2 := by
    subst hname
    exact honce.last?_eq hentry hfield
  refine ⟨fun hname => ⟨_, h.index.decodes (hlast hname (by simp [fieldNames]))⟩,
    fun hname => ⟨_, h.id.decodes (hlast hname (by simp [fieldNames]))⟩,
    fun hname => ⟨_, h.version.decodes (hlast hname (by simp [fieldNames]))⟩,
    fun hname => ⟨_, h.result.decodes (hlast hname (by simp [fieldNames]))⟩,
    fun hname => ⟨_, h.shards.decodes (hlast hname (by simp [fieldNames]))⟩,
    fun hname => ⟨_, h.seqNo.decodes (hlast hname (by simp [fieldNames]))⟩,
    fun hname => ⟨_, h.primaryTerm.decodes (hlast hname (by simp [fieldNames]))⟩,
    fun hname => ?_,
    fun hname => ⟨_, h.error.decodes (hlast hname (by simp [fieldNames]))⟩⟩
  obtain ⟨span, hspan, hvalue⟩ := h.status
  obtain rfl := Option.some.inj (hspan.symm.trans (hlast hname (by simp [fieldNames])))
  exact ⟨_, hvalue⟩

/-- The outcome of an operation is read from a text that writes well-formed members, and it
reflects them. -/
theorem decode_eq_ok_iff {text : PaddedText} {action : ActionKind} {response : ActionResponse} :
    text.span.decode (decoder action) = .ok response ↔
      ∃ entries, Writes text entries ∧ WellFormed (nestingLimit - 1) entries ∧
        response.action = action ∧ Reflects (nestingLimit - 1) response entries := by
  constructor
  · intro h
    obtain ⟨depth, hdepth, h⟩ := Decode.record_eq_ok h
    obtain rfl : depth = nestingLimit - 1 := by omega
    rcases h with ⟨members, hvalue, h⟩ | ⟨items, hvalue, rest, hitems, hfinish⟩
    · obtain ⟨fields, hwalk, -⟩ := Outcome.bind_eq_ok_iff.1 h
      obtain ⟨object, hcore⟩ := text.exists_objectText hvalue (Members.named_of_walk hwalk)
      obtain ⟨members', hvalue', hlists⟩ := text.exists_span_value hcore
      obtain rfl := Raw.object.inj (hvalue.symm.trans hvalue')
      exact ⟨_, .object hcore, (ofMembers_eq_ok_iff hlists).1 h⟩
    · obtain ⟨array, hcore⟩ := text.exists_arrayText hvalue
      obtain ⟨items', hvalue', hlists⟩ := text.exists_span_items hcore
      obtain rfl := Raw.array.inj (hvalue.symm.trans hvalue')
      obtain ⟨hlength, haction, hreflects⟩ := (ofItems_eq_ok_iff hlists).1 ⟨rest, hitems, hfinish⟩
      rw [List.length_map] at hlength
      have honce : NamedOnce fieldNames (fieldNames.zip (array.items.map PaddedText.span)) :=
        .of_nodup (Named.nodup_zip nodup_fieldNames _) fieldNames
      exact ⟨_, .array hcore hlength, hreflects.wellFormed honce, haction, hreflects⟩
  · rintro ⟨entries, hwrites, hwell, haction, hreflects⟩
    cases hwrites with
    | object hcore =>
        obtain ⟨members, hvalue, hlists⟩ := text.exists_span_value hcore
        rw [Span.decode, hvalue]
        exact (ofMembers_eq_ok_iff hlists).2 ⟨hwell, haction, hreflects⟩
    | array hcore hlength =>
        obtain ⟨items, hvalue, hlists⟩ := text.exists_span_items hcore
        obtain ⟨rest, hitems, hfinish⟩ := (ofItems_eq_ok_iff hlists).2
          ⟨by rwa [List.length_map], haction, hreflects⟩
        rw [Span.decode, hvalue]
        exact Decode.record_array_eq_ok_iff.2 ⟨rest, hitems, hfinish⟩

/-- Whether a member is a field. -/
def isField (entry : String × Span) : Bool :=
  fieldNames.contains entry.1

/-- A member that is no field changes nothing. -/
theorem step_unknown {entry : String × Span} (h : isField entry = false) (depth : Nat)
    (fields : Partial) : step depth fields entry.1 entry.2.value = .ok fields := by
  have hskip : entry.2.value.skip = .ok () := by rw [Raw.skip, entry.2.intact]
  have hname : entry.1 ∉ fieldNames := by simpa [isField] using h
  simp only [fieldNames, List.mem_cons, List.not_mem_nil, or_false, not_or] at hname
  simp [step, hname, hskip]

/-- Objects with the same fields give the same outcome, whatever else is in them. -/
theorem decode_eq_of_fields_eq {text other : PaddedText} {body otherBody : ObjectText}
    (hbody : text.core = body.text) (hother : other.core = otherBody.text)
    (h : otherBody.entries.filter isField = body.entries.filter isField) (action : ActionKind) :
    other.span.decode (decoder action) = text.span.decode (decoder action) := by
  obtain ⟨members, hvalue, hlists⟩ := text.exists_span_value hbody
  obtain ⟨otherMembers, hvalue', hlists'⟩ := other.exists_span_value hother
  have hsame : ofMembers action (nestingLimit - 1) otherMembers =
      ofMembers action (nestingLimit - 1) members := by
    rw [ofMembers, ofMembers, hlists.walk_eq, hlists'.walk_eq,
      ← run_filter fun fields entry hentry => step_unknown hentry _ fields, h,
      run_filter fun fields entry hentry => step_unknown hentry _ fields]
  rw [Span.decode, Span.decode, hvalue, hvalue']
  exact hsame

end ItemBody

end SearchWire
