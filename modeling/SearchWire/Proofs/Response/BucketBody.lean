import SearchWire.Aggregation.Findings
import SearchWire.Proofs.Json.Compose
import SearchWire.Proofs.Json.ReadBack
import SearchWire.Proofs.Response.RawResults
import SearchWire.Proofs.Validation.Report
import SearchWire.Response.Bucket
import SearchWire.Search.Request

/-!
# What a bucket reads from its object

A bucket decodes nine members and keeps every other one as a span.
`Bucket.Steps` lists what one member can do to a bucket that is being read;
`Bucket.Reflects` says what the bucket holds after all of them. So the result of
a sub-aggregation is there under its name, verbatim, unless that name is one of
the nine: `Bucket.subResult_kept` says that it is kept under any other name, and
`Bucket.subResult_lost` that under one of these it is lost or spoils the bucket.
-/

namespace SearchWire

namespace Bucket

/-- The members of a bucket that are decoded. -/
def knownNames : List String :=
  ["key", "key_as_string", "doc_count", "from", "to", "from_as_string", "to_as_string",
    "doc_count_error_upper_bound", "sum_other_doc_count"]

/-- Whether a member is kept as a span. -/
def isSubResult (entry : String × Span) : Bool :=
  !knownNames.contains entry.1

/-! ## One member -/

/-- What one member of an object does to a bucket that is being read. -/
inductive Steps (depth : Nat) (bucket : Bucket) (name : String) (value : Raw) : Bucket → Prop where
  | key {key : Json} (hname : name = "key") (h : Decode.json depth value = .ok key) :
      Steps depth bucket name value { bucket with key := some key }
  | keyAsString {keyAsString : Option String} (hname : name = "key_as_string")
      (h : Decode.optional Decode.string depth value = .ok keyAsString) :
      Steps depth bucket name value { bucket with keyAsString }
  | docCount {docCount : Nat} (hname : name = "doc_count")
      (h : Decode.nat64 depth value = .ok docCount) :
      Steps depth bucket name value { bucket with docCount }
  | lower {lower : Option Binary64} (hname : name = "from")
      (h : Decode.optional Decode.double depth value = .ok lower) :
      Steps depth bucket name value { bucket with lower }
  | upper {upper : Option Binary64} (hname : name = "to")
      (h : Decode.optional Decode.double depth value = .ok upper) :
      Steps depth bucket name value { bucket with upper }
  | lowerAsString {lowerAsString : Option String} (hname : name = "from_as_string")
      (h : Decode.optional Decode.string depth value = .ok lowerAsString) :
      Steps depth bucket name value { bucket with lowerAsString }
  | upperAsString {upperAsString : Option String} (hname : name = "to_as_string")
      (h : Decode.optional Decode.string depth value = .ok upperAsString) :
      Steps depth bucket name value { bucket with upperAsString }
  | errorBound {docCountErrorUpperBound : Option Int} (hname : name = "doc_count_error_upper_bound")
      (h : Decode.optional Decode.int64 depth value = .ok docCountErrorUpperBound) :
      Steps depth bucket name value { bucket with docCountErrorUpperBound }
  | otherCount {sumOtherDocCount : Option Nat} (hname : name = "sum_other_doc_count")
      (h : Decode.optional Decode.nat64 depth value = .ok sumOtherDocCount) :
      Steps depth bucket name value { bucket with sumOtherDocCount }
  | subResult {span : Span} (hname : name ∉ knownNames) (h : Span.ofRaw value = .ok span) :
      Steps depth bucket name value { bucket with subResults := bucket.subResults.insert name span }

/-- Reading a member takes one of these steps. -/
theorem steps_of_step {depth : Nat} {bucket next : Bucket} {name : String} {value : Raw}
    (h : step depth bucket name value = .ok next) : Steps depth bucket name value next := by
  unfold step at h
  split at h
  · next hname =>
      obtain ⟨_, hvalue, rfl⟩ := Outcome.bind_ok_eq_ok_iff.1 h
      exact .key hname hvalue
  split at h
  · next hname =>
      obtain ⟨_, hvalue, rfl⟩ := Outcome.bind_ok_eq_ok_iff.1 h
      exact .keyAsString hname hvalue
  split at h
  · next hname =>
      obtain ⟨_, hvalue, rfl⟩ := Outcome.bind_ok_eq_ok_iff.1 h
      exact .docCount hname hvalue
  split at h
  · next hname =>
      obtain ⟨_, hvalue, rfl⟩ := Outcome.bind_ok_eq_ok_iff.1 h
      exact .lower hname hvalue
  split at h
  · next hname =>
      obtain ⟨_, hvalue, rfl⟩ := Outcome.bind_ok_eq_ok_iff.1 h
      exact .upper hname hvalue
  split at h
  · next hname =>
      obtain ⟨_, hvalue, rfl⟩ := Outcome.bind_ok_eq_ok_iff.1 h
      exact .lowerAsString hname hvalue
  split at h
  · next hname =>
      obtain ⟨_, hvalue, rfl⟩ := Outcome.bind_ok_eq_ok_iff.1 h
      exact .upperAsString hname hvalue
  split at h
  · next hname =>
      obtain ⟨_, hvalue, rfl⟩ := Outcome.bind_ok_eq_ok_iff.1 h
      exact .errorBound hname hvalue
  split at h
  · next hname =>
      obtain ⟨_, hvalue, rfl⟩ := Outcome.bind_ok_eq_ok_iff.1 h
      exact .otherCount hname hvalue
  · obtain ⟨_, hvalue, rfl⟩ := Outcome.bind_ok_eq_ok_iff.1 h
    refine .subResult ?_ hvalue
    simp only [knownNames, List.mem_cons, List.not_mem_nil, or_false, not_or]
    exact ⟨‹_›, ‹_›, ‹_›, ‹_›, ‹_›, ‹_›, ‹_›, ‹_›, ‹_›⟩

/-- What a member does to the fields that are decoded: each is set by the members of its name
alone. -/
structure SetsFields (depth : Nat) (bucket : Bucket) (name : String) (value : Raw)
    (next : Bucket) : Prop where
  key : SetsField (·.key) "key" (fun value => some <$> Decode.json depth value) bucket name value
    next
  keyAsString : SetsField (·.keyAsString) "key_as_string" (Decode.optional Decode.string depth)
    bucket name value next
  docCount : SetsField (·.docCount) "doc_count" (Decode.nat64 depth) bucket name value next
  lower : SetsField (·.lower) "from" (Decode.optional Decode.double depth) bucket name value next
  upper : SetsField (·.upper) "to" (Decode.optional Decode.double depth) bucket name value next
  lowerAsString : SetsField (·.lowerAsString) "from_as_string"
    (Decode.optional Decode.string depth) bucket name value next
  upperAsString : SetsField (·.upperAsString) "to_as_string"
    (Decode.optional Decode.string depth) bucket name value next
  errorBound : SetsField (·.docCountErrorUpperBound) "doc_count_error_upper_bound"
    (Decode.optional Decode.int64 depth) bucket name value next
  otherCount : SetsField (·.sumOtherDocCount) "sum_other_doc_count"
    (Decode.optional Decode.nat64 depth) bucket name value next

/-- A step sets the field that the member names and no other. -/
theorem Steps.setsFields {depth : Nat} {bucket next : Bucket} {name : String} {value : Raw}
    (h : Steps depth bucket name value next) : SetsFields depth bucket name value next := by
  cases h with
  | key hname hvalue | keyAsString hname hvalue | docCount hname hvalue | lower hname hvalue
    | upper hname hvalue | lowerAsString hname hvalue | upperAsString hname hvalue
    | errorBound hname hvalue | otherCount hname hvalue =>
      subst hname
      constructor <;> simp [SetsField, hvalue]
  | subResult hname =>
      simp only [knownNames, List.mem_cons, List.not_mem_nil, or_false, not_or] at hname
      constructor <;> simp [SetsField, hname]

/-- A member is well formed: it decodes as the type of its field, if it is a known one. -/
def Accepts (depth : Nat) (name : String) (value : Raw) : Prop :=
  (name = "key" → ∃ key, Decode.json depth value = .ok key) ∧
    (name = "key_as_string" → ∃ text, Decode.optional Decode.string depth value = .ok text) ∧
    (name = "doc_count" → ∃ count, Decode.nat64 depth value = .ok count) ∧
    (name = "from" → ∃ bound, Decode.optional Decode.double depth value = .ok bound) ∧
    (name = "to" → ∃ bound, Decode.optional Decode.double depth value = .ok bound) ∧
    (name = "from_as_string" → ∃ text, Decode.optional Decode.string depth value = .ok text) ∧
    (name = "to_as_string" → ∃ text, Decode.optional Decode.string depth value = .ok text) ∧
    (name = "doc_count_error_upper_bound" →
      ∃ bound, Decode.optional Decode.int64 depth value = .ok bound) ∧
    (name = "sum_other_doc_count" → ∃ count, Decode.optional Decode.nat64 depth value = .ok count)

/-- Any value is well formed under a name that is not known. -/
theorem Accepts.of_notMem {name : String} (h : name ∉ knownNames) (depth : Nat) (value : Raw) :
    Accepts depth name value := by
  simp only [knownNames, List.mem_cons, List.not_mem_nil, or_false, not_or] at h
  simp [Accepts, h]

/-- Reading a member fails only when the member is known and does not decode. -/
theorem step_isOk_iff (depth : Nat) (bucket : Bucket) (name : String) (span : Span) :
    (∃ next, step depth bucket name span.value = .ok next) ↔ Accepts depth name span.value := by
  by_cases hknown : name ∈ knownNames
  · simp only [knownNames, List.mem_cons, List.not_mem_nil, or_false] at hknown
    rcases hknown with rfl | rfl | rfl | rfl | rfl | rfl | rfl | rfl | rfl
    all_goals simp [Accepts, step, Outcome.exists_bind_ok_eq_ok_iff]
  · have hok := Span.ofRaw_value span
    simp only [knownNames, List.mem_cons, List.not_mem_nil, or_false, not_or] at hknown
    simp [Accepts, step, hknown, hok]

/-! ## All members -/

/-- A bucket holds what its members say: each field is its last member or the default, and under
each name stands the last of the other members. -/
structure Reflects (depth : Nat) (bucket : Bucket) (entries : List (String × Span)) : Prop where
  key : TakenFrom (fun value => some <$> Decode.json depth value) none bucket.key
    (Named.last? "key" entries)
  keyAsString : TakenFrom (Decode.optional Decode.string depth) none bucket.keyAsString
    (Named.last? "key_as_string" entries)
  docCount : TakenFrom (Decode.nat64 depth) 0 bucket.docCount (Named.last? "doc_count" entries)
  lower : TakenFrom (Decode.optional Decode.double depth) none bucket.lower
    (Named.last? "from" entries)
  upper : TakenFrom (Decode.optional Decode.double depth) none bucket.upper
    (Named.last? "to" entries)
  lowerAsString : TakenFrom (Decode.optional Decode.string depth) none bucket.lowerAsString
    (Named.last? "from_as_string" entries)
  upperAsString : TakenFrom (Decode.optional Decode.string depth) none bucket.upperAsString
    (Named.last? "to_as_string" entries)
  errorBound : TakenFrom (Decode.optional Decode.int64 depth) none bucket.docCountErrorUpperBound
    (Named.last? "doc_count_error_upper_bound" entries)
  otherCount : TakenFrom (Decode.optional Decode.nat64 depth) none bucket.sumOtherDocCount
    (Named.last? "sum_other_doc_count" entries)
  results : ∀ name, bucket.subResults.get? name =
    Named.last? name (entries.filter isSubResult)

/-- A step keeps the other members under their names, the last of each. -/
theorem Steps.get?_subResults {done : List (String × Span)} {depth : Nat} {bucket next : Bucket}
    {entry : String × Span} (hstep : Steps depth bucket entry.1 entry.2.value next)
    (h : ∀ name, bucket.subResults.get? name = Named.last? name (done.filter isSubResult))
    (name : String) :
    next.subResults.get? name = Named.last? name ((done ++ [entry]).filter isSubResult) := by
  rw [List.filter_append]
  cases hstep with
  | key hname | keyAsString hname | docCount hname | lower hname | upper hname
    | lowerAsString hname | upperAsString hname | errorBound hname | otherCount hname =>
      have hskip : isSubResult entry = false := by simp [isSubResult, hname, knownNames]
      rw [List.filter_cons_of_neg (by simp [hskip]), List.filter_nil, List.append_nil]
      exact h name
  | subResult hname hvalue =>
      have hspan := Except.ok.inj ((Span.ofRaw_value entry.2).symm.trans hvalue)
      have hkeep : isSubResult entry = true := by simpa [isSubResult] using hname
      rw [List.filter_cons_of_pos hkeep, List.filter_nil, Named.last?_append, Named.last?_singleton,
        ← h name, ← hspan]
      exact RawResults.get?_insert bucket.subResults entry.1 name entry.2

/-- A bucket that was read reflects its members. -/
theorem reflects_of_run {depth : Nat} {entries : List (String × Span)} {bucket : Bucket}
    (hrun : run (step depth) entries {} = .ok bucket) : bucket.Reflects depth entries where
  key := run_field (fun _ _ _ _ h => (steps_of_step h).setsFields.key) hrun
  keyAsString := run_field (fun _ _ _ _ h => (steps_of_step h).setsFields.keyAsString) hrun
  docCount := run_field (fun _ _ _ _ h => (steps_of_step h).setsFields.docCount) hrun
  lower := run_field (fun _ _ _ _ h => (steps_of_step h).setsFields.lower) hrun
  upper := run_field (fun _ _ _ _ h => (steps_of_step h).setsFields.upper) hrun
  lowerAsString := run_field (fun _ _ _ _ h => (steps_of_step h).setsFields.lowerAsString) hrun
  upperAsString := run_field (fun _ _ _ _ h => (steps_of_step h).setsFields.upperAsString) hrun
  errorBound := run_field (fun _ _ _ _ h => (steps_of_step h).setsFields.errorBound) hrun
  otherCount := run_field (fun _ _ _ _ h => (steps_of_step h).setsFields.otherCount) hrun
  results := by
    have hstart : ∀ name, ({} : Bucket).subResults.get? name =
        Named.last? name (([] : List (String × Span)).filter isSubResult) := fun _ => rfl
    -- the invariant speaks of the members read so far
    refine run_induction (motive := fun done bucket => ∀ name,
      bucket.subResults.get? name = Named.last? name (done.filter isSubResult)) ?_ hstart hrun
    intro done bucket entry next hdone hnext
    exact (steps_of_step hnext).get?_subResults hdone

/-- An object whose members are well formed is read, and the bucket reflects them. -/
theorem exists_bucket {depth : Nat} {members : Members} {entries : List (String × Span)}
    (hlists : members.Lists entries) (h : ∀ entry ∈ entries, Accepts depth entry.1 entry.2.value) :
    ∃ bucket, Decode.bucket (depth + 1) (.object members) = .ok bucket ∧
      bucket.Reflects depth entries := by
  obtain ⟨bucket, hrun⟩ := (run_isOk_iff (step_isOk_iff depth) entries {}).2 h
  refine ⟨bucket, ?_, reflects_of_run hrun⟩
  rw [← hrun]
  exact hlists.walk_eq _ _

/-- An object text decodes as a bucket when each of its members is well formed. -/
theorem decodeBody_isOk_iff (body : ObjectText) :
    (∃ bucket, decodeBody Decode.bucket (Symbol.ofBytes body.bytes) = .ok bucket) ↔
      ∀ entry ∈ body.entries, Accepts (nestingLimit - 1) entry.1 entry.2.value := by
  rw [Decode.bucket, body.decodeBody_object]
  exact run_isOk_iff (step_isOk_iff (nestingLimit - 1)) body.entries {}

theorem reflects_of_decodeBody {body : ObjectText} {bucket : Bucket}
    (h : decodeBody Decode.bucket (Symbol.ofBytes body.bytes) = .ok bucket) :
    bucket.Reflects (nestingLimit - 1) body.entries := by
  rw [Decode.bucket, body.decodeBody_object] at h
  exact reflects_of_run h

/-! ## Results of sub-aggregations -/

/-- Nothing is kept under the name of a field. -/
theorem Reflects.get?_eq_none {depth : Nat} {bucket : Bucket} {entries : List (String × Span)}
    (h : bucket.Reflects depth entries) {name : String} (hname : name ∈ knownNames) :
    bucket.subResults.get? name = none := by
  rw [h.results]
  refine Named.find?_eq_none fun entry hentry hsame => ?_
  have hkept := (List.mem_filter.1 (List.mem_reverse.1 hentry)).2
  simp [isSubResult, hsame, hname] at hkept

/-- The last of the members that are no fields is what stands under its name. -/
theorem Reflects.get?_subResults {depth : Nat} {bucket : Bucket} {entry : String × Span}
    {before after : List (String × Span)} (h : bucket.Reflects depth (before ++ entry :: after))
    (hname : entry.1 ∉ knownNames) (hlast : ∀ later ∈ after, later.1 ≠ entry.1) :
    bucket.subResults.get? entry.1 = some entry.2 := by
  have hkeep : isSubResult entry = true := by simpa [isSubResult] using hname
  have hafter : Named.last? entry.1 (after.filter isSubResult) = none := by
    refine Named.find?_eq_none fun later hlater => hlast later ?_
    exact (List.mem_filter.1 (List.mem_reverse.1 hlater)).1
  rw [h.results, List.filter_append, List.filter_cons_of_pos hkeep, Named.last?_append,
    Named.last?_cons, hafter, if_pos rfl]
  rfl

/-- The result of a sub-aggregation is kept under any name that is not one of the nine that a
bucket decodes: the object decodes as a bucket and as the result of a filter, under the name stands
the text of the result verbatim, and reading it decodes that text and nothing else. -/
theorem subResult_kept (body : ObjectText) {before after : List MemberText} {member : MemberText}
    (hbody : body.members = before ++ member :: after) (hname : member.name ∉ knownNames)
    (hlast : ∀ later ∈ after, later.name ≠ member.name)
    (hothers : ∀ other ∈ before ++ after,
      Accepts (nestingLimit - 1) other.name other.value.span.value) :
    ∃ bucket filter,
      decodeBody Decode.bucket (Symbol.ofBytes body.bytes) = .ok bucket ∧
        decodeBody Decode.filter (Symbol.ofBytes body.bytes) = .ok filter ∧
        (∃ span, bucket.subResults.get? member.name = some span ∧
          filter.subResults.get? member.name = some span ∧ span.chars = member.value.core) ∧
        ∀ {α : Type} (decoder : Decoder α),
          bucket.subResults.read member.name decoder =
              RawResults.readAlone member.name member.value.core decoder ∧
            filter.subResults.read member.name decoder =
              RawResults.readAlone member.name member.value.core decoder := by
  obtain ⟨members, hlists, hdecode⟩ := body.exists_decodeBody
  have hentries : body.entries =
      before.map MemberText.entry ++ member.entry :: after.map MemberText.entry := by
    rw [ObjectText.entries, hbody, List.map_append, List.map_cons]
  have haccepts : ∀ entry ∈ body.entries, Accepts (nestingLimit - 1) entry.1 entry.2.value := by
    intro entry hentry
    obtain ⟨other, hother, rfl⟩ := List.mem_map.1 hentry
    rw [hbody, List.mem_append, List.mem_cons] at hother
    rcases hother with hother | rfl | hother
    · exact hothers other (List.mem_append_left _ hother)
    · exact .of_notMem hname _ _
    · exact hothers other (List.mem_append_right _ hother)
  obtain ⟨bucket, hbucket, hreflects⟩ := exists_bucket hlists haccepts
  rw [hentries] at hreflects
  have hget : bucket.subResults.get? member.name = some member.value.span := by
    refine hreflects.get?_subResults hname fun later hlater => ?_
    obtain ⟨text, htext, rfl⟩ := List.mem_map.1 hlater
    exact hlast text htext
  -- the result of a filter is the bucket that the same object decodes as
  have hfilter : Decode.filter nestingLimit (.object members) =
      .ok ⟨bucket.docCount, bucket.subResults⟩ := by
    have hsame : Decode.bucket nestingLimit (.object members) = .ok bucket := hbucket
    rw [Decode.filter, hsame]
    rfl
  refine ⟨bucket, ⟨bucket.docCount, bucket.subResults⟩, ?_, ?_,
    ⟨member.value.span, hget, hget, member.value.span_chars⟩, fun decoder => ?_⟩
  · rw [hdecode]
    exact hbucket
  · rw [hdecode]
    exact hfilter
  · exact ⟨RawResults.read_eq_readAlone hget decoder, RawResults.read_eq_readAlone hget decoder⟩

/-- A bucket with a count and the result of one sub-aggregation. -/
def countAndPrice : ObjectText :=
  .bare [.bare "doc_count" (.ofJson (.nat 3)), .bare "price" (.ofJson (.object [("value", .null)]))]

theorem subResult_kept_price :
    ∃ bucket filter,
      decodeBody Decode.bucket (Symbol.ofBytes countAndPrice.bytes) = .ok bucket ∧
        decodeBody Decode.filter (Symbol.ofBytes countAndPrice.bytes) = .ok filter ∧
        (∃ span, bucket.subResults.get? "price" = some span ∧
          filter.subResults.get? "price" = some span ∧
          span.chars = (Json.object [("value", .null)]).text) ∧
        ∀ {α : Type} (decoder : Decoder α),
          bucket.subResults.read "price" decoder =
              RawResults.readAlone "price" (Json.object [("value", .null)]).text decoder ∧
            filter.subResults.read "price" decoder =
              RawResults.readAlone "price" (Json.object [("value", .null)]).text decoder := by
  have hcount : Accepts (nestingLimit - 1) "doc_count" (PaddedText.ofJson (.nat 3)).span.value := by
    rw [PaddedText.ofJson_span]
    have hread := Decode.nat64_written (show 3 < 2 ^ 64 by decide) (nestingLimit - 1)
    simpa [Accepts] using ⟨3, hread⟩
  refine @subResult_kept countAndPrice [.bare "doc_count" (.ofJson (.nat 3))] []
    (.bare "price" (.ofJson (.object [("value", .null)]))) rfl (by decide) ?_ ?_
  · exact fun later hlater => absurd hlater List.not_mem_nil
  · intro other hother
    rw [List.append_nil, List.mem_singleton] at hother
    rw [hother]
    exact hcount

/-- A filter with one child, which has the given name. -/
def filterWithChild (name : String) : Aggregation :=
  .bucket (.filter (some (.leaf (.matchAll none))))
    [(name, .leaf (.metric ⟨.avg, "price", none, none⟩))]

/-- A bucket with one member, which holds an empty object. -/
def emptyResult (name : String) : ObjectText :=
  .bare [.bare name (.ofJson (.object []))]

/-- The key of a bucket may be an object. -/
theorem accepts_key (depth : Nat) :
    Accepts (depth + 1) "key" (PaddedText.ofJson (.object [])).span.value := by
  have hread : Decode.json (depth + 1) (PaddedText.ofJson (.object [])).span.value =
      .ok (.object []) := by
    rw [PaddedText.ofJson_span]
    rfl
  simp [Accepts, hread]

/-- The count of a bucket may not be an object. -/
theorem not_accepts_docCount (depth : Nat) :
    ¬ Accepts depth "doc_count" (PaddedText.ofJson (.object [])).span.value := by
  rintro ⟨-, -, hcount, -⟩
  obtain ⟨count, hcount⟩ := hcount rfl
  rw [PaddedText.ofJson_span] at hcount
  cases hcount

/-- Requests may name a sub-aggregation `key` or `doc_count`. The result of the one is taken for the
key of its bucket and is not there under its name; with the result of the other the bucket does not
decode. -/
theorem subResult_lost :
    (∃ text, (filterWithChild "key").text = .ok text) ∧
      (∃ bucket,
        decodeBody Decode.bucket (Symbol.ofString "\x7b\"key\":\x7b\x7d\x7d") = .ok bucket ∧
        bucket.subResults.get? "key" = none) ∧
      (∃ text, (filterWithChild "doc_count").text = .ok text) ∧
      ∃ fault, decodeBody Decode.bucket (Symbol.ofString "\x7b\"doc_count\":\x7b\x7d\x7d") =
        .error fault := by
  have hkey : Symbol.ofString "\x7b\"key\":\x7b\x7d\x7d" =
      Symbol.ofBytes (emptyResult "key").bytes := by
    rw [ObjectText.bytes, Symbol.ofBytes_toUTF8]
    decide
  have hcount : Symbol.ofString "\x7b\"doc_count\":\x7b\x7d\x7d" =
      Symbol.ofBytes (emptyResult "doc_count").bytes := by
    rw [ObjectText.bytes, Symbol.ofBytes_toUTF8]
    decide
  refine ⟨⟨_, Report.whenSound_of_not_fatal (by decide) _⟩, ?_,
    ⟨_, Report.whenSound_of_not_fatal (by decide) _⟩, ?_⟩
  · have hall : ∀ entry ∈ (emptyResult "key").entries,
        Accepts (nestingLimit - 1) entry.1 entry.2.value :=
      fun entry hentry => List.mem_singleton.1 hentry ▸ accepts_key _
    obtain ⟨bucket, hbucket⟩ := (decodeBody_isOk_iff _).2 hall
    exact ⟨bucket, hkey ▸ hbucket, (reflects_of_decodeBody hbucket).get?_eq_none (by decide)⟩
  · rw [hcount]
    cases hbody : decodeBody Decode.bucket (Symbol.ofBytes (emptyResult "doc_count").bytes) with
    | error fault => exact ⟨fault, rfl⟩
    | ok bucket =>
        have hall := (decodeBody_isOk_iff _).1 ⟨bucket, hbody⟩
        exact absurd (hall _ (List.mem_singleton.2 rfl)) (not_accepts_docCount _)

end Bucket

end SearchWire
