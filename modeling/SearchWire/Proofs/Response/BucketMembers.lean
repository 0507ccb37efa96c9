import SearchWire.Proofs.Response.BucketBody

/-!
# Splitting a bucket

The members of a bucket are split into the nine fields and the results of
sub-aggregations, and nothing else happens to them. `Bucket.Reflects.unique`
says that the split is exact: the members determine the bucket, and among
distinct names their order plays no part. `Bucket.splitting` puts this together
for object texts, and says the same of the result of a filter. A name that is no
string is not skipped like an unknown one: the object is then refused
(`Bucket.strayBesideCount_refused`).
-/

namespace SearchWire

namespace Bucket

/-- A step keeps the names of the other members increasing. -/
theorem Steps.sorted {depth : Nat} {bucket next : Bucket} {name : String} {value : Raw}
    (hstep : Steps depth bucket name value next) (h : Named.Sorted bucket.subResults.entries) :
    Named.Sorted next.subResults.entries := by
  cases hstep with
  | key | keyAsString | docCount | lower | upper | lowerAsString | upperAsString | errorBound
    | otherCount => exact h
  | subResult => exact h.insert name _

theorem sorted_of_run {depth : Nat} {entries : List (String × Span)} {bucket : Bucket}
    (hrun : run (step depth) entries {} = .ok bucket) :
    Named.Sorted bucket.subResults.entries :=
  @run_induction _ _ (fun _ bucket => Named.Sorted bucket.subResults.entries)
    (fun _ _ _ _ hdone hnext => (steps_of_step hnext).sorted hdone) [] _ _ _ Named.Sorted.nil hrun

/-- Under each name that is no field the last member of the name is kept, and nothing else is. -/
theorem Reflects.get?_eq {depth : Nat} {bucket : Bucket} {entries : List (String × Span)}
    (h : bucket.Reflects depth entries) (name : String) :
    bucket.subResults.get? name = if name ∈ knownNames then none else Named.last? name entries := by
  split
  · next hknown => exact h.get?_eq_none hknown
  · next hother => rw [h.results, Named.last?_filter fun _ => by simpa [isSubResult] using hother]

/-- Among distinct names a bucket reflects the members in any order. -/
theorem Reflects.of_perm {depth : Nat} {bucket : Bucket} {entries others : List (String × Span)}
    (h : bucket.Reflects depth entries) (hperm : entries.Perm others)
    (hnames : (entries.map Prod.fst).Nodup) : bucket.Reflects depth others := by
  have hlast := Named.last?_eq_of_perm hperm hnames
  have hresults := Named.last?_eq_of_perm (hperm.filter isSubResult)
    (hnames.sublist (List.filter_sublist.map Prod.fst))
  exact ⟨hlast _ ▸ h.key, hlast _ ▸ h.keyAsString, hlast _ ▸ h.docCount, hlast _ ▸ h.lower,
    hlast _ ▸ h.upper, hlast _ ▸ h.lowerAsString, hlast _ ▸ h.upperAsString,
    hlast _ ▸ h.errorBound, hlast _ ▸ h.otherCount,
    fun name => (h.results name).trans (hresults name)⟩

/-- The members determine the bucket. -/
theorem Reflects.unique {depth : Nat} {first second : Bucket} {entries : List (String × Span)}
    (hfirst : first.Reflects depth entries) (hsecond : second.Reflects depth entries)
    (hsorted : Named.Sorted first.subResults.entries)
    (hsorted' : Named.Sorted second.subResults.entries) : first = second := by
  -- the names of results increase, so results that agree under each name are equal
  have hresults : first.subResults.entries = second.subResults.entries :=
    Named.ext_of_find? hsorted hsorted' fun name =>
      (hfirst.results name).trans (hsecond.results name).symm
  obtain ⟨_, _, _, _, _, _, _, _, _, ⟨_⟩⟩ := first
  obtain ⟨_, _, _, _, _, _, _, _, _, ⟨_⟩⟩ := second
  obtain rfl := hfirst.key.unique hsecond.key
  obtain rfl := hfirst.keyAsString.unique hsecond.keyAsString
  obtain rfl := hfirst.docCount.unique hsecond.docCount
  obtain rfl := hfirst.lower.unique hsecond.lower
  obtain rfl := hfirst.upper.unique hsecond.upper
  obtain rfl := hfirst.lowerAsString.unique hsecond.lowerAsString
  obtain rfl := hfirst.upperAsString.unique hsecond.upperAsString
  obtain rfl := hfirst.errorBound.unique hsecond.errorBound
  obtain rfl := hfirst.otherCount.unique hsecond.otherCount
  cases hresults
  rfl

/-! ## Object texts -/

theorem sorted_of_decodeBody {body : ObjectText} {bucket : Bucket}
    (h : decodeBody Decode.bucket (Symbol.ofBytes body.bytes) = .ok bucket) :
    Named.Sorted bucket.subResults.entries := by
  rw [Decode.bucket, body.decodeBody_object] at h
  exact sorted_of_run h

/-- Among distinct names the members of an object text may be put in another order. -/
theorem decodeBody_of_perm {body other : ObjectText} {bucket : Bucket}
    (h : decodeBody Decode.bucket (Symbol.ofBytes body.bytes) = .ok bucket)
    (hperm : body.members.Perm other.members) (hnames : (body.members.map MemberText.name).Nodup) :
    decodeBody Decode.bucket (Symbol.ofBytes other.bytes) = .ok bucket := by
  have hentries : body.entries.Perm other.entries := hperm.map MemberText.entry
  have hdistinct : (body.entries.map Prod.fst).Nodup := by
    rwa [ObjectText.entries, List.map_map]
  have haccepts := (decodeBody_isOk_iff body).1 ⟨bucket, h⟩
  obtain ⟨found, hfound⟩ := (decodeBody_isOk_iff other).2
    fun entry hentry => haccepts entry (hentries.mem_iff.2 hentry)
  have hreflects := (reflects_of_decodeBody h).of_perm hentries hdistinct
  rw [hfound, hreflects.unique (reflects_of_decodeBody hfound) (sorted_of_decodeBody h)
    (sorted_of_decodeBody hfound)]

/-- The result of a filter is what a bucket counts and keeps. -/
theorem decodeBody_filter (body : ObjectText) :
    decodeBody Decode.filter (Symbol.ofBytes body.bytes) =
      (fun bucket => ⟨bucket.docCount, bucket.subResults⟩) <$>
        decodeBody Decode.bucket (Symbol.ofBytes body.bytes) := by
  obtain ⟨members, -, hdecode⟩ := body.exists_decodeBody
  rw [hdecode, hdecode, Decode.filter]
  cases Decode.bucket nestingLimit (.object members) <;> rfl

/-- A bucket is split exactly. A JSON text decodes as a bucket only when it is an object whose names
are strings, and such an object does when each of its members that names a field decodes as the type
of the field; then each field is its last member or the default, and the sub-results hold the last
member of each other name, once each and verbatim. Among distinct names the order of the members
does not matter. An object decodes as the result of a filter when it does as a bucket, and with the
same count and sub-results. The counts are integers of sixty-four bits without a sign and the bound
on the error is one with a sign; this and the other count may be `null` as well. -/
theorem splitting :
    (∀ text : PaddedText,
        (∃ bucket, decodeBody Decode.bucket (Symbol.ofBytes text.bytes) = .ok bucket) →
          ∃ body : ObjectText, text.bytes = body.bytes) ∧
      (∀ body : ObjectText,
        ((∃ bucket, decodeBody Decode.bucket (Symbol.ofBytes body.bytes) = .ok bucket) ↔
            ∀ member ∈ body.members,
              Accepts (nestingLimit - 1) member.name member.value.span.value) ∧
          (∀ bucket, decodeBody Decode.bucket (Symbol.ofBytes body.bytes) = .ok bucket →
            bucket.Reflects (nestingLimit - 1) body.entries ∧
              Named.Sorted bucket.subResults.entries ∧
              ∀ name, bucket.subResults.get? name =
                if name ∈ knownNames then none else Named.last? name body.entries) ∧
          (∀ member ∈ body.members,
            Span.ofSymbols (Symbol.ofChars member.value.core) = .ok member.value.span ∧
              member.value.span.chars = member.value.core) ∧
          (∀ other : ObjectText, body.members.Perm other.members →
            (body.members.map MemberText.name).Nodup →
              (decodeBody Decode.bucket (Symbol.ofBytes other.bytes)).toOption =
                (decodeBody Decode.bucket (Symbol.ofBytes body.bytes)).toOption) ∧
          decodeBody Decode.filter (Symbol.ofBytes body.bytes) =
            (fun bucket => ⟨bucket.docCount, bucket.subResults⟩) <$>
              decodeBody Decode.bucket (Symbol.ofBytes body.bytes)) ∧
      (∀ (written : Raw) (count : Nat), Decode.nat64 (nestingLimit - 1) written = .ok count ↔
        written.IsInteger count ∧ count < 2 ^ 64) ∧
      (∀ (written : Raw) (count : Option Nat),
        Decode.optional Decode.nat64 (nestingLimit - 1) written = .ok count ↔
          written = .null ∧ count = none ∨
            ∃ value : Nat, count = some value ∧ written.IsInteger value ∧ value < 2 ^ 64) ∧
      ∀ (written : Raw) (bound : Option Int),
        Decode.optional Decode.int64 (nestingLimit - 1) written = .ok bound ↔
          written = .null ∧ bound = none ∨
            ∃ value : Int, bound = some value ∧ written.IsInteger value ∧
              -2 ^ 63 ≤ value ∧ value < 2 ^ 63 := by
  refine ⟨?_, fun body => ⟨?_, fun bucket h => ?_, fun member _ => ?_,
      fun other hperm hnames => Outcome.toOption_eq fun bucket => ?_, decodeBody_filter body⟩,
    fun _ _ => Decode.nat64_eq_ok_iff, fun _ _ => Decode.optional_nat64_eq_ok_iff,
    fun _ _ => Decode.optional_int64_eq_ok_iff⟩
  · rintro text ⟨bucket, hbucket⟩
    exact text.exists_bytes_eq_of_decodeBody hbucket
  · rw [decodeBody_isOk_iff, ObjectText.entries, List.forall_mem_map]
    rfl
  · have hreflects := reflects_of_decodeBody h
    exact ⟨hreflects, sorted_of_decodeBody h, hreflects.get?_eq⟩
  · exact ⟨member.value.ofSymbols_core, member.value.span_chars⟩
  · have hnames' : (other.members.map MemberText.name).Nodup :=
      (hperm.map MemberText.name).nodup hnames
    exact ⟨fun h => decodeBody_of_perm h hperm.symm hnames',
      fun h => decodeBody_of_perm h hperm hnames⟩

/-- A count beside a member whose name is no string. -/
def strayBesideCount : PaddedText :=
  .strayNamed (.nat 1) [("doc_count", .nat 3)]

/-- An object with a name that is no string does not decode as a bucket, although the one member
that names a field decodes as its type. -/
theorem strayBesideCount_refused :
    strayBesideCount.core = "\x7b\"\\ud800\":1,\"doc_count\":3\x7d".toList ∧
      (∃ count, strayBesideCount.span.value.entries = [("doc_count", count)] ∧
        Accepts (nestingLimit - 1) "doc_count" count.value) ∧
      ¬ ∃ bucket,
        decodeBody Decode.bucket (Symbol.ofBytes strayBesideCount.bytes) = .ok bucket := by
  have hvalue := PaddedText.strayNamed_span (.nat 1) [("doc_count", .nat 3)]
  refine ⟨by decide, ⟨(PaddedText.ofJson (.nat 3)).span, ?_, ?_⟩, ?_⟩
  · rw [strayBesideCount, hvalue, Raw.entries, Members.entries_strayNamed]
    rfl
  · have hread := Decode.nat64_written (show 3 < 2 ^ 64 by decide) (nestingLimit - 1)
    rw [PaddedText.ofJson_span]
    simpa [Accepts] using ⟨3, hread⟩
  · rintro ⟨bucket, hbucket⟩
    rw [PaddedText.decodeBody_bytes, strayBesideCount, hvalue] at hbucket
    exact Members.not_named_strayNamed _ _ (Members.named_of_walk hbucket)

end Bucket

end SearchWire
