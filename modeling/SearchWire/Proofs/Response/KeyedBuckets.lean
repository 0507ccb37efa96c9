import SearchWire.Proofs.Response.BucketBody

/-!
# Keyed and listed buckets

The buckets of a result come as an array, or as an object in which each has a
name. Both forms of the same buckets decode alike, up to the keys that keyed
buckets take from their names: `Buckets.decodeBody_keyedBody` is this statement
as an equation between decoders. Where these names are the only keys, a bucket
is found under its name and under no other (`Buckets.find?_withNames`).
`Buckets.forms_agree` puts this together for the three results that consist of
buckets.
-/

namespace SearchWire

/-- A text is an object with a member of the given name. -/
def PaddedText.HasMember (text : PaddedText) (name : String) : Prop :=
  ∃ object : ObjectText, text.core = object.text ∧ name ∈ object.members.map MemberText.name

/-- The members of an object are those of its entries. -/
theorem PaddedText.hasMember_iff {text : PaddedText} {object : ObjectText}
    (h : text.core = object.text) (name : String) :
    text.HasMember name ↔ name ∈ object.entries.map Prod.fst := by
  constructor
  · rintro ⟨other, hother, hname⟩
    rw [← PaddedText.entries_span h, PaddedText.entries_span hother, ObjectText.entries,
      List.map_map]
    exact hname
  · intro hname
    rw [ObjectText.entries, List.map_map] at hname
    exact ⟨object, h, hname⟩

namespace Bucket

/-- A bucket without a key takes a name for it. -/
def named (name : String) (bucket : Bucket) : Bucket :=
  { bucket with key := bucket.key <|> some (.string name) }

/-- A text that decodes as a bucket is an object whose members the bucket reflects. -/
theorem exists_reflects {depth : Nat} {text : PaddedText} {bucket : Bucket}
    (h : Decode.bucket depth text.span.value = .ok bucket) :
    ∃ (less : Nat) (object : ObjectText), text.core = object.text ∧
      bucket.Reflects less object.entries := by
  obtain ⟨less, members, hvalue, hwalk⟩ := Decode.object_eq_ok h
  obtain ⟨object, hcore⟩ := text.exists_objectText hvalue (Members.named_of_walk hwalk)
  obtain ⟨members', hvalue', hlists⟩ := text.exists_span_value hcore
  obtain rfl := Raw.object.inj (hvalue.symm.trans hvalue')
  rw [hlists.walk_eq] at hwalk
  exact ⟨less, object, hcore, reflects_of_run hwalk⟩

/-- A bucket has a key when there is a member for it. -/
theorem key_eq_none_iff {depth : Nat} {text : PaddedText} {bucket : Bucket}
    (h : Decode.bucket depth text.span.value = .ok bucket) :
    bucket.key = none ↔ ¬ text.HasMember "key" := by
  obtain ⟨less, object, hcore, hreflects⟩ := exists_reflects h
  rw [text.hasMember_iff hcore, ← Named.last?_eq_none_iff]
  have htaken := hreflects.key
  cases hlast : Named.last? "key" object.entries with
  | none =>
      rw [hlast] at htaken
      exact iff_of_true htaken rfl
  | some span =>
      rw [hlast] at htaken
      obtain ⟨key, -, hkey⟩ := Outcome.map_eq_ok_iff.1 htaken
      simp [← hkey]

/-- A bucket without a member for the written form of its key has none. -/
theorem keyAsString_eq_none {depth : Nat} {text : PaddedText} {bucket : Bucket}
    (h : Decode.bucket depth text.span.value = .ok bucket)
    (hmember : ¬ text.HasMember "key_as_string") : bucket.keyAsString = none := by
  obtain ⟨less, object, hcore, hreflects⟩ := exists_reflects h
  rw [text.hasMember_iff hcore, ← Named.last?_eq_none_iff] at hmember
  have htaken := hreflects.keyAsString
  rwa [hmember] at htaken

/-- A bucket with a key of its own keeps it. -/
theorem named_of_ne_none {bucket : Bucket} (h : bucket.key ≠ none) (name : String) :
    bucket.named name = bucket := by
  obtain ⟨_ | key⟩ := bucket
  · exact absurd rfl h
  · rfl

/-- A bucket that took its name for a key has this key and no other. -/
theorem hasKey_named {bucket : Bucket} (hkey : bucket.key = none)
    (hwritten : bucket.keyAsString = none) (name key : String) :
    (bucket.named name).hasKey key = true ↔ name = key := by
  simp [hasKey, keyString, named, hkey, hwritten]

end Bucket

/-- The results that consist of buckets. -/
inductive BucketsKind where
  | terms
  | dateHistogram
  | range

/-- Decodes the buckets of a result. -/
def BucketsKind.decodeBody (kind : BucketsKind) (body : List Symbol) :
    Except Fault (List Bucket) :=
  match kind with
  | .terms => TermsResult.buckets <$> SearchWire.decodeBody Decode.terms body
  | .dateHistogram => BucketsResult.buckets <$> SearchWire.decodeBody Decode.dateHistogram body
  | .range => BucketsResult.buckets <$> SearchWire.decodeBody Decode.range body

/-- The buckets of a result with one member are what this member decodes as. -/
theorem BucketsKind.decodeBody_eq (kind : BucketsKind) {body : ObjectText} {member : MemberText}
    (hmembers : body.members = [member]) (hname : member.name = "buckets") :
    kind.decodeBody (Symbol.ofBytes body.bytes) =
      Decode.buckets (nestingLimit - 1) member.value.span.value := by
  obtain ⟨members, hlists, hdecode⟩ := body.exists_decodeBody
  have hentries : body.entries = [("buckets", member.value.span)] := by
    rw [ObjectText.entries, hmembers, ← hname]
    rfl
  have hterms : Decode.terms nestingLimit (.object members) =
      TermsResult.ofMembers (nestingLimit - 1) members := rfl
  have hhistogram : Decode.dateHistogram nestingLimit (.object members) =
      BucketsResult.ofMembers (nestingLimit - 1) members := rfl
  have hrange : Decode.range nestingLimit (.object members) =
      BucketsResult.ofMembers (nestingLimit - 1) members := rfl
  simp only [decodeBody, hdecode, hterms, hhistogram, hrange, TermsResult.ofMembers,
    BucketsResult.ofMembers, hlists.walk_eq, hentries, run_cons, TermsResult.step,
    BucketsResult.step, Decode.once]
  cases Decode.buckets (nestingLimit - 1) member.value.span.value with
  | error fault => cases kind <;> simp
  | ok buckets => cases kind <;> simp [run, Decode.require]

namespace Buckets

/-! ## Both forms -/

/-- Each bucket of an object takes the name of its member. -/
theorem readsEach_ofMembers (depth : Nat) :
    ReadsEach (fun name value => Bucket.named name <$> Decode.bucket depth value)
      (ofMembers depth) where
  closed _ := rfl
  torn _ _ := rfl
  member lead name middle value more := by
    rw [ofMembers]
    cases name.read with
    | error fault => rfl
    | ok key => cases Decode.bucket depth value <;> rfl

/-- The buckets of an object are those of its entries, each under its name. -/
theorem ofMembers_eq {members : Members} {entries : List (String × Span)}
    (h : members.Lists entries) (depth : Nat) :
    ofMembers depth members = entries.mapM fun entry =>
      Bucket.named entry.1 <$> Decode.bucket depth entry.2.value :=
  (readsEach_ofMembers depth).eq_mapM h

/-- The body of a result with buckets under their names. -/
def keyedBody (members : List MemberText) : ObjectText :=
  .bare [.bare "buckets" (.ofMembers members)]

/-- The body of a result with the same buckets in a list. -/
def listedBody (members : List MemberText) : ObjectText :=
  .bare [.bare "buckets" (.ofItems (members.map MemberText.value))]

/-- The listed buckets are what their texts decode as. -/
theorem decodeBody_listedBody (kind : BucketsKind) (members : List MemberText) :
    kind.decodeBody (Symbol.ofBytes (listedBody members).bytes) =
      members.mapM fun member => Decode.bucket (nestingLimit - 2) member.value.span.value := by
  obtain ⟨items, hvalue, hlists⟩ :=
    PaddedText.exists_span_items (PaddedText.ofItems_core (members.map MemberText.value))
  rw [kind.decodeBody_eq rfl rfl, MemberText.bare, hvalue]
  show Decode.each (Decode.bucket (nestingLimit - 2)) items = _
  rw [hlists.each_eq, ArrayText.bare, List.map_map, List.mapM_map]
  rfl

/-- Buckets that take the names of members for keys, each the name at its position. -/
def withNames (members : List MemberText) (listed : List Bucket) : List Bucket :=
  List.zipWith (fun member bucket => bucket.named member.name) members listed

/-- The keyed buckets are the listed ones, of which those without a key take their names. -/
theorem decodeBody_keyedBody (kind : BucketsKind) (members : List MemberText) :
    kind.decodeBody (Symbol.ofBytes (keyedBody members).bytes) =
      withNames members <$> kind.decodeBody (Symbol.ofBytes (listedBody members).bytes) := by
  obtain ⟨found, hvalue, hlists⟩ :=
    PaddedText.exists_span_value (PaddedText.ofMembers_core members)
  unfold withNames
  rw [decodeBody_listedBody, ← Outcome.mapM_map_eq, kind.decodeBody_eq rfl rfl, MemberText.bare,
    hvalue]
  show ofMembers (nestingLimit - 2) found = _
  rw [ofMembers_eq hlists, ObjectText.entries, ObjectText.bare, List.mapM_map]
  rfl

theorem getElem?_withNames {members : List MemberText} {listed : List Bucket} {position : Nat}
    {member : MemberText} {bucket : Bucket} (hmember : members[position]? = some member)
    (hbucket : listed[position]? = some bucket) :
    (withNames members listed)[position]? = some (bucket.named member.name) := by
  rw [withNames, List.getElem?_zipWith, hmember, hbucket]

/-! ## Finding a bucket -/

/-- Buckets whose texts have no member for a key have none. -/
theorem without_keys {depth : Nat} {members : List MemberText} {listed : List Bucket}
    (h : List.Forall₂
      (fun member bucket => Decode.bucket depth member.value.span.value = .ok bucket)
      members listed)
    (hown : ∀ member ∈ members, ¬ member.value.HasMember "key" ∧
      ¬ member.value.HasMember "key_as_string") :
    List.Forall₂ (fun _ bucket => bucket.key = none ∧ bucket.keyAsString = none)
      members listed := by
  obtain ⟨hlength, hdecode⟩ := List.forall₂_iff_zip.1 h
  refine List.forall₂_iff_zip.2 ⟨hlength, fun {member bucket} hmem => ?_⟩
  obtain ⟨hkey, hwritten⟩ := hown member (List.of_mem_zip hmem).1
  exact ⟨(Bucket.key_eq_none_iff (hdecode hmem)).2 hkey,
    Bucket.keyAsString_eq_none (hdecode hmem) hwritten⟩

section Found

variable {members : List MemberText} {listed : List Bucket}
  (h : List.Forall₂ (fun _ bucket => bucket.key = none ∧ bucket.keyAsString = none) members listed)

include h

/-- Buckets that took their names for keys are found under their names. -/
theorem find?_withNames (key : String) :
    find? key (withNames members listed) =
      Named.find? key ((members.map MemberText.name).zip (withNames members listed)) := by
  induction h with
  | nil => rfl
  | @cons member bucket rest others hfirst _ ih =>
      obtain ⟨hkey, hwritten⟩ := hfirst
      have hhas := Bucket.hasKey_named hkey hwritten member.name key
      have hcons : withNames (member :: rest) (bucket :: others) =
          bucket.named member.name :: withNames rest others := rfl
      rw [hcons, List.map_cons, List.zip_cons_cons, Named.find?_cons, ← ih, find?, List.find?_cons]
      by_cases hname : member.name = key
      · rw [if_pos hname, hhas.2 hname]
      · rw [if_neg hname, Bool.eq_false_iff.2 (mt hhas.1 hname)]
        rfl

theorem find?_name (hnames : (members.map MemberText.name).Nodup) {position : Nat}
    {member : MemberText} (hmember : members[position]? = some member) :
    find? member.name (withNames members listed) = (withNames members listed)[position]? := by
  have hname : (members.map MemberText.name)[position]? = some member.name := by
    rw [List.getElem?_map, hmember]
    rfl
  rw [find?_withNames h, Named.find?_zip hnames _ hname]

theorem find?_eq_none {key : String} (hkey : key ∉ members.map MemberText.name) :
    find? key (withNames members listed) = none := by
  rw [find?_withNames h]
  refine Named.find?_eq_none fun entry hentry hsame => hkey ?_
  exact hsame ▸ (List.of_mem_zip hentry).1

end Found

/-- Keyed and listed buckets agree, for each of the results that consist of buckets: the one form
decodes exactly when the other does, and then to as many buckets, one for each member and in their
order. They are equal, except that a keyed bucket without a member for its key has its name as the
key. When the names are distinct and no bucket has a key of its own, written or not, each bucket is
found under its name, and none under any other. -/
theorem forms_agree (kind : BucketsKind) (members : List MemberText) :
    ((∃ keyed, kind.decodeBody (Symbol.ofBytes (keyedBody members).bytes) = .ok keyed) ↔
        ∃ listed, kind.decodeBody (Symbol.ofBytes (listedBody members).bytes) = .ok listed) ∧
      ∀ keyed listed, kind.decodeBody (Symbol.ofBytes (keyedBody members).bytes) = .ok keyed →
        kind.decodeBody (Symbol.ofBytes (listedBody members).bytes) = .ok listed →
          keyed.length = members.length ∧ listed.length = members.length ∧
          (∀ (position : Nat) (member : MemberText), members[position]? = some member →
            ∃ bucket : Bucket, listed[position]? = some bucket ∧
              (member.value.HasMember "key" → keyed[position]? = some bucket) ∧
              (¬ member.value.HasMember "key" → bucket.key = none ∧
                keyed[position]? = some { bucket with key := some (.string member.name) })) ∧
          ((members.map MemberText.name).Nodup →
            (∀ member ∈ members, ¬ member.value.HasMember "key" ∧
              ¬ member.value.HasMember "key_as_string") →
            (∀ (position : Nat) (member : MemberText), members[position]? = some member →
              ∃ bucket, keyed[position]? = some bucket ∧ find? member.name keyed = some bucket) ∧
            ∀ key, key ∉ members.map MemberText.name → find? key keyed = none) := by
  rw [decodeBody_keyedBody]
  constructor
  · constructor
    · rintro ⟨_, hkeyed⟩
      obtain ⟨listed, hlisted, -⟩ := Outcome.map_eq_ok_iff.1 hkeyed
      exact ⟨listed, hlisted⟩
    · rintro ⟨listed, hlisted⟩
      exact ⟨_, Outcome.map_eq_ok_iff.2 ⟨listed, hlisted, rfl⟩⟩
  intro keyed listed hkeyed hlisted
  rw [hlisted] at hkeyed
  obtain rfl := Except.ok.inj hkeyed
  rw [decodeBody_listedBody] at hlisted
  have hall := Outcome.mapM_eq_ok_iff.1 hlisted
  refine ⟨?_, hall.length_eq.symm, fun position member hmember => ?_, fun hnames hown => ?_⟩
  · simp [withNames, hall.length_eq]
  · obtain ⟨bucket, hbucket, hdecode⟩ := Outcome.exists_getElem?_of_mapM hlisted hmember
    have hkey := Bucket.key_eq_none_iff hdecode
    refine ⟨bucket, hbucket, fun hhas => ?_, fun hhas => ⟨hkey.2 hhas, ?_⟩⟩
    · rw [getElem?_withNames hmember hbucket,
        Bucket.named_of_ne_none fun hnone => hkey.1 hnone hhas]
    · rw [getElem?_withNames hmember hbucket, Bucket.named, hkey.2 hhas]
      rfl
  · have hfree := without_keys hall hown
    refine ⟨fun position member hmember => ?_, fun key hkey => find?_eq_none hfree hkey⟩
    obtain ⟨bucket, hbucket, -⟩ := Outcome.exists_getElem?_of_mapM hlisted hmember
    have hkeyed := getElem?_withNames hmember hbucket
    exact ⟨_, hkeyed, (find?_name hfree hnames hmember).trans hkeyed⟩

end Buckets

end SearchWire
