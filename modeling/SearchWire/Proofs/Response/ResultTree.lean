import SearchWire.Proofs.Json.Compose
import SearchWire.Proofs.Json.ReadBack
import SearchWire.Proofs.Response.BucketBody

/-!
# Trees of results

A `ResultTree` is a tree of results as a store writes it: each node comes with
its text, and `ResultTree.Written` says when these texts are JSON for the tree,
in any spacing and with members in any order. One level of such a text decodes
to its count, its keys and the spans of its children, whatever these hold:
`exists_filter` and `exists_terms`. `writeFilter` and `writeTerms` give texts
without white space.
-/

namespace SearchWire

/-- A bucket of a terms result as it is written. -/
structure WrittenBucket (Tree : Type) where
  text : PaddedText
  key : String
  docCount : Nat
  children : List (String × Tree)

/-- A tree of results, each with its text. A leaf may be any JSON text. -/
inductive ResultTree where
  | leaf (text : PaddedText)
  | filter (text : PaddedText) (docCount : Nat) (children : List (String × ResultTree))
  | terms (text : PaddedText) (buckets : List (WrittenBucket ResultTree))

/-- A member that holds the number of documents. -/
structure MemberText.CountsDocuments (member : MemberText) (docCount : Nat) : Prop where
  name : member.name = "doc_count"
  core : member.value.core = (Json.nat docCount).text
  range : docCount < 2 ^ 64

/-- A member that holds the key of a bucket, in any spelling. -/
structure MemberText.HoldsKey (member : MemberText) (key : String) : Prop where
  name : member.name = "key"
  spells : Spells member.value.core key

namespace ResultTree

/-- The text of a tree. -/
def text : ResultTree → PaddedText
  | .leaf text | .filter text _ _ | .terms text _ => text

/-- Named trees as members of an object. -/
def spans (children : List (String × ResultTree)) : List (String × Span) :=
  children.map fun child => (child.1, child.2.text.span)

/-- A text is an object that consists of its own members and one for each child, in any order. -/
def IsObject (text : PaddedText) (own : List MemberText) (children : List (String × ResultTree)) :
    Prop :=
  ∃ (object : ObjectText) (members : List MemberText), text.core = object.text ∧
    object.members.Perm (own ++ members) ∧
    members.map (fun member => (member.name, member.value)) =
      children.map fun child => (child.1, child.2.text)

/-- Names that the children of a bucket or of a filter may have. -/
structure ChildNames (children : List (String × ResultTree)) : Prop where
  distinct : (children.map Prod.fst).Nodup
  free : ∀ child ∈ children, child.1 ∉ Bucket.knownNames

/-- The text of a bucket is JSON for it, with these members for the key and the count. -/
structure IsBucket (bucket : WrittenBucket ResultTree) (key count : MemberText) : Prop where
  holdsKey : key.HoldsKey bucket.key
  counts : count.CountsDocuments bucket.docCount
  object : IsObject bucket.text [key, count] bucket.children
  names : ChildNames bucket.children

/-- The texts of a tree are JSON for it. -/
inductive Written : ResultTree → Prop where
  | leaf (text : PaddedText) : Written (.leaf text)
  | filter {text : PaddedText} {docCount : Nat} {children : List (String × ResultTree)}
      {count : MemberText} (hcount : count.CountsDocuments docCount)
      (hobject : IsObject text [count] children) (hnames : ChildNames children)
      (hchildren : ∀ child ∈ children, Written child.2) : Written (.filter text docCount children)
  | terms {text : PaddedText} {buckets : List (WrittenBucket ResultTree)} {items : MemberText}
      {array : ArrayText} (hobject : IsObject text [items] []) (hname : items.name = "buckets")
      (hitems : items.value.core = array.text)
      (htexts : array.items = buckets.map WrittenBucket.text)
      (hbuckets : ∀ bucket ∈ buckets, ∃ key count, IsBucket bucket key count)
      (hchildren : ∀ bucket ∈ buckets, ∀ child ∈ bucket.children, Written child.2) :
      Written (.terms text buckets)

end ResultTree

/-- Named results are the spans of named trees. -/
def RawResults.Carries (results : RawResults) (children : List (String × ResultTree)) : Prop :=
  ∀ name, results.get? name = (Named.find? name children).map fun tree => tree.text.span

namespace ResultTree

/-! ## One level -/

theorem IsObject.exists_members {text : PaddedText} {own : List MemberText}
    {children : List (String × ResultTree)} (h : IsObject text own children) :
    ∃ members entries, text.span.value = .object members ∧ members.Lists entries ∧
      entries.Perm (own.map MemberText.entry ++ spans children) := by
  obtain ⟨object, members, hcore, hperm, hchildren⟩ := h
  obtain ⟨scanned, hvalue, hlists⟩ := text.exists_span_value hcore
  have hspans := congrArg (List.map fun entry => (entry.1, entry.2.span)) hchildren
  rw [List.map_map, List.map_map] at hspans
  have hentries : members.map MemberText.entry = spans children := hspans
  refine ⟨scanned, object.entries, hvalue, hlists, ?_⟩
  rw [← hentries, ← List.map_append]
  exact hperm.map MemberText.entry

theorem names_spans (children : List (String × ResultTree)) :
    (spans children).map Prod.fst = children.map Prod.fst := by
  rw [spans, List.map_map]
  rfl

theorem find?_spans (name : String) (children : List (String × ResultTree)) :
    Named.find? name (spans children) =
      (Named.find? name children).map fun tree => tree.text.span :=
  Named.find?_map (fun tree : ResultTree => tree.text.span) name children

/-- An object with well-formed members of its own decodes as a bucket. Each of these is the last
member of its name, and the children are kept as they are written. -/
theorem IsObject.exists_bucket {text : PaddedText} {own : List MemberText}
    {children : List (String × ResultTree)} {depth : Nat} (h : IsObject text own children)
    (hnames : ChildNames children) (hdistinct : (own.map MemberText.name).Nodup)
    (hknown : ∀ member ∈ own, member.name ∈ Bucket.knownNames)
    (haccepts : ∀ member ∈ own, Bucket.Accepts depth member.name member.value.span.value) :
    ∃ bucket entries, Decode.bucket (depth + 1) text.span.value = .ok bucket ∧
      bucket.Reflects depth entries ∧
      (∀ member ∈ own, Named.last? member.name entries = some member.value.span) ∧
      bucket.subResults.Carries children := by
  obtain ⟨members, entries, hvalue, hlists, hperm⟩ := h.exists_members
  have hfree : ∀ entry ∈ spans children, entry.1 ∉ Bucket.knownNames := by
    intro entry hentry
    obtain ⟨child, hchild, rfl⟩ := List.mem_map.1 hentry
    exact hnames.free child hchild
  have hall : ∀ entry ∈ entries, Bucket.Accepts depth entry.1 entry.2.value := by
    intro entry hentry
    rcases List.mem_append.1 (hperm.mem_iff.1 hentry) with hown | hchild
    · obtain ⟨member, hmember, rfl⟩ := List.mem_map.1 hown
      exact haccepts member hmember
    · exact .of_notMem (hfree entry hchild) _ _
  have hnodup : (entries.map Prod.fst).Nodup := by
    rw [(hperm.map Prod.fst).nodup_iff, List.map_append, List.map_map, names_spans,
      List.nodup_append]
    refine ⟨hdistinct, hnames.distinct, fun name hown other hother hsame => ?_⟩
    obtain ⟨member, hmember, rfl⟩ := List.mem_map.1 hown
    obtain ⟨child, hchild, rfl⟩ := List.mem_map.1 hother
    exact hnames.free child hchild (hsame ▸ hknown member hmember)
  obtain ⟨bucket, hbucket, hreflects⟩ := Bucket.exists_bucket hlists hall
  refine ⟨bucket, entries, hvalue ▸ hbucket, hreflects, fun member hmember => ?_, fun name => ?_⟩
  · rw [Named.last?_eq_find? hnodup, Named.find?_eq_some_iff hnodup, hperm.mem_iff]
    exact List.mem_append_left _ (List.mem_map_of_mem hmember)
  · -- what is no member of its own is a child
    have hown : (own.map MemberText.entry).filter Bucket.isSubResult = [] := by
      refine List.filter_eq_nil_iff.2 fun entry hentry => ?_
      obtain ⟨member, hmember, rfl⟩ := List.mem_map.1 hentry
      simpa [Bucket.isSubResult, MemberText.entry] using hknown member hmember
    have hchildren : (spans children).filter Bucket.isSubResult = spans children :=
      List.filter_eq_self.2 fun entry hentry => by
        simpa [Bucket.isSubResult] using hfree entry hentry
    have hothers := hperm.filter Bucket.isSubResult
    rw [List.filter_append, hown, hchildren, List.nil_append] at hothers
    have hkept : ((entries.filter Bucket.isSubResult).map Prod.fst).Nodup :=
      hnodup.sublist (List.filter_sublist.map Prod.fst)
    rw [hreflects.results name, Named.last?_eq_find? hkept,
      Named.find?_eq_of_perm hothers hkept, find?_spans]

end ResultTree

/-- The count of documents decodes. -/
theorem MemberText.CountsDocuments.decode {member : MemberText} {docCount : Nat}
    (h : member.CountsDocuments docCount) (depth : Nat) :
    Decode.nat64 depth member.value.span.value = .ok docCount := by
  have hsymbols := (Json.nat docCount).written_symbols
  rw [← h.core] at hsymbols
  rw [PaddedText.span_value (Json.written_grammatical _) hsymbols]
  exact Decode.nat64_written h.range depth

theorem MemberText.CountsDocuments.accepts {member : MemberText} {docCount : Nat}
    (h : member.CountsDocuments docCount) (depth : Nat) :
    Bucket.Accepts depth member.name member.value.span.value := by
  have hdecode := h.decode depth
  simp [Bucket.Accepts, h.name, hdecode]

theorem MemberText.CountsDocuments.known {member : MemberText} {docCount : Nat}
    (h : member.CountsDocuments docCount) : member.name ∈ Bucket.knownNames := by
  simp [h.name, Bucket.knownNames]

/-- A bucket has the count that its last such member holds. -/
theorem MemberText.CountsDocuments.docCount_eq {member : MemberText} {docCount depth : Nat}
    {bucket : Bucket} {entries : List (String × Span)} (h : member.CountsDocuments docCount)
    (hreflects : bucket.Reflects depth entries)
    (hlast : Named.last? member.name entries = some member.value.span) :
    bucket.docCount = docCount := by
  have hcount := hreflects.docCount
  rw [← h.name, hlast] at hcount
  exact Except.ok.inj (hcount.symm.trans (h.decode depth))

/-- The key of a bucket decodes. -/
theorem MemberText.HoldsKey.decode {member : MemberText} {key : String} (h : member.HoldsKey key)
    (depth : Nat) : Decode.json depth member.value.span.value = .ok (.string key) := by
  obtain ⟨quoted, hquoted, hsymbols, hread⟩ := h.spells
  have hgrammatical : (Raw.string quoted).Grammatical := hquoted
  have hstring : (Raw.string quoted).symbols = Symbol.ofChars member.value.core := by
    rw [← hsymbols]
    simp [Raw.symbols, Raw.before]
  rw [PaddedText.span_value hgrammatical hstring, Decode.json, Decode.jsonWith, hread,
    Outcome.ok_map]

theorem MemberText.HoldsKey.accepts {member : MemberText} {key : String} (h : member.HoldsKey key)
    (depth : Nat) : Bucket.Accepts depth member.name member.value.span.value := by
  have hdecode := h.decode depth
  simp [Bucket.Accepts, h.name, hdecode]

theorem MemberText.HoldsKey.known {member : MemberText} {key : String} (h : member.HoldsKey key) :
    member.name ∈ Bucket.knownNames := by
  simp [h.name, Bucket.knownNames]

/-- A bucket has the key that its last such member holds. -/
theorem MemberText.HoldsKey.key_eq {member : MemberText} {key : String} {depth : Nat}
    {bucket : Bucket} {entries : List (String × Span)} (h : member.HoldsKey key)
    (hreflects : bucket.Reflects depth entries)
    (hlast : Named.last? member.name entries = some member.value.span) :
    bucket.key = some (.string key) := by
  have hkey := hreflects.key
  rw [← h.name, hlast, TakenFrom, h.decode depth, Outcome.ok_map] at hkey
  exact (Except.ok.inj hkey).symm

namespace ResultTree

/-- The text of a filter result decodes to its count and its children. -/
theorem exists_filter {text : PaddedText} {docCount : Nat} {children : List (String × ResultTree)}
    (h : Written (.filter text docCount children)) :
    ∃ found, Decode.filter nestingLimit text.span.value = .ok found ∧ found.docCount = docCount ∧
      found.subResults.Carries children := by
  cases h with
  | filter hcount hobject hnames _ =>
      obtain ⟨bucket, entries, hbucket, hreflects, hlast, hcarries⟩ :=
        hobject.exists_bucket hnames (List.pairwise_singleton _ _)
          (List.forall_mem_singleton.2 hcount.known)
          (List.forall_mem_singleton.2 (hcount.accepts (nestingLimit - 1)))
      have hdocCount := hcount.docCount_eq hreflects (hlast _ List.mem_cons_self)
      have hsame : Decode.bucket nestingLimit text.span.value = .ok bucket := hbucket
      refine ⟨⟨bucket.docCount, bucket.subResults⟩, ?_, hdocCount, hcarries⟩
      rw [Decode.filter, hsame]
      rfl

/-- What a bucket of a terms result gives when it is decoded. -/
structure BucketFound (bucket : WrittenBucket ResultTree) (found : Bucket) : Prop where
  key : found.key = some (.string bucket.key)
  docCount : found.docCount = bucket.docCount
  carries : found.subResults.Carries bucket.children

/-- The text of a bucket decodes to its key, its count and its children. -/
theorem IsBucket.exists_found {bucket : WrittenBucket ResultTree} {key count : MemberText}
    (h : IsBucket bucket key count) (depth : Nat) :
    ∃ found, Decode.bucket (depth + 1) bucket.text.span.value = .ok found ∧
      BucketFound bucket found := by
  have hdistinct : ([key, count].map MemberText.name).Nodup := by
    simp [h.holdsKey.name, h.counts.name]
  have hknown : ∀ member ∈ [key, count], member.name ∈ Bucket.knownNames := by
    simp [h.holdsKey.known, h.counts.known]
  have haccepts : ∀ member ∈ [key, count],
      Bucket.Accepts depth member.name member.value.span.value := by
    simp [h.holdsKey.accepts depth, h.counts.accepts depth]
  obtain ⟨found, entries, hfound, hreflects, hlast, hcarries⟩ :=
    h.object.exists_bucket h.names hdistinct hknown haccepts
  exact ⟨found, hfound, h.holdsKey.key_eq hreflects (hlast key (by simp)),
    h.counts.docCount_eq hreflects (hlast count (by simp)), hcarries⟩

theorem exists_found {buckets : List (WrittenBucket ResultTree)}
    (h : ∀ bucket ∈ buckets, ∃ key count, IsBucket bucket key count) (depth : Nat) :
    ∃ founds, List.Forall₂ (fun bucket found =>
      Decode.bucket (depth + 1) bucket.text.span.value = .ok found ∧ BucketFound bucket found)
      buckets founds := by
  induction buckets with
  | nil => exact ⟨[], .nil⟩
  | cons bucket rest ih =>
      obtain ⟨key, count, hbucket⟩ := h bucket List.mem_cons_self
      obtain ⟨found, hfound⟩ := hbucket.exists_found depth
      obtain ⟨founds, hfounds⟩ := ih fun other hother => h other (List.mem_cons_of_mem _ hother)
      exact ⟨found :: founds, .cons hfound hfounds⟩

/-- The text of a terms result decodes to its buckets, in their order. -/
theorem exists_terms {text : PaddedText} {buckets : List (WrittenBucket ResultTree)}
    (h : Written (.terms text buckets)) :
    ∃ found, Decode.terms nestingLimit text.span.value = .ok found ∧
      List.Forall₂ BucketFound buckets found.buckets := by
  cases h with
  | @terms _ _ member _ hobject hname hitems htexts hbuckets _ =>
      obtain ⟨members, entries, hvalue, hlists, hperm⟩ := hobject.exists_members
      obtain rfl : entries = [member.entry] := List.perm_singleton.1 hperm
      obtain ⟨items, harray, hitems⟩ := PaddedText.exists_span_items hitems
      -- the result, its list of buckets and each bucket take one level of nesting
      obtain ⟨founds, hfounds⟩ := exists_found hbuckets (nestingLimit - 3)
      have hdecode : Decode.each (Decode.bucket (nestingLimit - 2)) items = .ok founds := by
        rw [hitems.each_eq, Outcome.mapM_eq_ok_iff, htexts, List.forall₂_map_left_iff,
          List.forall₂_map_left_iff]
        exact hfounds.imp fun _ _ hfound => hfound.1
      refine ⟨⟨none, none, founds⟩, ?_, hfounds.imp fun _ _ hfound => hfound.2⟩
      have hentry : member.entry = ("buckets", member.value.span) := by
        rw [MemberText.entry, hname]
      have hread : Decode.buckets (nestingLimit - 1) member.value.span.value = .ok founds := by
        rw [harray]
        exact hdecode
      have hwalk : Decode.walk (TermsResult.step (nestingLimit - 1)) members {} =
          .ok { buckets := some founds } := by
        rw [hlists.walk_eq, hentry]
        simp [run, TermsResult.step, Decode.once, hread]
      have hterms : Decode.terms nestingLimit (.object members) =
          TermsResult.ofMembers (nestingLimit - 1) members := rfl
      rw [hvalue, hterms, TermsResult.ofMembers, hwalk]
      rfl

/-- Buckets that decode are found where they are written. -/
theorem exists_getElem? {buckets : List (WrittenBucket ResultTree)} {founds : List Bucket}
    (h : List.Forall₂ BucketFound buckets founds) {position : Nat}
    {bucket : WrittenBucket ResultTree} (hbucket : buckets[position]? = some bucket) :
    ∃ found, founds[position]? = some found ∧ BucketFound bucket found := by
  induction h generalizing position with
  | nil => cases hbucket
  | cons hfirst _ ih =>
      cases position with
      | zero =>
          cases hbucket
          exact ⟨_, rfl, hfirst⟩
      | succ position => exact ih hbucket

theorem map_key_docCount {buckets : List (WrittenBucket ResultTree)} {founds : List Bucket}
    (h : List.Forall₂ BucketFound buckets founds) :
    founds.map (fun bucket => (bucket.key, bucket.docCount)) =
      buckets.map fun bucket => (some (.string bucket.key), bucket.docCount) := by
  induction h with
  | nil => rfl
  | cons hbucket _ ih => rw [List.map_cons, List.map_cons, ih, hbucket.key, hbucket.docCount]

theorem written_of_filter {text : PaddedText} {docCount : Nat}
    {children : List (String × ResultTree)} (h : Written (.filter text docCount children)) :
    ∀ child ∈ children, Written child.2 := by
  cases h with
  | filter _ _ _ hchildren => exact hchildren

theorem written_of_terms {text : PaddedText} {buckets : List (WrittenBucket ResultTree)}
    (h : Written (.terms text buckets)) :
    ∀ bucket ∈ buckets, ∀ child ∈ bucket.children, Written child.2 := by
  cases h with
  | terms _ _ _ _ _ hchildren => exact hchildren

/-! ## Writing a tree -/

/-- Children as members of an object. -/
def childMembers (children : List (String × ResultTree)) : List MemberText :=
  children.map fun child => .bare child.1 child.2.text

theorem isObject_ofMembers (own : List MemberText) (children : List (String × ResultTree)) :
    IsObject (.ofMembers (own ++ childMembers children)) own children :=
  ⟨.bare (own ++ childMembers children), childMembers children, rfl, .refl _, by
    rw [childMembers, List.map_map]
    rfl⟩

/-- The member that a writer gives for a count of documents. -/
def countMember (docCount : Nat) : MemberText :=
  .bare "doc_count" (.ofJson (.nat docCount))

/-- The member that a writer gives for a key. -/
def keyMember (key : String) : MemberText :=
  .bare "key" (.ofJson (.string key))

/-- The result of a filter, written without white space. -/
def writeFilter (docCount : Nat) (children : List (String × ResultTree)) : ResultTree :=
  .filter (.ofMembers ([countMember docCount] ++ childMembers children)) docCount children

/-- A bucket, written without white space. -/
def writeBucket (key : String) (docCount : Nat) (children : List (String × ResultTree)) :
    WrittenBucket ResultTree :=
  ⟨.ofMembers ([keyMember key, countMember docCount] ++ childMembers children), key, docCount,
    children⟩

/-- A terms result, written without white space. -/
def writeTerms (buckets : List (WrittenBucket ResultTree)) : ResultTree :=
  .terms (.ofMembers [.bare "buckets" (.ofItems (buckets.map WrittenBucket.text))]) buckets

theorem written_writeFilter {docCount : Nat} {children : List (String × ResultTree)}
    (hrange : docCount < 2 ^ 64) (hnames : ChildNames children)
    (hchildren : ∀ child ∈ children, Written child.2) : Written (writeFilter docCount children) :=
  .filter ⟨rfl, rfl, hrange⟩ (isObject_ofMembers _ children) hnames hchildren

theorem isBucket_writeBucket {key : String} {docCount : Nat} {children : List (String × ResultTree)}
    (hrange : docCount < 2 ^ 64) (hnames : ChildNames children) :
    IsBucket (writeBucket key docCount children) (keyMember key) (countMember docCount) :=
  ⟨⟨rfl, Json.spells_quote key⟩, ⟨rfl, rfl, hrange⟩, isObject_ofMembers _ children, hnames⟩

theorem written_writeTerms {buckets : List (WrittenBucket ResultTree)}
    (hbuckets : ∀ bucket ∈ buckets, ∃ key count, IsBucket bucket key count)
    (hchildren : ∀ bucket ∈ buckets, ∀ child ∈ bucket.children, Written child.2) :
    Written (writeTerms buckets) := by
  have hobject := isObject_ofMembers
    [.bare "buckets" (.ofItems (buckets.map WrittenBucket.text))] []
  rw [childMembers, List.map_nil, List.append_nil] at hobject
  exact @Written.terms _ _ _ (.bare (buckets.map WrittenBucket.text)) hobject rfl rfl rfl hbuckets
    hchildren

end ResultTree

end SearchWire
