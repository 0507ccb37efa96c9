import SearchWire.Proofs.Response.ResultTree
import SearchWire.Proofs.Response.SearchBody

/-!
# Reading a tree of results along a path

`RawResults.follow` reads down a path of names and positions and decodes one
level at a time, each from the span that the level above has kept. So the depth
of a tree does not enter: what holds of one level is carried along the path by
induction, `RawResults.Carries.follow`. `SearchResponse.resultTrees_readBack`
says this of the trees under the `aggregations` of a response.
-/

namespace SearchWire

/-! ## Paths -/

/-- One step down a tree: into the result of a filter, or into one of the buckets of a terms
result. -/
inductive ResultStep where
  | filter (name : String)
  | bucket (name : String) (position : Nat)

/-- Reads down a path, one level after another. -/
def RawResults.follow (results : RawResults) : List ResultStep → Except Failure (Option RawResults)
  | [] => .ok (some results)
  | .filter name :: path => do
      match ← results.read name Decode.filter with
      | some found => found.subResults.follow path
      | none => return none
  | .bucket name position :: path => do
      match ← results.read name Decode.terms with
      | some found =>
          match found.buckets[position]? with
          | some bucket => bucket.subResults.follow path
          | none => return none
      | none => return none

namespace ResultTree

/-- The trees that a path leads to. -/
def descend (children : List (String × ResultTree)) :
    List ResultStep → Option (List (String × ResultTree))
  | [] => some children
  | .filter name :: path =>
      match Named.find? name children with
      | some (.filter _ _ inner) => descend inner path
      | _ => none
  | .bucket name position :: path =>
      match Named.find? name children with
      | some (.terms _ buckets) =>
          match buckets[position]? with
          | some bucket => descend bucket.children path
          | none => none
      | _ => none

end ResultTree

/-- What named results show of the trees they stand for: nothing under another name, each text
verbatim, and the first level of each tree when it is read. -/
structure RawResults.Shows (results : RawResults) (children : List (String × ResultTree)) :
    Prop where
  absent : ∀ name, name ∉ children.map Prod.fst → results.get? name = none ∧
    ∀ {α : Type} (decoder : Decoder α), results.read name decoder = .ok none
  verbatim : ∀ name tree, Named.find? name children = some tree →
    ∃ span, results.get? name = some span ∧ span.chars = tree.text.core
  filter : ∀ name text docCount inner,
    Named.find? name children = some (.filter text docCount inner) →
    ∃ found, results.read name Decode.filter = .ok (some found) ∧ found.docCount = docCount
  terms : ∀ name text buckets, Named.find? name children = some (.terms text buckets) →
    ∃ found, results.read name Decode.terms = .ok (some found) ∧
      found.buckets.map (fun bucket => (bucket.key, bucket.docCount)) =
        buckets.map fun bucket => (some (.string bucket.key), bucket.docCount)

/-! ## Following a path -/

open ResultTree

namespace RawResults

section Carries

variable {results : RawResults} {children : List (String × ResultTree)}
  (h : results.Carries children) (hwritten : ∀ child ∈ children, Written child.2)

include h

theorem Carries.get? {name : String} {tree : ResultTree}
    (hfind : Named.find? name children = some tree) :
    results.get? name = some tree.text.span := by
  rw [h name, hfind]
  rfl

include hwritten

/-- The result of a filter is read one level deep. -/
theorem Carries.read_filter {name : String} {text : PaddedText} {docCount : Nat}
    {inner : List (String × ResultTree)}
    (hfind : Named.find? name children = some (.filter text docCount inner)) :
    ∃ found, results.read name Decode.filter = .ok (some found) ∧ found.docCount = docCount ∧
      found.subResults.Carries inner := by
  obtain ⟨found, hfound, hshows⟩ := exists_filter (hwritten _ (Named.mem_of_find? hfind))
  exact ⟨found, read_eq_ok (h.get? hfind) hfound, hshows⟩

/-- A terms result is read one level deep. -/
theorem Carries.read_terms {name : String} {text : PaddedText}
    {buckets : List (WrittenBucket ResultTree)}
    (hfind : Named.find? name children = some (.terms text buckets)) :
    ∃ found, results.read name Decode.terms = .ok (some found) ∧
      List.Forall₂ BucketFound buckets found.buckets := by
  obtain ⟨found, hfound, hshows⟩ := exists_terms (hwritten _ (Named.mem_of_find? hfind))
  exact ⟨found, read_eq_ok (h.get? hfind) hfound, hshows⟩

/-- Results that carry trees show them. -/
theorem Carries.shows : results.Shows children where
  absent := by
    intro name hname
    have hnone : results.get? name = none := by
      rw [h name, Named.find?_eq_none fun child hchild hsame =>
        hname (List.mem_map.2 ⟨child, hchild, hsame⟩)]
      rfl
    exact ⟨hnone, fun decoder => read_eq_none hnone decoder⟩
  verbatim := fun _ tree hfind => ⟨tree.text.span, h.get? hfind, tree.text.span_chars⟩
  filter := by
    intro name text docCount inner hfind
    obtain ⟨found, hread, hcount, -⟩ := h.read_filter hwritten hfind
    exact ⟨found, hread, hcount⟩
  terms := by
    intro name text buckets hfind
    obtain ⟨found, hread, hbuckets⟩ := h.read_terms hwritten hfind
    exact ⟨found, hread, map_key_docCount hbuckets⟩

end Carries

/-- A path that leads to trees is followed to the results that carry them. -/
theorem Carries.follow {results : RawResults} {children inner : List (String × ResultTree)}
    (h : results.Carries children) (hwritten : ∀ child ∈ children, Written child.2)
    {path : List ResultStep} (hpath : descend children path = some inner) :
    ∃ found, results.follow path = .ok (some found) ∧ found.Carries inner ∧
      ∀ child ∈ inner, Written child.2 := by
  induction path generalizing results children with
  | nil =>
      cases hpath
      exact ⟨results, rfl, h, hwritten⟩
  | cons step path ih =>
      cases step with
      | filter name =>
          rw [descend] at hpath
          split at hpath
          · next text docCount children' hfind =>
              obtain ⟨found, hread, -, hcarries⟩ := h.read_filter hwritten hfind
              rw [RawResults.follow, hread, Outcome.ok_bind]
              exact ih hcarries (written_of_filter (hwritten _ (Named.mem_of_find? hfind))) hpath
          · cases hpath
      | bucket name position =>
          rw [descend] at hpath
          split at hpath
          · next text buckets hfind =>
              split at hpath
              · next bucket hbucket =>
                  obtain ⟨found, hread, hbuckets⟩ := h.read_terms hwritten hfind
                  obtain ⟨reached, hreached, hfound⟩ := exists_getElem? hbuckets hbucket
                  have hinner := written_of_terms (hwritten _ (Named.mem_of_find? hfind)) bucket
                    (List.mem_of_getElem? hbucket)
                  simp only [RawResults.follow, hread, Outcome.ok_bind, hreached]
                  exact ih hfound.carries hinner hpath
              · cases hpath
          · cases hpath

end RawResults

/-! ## Responses -/

namespace SearchResponse

/-- A body that holds named trees under `aggregations`, and besides only other members that a
response decodes, in any order. -/
def HoldsTrees (body : ObjectText) (roots : List (String × ResultTree)) : Prop :=
  ∃ (aggregations : MemberText) (others : List MemberText),
    body.members.Perm (aggregations :: others) ∧
    aggregations.name = "aggregations" ∧
    IsObject aggregations.value [] roots ∧
    ∀ other ∈ others, other.name ∈ knownNames ∧ other.name ≠ "aggregations" ∧
      Accepts memberDepth other.name other.value.span.value

/-- Any object is accepted as an object of named results. -/
theorem exists_rawResults {members : Members} {entries : List (String × Span)}
    (h : members.Lists entries) (depth : Nat) :
    ∃ results, Decode.rawResults (depth + 1) (.object members) = .ok results := by
  have haccepts (results : RawResults) (name : String) (span : Span) :
      (∃ next, Decode.collectSpan depth results name span.value = .ok next) ↔ True := by
    simp [Decode.collectSpan, Span.ofRaw_value]
  have hall := @run_isOk_iff _ _ (fun _ _ => True) haccepts entries {}
  obtain ⟨results, hrun⟩ := hall.2 fun _ _ => trivial
  exact ⟨results, (h.walk_eq (Decode.collectSpan depth) {}).trans hrun⟩

/-- A body that holds trees is read, and the named results carry these trees. -/
theorem HoldsTrees.exists_response {body : ObjectText} {roots : List (String × ResultTree)}
    (h : HoldsTrees body roots) (hnames : (roots.map Prod.fst).Nodup) :
    ∃ response, ofBytes body.bytes = .ok response ∧ response.aggregations.Carries roots := by
  obtain ⟨aggregations, others, hperm, hname, hobject, hothers⟩ := h
  obtain ⟨members, entries, hvalue, hlists, hentries⟩ := hobject.exists_members
  have hbody : body.entries.Perm (aggregations.entry :: others.map MemberText.entry) :=
    hperm.map MemberText.entry
  have haccepts : ∀ entry ∈ body.entries, Accepts memberDepth entry.1 entry.2.value := by
    intro entry hentry
    rcases List.mem_cons.1 (hbody.mem_iff.1 hentry) with rfl | hentry
    · obtain ⟨results, hresults⟩ := exists_rawResults hlists (nestingLimit - 2)
      have hdecode : Decode.rawResults memberDepth aggregations.value.span.value = .ok results := by
        rw [hvalue]
        exact hresults
      simp [Accepts, MemberText.entry, hname, hdecode]
    · obtain ⟨other, hother, rfl⟩ := List.mem_map.1 hentry
      exact (hothers other hother).2.2
  obtain ⟨response, hresponse⟩ := (ofBytes_isOk_iff body).2 haccepts
  refine ⟨response, hresponse, fun name => ?_⟩
  have hunknown : body.entries.filter isUnknown = [] := by
    refine List.filter_eq_nil_iff.2 fun entry hentry => ?_
    rcases List.mem_cons.1 (hbody.mem_iff.1 hentry) with rfl | hentry
    · simp [isUnknown, MemberText.entry, hname, knownNames]
    · obtain ⟨other, hother, rfl⟩ := List.mem_map.1 hentry
      simpa [isUnknown, MemberText.entry] using (hothers other hother).1
  -- the other members add nothing to the entries of the one `aggregations` member
  have hnothing : aggregationEntries (others.map MemberText.entry) = [] := by
    refine List.flatMap_eq_nil_iff.2 fun entry hentry => ?_
    obtain ⟨other, hother, rfl⟩ := List.mem_map.1 hentry
    exact if_neg (hothers other hother).2.1
  have hresults : (aggregationEntries body.entries).Perm (spans roots) := by
    have hflat : (aggregationEntries body.entries).Perm
        (aggregationEntries (aggregations.entry :: others.map MemberText.entry)) :=
      hbody.flatMap_right _
    rw [aggregationEntries, aggregationEntries, List.flatMap_cons, ← aggregationEntries,
      ← aggregationEntries, hnothing, List.append_nil, MemberText.entry, if_pos hname, hvalue,
      Raw.entries, hlists.entries_eq] at hflat
    exact hflat.trans hentries
  have hdistinct : ((aggregationEntries body.entries).map Prod.fst).Nodup := by
    rw [(hresults.map Prod.fst).nodup_iff, names_spans]
    exact hnames
  have hreflects := (reflects_of_ofBytes hresponse).1.results name
  rw [hunknown, Named.last?_eq_find? hdistinct, Named.find?_eq_of_perm hresults hdistinct,
    find?_spans] at hreflects
  rw [hreflects]
  exact Option.or_none

/-- Trees of results of any depth read back level by level. A response that holds them under
`aggregations` is read, and following any path that they have succeeds at every step and ends at
results that show the trees there: each text verbatim, nothing under any other name, the count of a
filter, and the keys and counts of the buckets in their order. -/
theorem resultTrees_readBack {body : ObjectText} {roots : List (String × ResultTree)}
    (hbody : HoldsTrees body roots) (hnames : (roots.map Prod.fst).Nodup)
    (hwritten : ∀ root ∈ roots, Written root.2) :
    ∃ response, ofBytes body.bytes = .ok response ∧
      ∀ path children, descend roots path = some children →
        ∃ results, response.aggregations.follow path = .ok (some results) ∧
          results.Shows children := by
  obtain ⟨response, hresponse, hcarries⟩ := hbody.exists_response hnames
  refine ⟨response, hresponse, fun path children hpath => ?_⟩
  obtain ⟨results, hfollow, hfound, hchildren⟩ := hcarries.follow hwritten hpath
  exact ⟨results, hfollow, hfound.shows hchildren⟩

/-- Filters and buckets in turn, each around the next, four levels of nesting for each pair. -/
def nestedResults : Nat → ResultTree
  | 0 => .leaf (.ofJson .null)
  | depth + 1 =>
      writeFilter 1 [("in", writeTerms [writeBucket "k" 1 [("in", nestedResults depth)]])]

theorem written_nestedResults (depth : Nat) : Written (nestedResults depth) := by
  have hnames (tree : ResultTree) : ChildNames [("in", tree)] := by
    constructor
    · exact List.pairwise_singleton _ _
    · simp [Bucket.knownNames]
  induction depth with
  | zero => exact .leaf _
  | succ depth ih =>
      refine written_writeFilter (by decide) (hnames _) (List.forall_mem_singleton.2 ?_)
      refine written_writeTerms ?_ ?_
      · exact List.forall_mem_singleton.2 ⟨_, _, isBucket_writeBucket (by decide) (hnames _)⟩
      · exact List.forall_mem_singleton.2 (List.forall_mem_singleton.2 ih)

/-- The path down to the innermost tree. -/
def nestedPath : Nat → List ResultStep
  | 0 => []
  | depth + 1 => .filter "in" :: .bucket "in" 0 :: nestedPath depth

theorem descend_nestedPath (depth : Nat) :
    descend [("in", nestedResults depth)] (nestedPath depth) =
      some [("in", .leaf (.ofJson .null))] := by
  induction depth with
  | zero => rfl
  | succ depth ih => exact ih

/-- The body of a response with nothing but a tree. -/
def treeBody (tree : ResultTree) : ObjectText :=
  .bare [.bare "aggregations" (.ofMembers ([] ++ childMembers [("in", tree)]))]

theorem resultTrees_readBack_nested :
    ∃ response results, ofBytes (treeBody (nestedResults 50)).bytes = .ok response ∧
      response.aggregations.follow (nestedPath 50) = .ok (some results) ∧
      results.Shows [("in", .leaf (.ofJson .null))] := by
  have hbody : HoldsTrees (treeBody (nestedResults 50)) [("in", nestedResults 50)] :=
    ⟨_, [], .refl _, rfl, isObject_ofMembers [] _, fun other hother =>
      absurd hother List.not_mem_nil⟩
  obtain ⟨response, hresponse, hpaths⟩ := resultTrees_readBack hbody (List.pairwise_singleton _ _)
    (List.forall_mem_singleton.2 (written_nestedResults 50))
  obtain ⟨results, hfollow, hshows⟩ := hpaths (nestedPath 50) _ (descend_nestedPath 50)
  exact ⟨response, results, hresponse, hfollow, hshows⟩

end SearchResponse

end SearchWire
