import SearchWire.Proofs.Request.Tree
import SearchWire.Proofs.Text.Named

/-!
# The order in which aggregations are added

A `Draft` is an aggregation together with the order in which the children of
each of its nodes were added. `Draft.Agrees` relates two drafts that end alike
under every name, at every node. `Draft.additions_settle` says what any history
of additions leaves, namely the last thing of each name in the order of the
names, and that drafts which agree are validated and written alike.
-/

namespace SearchWire

/-! ## Adding aggregations one after another -/

/-- Adds named children to a bucket aggregation, one after another. -/
def Aggregation.withChildren (parent : Aggregation) (entries : List (String × Aggregation)) :
    Aggregation :=
  entries.foldl (fun built entry => built.withChild entry.1 entry.2) parent

/-- Adds named aggregations to a request, one after another. -/
def SearchRequest.withAggregations (request : SearchRequest)
    (entries : List (String × Aggregation)) : SearchRequest :=
  entries.foldl (fun built entry => built.withAggregation entry.1 entry.2) request

/-- Children that are added to a bucket aggregation are inserted among those it has. -/
theorem Aggregation.withChildren_bucket (division : Division)
    (children entries : List (String × Aggregation)) :
    (bucket division children).withChildren entries =
      bucket division (Named.insertAll entries children) := by
  induction entries generalizing children with
  | nil => rfl
  | cons entry rest ih => exact ih (Named.insert entry.1 entry.2 children)

/-- Aggregations that are added to a request are inserted among those it has, and nothing else
changes. -/
theorem SearchRequest.withAggregations_eq (request : SearchRequest)
    (entries : List (String × Aggregation)) :
    request.withAggregations entries =
      { request with aggregations := Named.insertAll entries request.aggregations } := by
  induction entries generalizing request with
  | nil => rfl
  | cons entry rest ih => exact ih (request.withAggregation entry.1 entry.2)

/-! ## Drafts -/

/-- How an aggregation comes about: a leaf is given, and a bucket aggregation starts with children
that are collected from a list and has further ones added, one after another. -/
inductive Draft where
  | leaf (aggregation : LeafAggregation)
  | bucket (division : Division) (collected added : List (String × Draft))

namespace Draft

mutual

/-- The aggregation of a draft. -/
def build : Draft → Aggregation
  | .leaf aggregation => .leaf aggregation
  | .bucket division collected added =>
      (Aggregation.bucket division (Named.ofList (buildEach collected))).withChildren
        (buildEach added)
termination_by structural draft => draft

/-- The aggregations of named drafts. -/
def buildEach : List (String × Draft) → List (String × Aggregation)
  | [] => []
  | (name, draft) :: rest => (name, draft.build) :: buildEach rest
termination_by structural drafts => drafts

end

theorem buildEach_eq_map (drafts : List (String × Draft)) :
    buildEach drafts = drafts.map fun entry => (entry.1, entry.2.build) := by
  induction drafts with
  | nil => rfl
  | cons entry rest ih =>
      obtain ⟨name, draft⟩ := entry
      rw [buildEach, ih, List.map_cons]

/-- Collected children and those added later form one history. -/
theorem build_bucket (division : Division) (collected added : List (String × Draft)) :
    (bucket division collected added).build =
      .bucket division (Named.ofList (buildEach (collected ++ added))) := by
  rw [build, Aggregation.withChildren_bucket, Named.insertAll_ofList, buildEach_eq_map,
    buildEach_eq_map, buildEach_eq_map, List.map_append]

/-- The last aggregation under a name is that of the last draft. -/
theorem last?_buildEach (name : String) (drafts : List (String × Draft)) :
    Named.last? name (buildEach drafts) = (Named.last? name drafts).map build := by
  rw [buildEach_eq_map, Named.last?, Named.last?, ← List.map_reverse, Named.find?_map]

/-- Two drafts divide alike and end alike under every name, at every node: the last draft under a
name agrees with the last one under it in the other draft. -/
inductive Agrees : Draft → Draft → Prop where
  | leaf (aggregation : LeafAggregation) : Agrees (.leaf aggregation) (.leaf aggregation)
  | bucket {division : Division} {collected added others more : List (String × Draft)}
      (names : ∀ name, Named.last? name (collected ++ added) = none ↔
        Named.last? name (others ++ more) = none)
      (last : ∀ name draft other, Named.last? name (collected ++ added) = some draft →
        Named.last? name (others ++ more) = some other → Agrees draft other) :
      Agrees (.bucket division collected added) (.bucket division others more)

/-- Two histories of named drafts end alike under every name. -/
def EndAlike (first second : List (String × Draft)) : Prop :=
  (∀ name, Named.last? name first = none ↔ Named.last? name second = none) ∧
    ∀ name draft other, Named.last? name first = some draft →
      Named.last? name second = some other → Agrees draft other

/-- Histories whose last drafts have the same aggregations leave the same aggregations. -/
theorem ofList_buildEach_eq {first second : List (String × Draft)}
    (names : ∀ name, Named.last? name first = none ↔ Named.last? name second = none)
    (last : ∀ name draft other, Named.last? name first = some draft →
      Named.last? name second = some other → draft.build = other.build) :
    Named.ofList (buildEach first) = Named.ofList (buildEach second) := by
  refine Named.ofList_eq_of_last? fun name => ?_
  rw [last?_buildEach, last?_buildEach]
  cases hfirst : Named.last? name first with
  | none => rw [(names name).1 hfirst]
  | some draft =>
      cases hsecond : Named.last? name second with
      | none => exact absurd (hfirst.symm.trans ((names name).2 hsecond)) (Option.some_ne_none _)
      | some other => exact congrArg some (last name draft other hfirst hsecond)

/-- Drafts that agree are drafts of the same aggregation. -/
theorem Agrees.build_eq {first second : Draft} (h : Agrees first second) :
    first.build = second.build := by
  induction h with
  | leaf aggregation => rfl
  | bucket names _ ih => rw [build_bucket, build_bucket, ofList_buildEach_eq names ih]

theorem EndAlike.ofList_eq {first second : List (String × Draft)} (h : EndAlike first second) :
    Named.ofList (buildEach first) = Named.ofList (buildEach second) :=
  ofList_buildEach_eq h.1 fun name draft other hfirst hsecond =>
    (h.2 name draft other hfirst hsecond).build_eq

theorem agrees_bucket_iff {division : Division}
    {collected added others more : List (String × Draft)} :
    Agrees (.bucket division collected added) (.bucket division others more) ↔
      EndAlike (collected ++ added) (others ++ more) :=
  ⟨fun | .bucket names last => ⟨names, last⟩, fun h => .bucket h.1 h.2⟩

/-- A draft agrees with itself. -/
theorem Agrees.refl : (draft : Draft) → Agrees draft draft
  | .leaf aggregation => .leaf aggregation
  | .bucket division collected added => by
      refine .bucket (fun _ => Iff.rfl) fun name first second hfirst hsecond => ?_
      obtain rfl : first = second := Option.some.inj (hfirst.symm.trans hsecond)
      have hmem : (name, first) ∈ collected ++ added :=
        List.mem_reverse.1 (Named.mem_of_find? hfirst)
      exact Agrees.refl first
termination_by draft => sizeOf draft
decreasing_by
  rcases List.mem_append.1 hmem with hmem | hmem <;>
    have hlt := List.sizeOf_lt_of_mem hmem <;> simp at hlt ⊢ <;> omega

/-- Histories with the same last drafts end alike. -/
theorem endAlike_of_last? {first second : List (String × Draft)}
    (h : ∀ name, Named.last? name first = Named.last? name second) : EndAlike first second := by
  refine ⟨fun name => by rw [h], fun name draft other hfirst hsecond => ?_⟩
  obtain rfl : draft = other := Option.some.inj (hfirst.symm.trans ((h name).trans hsecond))
  exact Agrees.refl draft

/-- A request with collected aggregations and further ones added, one after another. -/
def searchFor (request : SearchRequest) (collected added : List (String × Draft)) :
    SearchRequest :=
  { request with aggregations := Named.ofList (buildEach collected) }.withAggregations
    (buildEach added)

theorem searchFor_eq (request : SearchRequest) (collected added : List (String × Draft)) :
    searchFor request collected added =
      { request with aggregations := Named.ofList (buildEach (collected ++ added)) } := by
  rw [searchFor, SearchRequest.withAggregations_eq, Named.insertAll_ofList, buildEach_eq_map,
    buildEach_eq_map, buildEach_eq_map, List.map_append]

/-- Any history of additions leaves each name once, in increasing order, with the last aggregation
under it, and adding one more tells the aggregation that it replaces. So drafts that end alike at
every node are validated and written alike, and so are requests; distinct names may be added in
any order. -/
theorem additions_settle :
    (∀ entries : List (String × Aggregation),
      Named.Sorted (Named.ofList entries) ∧
      (∀ name aggregation, (name, aggregation) ∈ Named.ofList entries ↔
        Named.last? name entries = some aggregation) ∧
      (∀ name aggregation, Named.exchange name aggregation (Named.ofList entries) =
        (Named.last? name entries, Named.ofList (entries ++ [(name, aggregation)]))) ∧
      (∀ division, (Aggregation.bucket division []).withChildren entries =
        .bucket division (Named.ofList entries)) ∧
      ∀ request : SearchRequest, request.aggregations = [] →
        request.withAggregations entries =
          { request with aggregations := Named.ofList entries }) ∧
    (∀ first second : Draft, Agrees first second →
      first.build.validate = second.build.validate ∧ first.build.text = second.build.text) ∧
    (∀ (request : SearchRequest) (collected added others more : List (String × Draft)),
      EndAlike (collected ++ added) (others ++ more) →
        (searchFor request collected added).validate = (searchFor request others more).validate ∧
        (searchFor request collected added).text = (searchFor request others more).text) ∧
    ∀ first second : List (String × Draft), first.Perm second → (first.map Prod.fst).Nodup →
      EndAlike first second := by
  refine ⟨fun entries => ⟨Named.sorted_ofList entries, ?_, ?_, ?_, ?_⟩, ?_, ?_, ?_⟩
  · exact fun name aggregation => Named.mem_ofList_iff
  · intro name aggregation
    rw [Named.exchange_eq (Named.sorted_ofList entries), Named.find?_ofList,
      ← Named.insertAll_ofList]
    rfl
  · exact fun division => Aggregation.withChildren_bucket division [] entries
  · intro request hnone
    rw [SearchRequest.withAggregations_eq, hnone, Named.ofList]
  · intro first second h
    rw [h.build_eq]
    exact ⟨rfl, rfl⟩
  · intro request collected added others more h
    rw [searchFor_eq, searchFor_eq, h.ofList_eq]
    exact ⟨rfl, rfl⟩
  · exact fun first second hperm hnodup =>
      endAlike_of_last? fun name => Named.last?_eq_of_perm hperm hnodup name

/-- The sum and the maximum of a field, in this order. -/
def sumThenMax : List (String × Draft) :=
  [("sum", .leaf (.metric ⟨.sum, "quantity", none, none⟩)),
    ("max", .leaf (.metric ⟨.max, "quantity", none, none⟩))]

/-- Days with their sums and maxima, beside a statistic that is added twice. -/
def daysThenStatistic : Draft :=
  .bucket (.terms { field := "category" }) []
    [("stat", .leaf (.metric ⟨.avg, "price", none, none⟩)),
      ("days", .bucket (.dateHistogram { field := "created" }) [] sumThenMax),
      ("stat", .leaf (.metric ⟨.max, "price", none, none⟩))]

/-- The same, with the statistic added once and everything in another order. -/
def statisticThenDays : Draft :=
  .bucket (.terms { field := "category" })
    [("stat", .leaf (.metric ⟨.max, "price", none, none⟩))]
    [("days", .bucket (.dateHistogram { field := "created" }) sumThenMax.reverse [])]

/-- The days and the statistic are reported and written alike in either order. -/
theorem additions_settle_days :
    Agrees daysThenStatistic statisticThenDays ∧
      daysThenStatistic.build.validate = statisticThenDays.build.validate ∧
      daysThenStatistic.build.text = statisticThenDays.build.text := by
  obtain ⟨-, hdrafts, -, hperm⟩ := additions_settle
  have hdays : Agrees (.bucket (.dateHistogram { field := "created" }) [] sumThenMax)
      (.bucket (.dateHistogram { field := "created" }) sumThenMax.reverse []) := by
    rw [agrees_bucket_iff, List.nil_append, List.append_nil]
    exact hperm _ _ (List.reverse_perm _).symm (by decide)
  have hagrees : Agrees daysThenStatistic statisticThenDays := by
    refine .bucket (fun name => ?_) fun name draft other hfirst hsecond => ?_
    · rw [Named.last?_eq_none_iff, Named.last?_eq_none_iff]
      simp [or_comm]
    · by_cases hstat : name = "stat"
      · subst hstat
        cases hfirst
        cases hsecond
        exact .leaf _
      · by_cases hname : name = "days"
        · subst hname
          cases hfirst
          cases hsecond
          exact hdays
        · rw [Named.last?_eq_none_iff.2 (by simp [hstat, hname])] at hfirst
          cases hfirst
  exact ⟨hagrees, hdrafts _ _ hagrees⟩

end Draft

end SearchWire
