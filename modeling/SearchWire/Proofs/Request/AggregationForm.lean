import SearchWire.Proofs.Request.Arranged
import SearchWire.Proofs.Request.Parts
import SearchWire.Proofs.Request.Refusal

/-!
# The form of an aggregation determines the aggregation

Many parts of an aggregation are left out of its JSON form, and only validation
keeps that harmless: a pattern and a list of values exclude each other, bounds
and percents are finite and every metric is known. `Node.Legible` collects what
a node keeps. The parts are read back from the slots of a node (`eq_of_body_eq`
for leaves and divisions), the children by their names, and
`Aggregation.eq_of_compile_eq` follows them to the whole tree.
-/

namespace SearchWire

open Json

/-- The JSON form of a node leaves no doubt which node it is, the nodes that it holds aside. -/
def Node.Unambiguous : Node → Prop
  | .query held => held.Unambiguous
  | .aggregation (.leaf (.metric body)) =>
      body.kind ≠ .cardinality → body.precisionThreshold = none
  | .aggregation _ | .search _ => True

/-- What a node keeps so that it can be told from its form. -/
structure Node.Legible (node : Node) : Prop where
  sound : ¬ node.BreaksFatalRule
  arranged : Named.Sorted node.aggregations
  unambiguous : node.Unambiguous

attribute [ext] MetricAggregation PercentilesAggregation BucketSort TermsBuckets DateHistogram
  NumberRange RangeBuckets DateRange DateRangeBuckets SortKey

/-! ## Parts of a form -/

theorem Direction.text_injective : Function.Injective Direction.text := by
  intro first second h
  cases first <;> cases second <;> first | rfl | exact absurd h (by decide)

theorem GapPolicy.text_injective : Function.Injective GapPolicy.text := by
  intro first second h
  cases first <;> cases second <;> first | rfl | exact absurd h (by decide)

theorem SortKey.builtBy_injective : Function.Injective (SortKey.builtBy record) := by
  intro first second h
  obtain ⟨hkey, hdirection⟩ := single_injective h
  exact SortKey.ext hkey (Direction.text_injective (string_injective hdirection))

theorem orderSlot_injective : Function.Injective (orderSlot record) := by
  intro first second h
  exact List.map_injective_iff.2 SortKey.builtBy_injective (arraySlot_injective h)

/-- The form of a finite double determines it. -/
theorem Json.ofBinary64_eq {first second : Binary64} (hfirst : first.isFinite = true)
    (hsecond : second.isFinite = true) (h : ofBinary64 first = ofBinary64 second) :
    first = second := by
  have hboth : some first = some second :=
    boost_eq (by simpa using hfirst) (by simpa using hsecond) (congrArg some h)
  exact Option.some.inj hboth

/-- A pattern and a list of values that exclude each other are told apart. -/
theorem patternSlot_eq {pattern otherPattern : Option String} {values otherValues : List String}
    (h : pattern = none ∨ values = []) (hother : otherPattern = none ∨ otherValues = [])
    (hsame : patternSlot pattern values = patternSlot otherPattern otherValues) :
    pattern = otherPattern ∧ values = otherValues := by
  have hlist (items : List Json) (text : String) : arraySlot items ≠ some (.string text) := by
    cases items <;> simp [arraySlot]
  cases pattern with
  | none =>
      cases otherPattern with
      | none =>
          have hvalues := arraySlot_injective hsame
          exact ⟨rfl, List.map_injective_iff.2 string_injective hvalues⟩
      | some text => exact absurd hsame (hlist _ text)
  | some text =>
      cases otherPattern with
      | none => exact absurd hsame.symm (hlist _ text)
      | some other =>
          obtain rfl : values = [] := h.resolve_left (by simp)
          obtain rfl : otherValues = [] := hother.resolve_left (by simp)
          cases hsame
          exact ⟨rfl, rfl⟩

/-- The two slots of an interval determine it. -/
theorem Interval.eq_of_slots {first second : Option Interval}
    (hunit : first.bind unit? = second.bind unit?)
    (hduration : first.bind duration? = second.bind duration?) : first = second := by
  cases first with
  | none =>
      cases second with
      | none => rfl
      | some other => cases other <;> simp [unit?, duration?] at hunit hduration
  | some interval =>
      cases second with
      | none => cases interval <;> simp [unit?, duration?] at hunit hduration
      | some other => cases interval <;> cases other <;> simp_all [unit?, duration?]

theorem NumberRange.finite_of_not_endless {range : NumberRange} (h : ¬ range.Endless) :
    (∀ bound ∈ range.lower, bound.isFinite = true) ∧
      ∀ bound ∈ range.upper, bound.isFinite = true := by
  have hfinite (bound : Binary64) (hset : range.lower = some bound ∨ range.upper = some bound) :
      bound.isFinite = true := by
    cases bound with
    | finite value => rfl
    | infinite | nan => exact absurd ⟨_, hset, nofun⟩ h
  exact ⟨fun bound hbound => hfinite bound (.inl hbound),
    fun bound hbound => hfinite bound (.inr hbound)⟩

theorem NumberRange.eq_of_compile_eq {first second : NumberRange} (hfirst : ¬ first.Endless)
    (hsecond : ¬ second.Endless)
    (h : record (present first.slots) = record (present second.slots)) : first = second := by
  have hslots := record_present_injective ["key", "from", "to"] (by decide) rfl rfl h
  simp only [slots, List.cons.injEq, Prod.mk.injEq, true_and, and_true] at hslots
  obtain ⟨hkey, hlower, hupper⟩ := hslots
  obtain ⟨hlow, hhigh⟩ := finite_of_not_endless hfirst
  obtain ⟨hotherLow, hotherHigh⟩ := finite_of_not_endless hsecond
  exact NumberRange.ext (Option.map_injective string_injective hkey)
    (boost_eq hlow hotherLow hlower) (boost_eq hhigh hotherHigh hupper)

theorem DateRange.eq_of_compile_eq {first second : DateRange}
    (h : record (present first.slots) = record (present second.slots)) : first = second := by
  have hslots := record_present_injective ["key", "from", "to"] (by decide) rfl rfl h
  simp only [slots, List.cons.injEq, Prod.mk.injEq, true_and, and_true] at hslots
  obtain ⟨hkey, hlower, hupper⟩ := hslots
  exact DateRange.ext (Option.map_injective string_injective hkey)
    (Option.map_injective string_injective hlower) (Option.map_injective string_injective hupper)

/-! ## Leaf aggregations -/

/-- A known metric is the metric of its tag. -/
theorem MetricKind.ofTag_tag {kind : MetricKind} (h : kind.isKnown = true) :
    ofTag kind.tag = kind := by
  cases kind with
  | unknown tag => cases h
  | cardinality | max | min | avg | sum => rfl

theorem MetricKind.tag_mem {kind : MetricKind} (h : kind.isKnown = true) :
    kind.tag ∈ ["cardinality", "max", "min", "avg", "sum"] := by
  cases kind with
  | unknown tag => cases h
  | cardinality | max | min | avg | sum => simp [tag]

namespace LeafAggregation

theorem isKnown_of_sound {body : MetricAggregation}
    (h : ¬ (Node.aggregation (.leaf (.metric body))).BreaksFatalRule) :
    body.kind.isKnown = true := by
  cases hkind : body.kind with
  | unknown tag => exact absurd (.unknownMetric hkind) h
  | cardinality | max | min | avg | sum => rfl

theorem finite_of_sound {body : PercentilesAggregation}
    (h : ¬ (Node.aggregation (.leaf (.percentiles body))).BreaksFatalRule) {percent : Binary64}
    (hpercent : percent ∈ body.percents) : percent.isFinite = true := by
  cases percent with
  | finite value => rfl
  | infinite | nan =>
      refine absurd (.percentOutside hpercent ?_) h
      rintro ⟨value, hvalue, -⟩
      cases hvalue

theorem eq_of_metric {first second : MetricAggregation}
    (hfirst : (Node.aggregation (.leaf (.metric first))).Legible)
    (hsecond : (Node.aggregation (.leaf (.metric second))).Legible)
    (htag : first.kind.tag = second.kind.tag) (h : (metric first).body = (metric second).body) :
    first = second := by
  have hkind : first.kind = second.kind := by
    rw [← MetricKind.ofTag_tag (isKnown_of_sound hfirst.sound), htag,
      MetricKind.ofTag_tag (isKnown_of_sound hsecond.sound)]
  rw [body_eq, body_eq] at h
  have hslots := record_present_injective ["field", "missing", "precision_threshold"] (by decide)
    rfl rfl h
  simp only [slots, List.cons.injEq, Prod.mk.injEq, true_and, and_true] at hslots
  obtain ⟨hfield, hmissing, hthreshold⟩ := hslots
  have hprecision : first.precisionThreshold = second.precisionThreshold := by
    by_cases hcardinality : first.kind = .cardinality
    · rw [if_pos hcardinality, if_pos (hkind ▸ hcardinality)] at hthreshold
      exact Option.map_injective nat_injective hthreshold
    · rw [hfirst.unambiguous hcardinality, hsecond.unambiguous (hkind ▸ hcardinality)]
  exact MetricAggregation.ext hkind (string_injective (Option.some.inj hfield)) hmissing hprecision

theorem eq_of_percentiles {first second : PercentilesAggregation}
    (hfirst : (Node.aggregation (.leaf (.percentiles first))).Legible)
    (hsecond : (Node.aggregation (.leaf (.percentiles second))).Legible)
    (h : (percentiles first).body = (percentiles second).body) : first = second := by
  rw [body_eq, body_eq] at h
  have hslots := record_present_injective ["field", "percents", "missing", "keyed"] (by decide)
    rfl rfl h
  simp only [slots, List.cons.injEq, Prod.mk.injEq, true_and, and_true] at hslots
  obtain ⟨hfield, hpercents, hmissing, hkeyed⟩ := hslots
  have hpercents : first.percents = second.percents := by
    refine eq_of_map_eq (fun percent hpercent other hother => ?_) (arraySlot_injective hpercents)
    exact ofBinary64_eq (finite_of_sound hfirst.sound hpercent)
      (finite_of_sound hsecond.sound hother)
  exact PercentilesAggregation.ext (string_injective (Option.some.inj hfield)) hpercents hmissing
    (Option.map_injective bool_injective hkeyed)

theorem eq_of_bucketSort {first second : BucketSort}
    (h : (bucketSort first).body = (bucketSort second).body) : first = second := by
  rw [body_eq, body_eq] at h
  have hslots := record_present_injective ["sort", "from", "size", "gap_policy"] (by decide)
    rfl rfl h
  simp only [slots, List.cons.injEq, Prod.mk.injEq, true_and, and_true] at hslots
  obtain ⟨hsort, hstart, hsize, hpolicy⟩ := hslots
  have htext := Option.map_injective string_injective hpolicy
  exact BucketSort.ext (orderSlot_injective hsort) (Option.map_injective nat_injective hstart)
    (Option.map_injective nat_injective hsize) (Option.map_injective GapPolicy.text_injective htext)

/-- The kind and the body of a leaf aggregation determine it. -/
theorem eq_of_body_eq {first second : LeafAggregation}
    (hfirst : (Node.aggregation (.leaf first)).Legible)
    (hsecond : (Node.aggregation (.leaf second)).Legible) (hkind : first.kind = second.kind)
    (h : first.body = second.body) : first = second := by
  -- the name of a known metric is the name of no other leaf
  have hmetric {held : MetricAggregation}
      (hheld : (Node.aggregation (.leaf (.metric held))).Legible) {name : String}
      (hname : held.kind.tag = name) : name ∈ ["cardinality", "max", "min", "avg", "sum"] :=
    hname ▸ MetricKind.tag_mem (isKnown_of_sound hheld.sound)
  cases first with
  | metric held =>
      cases second with
      | metric other => rw [eq_of_metric hfirst hsecond hkind h]
      | percentiles | bucketSort => exact absurd (hmetric hfirst hkind) (by simp [kind])
  | percentiles held =>
      cases second with
      | percentiles other => rw [eq_of_percentiles hfirst hsecond h]
      | metric => exact absurd (hmetric hsecond hkind.symm) (by simp [kind])
      | bucketSort => simp [kind] at hkind
  | bucketSort held =>
      cases second with
      | bucketSort other => rw [eq_of_bucketSort h]
      | metric => exact absurd (hmetric hsecond hkind.symm) (by simp [kind])
      | percentiles => simp [kind] at hkind

/-- No leaf has the name of a division. -/
theorem kind_ne_division {aggregation : LeafAggregation}
    (h : (Node.aggregation (.leaf aggregation)).Legible) (division : Division) :
    aggregation.kind ≠ division.kind := by
  intro hkind
  cases aggregation with
  | metric held =>
      have hmem := MetricKind.tag_mem (isKnown_of_sound h.sound)
      rw [show held.kind.tag = division.kind from hkind] at hmem
      cases division <;> simp [Division.kind] at hmem
  | percentiles held | bucketSort held => cases division <;> simp [kind, Division.kind] at hkind

end LeafAggregation

/-! ## Divisions -/

namespace Division

variable {children others : List (String × Aggregation)}

theorem eq_of_terms {first second : TermsBuckets}
    (hfirst : ¬ (Node.aggregation (.bucket (.terms first) children)).BreaksFatalRule)
    (hsecond : ¬ (Node.aggregation (.bucket (.terms second) others)).BreaksFatalRule)
    (h : (terms first).bodyBy record = (terms second).bodyBy record) : first = second := by
  have hslots := record_present_injective
    ["field", "size", "shard_size", "min_doc_count", "order", "include", "exclude", "missing"]
    (by decide) rfl rfl h
  simp only [slots, List.cons.injEq, Prod.mk.injEq, true_and, and_true] at hslots
  obtain ⟨hfield, hsize, hshard, hcount, horder, hincluded, hexcluded, hmissing⟩ := hslots
  have hexclusive {held : TermsBuckets} {named : List (String × Aggregation)}
      (hheld : ¬ (Node.aggregation (.bucket (.terms held) named)).BreaksFatalRule) :
      (held.includePattern = none ∨ held.includeValues = []) ∧
        (held.excludePattern = none ∨ held.excludeValues = []) := by
    refine ⟨Decidable.or_iff_not_imp_left.2 fun hpattern => ?_,
      Decidable.or_iff_not_imp_left.2 fun hpattern => ?_⟩
    · exact Decidable.by_contra fun hvalues => hheld (.includedTwice hpattern hvalues)
    · exact Decidable.by_contra fun hvalues => hheld (.excludedTwice hpattern hvalues)
  obtain ⟨hincludes, hexcludes⟩ := hexclusive hfirst
  obtain ⟨hotherIncludes, hotherExcludes⟩ := hexclusive hsecond
  obtain ⟨hincludePattern, hincludeValues⟩ := patternSlot_eq hincludes hotherIncludes hincluded
  obtain ⟨hexcludePattern, hexcludeValues⟩ := patternSlot_eq hexcludes hotherExcludes hexcluded
  exact TermsBuckets.ext (string_injective (Option.some.inj hfield))
    (Option.map_injective nat_injective hsize) (Option.map_injective nat_injective hshard)
    (Option.map_injective nat_injective hcount) (orderSlot_injective horder) hincludePattern
    hincludeValues hexcludePattern hexcludeValues hmissing

theorem eq_of_dateHistogram {first second : DateHistogram}
    (h : (dateHistogram first).bodyBy record = (dateHistogram second).bodyBy record) :
    first = second := by
  have hslots := record_present_injective
    ["field", "calendar_interval", "fixed_interval", "format", "time_zone", "offset",
      "min_doc_count", "order"] (by decide) rfl rfl h
  simp only [slots, List.cons.injEq, Prod.mk.injEq, true_and, and_true] at hslots
  obtain ⟨hfield, hunit, hduration, hformat, hzone, hoffset, hcount, horder⟩ := hslots
  have hinterval := Interval.eq_of_slots (Option.map_injective string_injective hunit)
    (Option.map_injective string_injective hduration)
  exact DateHistogram.ext (string_injective (Option.some.inj hfield)) hinterval
    (Option.map_injective string_injective hformat) (Option.map_injective string_injective hzone)
    (Option.map_injective string_injective hoffset) (Option.map_injective nat_injective hcount)
    (orderSlot_injective horder)

theorem eq_of_range {first second : RangeBuckets}
    (hfirst : ¬ (Node.aggregation (.bucket (.range first) children)).BreaksFatalRule)
    (hsecond : ¬ (Node.aggregation (.bucket (.range second) others)).BreaksFatalRule)
    (h : (range first).bodyBy record = (range second).bodyBy record) : first = second := by
  have hslots := record_present_injective ["field", "ranges", "keyed", "missing"] (by decide)
    rfl rfl h
  simp only [slots, List.cons.injEq, Prod.mk.injEq, true_and, and_true] at hslots
  obtain ⟨hfield, hranges, hkeyed, hmissing⟩ := hslots
  have hranges : first.ranges = second.ranges := by
    refine eq_of_map_eq (fun range hrange other hother => ?_)
      (Json.array.inj (Option.some.inj hranges))
    exact NumberRange.eq_of_compile_eq (fun hendless => hfirst (.boundNotFinite hrange hendless))
      (fun hendless => hsecond (.boundNotFinite hother hendless))
  exact RangeBuckets.ext (string_injective (Option.some.inj hfield)) hranges
    (Option.map_injective bool_injective hkeyed) hmissing

theorem eq_of_dateRange {first second : DateRangeBuckets}
    (h : (dateRange first).bodyBy record = (dateRange second).bodyBy record) : first = second := by
  have hslots := record_present_injective ["field", "format", "time_zone", "ranges", "keyed"]
    (by decide) rfl rfl h
  simp only [slots, List.cons.injEq, Prod.mk.injEq, true_and, and_true] at hslots
  obtain ⟨hfield, hformat, hzone, hranges, hkeyed⟩ := hslots
  have hranges : first.ranges = second.ranges :=
    eq_of_map_eq (fun _ _ _ _ => DateRange.eq_of_compile_eq)
      (Json.array.inj (Option.some.inj hranges))
  exact DateRangeBuckets.ext (string_injective (Option.some.inj hfield))
    (Option.map_injective string_injective hformat) (Option.map_injective string_injective hzone)
    hranges (Option.map_injective bool_injective hkeyed)

/-- The kind and the body of a division determine it, given that the form of a filter query does. -/
theorem eq_of_body_eq {first second : Division}
    (hfirst : ¬ (Node.aggregation (.bucket first children)).BreaksFatalRule)
    (hsecond : ¬ (Node.aggregation (.bucket second others)).BreaksFatalRule)
    (hqueries : ∀ query ∈ first.query?, ∀ other ∈ second.query?,
      query.compile = other.compile → query = other)
    (hkind : first.kind = second.kind) (h : first.bodyBy record = second.bodyBy record) :
    first = second := by
  cases first with
  | terms held =>
      cases second with
      | terms other => rw [eq_of_terms hfirst hsecond h]
      | _ => simp [kind] at hkind
  | dateHistogram held =>
      cases second with
      | dateHistogram other => rw [eq_of_dateHistogram h]
      | _ => simp [kind] at hkind
  | range held =>
      cases second with
      | range other => rw [eq_of_range hfirst hsecond h]
      | _ => simp [kind] at hkind
  | dateRange held =>
      cases second with
      | dateRange other => rw [eq_of_dateRange h]
      | _ => simp [kind] at hkind
  | filter held =>
      cases second with
      | filter other =>
          have hheld : held = other := Query.option_eq_of_compile_eq hqueries h
          rw [hheld]
      | _ => simp [kind] at hkind

end Division

/-! ## Trees -/

theorem aggregationsSlot_injective {first second : List (String × Aggregation)}
    (hfirst : Named.Sorted first) (hsecond : Named.Sorted second)
    (hmembers : ∀ entry ∈ first, ∀ other ∈ second,
      entry.2.compile = other.2.compile → entry.2 = other.2)
    (h : aggregationsSlot record first = aggregationsSlot record second) : first = second := by
  have hnames {named : List (String × Aggregation)} (hnamed : Named.Sorted named) :
      ((named.map fun entry => (entry.1, entry.2.compile)).map Prod.fst).Nodup := by
    rw [List.map_map]
    exact hnamed.nodup
  cases first with
  | nil => cases second <;> simp [aggregationsSlot] at h ⊢
  | cons entry rest =>
      cases second with
      | nil => simp [aggregationsSlot] at h
      | cons other others =>
          have hentries := Option.some.inj h
          rw [record_of_nodup (hnames hfirst), record_of_nodup (hnames hsecond)] at hentries
          refine eq_of_map_eq (fun entry hentry other hother hsame => ?_) (Json.object.inj hentries)
          obtain ⟨hname, hform⟩ := Prod.mk.inj hsame
          exact Prod.ext hname (hmembers entry hentry other hother hform)

namespace Aggregation

/-- The form of an aggregation begins with the entry of its kind. -/
theorem compile_eq_object (aggregation : Aggregation) :
    ∃ body rest, aggregation.compile = .object ((aggregation.kind, body) :: rest) := by
  cases aggregation with
  | leaf held => exact ⟨_, [], rfl⟩
  | bucket division children =>
      rw [compile_bucket, record_of_nodup]
      · exact ⟨_, _, rfl⟩
      · refine List.Nodup.sublist (names_present_sublist _) ?_
        simp [division.kind_ne_aggs]

theorem kind_eq_of_compile_eq {first second : Aggregation} (h : first.compile = second.compile) :
    first.kind = second.kind := by
  obtain ⟨body, rest, hfirst⟩ := first.compile_eq_object
  obtain ⟨other, others, hsecond⟩ := second.compile_eq_object
  rw [hfirst, hsecond] at h
  exact (Prod.mk.inj (List.cons.inj (Json.object.inj h)).1).1

/-- The form of an aggregation determines it, given that the forms of the nodes it holds do. -/
theorem eq_of_compile_eq_step {first second : Aggregation}
    (hfirst : (Node.aggregation first).Legible) (hsecond : (Node.aggregation second).Legible)
    (hqueries : ∀ query ∈ (Node.aggregation first).queries,
      ∀ other ∈ (Node.aggregation second).queries, query.compile = other.compile → query = other)
    (hchildren : ∀ entry ∈ (Node.aggregation first).aggregations,
      ∀ other ∈ (Node.aggregation second).aggregations,
      entry.2.compile = other.2.compile → entry.2 = other.2)
    (h : first.compile = second.compile) : first = second := by
  have hkind := kind_eq_of_compile_eq h
  cases first with
  | leaf held =>
      cases second with
      | leaf other =>
          rw [LeafAggregation.eq_of_body_eq hfirst hsecond hkind (single_injective h).2]
      | bucket division children =>
          exact absurd hkind (LeafAggregation.kind_ne_division hfirst division)
  | bucket division children =>
      cases second with
      | leaf other => exact absurd hkind.symm (LeafAggregation.kind_ne_division hsecond division)
      | bucket otherDivision otherChildren =>
          have hsame : division.kind = otherDivision.kind := hkind
          rw [compile_bucket, compile_bucket] at h
          have hslots := record_present_injective [division.kind, "aggs"]
            (by simp [division.kind_ne_aggs]) rfl (by rw [hsame]; rfl) h
          simp only [List.cons.injEq, Prod.mk.injEq, true_and, and_true, Option.some.injEq]
            at hslots
          obtain ⟨⟨-, hbody⟩, haggs⟩ := hslots
          have hdivision : division = otherDivision := by
            refine Division.eq_of_body_eq hfirst.sound hsecond.sound ?_ hsame hbody
            intro query hquery other hother
            exact hqueries query (Option.mem_toList.2 hquery) other (Option.mem_toList.2 hother)
          have hnamed : children = otherChildren :=
            aggregationsSlot_injective hfirst.arranged hsecond.arranged hchildren haggs
          rw [hdivision, hnamed]

/-- The form of an aggregation determines the aggregation and its whole tree. -/
theorem eq_of_compile_eq {first second : Aggregation}
    (hfirst : ∀ part : Node, part.Within (.aggregation first) → part.Legible)
    (hsecond : ∀ part : Node, part.Within (.aggregation second) → part.Legible)
    (h : first.compile = second.compile) : first = second := by
  suffices hall : ∀ node : Node, ∀ held, node = .aggregation held →
      (∀ part : Node, part.Within (.aggregation held) → part.Legible) →
      ∀ other : Aggregation, (∀ part : Node, part.Within (.aggregation other) → part.Legible) →
        held.compile = other.compile → held = other from
    hall _ first rfl hfirst second hsecond h
  refine Node.induction fun node ih => ?_
  rintro held rfl hheld other hother hcompile
  refine eq_of_compile_eq_step (hheld _ .refl) (hother _ .refl) ?_ ?_ hcompile
  · intro query hquery otherQuery hotherQuery
    refine Query.eq_of_compile_eq (fun part hpart => ?_) fun part hpart => ?_
    · exact (hheld _ (.head (Node.query_mem_children hquery) hpart)).unambiguous
    · exact (hother _ (.head (Node.query_mem_children hotherQuery) hpart)).unambiguous
  · intro entry hentry otherEntry hotherEntry
    have hbelow := Node.aggregation_mem_children hentry
    refine ih _ hbelow entry.2 rfl (fun part hpart => ?_) _ fun part hpart => ?_
    · exact hheld part (.head hbelow hpart)
    · exact hother part (.head (Node.aggregation_mem_children hotherEntry) hpart)

end Aggregation

end SearchWire
