import SearchWire.Proofs.Binary64.Order
import SearchWire.Proofs.Json.Contents
import SearchWire.Response.Metric

/-!
# Keyed and listed percentiles

Percentile estimates come as an object with the percents for names, or as an
array of objects. The keyed form is sorted by the numbers that the names stand
for, so both forms of the same estimates decode alike when the array lists them
in increasing order. `PercentilesResult.keyed_as_listed` says this for any order of
the members of the keyed form and whatever formatted values stand among them,
and that a keyed form fails for its names alone.
-/

namespace SearchWire

namespace Percentile

/-! ## Sorting by percents -/

/-- The keys of estimates increase. -/
def Increasing (estimates : List Percentile) : Prop :=
  estimates.Pairwise fun first second => first.key.totalKey < second.key.totalKey

/-- Estimates of distinct percents have increasing keys once they are sorted. -/
theorem increasing_mergeSort {estimates : List Percentile} (h : (estimates.map key).Nodup) :
    Increasing (estimates.mergeSort inOrder) := by
  have hsorted : (estimates.mergeSort inOrder).Pairwise fun first second =>
      inOrder first second = true := by
    refine List.pairwise_mergeSort (fun a b c hab hbc => ?_) (fun a b => ?_) estimates
    · simp only [inOrder, decide_eq_true_eq] at hab hbc ⊢
      exact Int.le_trans hab hbc
    · simp only [inOrder, Bool.or_eq_true, decide_eq_true_eq]
      exact Int.le_total _ _
  have hperm := (List.mergeSort_perm estimates inOrder).map key
  refine hsorted.imp₂ (fun first second hle hne => ?_) (List.pairwise_map.1 (hperm.symm.nodup h))
  have hdifferent : first.key.totalKey ≠ second.key.totalKey :=
    fun hsame => hne (Binary64.totalKey_injective hsame)
  exact Int.lt_iff_le_and_ne.2 ⟨of_decide_eq_true hle, hdifferent⟩

/-- The same estimates can be listed with increasing keys in one way only. -/
theorem Increasing.eq_of_perm {first second : List Percentile} (hfirst : Increasing first)
    (hsecond : Increasing second) (h : first.Perm second) : first = second := by
  refine List.Perm.eq_of_pairwise (fun a b _ _ hab hba => ?_) hfirst hsecond h
  exact absurd hab (Int.lt_asymm hba)

/-! ## Keyed estimates -/

/-- Whether a name stands for a percent, and not for a formatted value. -/
def isPercentName (name : String) : Bool :=
  !name.endsWith "_as_string"

/-- The estimate of an entry. -/
def ofEntry (entry : String × Json) : Except Fault Percentile :=
  match Binary64.read? entry.1 with
  | none => .error (.mismatch (.percentileKey entry.1))
  | some key => .ok ⟨key, doubleOf? entry.2⟩

theorem ofEntries_eq (entries : List (String × Json)) :
    ofEntries entries = (entries.filter fun entry => isPercentName entry.1).mapM ofEntry := by
  induction entries with
  | nil => rfl
  | cons entry rest ih =>
      obtain ⟨name, value⟩ := entry
      rw [ofEntries, ih]
      split
      · next hsuffix => rw [List.filter_cons_of_neg (by simp [isPercentName, hsuffix])]
      · next hsuffix =>
          rw [List.filter_cons_of_pos (by simpa [isPercentName] using hsuffix), List.mapM_cons,
            ofEntry]
          cases Binary64.read? name with
          | none => rfl
          | some key => cases (rest.filter fun entry => isPercentName entry.1).mapM ofEntry <;> rfl

theorem exists_ofEntry_iff (entry : String × Json) :
    (∃ estimate, ofEntry entry = .ok estimate) ↔ (Binary64.read? entry.1).isSome = true := by
  rw [ofEntry]
  cases Binary64.read? entry.1 <;> simp

/-- Keyed estimates are read when all names that stand for percents read as numbers. -/
theorem exists_ofKeyed_iff (entries : List (String × Json)) :
    (∃ estimates, ofKeyed entries = .ok estimates) ↔
      ∀ name ∈ entries.map Prod.fst, isPercentName name = true →
        (Binary64.read? name).isSome = true := by
  have hsorted : (∃ estimates, ofKeyed entries = .ok estimates) ↔
      ∃ estimates, ofEntries (Named.ofList entries) = .ok estimates := by
    simp [ofKeyed, Outcome.map_eq_ok_iff]
  rw [hsorted, ofEntries_eq, Outcome.exists_mapM_iff]
  constructor
  · intro h name hname hpercent
    obtain ⟨entry, hentry, rfl⟩ := List.mem_map.1 ((Named.mem_names_ofList name entries).2 hname)
    exact (exists_ofEntry_iff entry).1 (h entry (List.mem_filter.2 ⟨hentry, hpercent⟩))
  · intro h entry hentry
    obtain ⟨hmem, hpercent⟩ := List.mem_filter.1 hentry
    have hname := (Named.mem_names_ofList entry.1 entries).1 (List.mem_map_of_mem hmem)
    exact (exists_ofEntry_iff entry).2 (h entry.1 hname hpercent)

/-- Entries that stand for estimates of distinct percents, among formatted values, are read as these
estimates in increasing order. -/
theorem ofKeyed_eq {entries : List (String × Json)} {estimates : List Percentile}
    (hnames : ((entries.filter fun entry => isPercentName entry.1).map Prod.fst).Nodup)
    (hentries : (entries.filter fun entry => isPercentName entry.1).mapM ofEntry = .ok estimates)
    (hkeys : (estimates.map key).Nodup) :
    ∃ sorted, ofKeyed entries = .ok sorted ∧ sorted.Perm estimates ∧ Increasing sorted := by
  obtain ⟨found, hfound, hsame⟩ :=
    Outcome.exists_mapM_of_perm (Named.filter_ofList_perm hnames) hentries
  have hdistinct : (found.map key).Nodup := (hsame.map key).symm.nodup hkeys
  refine ⟨found.mergeSort inOrder, ?_, (List.mergeSort_perm found inOrder).trans hsame,
    increasing_mergeSort hdistinct⟩
  rw [ofKeyed, ofEntries_eq, hfound]
  rfl

end Percentile

/-! ## Estimates as they are written -/

/-- A percent and its estimate as both forms write them. The name of a percent and the number that
is written like it are the same double, and the estimate is a number or there is none. -/
structure PercentileText where
  percent : Numeral
  value : Option Numeral
  key : Binary64
  percent_grammatical : percent.Grammatical
  value_grammatical : ∀ numeral ∈ value, numeral.Grammatical
  percent_named : Binary64.read? (String.ofList percent.text) = some key
  percent_reads : Number.toBinary64 <$> percent.read = .ok key
  value_reads : ∀ numeral ∈ value, ∃ number, numeral.read = .ok number

/-- A number is a JSON text. -/
theorem isJson_numeral {numeral : Numeral} (h : numeral.Grammatical) : IsJson numeral.text := by
  refine ⟨.number numeral, h, ?_⟩
  rw [Raw.symbols, Raw.before, List.append_nil]

/-- A name ends as the names of formatted values do, and the text is a string. -/
def MemberText.IsFormatted (member : MemberText) : Prop :=
  member.name.endsWith "_as_string" = true ∧ ∃ formatted, Spells member.value.core formatted

/-- A text is `null` or a number that can be read. -/
def PaddedText.IsEstimate (text : PaddedText) : Prop :=
  text.core = ['n', 'u', 'l', 'l'] ∨ ∃ numeral : Numeral, numeral.Grammatical ∧
    text.core = numeral.text ∧ ∃ number, numeral.read = .ok number

theorem MemberText.IsFormatted.exists_holds {member : MemberText} (h : member.IsFormatted) :
    ∃ value, member.value.Holds value := by
  obtain ⟨-, formatted, hspells⟩ := h
  exact ⟨_, PaddedText.holds_string hspells⟩

theorem PaddedText.IsEstimate.exists_holds {text : PaddedText} (h : text.IsEstimate) :
    ∃ value, text.Holds value := by
  rcases h with hnull | ⟨numeral, hnumeral, hcore, number, hnumber⟩
  · exact ⟨_, PaddedText.holds_null hnull⟩
  · exact ⟨_, PaddedText.holds_number hcore hnumeral hnumber⟩

namespace PercentileText

/-- The name of a percent. -/
def name (text : PercentileText) : String :=
  String.ofList text.percent.text

/-- The text of an estimate. -/
def valueText (text : PercentileText) : List Char :=
  match text.value with
  | none => ['n', 'u', 'l', 'l']
  | some numeral => numeral.text

theorem isJson_valueText (text : PercentileText) : IsJson text.valueText := by
  rw [valueText]
  cases hvalue : text.value with
  | none => exact ⟨.null, trivial, rfl⟩
  | some numeral => exact isJson_numeral (text.value_grammatical numeral hvalue)

/-- The estimate that is written. -/
def estimate (text : PercentileText) : Percentile :=
  ⟨text.key, text.value.bind fun numeral => numeral.read.toOption.map Number.toBinary64⟩

/-- A member of a keyed form has the percent for its name and holds the estimate. -/
def StandsIn (text : PercentileText) (member : MemberText) : Prop :=
  member.name = text.name ∧ member.value.core = text.valueText

/-- An item of a listed form is an object that holds the percent and the estimate. -/
def ListedAs (text : PercentileText) (item : PaddedText) : Prop :=
  ∃ (object : ObjectText) (key value : MemberText), item.core = object.text ∧
    (object.members = [key, value] ∨ object.members = [value, key]) ∧
    key.name = "key" ∧ key.value.core = text.percent.text ∧
    value.name = "value" ∧ value.value.core = text.valueText

/-- The name of a percent is no name of a formatted value. -/
theorem isPercentName_name (text : PercentileText) : Percentile.isPercentName text.name = true := by
  have hmark : ∀ c ∈ text.percent.text, c ≠ 'g' := by
    refine text.percent_grammatical.forall_mem_text (fun c hc => ?_) (by simp)
    rintro rfl
    exact absurd hc (by decide)
  rw [Percentile.isPercentName, Bool.not_eq_true', Bool.eq_false_iff]
  intro hsuffix
  have hname : text.name.toList = text.percent.text := String.toList_ofList
  rw [String.endsWith_eq_endsWith_toSlice, String.Slice.endsWith_string_iff, String.copy_toSlice,
    hname] at hsuffix
  have hmem : 'g' ∈ text.percent.text := hsuffix.subset (by decide : 'g' ∈ "_as_string".toList)
  exact hmark 'g' hmem rfl

/-- What the text of an estimate stands for is the estimate. -/
theorem exists_holds (text : PercentileText) {value : PaddedText}
    (h : value.core = text.valueText) :
    ∃ json, value.Holds json ∧ Percentile.doubleOf? json = text.estimate.value ∧
      Percentile.optionalDoubleOf? json = some text.estimate.value := by
  rw [valueText] at h
  rw [estimate]
  cases hvalue : text.value with
  | none =>
      rw [hvalue] at h
      exact ⟨.null, PaddedText.holds_null h, rfl, rfl⟩
  | some numeral =>
      rw [hvalue] at h
      obtain ⟨number, hnumber⟩ := text.value_reads numeral hvalue
      refine ⟨.number number,
        PaddedText.holds_number h (text.value_grammatical numeral hvalue) hnumber, ?_⟩
      rw [Option.bind_some, hnumber]
      exact ⟨rfl, rfl⟩

/-- A member of a keyed form is read as the estimate that stands in it. -/
theorem StandsIn.ofEntry_eq {text : PercentileText} {member : MemberText}
    (h : text.StandsIn member) : Percentile.ofEntry member.content = .ok text.estimate := by
  obtain ⟨hname, hvalue⟩ := h
  obtain ⟨json, hjson, hdouble, -⟩ := text.exists_holds hvalue
  have hread : Binary64.read? member.name = some text.key := by
    rw [hname]
    exact text.percent_named
  rw [MemberText.content, hjson.content_eq, Percentile.ofEntry, hread, hdouble]
  rfl

/-- Distinct percents have distinct names. -/
theorem nodup_names {texts : List PercentileText} (h : (texts.map key).Nodup) :
    (texts.map name).Nodup := by
  refine List.pairwise_map.2 ((List.pairwise_map.1 h).imp fun {first second} hne hsame => hne ?_)
  have hfirst : Binary64.read? first.name = some first.key := first.percent_named
  have hsecond : Binary64.read? second.name = some second.key := second.percent_named
  rw [hsame, hsecond] at hfirst
  exact (Option.some.inj hfirst).symm

section Keyed

variable {texts : List PercentileText} {shown formatted members : List MemberText}
  (hshown : List.Forall₂ StandsIn texts shown)

include hshown

theorem names_shown : (shown.map MemberText.content).map Prod.fst = texts.map name := by
  induction hshown with
  | nil => rfl
  | cons hfirst _ ih => exact List.cons_eq_cons.2 ⟨hfirst.1, ih⟩

theorem exists_holds_shown : ∀ member ∈ shown, ∃ value, member.value.Holds value := by
  induction hshown with
  | nil => exact List.forall_mem_nil _
  | @cons text member _ _ hfirst _ ih =>
      obtain ⟨json, hjson, -⟩ := text.exists_holds hfirst.2
      exact List.forall_mem_cons.2 ⟨⟨json, hjson⟩, ih⟩

theorem mapM_ofEntry_shown : (shown.map MemberText.content).mapM Percentile.ofEntry =
    .ok (texts.map estimate) := by
  rw [Outcome.mapM_eq_ok_iff, List.forall₂_map_left_iff, List.forall₂_map_right_iff]
  exact hshown.flip.imp fun member text h => StandsIn.ofEntry_eq h

/-- Among the entries of a keyed form, those for percents are the ones that hold estimates. -/
theorem filter_content_perm (hformatted : ∀ member ∈ formatted, member.IsFormatted)
    (hperm : members.Perm (shown ++ formatted)) :
    ((members.map MemberText.content).filter fun entry => Percentile.isPercentName entry.1).Perm
      (shown.map MemberText.content) := by
  have hkept : (shown.map MemberText.content).filter
      (fun entry => Percentile.isPercentName entry.1) = shown.map MemberText.content := by
    refine List.filter_eq_self.2 fun entry hentry => ?_
    have hname := List.mem_map_of_mem (f := Prod.fst) hentry
    rw [names_shown hshown] at hname
    obtain ⟨text, -, hname⟩ := List.mem_map.1 hname
    rw [← hname]
    exact text.isPercentName_name
  have hdropped : (formatted.map MemberText.content).filter
      (fun entry => Percentile.isPercentName entry.1) = [] := by
    refine List.filter_eq_nil_iff.2 fun entry hentry => ?_
    obtain ⟨member, hmember, rfl⟩ := List.mem_map.1 hentry
    have hsuffix : member.name.endsWith "_as_string" = true := (hformatted member hmember).1
    simp [MemberText.content, Percentile.isPercentName, hsuffix]
  have hall := (hperm.map MemberText.content).filter
    fun entry => Percentile.isPercentName entry.1
  rwa [List.map_append, List.filter_append, hkept, hdropped, List.append_nil] at hall

/-- A keyed form of estimates of distinct percents is read as these in increasing order. -/
theorem exists_ofKeyed (hkeys : (texts.map key).Nodup)
    (hformatted : ∀ member ∈ formatted, member.IsFormatted)
    (hperm : members.Perm (shown ++ formatted)) :
    ∃ sorted, Percentile.ofKeyed (members.map MemberText.content) = .ok sorted ∧
      sorted.Perm (texts.map estimate) ∧ Percentile.Increasing sorted := by
  have hfilter := filter_content_perm hshown hformatted hperm
  obtain ⟨estimates, hestimates, hsame⟩ :=
    Outcome.exists_mapM_of_perm hfilter (mapM_ofEntry_shown hshown)
  have hnames := (hfilter.map Prod.fst).symm.nodup (names_shown hshown ▸ nodup_names hkeys)
  have hdistinct : ((texts.map estimate).map Percentile.key).Nodup := by rwa [List.map_map]
  obtain ⟨sorted, hsorted, hperm, hincreasing⟩ :=
    Percentile.ofKeyed_eq hnames hestimates ((hsame.map Percentile.key).symm.nodup hdistinct)
  exact ⟨sorted, hsorted, hperm.trans hsame, hincreasing⟩

end Keyed

/-- An item of a listed form is read as the estimate that it lists. -/
theorem ListedAs.exists_ofJson? {text : PercentileText} {item : PaddedText}
    (h : text.ListedAs item) (depth : Nat) :
    ∃ json, Decode.members (depth + 1) item.span.value = .ok json ∧
      Percentile.ofJson? json = some text.estimate := by
  obtain ⟨object, key, value, hcore, hmembers, hkeyName, hkey, hvalueName, hvalue⟩ := h
  obtain ⟨number, hnumber, hdouble⟩ := Outcome.map_eq_ok_iff.1 text.percent_reads
  have hpercent := PaddedText.holds_number hkey text.percent_grammatical hnumber
  obtain ⟨json, hjson, -, hoptional⟩ := text.exists_holds hvalue
  have hholds : ∀ member ∈ object.members, ∃ found, member.value.Holds found := by
    intro member hmember
    rcases hmembers with hmembers | hmembers
    all_goals
      rw [hmembers, List.mem_pair] at hmember
      rcases hmember with rfl | rfl
    · exact ⟨_, hpercent⟩
    · exact ⟨_, hjson⟩
    · exact ⟨_, hjson⟩
    · exact ⟨_, hpercent⟩
  refine ⟨_, ObjectText.members_object hcore hholds depth, ?_⟩
  have hfirst : key.content = ("key", .number number) := by
    rw [MemberText.content, hkeyName, hpercent.content_eq]
  have hsecond : value.content = ("value", json) := by
    rw [MemberText.content, hvalueName, hjson.content_eq]
  rw [Percentile.ofJson?]
  rcases hmembers with hmembers | hmembers
  all_goals
    rw [hmembers]
    simp [hfirst, hsecond, Percentile.fieldsOf?, Percentile.doubleOf?, hoptional, hdouble, estimate]

/-- The text of a percent, as a value. -/
def percentPart (text : PercentileText) : PaddedText :=
  .bare text.percent.text (isJson_numeral text.percent_grammatical)

/-- The text of an estimate, as a value. -/
def valuePart (text : PercentileText) : PaddedText :=
  .bare text.valueText text.isJson_valueText

/-- A member of a keyed form. -/
def member (text : PercentileText) : MemberText :=
  .bare text.name text.valuePart

/-- An item of a listed form. -/
def item (text : PercentileText) : PaddedText :=
  .ofMembers [.bare "key" text.percentPart, .bare "value" text.valuePart]

theorem standsIn_member (text : PercentileText) : text.StandsIn text.member :=
  ⟨rfl, rfl⟩

theorem listedAs_item (text : PercentileText) : text.ListedAs text.item :=
  ⟨_, _, _, rfl, .inl rfl, rfl, rfl, rfl, rfl⟩

end PercentileText

namespace PercentilesResult

/-! ## Both forms -/

/-- The body of a result whose values are an object with the given members. -/
def keyedBody (members : List MemberText) : ObjectText :=
  .bare [.bare "values" (.ofMembers members)]

/-- The body of a result whose values are an array of the given items. -/
def listedBody (items : List PaddedText) : ObjectText :=
  .bare [.bare "values" (.ofItems items)]

/-- A result with values alone is what these decode as. -/
theorem decodeBody_values (values : PaddedText) :
    decodeBody Decode.percentiles (Symbol.ofBytes (ObjectText.bare [.bare "values" values]).bytes) =
      mk <$> Percentile.decodeList (nestingLimit - 1) values.span.value := by
  obtain ⟨members, hlists, hdecode⟩ := (ObjectText.bare [.bare "values" values]).exists_decodeBody
  have hentries : (ObjectText.bare [.bare "values" values]).entries = [("values", values.span)] :=
    rfl
  rw [hdecode]
  show ofMembers (nestingLimit - 1) members = _
  rw [ofMembers, hlists.walk_eq, hentries, run_cons, step, if_pos rfl, Decode.once]
  cases Percentile.decodeList (nestingLimit - 1) values.span.value <;> rfl

/-- The values of a keyed form of scalars are its entries, sorted. -/
theorem decodeBody_keyedBody {members : List MemberText}
    (h : ∀ member ∈ members, ∃ value, member.value.Holds value) :
    decodeBody Decode.percentiles (Symbol.ofBytes (keyedBody members).bytes) =
      mk <$> Percentile.ofKeyed (members.map MemberText.content) := by
  have hscalars : ∀ entry ∈ members.map MemberText.content, entry.2.IsScalar := by
    intro entry hentry
    obtain ⟨member, hmember, rfl⟩ := List.mem_map.1 hentry
    obtain ⟨value, hvalue⟩ := h member hmember
    rw [MemberText.content, hvalue.content_eq]
    exact hvalue.1
  have hcontent : Decode.members (nestingLimit - 1) (PaddedText.ofMembers members).span.value =
      .ok (.object (members.map MemberText.content)) :=
    ObjectText.members_object (PaddedText.ofMembers_core members) h (nestingLimit - 2)
  have hlist : Percentile.listOfJson (.object (members.map MemberText.content)) =
      Percentile.ofKeyed (members.map MemberText.content) := by
    rw [Percentile.listOfJson, Json.settleEntries?_of_isScalar hscalars]
  rw [keyedBody, decodeBody_values, Percentile.decodeList, hcontent, Outcome.ok_bind, hlist]

/-- Listed estimates are read in the order of the items. -/
theorem decodeBody_listedBody {listed : List PercentileText} {items : List PaddedText}
    (h : List.Forall₂ PercentileText.ListedAs listed items) :
    decodeBody Decode.percentiles (Symbol.ofBytes (listedBody items).bytes) =
      .ok ⟨listed.map PercentileText.estimate⟩ := by
  obtain ⟨scanned, hvalue, hlists⟩ := PaddedText.exists_span_items (PaddedText.ofItems_core items)
  have hcontents : ∃ contents : List Json,
      (items.map PaddedText.span).mapM (fun span =>
        Decode.members (nestingLimit - 3 + 1) span.value) = .ok contents ∧
      contents.mapM Percentile.ofJson? = some (listed.map PercentileText.estimate) := by
    clear hvalue hlists
    induction h with
    | nil => exact ⟨[], rfl, rfl⟩
    | cons hfirst _ ih =>
        obtain ⟨json, hjson, hestimate⟩ := hfirst.exists_ofJson? (nestingLimit - 3)
        obtain ⟨others, hothers, hestimates⟩ := ih
        refine ⟨json :: others, ?_, ?_⟩
        · rw [List.map_cons, List.mapM_cons, hjson, Outcome.ok_bind, hothers]
          rfl
        · rw [List.mapM_cons, hestimate, Option.bind_eq_bind, Option.bind_some, hestimates]
          rfl
  obtain ⟨contents, hcontents, hestimates⟩ := hcontents
  have hmembers : Decode.members (nestingLimit - 1) (PaddedText.ofItems items).span.value =
      .ok (.array contents) := by
    rw [hvalue]
    show Json.array <$> Decode.arrayMembers (nestingLimit - 2) scanned = _
    rw [Decode.arrayMembers_eq, hlists.each_eq]
    exact congrArg (Json.array <$> ·) hcontents
  rw [listedBody, decodeBody_values, Percentile.decodeList, hmembers, Outcome.ok_bind,
    Percentile.listOfJson, hestimates]
  rfl

/-- Both forms of percentile estimates decode to the same. Any members whose names are distinct
percents and which hold the estimates of these, among any members for formatted values and in any
order, decode to these estimates in increasing order, each once and no others; and so does every
array that lists them in increasing order. A keyed form in which each member is formatted or holds
an estimate fails exactly when a name that is not that of a formatted value does not read as a
double. -/
theorem keyed_as_listed :
    (∀ (texts : List PercentileText) (shown formatted members : List MemberText),
      (texts.map PercentileText.key).Nodup →
      List.Forall₂ PercentileText.StandsIn texts shown →
      (∀ member ∈ formatted, member.IsFormatted) →
      members.Perm (shown ++ formatted) →
      ∃ result, decodeBody Decode.percentiles (Symbol.ofBytes (keyedBody members).bytes) =
          .ok result ∧
        result.values.Perm (texts.map PercentileText.estimate) ∧
        (result.values.Pairwise fun first second => first.key.totalKey < second.key.totalKey) ∧
        ∀ (listed : List PercentileText) (items : List PaddedText), listed.Perm texts →
          (listed.Pairwise fun first second => first.key.totalKey < second.key.totalKey) →
          List.Forall₂ PercentileText.ListedAs listed items →
          decodeBody Decode.percentiles (Symbol.ofBytes (listedBody items).bytes) = .ok result) ∧
    ∀ members : List MemberText,
      (∀ member ∈ members, member.IsFormatted ∨
        member.name.endsWith "_as_string" = false ∧ member.value.IsEstimate) →
      ((∃ fault, decodeBody Decode.percentiles (Symbol.ofBytes (keyedBody members).bytes) =
          .error fault) ↔
        ∃ member ∈ members, member.name.endsWith "_as_string" = false ∧
          Binary64.read? member.name = none) := by
  constructor
  · intro texts shown formatted members hkeys hshown hformatted hperm
    obtain ⟨sorted, hsorted, hsame, hincreasing⟩ :=
      PercentileText.exists_ofKeyed hshown hkeys hformatted hperm
    have hholds : ∀ member ∈ members, ∃ value, member.value.Holds value := by
      intro member hmember
      rcases List.mem_append.1 (hperm.mem_iff.1 hmember) with hmember | hmember
      · exact PercentileText.exists_holds_shown hshown member hmember
      · exact (hformatted member hmember).exists_holds
    refine ⟨⟨sorted⟩, by rw [decodeBody_keyedBody hholds, hsorted]; rfl, hsame, hincreasing, ?_⟩
    intro listed items hlisted horder hitems
    have hlistedOrder : Percentile.Increasing (listed.map PercentileText.estimate) :=
      List.pairwise_map.2 horder
    have hlistedSame : (listed.map PercentileText.estimate).Perm sorted :=
      (hlisted.map PercentileText.estimate).trans hsame.symm
    rw [decodeBody_listedBody hitems, hlistedOrder.eq_of_perm hincreasing hlistedSame]
  · intro members hmembers
    have hholds : ∀ member ∈ members, ∃ value, member.value.Holds value := by
      intro member hmember
      rcases hmembers member hmember with hformatted | ⟨-, hestimate⟩
      · exact hformatted.exists_holds
      · exact hestimate.exists_holds
    have hnames : (∃ sorted, Percentile.ofKeyed (members.map MemberText.content) = .ok sorted) ↔
        ∀ member ∈ members, Percentile.isPercentName member.name = true →
          (Binary64.read? member.name).isSome = true := by
      rw [Percentile.exists_ofKeyed_iff, List.map_map, List.forall_mem_map]
      exact Iff.rfl
    rw [decodeBody_keyedBody hholds, Outcome.exists_map_eq_error_iff, hnames]
    simp [Percentile.isPercentName]

/-! ### Two percents -/

/-- A number with one digit behind its point. -/
def tenths (whole : List Char) : Numeral :=
  ⟨false, whole, some ['0'], none⟩

theorem tenths_grammatical {whole : List Char} (h : Digits whole) (hzero : whole.head? ≠ some '0') :
    (tenths whole).Grammatical := by
  refine ⟨h, fun hfirst => absurd hfirst hzero, ?_, nofun⟩
  rintro digits ⟨⟩
  exact Digits.zero

/-- Twelve, written as an integer. -/
def twelve : Numeral :=
  ⟨false, ['1', '2'], none, none⟩

/-- Fifty as a double. -/
def fifty : Finite :=
  ⟨false, ⟨4632233691727265792, by decide⟩⟩

/-- The fiftieth percentile is twelve. -/
def median : PercentileText where
  percent := tenths ['5', '0']
  value := some twelve
  key := .finite fifty
  percent_grammatical := tenths_grammatical ⟨nofun, by simp⟩ (by decide)
  value_grammatical := by
    rintro numeral ⟨⟩
    exact ⟨⟨nofun, by simp [twelve]⟩, nofun, nofun, nofun⟩
  percent_named := by decide +kernel
  percent_reads := by
    have hnumber : (tenths ['5', '0']).number? = some (.float fifty) := by decide +kernel
    rw [Numeral.read, hnumber]
    rfl
  value_reads := by
    rintro numeral ⟨⟩
    exact ⟨.int 12, rfl⟩

/-- There is no estimate of the hundredth percentile. -/
def maximum : PercentileText where
  percent := tenths ['1', '0', '0']
  value := none
  key := .finite hundred
  percent_grammatical := tenths_grammatical ⟨nofun, by simp⟩ (by decide)
  value_grammatical := nofun
  percent_named := by decide +kernel
  percent_reads := by
    have hnumber : (tenths ['1', '0', '0']).number? = some (.float hundred) := by decide +kernel
    rw [Numeral.read, hnumber]
    rfl
  value_reads := nofun

/-- The formatted value of the fiftieth percentile. -/
def formattedMedian : MemberText :=
  .bare "50.0_as_string" (.ofJson (.string "twelve"))

/-- In the order of the names a hundred stands before fifty, and the other way round by number. -/
theorem keyed_as_listed_twoPercents :
    ∃ result : PercentilesResult,
      decodeBody Decode.percentiles (Symbol.ofBytes
        (keyedBody [maximum.member, median.member, formattedMedian]).bytes) = .ok result ∧
      result.values.Perm [median.estimate, maximum.estimate] ∧
      decodeBody Decode.percentiles (Symbol.ofBytes
        (listedBody [median.item, maximum.item]).bytes) = .ok result := by
  have hkeys : ([median, maximum].map PercentileText.key).Nodup := by decide +kernel
  have hformatted : ∀ member ∈ [formattedMedian], member.IsFormatted :=
    List.forall_mem_singleton.2 ⟨by decide +kernel, "twelve", Json.spells_quote "twelve"⟩
  have horder : [median, maximum].Pairwise fun first second =>
      first.key.totalKey < second.key.totalKey := by decide +kernel
  obtain ⟨result, hresult, hsame, -, hlisted⟩ := keyed_as_listed.1 [median, maximum]
    [median.member, maximum.member] [formattedMedian]
    [maximum.member, median.member, formattedMedian] hkeys
    (.cons median.standsIn_member (.cons maximum.standsIn_member .nil)) hformatted (.swap _ _ _)
  exact ⟨result, hresult, hsame, hlisted [median, maximum] [median.item, maximum.item] (.refl _)
    horder (.cons median.listedAs_item (.cons maximum.listedAs_item .nil))⟩

end PercentilesResult

end SearchWire
