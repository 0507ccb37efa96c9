import SearchWire.Proofs.Json.Integers
import SearchWire.Proofs.Json.Spans
import SearchWire.Proofs.Text.Named
import SearchWire.Proofs.Text.Utf8

/-!
# Object texts and what their readers do

An `ObjectText` is an object as it is written: members in any order, names as
any string text that reads as them, values as any JSON text. `decodeBody_object`
says that a decoder of objects takes one step for each of its members in text
order and nothing else. Of all JSON texts it accepts object texts alone
(`PaddedText.exists_bytes_eq_of_decodeBody`): these are the objects whose names
read (`PaddedText.named_iff`). The lemmas about `run` say what its steps can do:
whether they all succeed, what they preserve, and which member decides a field.
-/

namespace SearchWire

open SearchWire.Symbol

/-- The members of an object in text order, under the names they read as. -/
def Members.entries : Members → List (String × Span)
  | .closed _ | .torn _ _ => []
  | .member _ name _ value more =>
      match name.read, Span.ofRaw value with
      | .ok key, .ok span => (key, span) :: more.entries
      | _, _ => more.entries

/-- The entries of a value that is an object. -/
def Raw.entries : Raw → List (String × Span)
  | .object members => members.entries
  | _ => []

/-- A text is the JSON string of a name, in any spelling. -/
def Spells (text : List Char) (name : String) : Prop :=
  ∃ quoted : Quoted, quoted.Grammatical ∧ quoted.symbols = ofChars text ∧ quoted.read = .ok name

/-- A member as it is written. -/
structure MemberText where
  before : List Char
  nameText : List Char
  name : String
  after : List Char
  value : PaddedText
  before_blank : Blank before
  spells : Spells nameText name
  after_blank : Blank after

/-- The whole text of a member. -/
def MemberText.text (member : MemberText) : List Char :=
  member.before ++ member.nameText ++ member.after ++ ':' :: member.value.text

/-- A member under its name. -/
def MemberText.entry (member : MemberText) : String × Span :=
  (member.name, member.value.span)

/-- An object as it is written, with white space around it. -/
structure ObjectText where
  lead : List Char
  inner : List Char
  members : List MemberText
  trail : List Char
  lead_blank : Blank lead
  inner_blank : Blank inner
  trail_blank : Blank trail

namespace ObjectText

/-- The whole text of an object. -/
def text (object : ObjectText) : List Char :=
  object.lead ++ '{' :: (object.inner ++ [','].intercalate (object.members.map MemberText.text) ++
    '}' :: object.trail)

/-- The body that consists of an object. -/
def bytes (object : ObjectText) : ByteArray :=
  (String.ofList object.text).toUTF8

/-- The members of an object under their names, in text order. -/
def entries (object : ObjectText) : List (String × Span) :=
  object.members.map MemberText.entry

end ObjectText

/-- One step for each entry, until one fails. -/
def run {σ : Type} (step : σ → String → Raw → Except Fault σ) (entries : List (String × Span))
    (state : σ) : Except Fault σ :=
  entries.foldlM (fun state entry => step state entry.1 entry.2.value) state

/-! ## Scanning an object -/

/-- Scanned members list entries when a walk through them is a run over these. -/
structure Members.Lists (members : Members) (entries : List (String × Span)) : Prop where
  entries_eq : members.entries = entries
  walk_eq : ∀ {σ : Type} (step : σ → String → Raw → Except Fault σ) (state : σ),
    Decode.walk step members state = run step entries state

theorem Members.Lists.closed (blank : List Char) : (Members.closed blank).Lists [] :=
  ⟨rfl, fun _ _ => rfl⟩

theorem Members.Lists.member {members : Members} {entries : List (String × Span)}
    (h : members.Lists entries) (lead middle : List Char) {quoted : Quoted} {name : String}
    (hname : quoted.read = .ok name) (span : Span) :
    (Members.member lead quoted middle span.value members).Lists ((name, span) :: entries) where
  entries_eq := by simp [Members.entries, hname, Span.ofRaw_value, h.entries_eq]
  walk_eq := by
    intro σ step state
    simp only [Decode.walk, hname, Outcome.ok_bind, run, List.foldlM_cons]
    cases step state name span.value with
    | error fault => rfl
    | ok next => exact h.walk_eq step next

/-- The members behind a member are scanned one by one. -/
theorem exists_members_later {pending : List Char} (hpending : Blank pending)
    (texts : List MemberText) :
    ∃ members, Raw.GrammaticalMembers false members ∧
      Raw.membersBefore members [] =
        ofChars (pending ++ texts.flatMap fun text => ',' :: text.text) ++ [.char '}'] ∧
      members.Lists (texts.map MemberText.entry) := by
  induction texts generalizing pending with
  | nil =>
      exact ⟨.closed pending, hpending, by simp [Raw.membersBefore], Members.Lists.closed pending⟩
  | cons text rest ih =>
      obtain ⟨quoted, hquoted, hsymbols, hread⟩ := text.spells
      obtain ⟨members, hmembers, hbefore, hlists⟩ := ih text.value.trail_blank
      refine ⟨.member (pending ++ ',' :: text.before) quoted
        (text.after ++ ':' :: text.value.lead) text.value.span.value members,
        ⟨⟨pending, text.before, hpending, text.before_blank, rfl⟩, hquoted,
          ⟨text.after, text.value.lead, text.after_blank, text.value.lead_blank, rfl⟩,
          text.value.span_grammatical, hmembers⟩, ?_, hlists.member _ _ hread text.value.span⟩
      simp [Raw.membersBefore_member, hsymbols, text.value.span_symbols, hbefore, MemberText.text,
        PaddedText.text]

/-- The members of an object are scanned one by one. -/
theorem exists_members {inner : List Char} (hinner : Blank inner) (texts : List MemberText) :
    ∃ members, Raw.GrammaticalMembers true members ∧
      Raw.membersBefore members [] =
        ofChars (inner ++ [','].intercalate (texts.map MemberText.text)) ++ [.char '}'] ∧
      members.Lists (texts.map MemberText.entry) := by
  cases texts with
  | nil => exact ⟨.closed inner, hinner, by simp [Raw.membersBefore], Members.Lists.closed inner⟩
  | cons text rest =>
      obtain ⟨quoted, hquoted, hsymbols, hread⟩ := text.spells
      obtain ⟨members, hmembers, hbefore, hlists⟩ :=
        exists_members_later text.value.trail_blank rest
      refine ⟨.member (inner ++ text.before) quoted
        (text.after ++ ':' :: text.value.lead) text.value.span.value members,
        ⟨hinner.append text.before_blank, hquoted,
          ⟨text.after, text.value.lead, text.after_blank, text.value.lead_blank, rfl⟩,
          text.value.span_grammatical, hmembers⟩, ?_, hlists.member _ _ hread text.value.span⟩
      simp [Raw.membersBefore_member, hsymbols, text.value.span_symbols, hbefore, MemberText.text,
        PaddedText.text, intercalate_cons, List.flatMap_map]

namespace ObjectText

/-- An object text decodes as an object that lists its members. -/
theorem exists_decodeBody (object : ObjectText) :
    ∃ members : Members, members.Lists object.entries ∧
      ∀ {α : Type} (decoder : Decoder α),
        decodeBody decoder (Symbol.ofBytes object.bytes) =
          decoder nestingLimit (.object members) := by
  obtain ⟨members, hmembers, hbefore, hlists⟩ := exists_members object.inner_blank object.members
  refine ⟨members, hlists, fun decoder => ?_⟩
  have hgrammatical : (Raw.object members).Grammatical := hmembers
  have hbody := decodeBody_eq decoder object.lead_blank hgrammatical object.trail_blank
  rw [Raw.symbols_object, hbefore] at hbody
  rw [← hbody, bytes, ofBytes_toUTF8, ofString, String.toList_ofList, text]
  simp

/-- A decoder of objects takes one step for each member of an object text, in text order. -/
theorem decodeBody_object {σ : Type} (object : ObjectText) (expected : String)
    (step : Nat → σ → String → Raw → Except Fault σ) (start : σ) :
    decodeBody (Decode.object expected step start) (Symbol.ofBytes object.bytes) =
      run (step (nestingLimit - 1)) object.entries start := by
  obtain ⟨members, hlists, hdecode⟩ := object.exists_decodeBody
  rw [hdecode]
  exact hlists.walk_eq _ start

end ObjectText

/-- The span of a text that is an object lists the members of that object. -/
theorem PaddedText.exists_span_value {text : PaddedText} {object : ObjectText}
    (h : text.core = object.text) :
    ∃ members, text.span.value = .object members ∧ members.Lists object.entries := by
  obtain ⟨members, hlists, hdecode⟩ := object.exists_decodeBody
  have hspan := text.ofSymbols_core
  have hbody := hdecode fun _ value => Span.ofRaw value
  rw [ObjectText.bytes, ofBytes_toUTF8, ofString, String.toList_ofList, ← h] at hbody
  rw [Span.ofSymbols, hbody] at hspan
  exact ⟨members, Span.value_of_ofRaw hspan, hlists⟩

/-- The span of a text that is an object has the entries of that object. -/
theorem PaddedText.entries_span {text : PaddedText} {object : ObjectText}
    (h : text.core = object.text) : text.span.value.entries = object.entries := by
  obtain ⟨members, hvalue, hlists⟩ := text.exists_span_value h
  rw [hvalue, Raw.entries, hlists.entries_eq]

/-! ## What decodes as an object -/

/-- Only an object decodes as one, by a walk through its members. -/
theorem Decode.object_eq_ok {σ : Type} {expected : String}
    {step : Nat → σ → String → Raw → Except Fault σ} {start result : σ} {depth : Nat} {value : Raw}
    (h : Decode.object expected step start depth value = .ok result) :
    ∃ less members, value = .object members ∧
      Decode.walk (step less) members start = .ok result := by
  unfold Decode.object at h
  split at h
  · next less members => exact ⟨less, members, rfl, h⟩
  · cases h
  · exact absurd h (Raw.refuse_ne_ok _ _ _)

/-! ## Object texts from values -/

theorem Symbol.ofChars_injective {first second : List Char} (h : ofChars first = ofChars second) :
    first = second :=
  (List.map_inj_right fun _ _ hsame => Symbol.char.inj hsame).1 h

/-- Every name of the members reads. -/
def Members.Named : Members → Prop
  | .closed _ => True
  | .torn _ _ => False
  | .member _ name _ _ more => (∃ key, name.read = .ok key) ∧ more.Named

/-- A walk gets through members only when their names read. -/
theorem Members.named_of_walk {σ : Type} {step : σ → String → Raw → Except Fault σ}
    {members : Members} {state result : σ} (h : Decode.walk step members state = .ok result) :
    members.Named := by
  cases members with
  | closed => trivial
  | torn => cases h
  | member lead name middle value more =>
      rw [Decode.walk, Outcome.bind_eq_ok_iff] at h
      obtain ⟨key, hkey, h⟩ := h
      obtain ⟨next, -, h⟩ := Outcome.bind_eq_ok_iff.1 h
      exact ⟨⟨key, hkey⟩, named_of_walk h⟩

/-- A member and what stands behind it are written in characters when both together are. -/
theorem exists_parts {lead middle chars : List Char} {name : Quoted} {value : Raw} {more : Members}
    {key : String} (hname : name.Grammatical) (hkey : name.read = .ok key)
    (hvalue : value.Grammatical)
    (hchars : Raw.membersBefore (.member lead name middle value more) [] = ofChars chars) :
    ∃ nameText valueText rest, Spells nameText key ∧ IsJson valueText ∧
      Raw.membersBefore more [] = ofChars rest ∧
      chars = lead ++ (nameText ++ (middle ++ (valueText ++ rest))) := by
  rw [Raw.membersBefore_member] at hchars
  obtain ⟨leadText, chars, rfl, hlead, hchars⟩ := List.map_eq_append_iff.1 hchars.symm
  obtain ⟨nameText, chars, rfl, hnameText, hchars⟩ := List.map_eq_append_iff.1 hchars
  obtain ⟨middleText, chars, rfl, hmiddle, hchars⟩ := List.map_eq_append_iff.1 hchars
  obtain ⟨valueText, rest, rfl, hvalueText, hrest⟩ := List.map_eq_append_iff.1 hchars
  obtain rfl := Symbol.ofChars_injective hlead
  obtain rfl := Symbol.ofChars_injective hmiddle
  exact ⟨nameText, valueText, rest, ⟨name, hname, hnameText.symm, hkey⟩,
    ⟨value, hvalue, hvalueText.symm⟩, hrest.symm, rfl⟩

/-- Later members are written as member texts, each with a comma in front. -/
theorem exists_texts_later {members : Members} {chars : List Char}
    (h : Raw.GrammaticalMembers false members) (hnamed : members.Named)
    (hchars : Raw.membersBefore members [] = ofChars chars) :
    ∃ (pending : List Char) (texts : List MemberText), Blank pending ∧
      chars = pending ++ (texts.flatMap fun text => ',' :: text.text) ++ ['}'] := by
  cases members with
  | closed blank =>
      have hclosed : ofChars (blank ++ ['}']) = ofChars chars := by
        rw [← hchars, ofChars_append]
        rfl
      exact ⟨blank, [], h, by simpa using (Symbol.ofChars_injective hclosed).symm⟩
  | torn => cases h
  | member lead name middle value more =>
      obtain ⟨⟨before, after, hbefore, hafter, rfl⟩, hname, ⟨gap, space, hgap, hspace, rfl⟩,
        hvalue, hmore⟩ := h
      obtain ⟨⟨key, hkey⟩, hnamed⟩ := hnamed
      obtain ⟨nameText, valueText, rest, hspells, hjson, hrest, rfl⟩ :=
        exists_parts hname hkey hvalue hchars
      -- the white space up to the next comma belongs to this member
      obtain ⟨trail, texts, htrail, rfl⟩ := exists_texts_later hmore hnamed hrest
      refine ⟨before, ⟨after, nameText, key, gap,
        ⟨space, valueText, trail, hspace, hjson, htrail⟩, hafter, hspells, hgap⟩ :: texts,
        hbefore, ?_⟩
      simp [MemberText.text, PaddedText.text]

/-- The members of an object are written as member texts. -/
theorem exists_texts {members : Members} {chars : List Char}
    (h : Raw.GrammaticalMembers true members) (hnamed : members.Named)
    (hchars : Raw.membersBefore members [] = ofChars chars) :
    ∃ (inner : List Char) (texts : List MemberText), Blank inner ∧
      chars = inner ++ [','].intercalate (texts.map MemberText.text) ++ ['}'] := by
  cases members with
  | closed blank =>
      have hclosed : ofChars (blank ++ ['}']) = ofChars chars := by
        rw [← hchars, ofChars_append]
        rfl
      exact ⟨blank, [], h, by simpa using (Symbol.ofChars_injective hclosed).symm⟩
  | torn => cases h
  | member lead name middle value more =>
      obtain ⟨hlead, hname, ⟨gap, space, hgap, hspace, rfl⟩, hvalue, hmore⟩ := h
      obtain ⟨⟨key, hkey⟩, hnamed⟩ := hnamed
      obtain ⟨nameText, valueText, rest, hspells, hjson, hrest, rfl⟩ :=
        exists_parts hname hkey hvalue hchars
      obtain ⟨trail, texts, htrail, rfl⟩ := exists_texts_later hmore hnamed hrest
      refine ⟨[], ⟨lead, nameText, key, gap,
        ⟨space, valueText, trail, hspace, hjson, htrail⟩, hlead, hspells, hgap⟩ :: texts,
        Blank.nil, ?_⟩
      simp [MemberText.text, PaddedText.text, intercalate_cons, List.flatMap_map]

/-- A JSON text whose value is an object with names that read is an object text. -/
theorem PaddedText.exists_objectText {text : PaddedText} {members : Members}
    (hvalue : text.span.value = .object members) (hnamed : members.Named) :
    ∃ object : ObjectText, text.core = object.text := by
  have hgrammatical := text.span_grammatical
  have hsymbols := text.span_symbols
  rw [hvalue] at hgrammatical hsymbols
  rw [Raw.symbols_object] at hsymbols
  obtain ⟨c, chars, hcore, hopen, hchars⟩ := List.map_eq_cons_iff.1 hsymbols.symm
  obtain rfl : c = '{' := Symbol.char.inj hopen
  obtain ⟨inner, texts, hinner, rfl⟩ := exists_texts hgrammatical hnamed hchars.symm
  refine ⟨⟨[], inner, texts, [], Blank.nil, hinner, Blank.nil⟩, ?_⟩
  rw [hcore, ObjectText.text]
  simp

/-! ## Runs -/

section Run

variable {σ α : Type} {step : σ → String → Raw → Except Fault σ}

theorem run_cons (entry : String × Span) (rest : List (String × Span)) (state : σ) :
    run step (entry :: rest) state =
      (step state entry.1 entry.2.value >>= fun next => run step rest next) :=
  List.foldlM_cons

/-- A run succeeds when every member is accepted, whatever the state. -/
theorem run_isOk_iff {accepts : String → Raw → Prop}
    (haccepts : ∀ (state : σ) (name : String) (span : Span),
      (∃ next, step state name span.value = .ok next) ↔ accepts name span.value)
    (entries : List (String × Span)) (state : σ) :
    (∃ final, run step entries state = .ok final) ↔
      ∀ entry ∈ entries, accepts entry.1 entry.2.value := by
  induction entries generalizing state with
  | nil => exact ⟨fun _ entry hentry => absurd hentry List.not_mem_nil, fun _ => ⟨state, rfl⟩⟩
  | cons entry rest ih =>
      have hfirst := haccepts state entry.1 entry.2
      simp only [run_cons, Outcome.bind_eq_ok_iff, List.forall_mem_cons]
      constructor
      · rintro ⟨final, next, hnext, hfinal⟩
        exact ⟨hfirst.1 ⟨next, hnext⟩, (ih next).1 ⟨final, hfinal⟩⟩
      · rintro ⟨hentry, hrest⟩
        obtain ⟨next, hnext⟩ := hfirst.2 hentry
        obtain ⟨final, hfinal⟩ := (ih next).2 hrest
        exact ⟨final, next, hnext, hfinal⟩

/-- Members that change nothing may be left out of a run. -/
theorem run_filter {keep : String × Span → Bool}
    (hskip : ∀ (state : σ) (entry : String × Span), keep entry = false →
      step state entry.1 entry.2.value = .ok state)
    (entries : List (String × Span)) (state : σ) :
    run step (entries.filter keep) state = run step entries state := by
  induction entries generalizing state with
  | nil => rfl
  | cons entry rest ih =>
      rw [run_cons]
      cases hkeep : keep entry with
      | true =>
          rw [List.filter_cons_of_pos hkeep, run_cons]
          exact congrArg _ (funext fun next => ih next)
      | false =>
          rw [List.filter_cons_of_neg (by simp [hkeep]), hskip state entry hkeep, Outcome.ok_bind,
            ih]

/-- What holds before the first member and is carried on by each step holds of the whole run. -/
theorem run_induction {motive : List (String × Span) → σ → Prop}
    (hstep : ∀ done state entry next, motive done state →
      step state entry.1 entry.2.value = .ok next → motive (done ++ [entry]) next)
    {done entries : List (String × Span)} {state final : σ} (hdone : motive done state)
    (hrun : run step entries state = .ok final) : motive (done ++ entries) final := by
  induction entries generalizing done state with
  | nil =>
      cases hrun
      rwa [List.append_nil]
  | cons entry rest ih =>
      rw [run_cons, Outcome.bind_eq_ok_iff] at hrun
      obtain ⟨next, hnext, hrun⟩ := hrun
      have hall := ih (hstep done state entry next hdone hnext) hrun
      rwa [List.append_assoc] at hall

/-- Appends what is read from a member. -/
def gather (read : String → Raw → Except Fault α) (found : List α) (name : String) (value : Raw) :
    Except Fault (List α) :=
  (fun result => found ++ [result]) <$> read name value

/-- A run that gathers what is read from each member. -/
theorem run_gather (read : String → Raw → Except Fault α) (entries : List (String × Span))
    (found : List α) :
    run (gather read) entries found =
      (found ++ ·) <$> entries.mapM fun entry => read entry.1 entry.2.value := by
  induction entries generalizing found with
  | nil => simp [run]
  | cons entry rest ih =>
      rw [run_cons, List.mapM_cons, gather]
      cases read entry.1 entry.2.value with
      | error fault => rfl
      | ok result =>
          rw [Outcome.ok_map, Outcome.ok_bind, Outcome.ok_bind, ih]
          cases rest.mapM fun entry => read entry.1 entry.2.value with
          | error fault => rfl
          | ok others => simp

/-- A reader of members that reads one after another and keeps the results. -/
structure ReadsEach (read : String → Raw → Except Fault α)
    (reader : Members → Except Fault (List α)) : Prop where
  closed : ∀ blank, reader (.closed blank) = .ok []
  torn : ∀ damage text, reader (.torn damage text) = .error (.damage damage)
  member : ∀ lead (name : Quoted) middle value more,
    reader (.member lead name middle value more) = (do
      let key ← name.read
      let first ← read key value
      let rest ← reader more
      return first :: rest)

section ReadsEach

variable {read : String → Raw → Except Fault α} {reader : Members → Except Fault (List α)}
  (h : ReadsEach read reader)

include h

theorem ReadsEach.walk_gather (members : Members) (found : List α) :
    Decode.walk (gather read) members found = (found ++ ·) <$> reader members := by
  cases members with
  | closed blank =>
      rw [h.closed, Decode.walk, Outcome.ok_map, List.append_nil]
  | torn damage text =>
      rw [h.torn]
      rfl
  | member lead name middle value more =>
      rw [Decode.walk, h.member]
      cases name.read with
      | error fault => rfl
      | ok key =>
          rw [Outcome.ok_bind, Outcome.ok_bind, gather]
          cases read key value with
          | error fault => rfl
          | ok first =>
              rw [Outcome.ok_map, Outcome.ok_bind, Outcome.ok_bind, walk_gather more]
              cases reader more <;> simp

/-- What such a reader gives for scanned members is what it reads from their entries. -/
theorem ReadsEach.eq_mapM {members : Members} {entries : List (String × Span)}
    (hlists : members.Lists entries) :
    reader members = entries.mapM fun entry => read entry.1 entry.2.value := by
  have hwalk := h.walk_gather members []
  rw [hlists.walk_eq, run_gather] at hwalk
  simpa using hwalk.symm

end ReadsEach

/-- A value comes from a member, or is the default when there is none. -/
def TakenFrom (decode : Raw → Except Fault α) (absent value : α) : Option Span → Prop
  | none => value = absent
  | some span => decode span.value = .ok value

theorem TakenFrom.unique {decode : Raw → Except Fault α} {absent first second : α}
    {found : Option Span} (hfirst : TakenFrom decode absent first found)
    (hsecond : TakenFrom decode absent second found) : first = second := by
  cases found with
  | none => exact hfirst.trans hsecond.symm
  | some span => exact Except.ok.inj (hfirst.symm.trans hsecond)

/-- A member sets a field when it has the field's name, and leaves it alone when it has not. -/
def SetsField (get : σ → α) (field : String) (decode : Raw → Except Fault α) (state : σ)
    (name : String) (value : Raw) (next : σ) : Prop :=
  if name = field then decode value = .ok (get next) else get next = get state

/-- A field that the members of one name set, and no others, is the value of the last of them. -/
theorem run_field {get : σ → α} {field : String} {decode : Raw → Except Fault α}
    (hstep : ∀ state name value next, step state name value = .ok next →
      SetsField get field decode state name value next)
    {entries : List (String × Span)} {start final : σ} (hrun : run step entries start = .ok final) :
    TakenFrom decode (get start) (get final) (Named.last? field entries) := by
  have hstart : TakenFrom decode (get start) (get start) (Named.last? field []) := rfl
  -- The invariant speaks of the members read so far, so the run is followed from the front and
  -- the last member found is the one just read or the one found before it.
  refine run_induction (motive := fun done state =>
    TakenFrom decode (get start) (get state) (Named.last? field done)) ?_ hstart hrun
  intro done state entry next hdone hnext
  have hentry := hstep state entry.1 _ next hnext
  unfold SetsField at hentry
  rw [Named.last?_append, Named.last?_cons]
  by_cases hname : entry.1 = field
  · rw [if_pos hname] at hentry ⊢
    exact hentry
  · rw [if_neg hname] at hentry ⊢
    rw [hentry]
    exact hdone

end Run

/-! ## Bodies -/

namespace PaddedText

/-- The body that consists of a JSON text. -/
def bytes (text : PaddedText) : ByteArray :=
  (String.ofList text.text).toUTF8

/-- The body of a JSON text decodes as its value. -/
theorem decodeBody_bytes {α : Type} (text : PaddedText) (decoder : Decoder α) :
    decodeBody decoder (Symbol.ofBytes text.bytes) = decoder nestingLimit text.span.value := by
  have hbody := decodeBody_eq decoder text.lead_blank text.span_grammatical text.trail_blank
  rw [text.span_symbols] at hbody
  rw [← hbody, bytes, ofBytes_toUTF8, ofString, String.toList_ofList, PaddedText.text]
  simp

/-- A JSON text whose value is an object is the body of an object text when its names read. -/
theorem named_iff {text : PaddedText} {members : Members}
    (hvalue : text.span.value = .object members) :
    members.Named ↔ ∃ body : ObjectText, text.bytes = body.bytes := by
  constructor
  · intro hnamed
    obtain ⟨object, hcore⟩ := exists_objectText hvalue hnamed
    refine ⟨{ object with
      lead := text.lead ++ object.lead
      trail := object.trail ++ text.trail
      lead_blank := text.lead_blank.append object.lead_blank
      trail_blank := object.trail_blank.append text.trail_blank }, ?_⟩
    rw [bytes, ObjectText.bytes, PaddedText.text, hcore]
    simp [ObjectText.text]
  · rintro ⟨body, hbody⟩
    obtain ⟨found, hlists, hdecode⟩ := body.exists_decodeBody
    have hsame := text.decodeBody_bytes fun _ value => .ok value
    rw [hbody, hdecode, hvalue] at hsame
    obtain rfl : found = members := Raw.object.inj (Except.ok.inj hsame)
    -- steps that never fail get through all members
    have hrun := @run_isOk_iff _ (fun _ _ _ => .ok ()) (fun _ _ => True)
      (fun _ _ _ => ⟨fun _ => trivial, fun _ => ⟨(), rfl⟩⟩) body.entries ()
    obtain ⟨final, hfinal⟩ := hrun.2 fun _ _ => trivial
    rw [← hlists.walk_eq] at hfinal
    exact Members.named_of_walk hfinal

/-- Only the body of an object text decodes as an object. -/
theorem exists_bytes_eq_of_decodeBody {σ : Type} {expected : String}
    {step : Nat → σ → String → Raw → Except Fault σ} {start result : σ} {text : PaddedText}
    (h : decodeBody (Decode.object expected step start) (Symbol.ofBytes text.bytes) = .ok result) :
    ∃ body : ObjectText, text.bytes = body.bytes := by
  rw [text.decodeBody_bytes] at h
  obtain ⟨_, members, hvalue, hwalk⟩ := Decode.object_eq_ok h
  exact (named_iff hvalue).1 (Members.named_of_walk hwalk)

end PaddedText

end SearchWire
