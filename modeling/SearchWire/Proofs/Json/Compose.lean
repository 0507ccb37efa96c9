import SearchWire.Proofs.Json.ObjectText
import SearchWire.Proofs.Json.Written

/-!
# Texts put together from texts

An `ArrayText` is an array as it is written, like an `ObjectText` for an object.
The items of such a text are the spans of its parts, so decoding the former is
decoding the latter (`PaddedText.exists_span_items` and `Items.Lists.each_eq`),
and every JSON text whose value is an array is one (`PaddedText.exists_arrayText`).
`PaddedText.ofMembers` and `PaddedText.ofItems` put JSON texts together to the
text of an object and of an array, without any white space. The object of
`PaddedText.strayNamed` is grammatical as well, but has a name that is no string.
-/

namespace SearchWire

open SearchWire.Symbol

namespace PaddedText

/-- A JSON text with nothing around it. -/
def bare (text : List Char) (valid : IsJson text) : PaddedText :=
  ⟨[], text, [], Blank.nil, valid, Blank.nil⟩

/-- The text of a JSON value. -/
def ofJson (value : Json) : PaddedText :=
  bare value.text value.isJson_text

theorem ofJson_span (value : Json) : (ofJson value).span.value = value.written :=
  span_value value.written_grammatical value.written_symbols

end PaddedText

/-! ## Objects -/

/-- The text that a writer gives for a name reads as that name. -/
theorem Json.spells_quote (name : String) : Spells (quote name.toList) name :=
  ⟨quoted name.toList, quoted_grammatical _, quoted_symbols _, read_quoted name⟩

/-- Written entries are scanned as members with the spans of their values. -/
theorem Json.writtenEntries_lists (isFirst : Bool) (entries : List (String × Json)) :
    (writtenEntries isFirst entries).Lists
      (entries.map fun entry => (entry.1, (PaddedText.ofJson entry.2).span)) := by
  induction entries generalizing isFirst with
  | nil => exact Members.Lists.closed []
  | cons entry rest ih =>
      rw [writtenEntries, ← PaddedText.ofJson_span]
      exact (ih false).member _ _ (read_quoted entry.1) _

/-- A member without white space. -/
def MemberText.bare (name : String) (value : PaddedText) : MemberText :=
  ⟨[], Json.quote name.toList, name, [], value, Blank.nil, Json.spells_quote name, Blank.nil⟩

/-- An object with nothing around it. -/
def ObjectText.bare (members : List MemberText) : ObjectText :=
  ⟨[], [], members, [], Blank.nil, Blank.nil, Blank.nil⟩

theorem ObjectText.isJson_bare (members : List MemberText) : IsJson (bare members).text := by
  obtain ⟨scanned, hscanned, hbefore, -⟩ := exists_members Blank.nil members
  refine ⟨.object scanned, hscanned, ?_⟩
  rw [Raw.symbols_object, hbefore]
  simp [ObjectText.text, bare]

namespace PaddedText

/-- The text of an object with the given members. -/
def ofMembers (members : List MemberText) : PaddedText :=
  bare (ObjectText.bare members).text (ObjectText.isJson_bare members)

theorem ofMembers_core (members : List MemberText) :
    (ofMembers members).core = (ObjectText.bare members).text := rfl

end PaddedText

/-! ## Names that are no strings -/

/-- The string `"\ud800"`, half a surrogate pair, which reads as no name. -/
def Quoted.halfPair : Quoted :=
  ⟨[.unicode 'd' '8' '0' '0'], none⟩

theorem Quoted.halfPair_grammatical : halfPair.Grammatical := by
  refine ⟨rfl, List.forall_mem_singleton.2 ?_⟩
  rw [Piece.Grammatical]
  decide

namespace Members

/-- The members of an object, the first of which has half a surrogate pair for a name. -/
def strayNamed (value : Json) (rest : List (String × Json)) : Members :=
  .member [] Quoted.halfPair [':'] value.written (Json.writtenEntries false rest)

variable (value : Json) (rest : List (String × Json))

/-- Under their names, such members are those after the first. -/
theorem entries_strayNamed : (strayNamed value rest).entries =
    rest.map fun entry => (entry.1, (PaddedText.ofJson entry.2).span) :=
  (Json.writtenEntries_lists false rest).entries_eq

theorem not_named_strayNamed : ¬ (strayNamed value rest).Named := by
  rintro ⟨⟨_, hname⟩, -⟩
  cases hname

theorem grammatical_strayNamed : (Raw.object (strayNamed value rest)).Grammatical :=
  ⟨Blank.nil, Quoted.halfPair_grammatical, ⟨[], [], Blank.nil, Blank.nil, rfl⟩,
    value.written_grammatical, Json.writtenEntries_grammatical false rest⟩

theorem symbols_strayNamed : (Raw.object (strayNamed value rest)).symbols =
    ofChars ("\x7b\"\\ud800\":".toList ++ (value.text ++ Json.entriesText rest)) := by
  rw [Raw.symbols_object, strayNamed, Raw.membersBefore_member, value.written_symbols,
    Json.writtenEntries_symbols]
  simp [Quoted.halfPair, Quoted.symbols, Piece.symbols]

end Members

namespace PaddedText

/-- An object, the first member of which has half a surrogate pair for a name. -/
def strayNamed (value : Json) (rest : List (String × Json)) : PaddedText :=
  bare ("\x7b\"\\ud800\":".toList ++ (value.text ++ Json.entriesText rest))
    ⟨_, Members.grammatical_strayNamed value rest, Members.symbols_strayNamed value rest⟩

theorem strayNamed_span (value : Json) (rest : List (String × Json)) :
    (strayNamed value rest).span.value = .object (Members.strayNamed value rest) :=
  span_value (Members.grammatical_strayNamed value rest) (Members.symbols_strayNamed value rest)

end PaddedText

/-! ## Arrays -/

/-- An array as it is written. -/
structure ArrayText where
  inner : List Char
  items : List PaddedText
  inner_blank : Blank inner

namespace ArrayText

/-- The text of an array. -/
def text (array : ArrayText) : List Char :=
  '[' :: (array.inner ++ [','].intercalate (array.items.map PaddedText.text)) ++ [']']

/-- An array without white space between its brackets and its items. -/
def bare (items : List PaddedText) : ArrayText :=
  ⟨[], items, Blank.nil⟩

/-- An array text is scanned into items that are taken over as the spans of its parts. -/
theorem exists_raw (array : ArrayText) :
    ∃ items, (Raw.array items).Grammatical ∧ (Raw.array items).symbols = ofChars array.text ∧
      Decode.each Span.ofRaw items = .ok (array.items.map PaddedText.span) := by
  obtain ⟨items, hitems, hbefore, heach⟩ := exists_spacedArray array.inner_blank array.items
  refine ⟨items, hitems, ?_, heach⟩
  rw [Raw.symbols_array, hbefore]
  simp [text]

theorem isJson_text (array : ArrayText) : IsJson array.text := by
  obtain ⟨items, hitems, hsymbols, -⟩ := array.exists_raw
  exact ⟨.array items, hitems, hsymbols⟩

end ArrayText

/-- Scanned items list spans when each of them is the value of its span. -/
inductive Items.Lists : Items → List Span → Prop where
  | closed (blank : List Char) : Lists (.closed blank) []
  | item (lead : List Char) (span : Span) {more : Items} {spans : List Span}
      (h : Lists more spans) : Lists (.item lead span.value more) (span :: spans)

namespace Items.Lists

/-- Items list the spans that they are taken over as. -/
theorem of_each {items : Items} {spans : List Span} (h : Decode.each Span.ofRaw items = .ok spans) :
    items.Lists spans := by
  cases items with
  | closed blank =>
      cases h
      exact .closed blank
  | torn damage text => cases h
  | item lead value more =>
      rw [Decode.each, Outcome.bind_eq_ok_iff] at h
      obtain ⟨span, hspan, h⟩ := h
      obtain ⟨rest, hrest, h⟩ := Outcome.bind_eq_ok_iff.1 h
      cases h
      obtain rfl := Span.value_of_ofRaw hspan
      exact .item lead span (of_each hrest)

/-- Decoding items is decoding the spans that they list. -/
theorem each_eq {α : Type} {items : Items} {spans : List Span} (h : items.Lists spans)
    (element : Raw → Except Fault α) :
    Decode.each element items = spans.mapM fun span => element span.value := by
  induction h with
  | closed blank => rfl
  | item lead span _ ih => rw [Decode.each, List.mapM_cons, ih]

end Items.Lists

namespace PaddedText

/-- The items of a text that is an array are the spans of its parts. -/
theorem exists_span_items {text : PaddedText} {array : ArrayText} (h : text.core = array.text) :
    ∃ items, text.span.value = .array items ∧ items.Lists (array.items.map PaddedText.span) := by
  obtain ⟨items, hitems, hsymbols, heach⟩ := array.exists_raw
  rw [← h] at hsymbols
  exact ⟨items, span_value hitems hsymbols, .of_each heach⟩

/-- The text of an array of the given texts. -/
def ofItems (texts : List PaddedText) : PaddedText :=
  bare (ArrayText.bare texts).text (ArrayText.bare texts).isJson_text

theorem ofItems_core (texts : List PaddedText) :
    (ofItems texts).core = (ArrayText.bare texts).text := rfl

end PaddedText

/-! ## Array texts from values -/

/-- An item and what stands behind it are written in characters when both together are. -/
theorem exists_itemParts {lead chars : List Char} {value : Raw} {more : Items}
    (hvalue : value.Grammatical)
    (hchars : Raw.itemsBefore (.item lead value more) [] = ofChars chars) :
    ∃ valueText rest, IsJson valueText ∧ Raw.itemsBefore more [] = ofChars rest ∧
      chars = lead ++ (valueText ++ rest) := by
  rw [Raw.itemsBefore_item] at hchars
  obtain ⟨leadText, chars, rfl, hlead, hchars⟩ := List.map_eq_append_iff.1 hchars.symm
  obtain ⟨valueText, rest, rfl, hvalueText, hrest⟩ := List.map_eq_append_iff.1 hchars
  obtain rfl := Symbol.ofChars_injective hlead
  exact ⟨valueText, rest, ⟨value, hvalue, hvalueText.symm⟩, hrest.symm, rfl⟩

/-- Later items are written as JSON texts, each with a comma in front. -/
theorem exists_itemTexts_later {items : Items} {chars : List Char}
    (h : Raw.GrammaticalItems false items) (hchars : Raw.itemsBefore items [] = ofChars chars) :
    ∃ (pending : List Char) (texts : List PaddedText), Blank pending ∧
      chars = pending ++ (texts.flatMap fun text => ',' :: text.text) ++ [']'] := by
  cases items with
  | closed blank =>
      have hclosed : ofChars (blank ++ [']']) = ofChars chars := by
        rw [← hchars, ofChars_append]
        rfl
      exact ⟨blank, [], h, by simpa using (Symbol.ofChars_injective hclosed).symm⟩
  | torn => cases h
  | item lead value more =>
      obtain ⟨⟨before, after, hbefore, hafter, rfl⟩, hvalue, hmore⟩ := h
      obtain ⟨valueText, rest, hjson, hrest, rfl⟩ := exists_itemParts hvalue hchars
      obtain ⟨trail, texts, htrail, rfl⟩ := exists_itemTexts_later hmore hrest
      refine ⟨before, ⟨after, valueText, trail, hafter, hjson, htrail⟩ :: texts, hbefore, ?_⟩
      simp [PaddedText.text]

/-- The items of an array are written as JSON texts. -/
theorem exists_itemTexts {items : Items} {chars : List Char}
    (h : Raw.GrammaticalItems true items) (hchars : Raw.itemsBefore items [] = ofChars chars) :
    ∃ (inner : List Char) (texts : List PaddedText), Blank inner ∧
      chars = inner ++ [','].intercalate (texts.map PaddedText.text) ++ [']'] := by
  cases items with
  | closed blank =>
      have hclosed : ofChars (blank ++ [']']) = ofChars chars := by
        rw [← hchars, ofChars_append]
        rfl
      exact ⟨blank, [], h, by simpa using (Symbol.ofChars_injective hclosed).symm⟩
  | torn => cases h
  | item lead value more =>
      obtain ⟨hlead, hvalue, hmore⟩ := h
      obtain ⟨valueText, rest, hjson, hrest, rfl⟩ := exists_itemParts hvalue hchars
      obtain ⟨trail, texts, htrail, rfl⟩ := exists_itemTexts_later hmore hrest
      refine ⟨[], ⟨lead, valueText, trail, hlead, hjson, htrail⟩ :: texts, Blank.nil, ?_⟩
      simp [PaddedText.text, intercalate_cons, List.flatMap_map]

/-- A JSON text whose value is an array is an array text. -/
theorem PaddedText.exists_arrayText {text : PaddedText} {items : Items}
    (hvalue : text.span.value = .array items) : ∃ array : ArrayText, text.core = array.text := by
  have hgrammatical := text.span_grammatical
  have hsymbols := text.span_symbols
  rw [hvalue] at hgrammatical hsymbols
  rw [Raw.symbols_array] at hsymbols
  obtain ⟨c, chars, hcore, hopen, hchars⟩ := List.map_eq_cons_iff.1 hsymbols.symm
  obtain rfl : c = '[' := Symbol.char.inj hopen
  obtain ⟨inner, texts, hinner, rfl⟩ := exists_itemTexts hgrammatical hchars.symm
  exact ⟨⟨inner, texts, hinner⟩, hcore⟩

end SearchWire
