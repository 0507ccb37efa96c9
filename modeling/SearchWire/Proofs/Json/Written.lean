import SearchWire.Proofs.Json.Quoting
import SearchWire.Proofs.Json.Scanning
import SearchWire.Proofs.Json.WrittenNumber
import SearchWire.Proofs.Text.Utf8

/-!
# The text of a value is JSON

`Json.written` is the written form of a value: no white space, and a comma
between parts. `written_symbols` says that it spells the text of the value and
`written_grammatical` that this text is JSON, so the readers of this library
take `Json.text` apart exactly as it was put together. A text of a value has no
control character in it, and so fits on one line.
-/

namespace SearchWire

open SearchWire.Symbol

namespace Json

/-- The lead of a part in a text without white space. -/
def lead (isFirst : Bool) : List Char :=
  if isFirst then [] else [',']

mutual

/-- The written form of a value. -/
def written : Json → Raw
  | .null => .null
  | .bool value => .bool value
  | .number value => .number value.numeral
  | .string value => .string (quoted value.toList)
  | .array items => .array (writtenItems true items)
  | .object entries => .object (writtenEntries true entries)

/-- The written form of the items of an array, from the first item or a later one on. -/
def writtenItems (isFirst : Bool) : List Json → Items
  | [] => .closed []
  | item :: rest => .item (lead isFirst) item.written (writtenItems false rest)

/-- The written form of the entries of an object, from the first entry or a later one on. -/
def writtenEntries (isFirst : Bool) : List (String × Json) → Members
  | [] => .closed []
  | (name, value) :: rest =>
      .member (lead isFirst) (quoted name.toList) [':'] value.written (writtenEntries false rest)

end

/-! ## Its text -/

mutual

theorem written_symbols (value : Json) : value.written.symbols = ofChars value.text := by
  cases value with
  | null => rfl
  | bool value => cases value <;> rfl
  | number value => simp [written, Raw.symbols, Raw.before, text, value.numeral_text]
  | string value => simp [written, Raw.symbols, Raw.before, text, quoted_symbols]
  | array items =>
      cases items with
      | nil => rfl
      | cons first rest =>
          have hfirst := written_symbols first
          have hrest := writtenItems_symbols rest
          simp [written, writtenItems, lead, Raw.symbols_array, Raw.itemsBefore_item, text,
            hfirst, hrest]
  | object entries =>
      cases entries with
      | nil => rfl
      | cons entry rest =>
          obtain ⟨name, value⟩ := entry
          have hvalue := written_symbols value
          have hrest := writtenEntries_symbols rest
          simp [written, writtenEntries, lead, Raw.symbols_object, Raw.membersBefore_member,
            quoted_symbols, text, hvalue, hrest]

theorem writtenItems_symbols (items : List Json) :
    Raw.itemsBefore (writtenItems false items) [] = ofChars (itemsText items) := by
  cases items with
  | nil => rfl
  | cons first rest =>
      have hfirst := written_symbols first
      have hrest := writtenItems_symbols rest
      simp [writtenItems, lead, Raw.itemsBefore_item, itemsText, hfirst, hrest]

theorem writtenEntries_symbols (entries : List (String × Json)) :
    Raw.membersBefore (writtenEntries false entries) [] = ofChars (entriesText entries) := by
  cases entries with
  | nil => rfl
  | cons entry rest =>
      obtain ⟨name, value⟩ := entry
      have hvalue := written_symbols value
      have hrest := writtenEntries_symbols rest
      simp [writtenEntries, lead, Raw.membersBefore_member, quoted_symbols, entriesText, hvalue,
        hrest]

end

/-! ## Its grammar -/

theorem lead_isLead (isFirst : Bool) : Lead isFirst (lead isFirst) := by
  cases isFirst with
  | true => exact Blank.nil
  | false => exact ⟨[], [], Blank.nil, Blank.nil, rfl⟩

mutual

theorem written_grammatical (value : Json) : value.written.Grammatical := by
  cases value with
  | null => trivial
  | bool value => trivial
  | number value => exact value.numeral_grammatical
  | string value => exact quoted_grammatical value.toList
  | array items => exact writtenItems_grammatical true items
  | object entries => exact writtenEntries_grammatical true entries

theorem writtenItems_grammatical (isFirst : Bool) (items : List Json) :
    Raw.GrammaticalItems isFirst (writtenItems isFirst items) := by
  cases items with
  | nil => exact Blank.nil
  | cons first rest =>
      exact ⟨lead_isLead isFirst, written_grammatical first, writtenItems_grammatical false rest⟩

theorem writtenEntries_grammatical (isFirst : Bool) (entries : List (String × Json)) :
    Raw.GrammaticalMembers isFirst (writtenEntries isFirst entries) := by
  cases entries with
  | nil => exact Blank.nil
  | cons entry rest =>
      obtain ⟨name, value⟩ := entry
      exact ⟨lead_isLead isFirst, quoted_grammatical name.toList,
        ⟨[], [], Blank.nil, Blank.nil, rfl⟩, written_grammatical value,
        writtenEntries_grammatical false rest⟩

end

/-- The text of a value spells one JSON value. -/
theorem isJson_text (value : Json) : IsJson value.text :=
  ⟨value.written, value.written_grammatical, value.written_symbols⟩

/-- The text of a value decodes as its written form. -/
theorem decodeBody_text {α : Type} (decoder : Decoder α) (value : Json) :
    decodeBody decoder (ofChars value.text) = decoder nestingLimit value.written := by
  have hbody := decodeBody_eq decoder Blank.nil value.written_grammatical Blank.nil
  rwa [ofChars_nil, List.nil_append, List.append_nil, written_symbols] at hbody

/-- The bytes of the text of a value decode as its written form. -/
theorem decodeBody_toText {α : Type} (decoder : Decoder α) (value : Json) :
    decodeBody decoder (ofBytes value.toText.toUTF8) = decoder nestingLimit value.written := by
  rw [ofBytes_toUTF8, toText, ofString, String.toList_ofList, decodeBody_text]

end Json

/-! ## One line -/

/-- A number is made of digits and a few marks. -/
theorem Numeral.Grammatical.forall_mem_text {numeral : Numeral} (h : numeral.Grammatical)
    {p : Char → Prop} (hdigit : ∀ c : Char, c.isDigit = true → p c)
    (hmark : ∀ c ∈ ['-', '+', '.', 'e', 'E'], p c) : ∀ c ∈ numeral.text, p c := by
  have hdigits {digits : List Char} (hall : Digits digits) : ∀ c ∈ digits, p c :=
    fun c hc => hdigit c (hall.2 c hc)
  rw [Numeral.text_eq_unsigned, Numeral.unsigned, List.forall_mem_append, List.forall_mem_append,
    List.forall_mem_append]
  refine ⟨?_, ⟨hdigits h.whole, ?_⟩, ?_⟩
  · cases numeral.negative with
    | true => exact List.forall_mem_singleton.2 (hmark _ (by decide))
    | false => exact List.forall_mem_nil _
  · cases hfraction : numeral.fraction with
    | none => exact List.forall_mem_nil _
    | some digits =>
        exact List.forall_mem_cons.2 ⟨hmark _ (by decide), hdigits (h.fraction digits hfraction)⟩
  · cases hexponent : numeral.exponent with
    | none => exact List.forall_mem_nil _
    | some exponent =>
        obtain ⟨hletter, hsign, hpower⟩ := h.exponent exponent hexponent
        refine List.forall_mem_cons.2
          ⟨?_, List.forall_mem_append.2 ⟨fun c hc => ?_, hdigits hpower⟩⟩
        · rcases hletter with hletter | hletter <;> exact hmark _ (by rw [hletter]; decide)
        · rcases hsign c (by simpa using hc) with rfl | rfl <;> exact hmark _ (by decide)

/-- A number has no control character in it. -/
theorem Numeral.Grammatical.printable {numeral : Numeral} (h : numeral.Grammatical) :
    Printable numeral.text := by
  refine h.forall_mem_text (fun c hc => ?_) (by simp)
  simp only [Char.isDigit, Bool.and_eq_true, decide_eq_true_eq] at hc
  exact Nat.le_trans (by decide) (UInt32.le_iff_toNat_le.1 hc.1)

namespace Json

mutual

/-- The text of a value has no control character in it. -/
theorem printable_text (value : Json) : Printable value.text := by
  cases value with
  | null =>
      rw [text]
      decide
  | bool value => cases value <;> (rw [text]; decide)
  | number value =>
      rw [text, ← value.numeral_text]
      exact value.numeral_grammatical.printable
  | string value => exact printable_quote value.toList
  | array items =>
      cases items with
      | nil => rw [text]; decide
      | cons first rest =>
          rw [text, printable_append, printable_cons]
          exact ⟨⟨by decide, printable_text first⟩, printable_itemsText rest⟩
  | object entries =>
      cases entries with
      | nil => rw [text]; decide
      | cons entry rest =>
          obtain ⟨name, value⟩ := entry
          simp only [text, List.cons_append, printable_append, printable_cons]
          exact ⟨by decide, ⟨printable_quote _, by decide, printable_text value⟩,
            printable_entriesText rest⟩

theorem printable_itemsText (items : List Json) : Printable (itemsText items) := by
  cases items with
  | nil => rw [itemsText]; decide
  | cons first rest =>
      rw [itemsText, printable_append, printable_cons]
      exact ⟨⟨by decide, printable_text first⟩, printable_itemsText rest⟩

theorem printable_entriesText (entries : List (String × Json)) :
    Printable (entriesText entries) := by
  cases entries with
  | nil => rw [entriesText]; decide
  | cons entry rest =>
      obtain ⟨name, value⟩ := entry
      simp only [entriesText, List.cons_append, printable_append, printable_cons]
      exact ⟨by decide, ⟨printable_quote _, by decide, printable_text value⟩,
        printable_entriesText rest⟩

end

end Json

end SearchWire
