import SearchWire.Json.Span
import SearchWire.Proofs.Json.Outcome
import SearchWire.Proofs.Json.Scanning

/-!
# Spans of JSON texts

A span takes a JSON text over verbatim, whatever the text holds. `exists_array`
says that an array of such texts, each with white space around it, is scanned
into one span for each text, and that each span is the one that its text gives
when it stands alone.
-/

namespace SearchWire

open SearchWire.Symbol

namespace Span

/-- Every span is what its value is taken over as. -/
theorem ofRaw_value (span : Span) : ofRaw span.value = .ok span := by
  have hvalid : characters? span.value.symbols = some span.chars := by
    rw [span.symbols_eq, characters?_ofChars]
  unfold ofRaw
  split
  · next damage hdamage => simp [span.intact] at hdamage
  · split
    · next found hfound =>
        obtain ⟨value, chars, intact, symbols_eq⟩ := span
        obtain rfl := Option.some.inj (hvalid.symm.trans hfound)
        rfl
    · next hnone => simp [hvalid] at hnone

/-- A span holds the value it was taken over from. -/
theorem value_of_ofRaw {value : Raw} {span : Span} (h : ofRaw value = .ok span) :
    span.value = value := by
  unfold ofRaw at h
  split at h
  · cases h
  · split at h
    · cases h
      rfl
    · cases h

/-- A grammatical value is taken over with its text. -/
theorem ofRaw_eq_ok {value : Raw} {chars : List Char} (h : value.Grammatical)
    (hchars : value.symbols = ofChars chars) :
    ofRaw value = .ok ⟨value, chars, h.damage?_eq, hchars⟩ :=
  ofRaw_value ⟨value, chars, h.damage?_eq, hchars⟩

/-- A JSON text is one span, whatever white space stands around it. -/
theorem ofSymbols_eq_ok {lead trail chars : List Char} {value : Raw} (hlead : Blank lead)
    (h : value.Grammatical) (htrail : Blank trail) (hchars : value.symbols = ofChars chars) :
    ofSymbols (ofChars (lead ++ chars ++ trail)) =
      .ok ⟨value, chars, h.damage?_eq, hchars⟩ := by
  rw [ofSymbols, ofChars_append, ofChars_append, List.append_assoc, ← hchars,
    decodeBody_eq _ hlead h htrail, ofRaw_eq_ok h hchars]

end Span

namespace PaddedText

/-- A JSON text has a grammatical value, and alone it is the span of that value. -/
theorem exists_ofSymbols (text : PaddedText) :
    ∃ span : Span, Span.ofSymbols (ofChars text.core) = .ok span ∧ span.value.Grammatical ∧
      span.chars = text.core := by
  obtain ⟨value, hvalue, hsymbols⟩ := text.core_json
  have hcore := Span.ofSymbols_eq_ok Blank.nil hvalue Blank.nil hsymbols
  rw [List.nil_append, List.append_nil] at hcore
  exact ⟨_, hcore, hvalue, rfl⟩

theorem isSome_ofSymbols (text : PaddedText) :
    (Span.ofSymbols (ofChars text.core)).toOption.isSome = true := by
  obtain ⟨span, hspan, -, -⟩ := text.exists_ofSymbols
  rw [hspan]
  rfl

/-- The span of a JSON text, without the white space around it. -/
def span (text : PaddedText) : Span :=
  (Span.ofSymbols (ofChars text.core)).toOption.get text.isSome_ofSymbols

/-- A JSON text alone is its span. -/
theorem ofSymbols_core (text : PaddedText) :
    Span.ofSymbols (ofChars text.core) = .ok text.span := by
  obtain ⟨found, hfound, -, -⟩ := text.exists_ofSymbols
  simp only [span, hfound, Except.toOption, Option.get_some]

theorem span_grammatical (text : PaddedText) : text.span.value.Grammatical := by
  obtain ⟨found, hfound, hvalue, -⟩ := text.exists_ofSymbols
  rwa [Except.ok.inj (hfound.symm.trans text.ofSymbols_core)] at hvalue

/-- The span of a JSON text is the text verbatim. -/
theorem span_chars (text : PaddedText) : text.span.chars = text.core := by
  obtain ⟨found, hfound, -, hchars⟩ := text.exists_ofSymbols
  rwa [Except.ok.inj (hfound.symm.trans text.ofSymbols_core)] at hchars

theorem span_symbols (text : PaddedText) : text.span.value.symbols = ofChars text.core := by
  rw [text.span.symbols_eq, span_chars]

/-- A text whose value is known has that value as its span. -/
theorem span_value {text : PaddedText} {value : Raw} (h : value.Grammatical)
    (hsymbols : value.symbols = ofChars text.core) : text.span.value = value := by
  have hspan := Span.ofSymbols_eq_ok Blank.nil h Blank.nil hsymbols
  rw [List.nil_append, List.append_nil, text.ofSymbols_core] at hspan
  rw [Except.ok.inj hspan]

/-- Decoding the span of a text is decoding the text alone. -/
theorem decode_span {α : Type} (text : PaddedText) (decoder : Decoder α) :
    text.span.decode decoder = decodeBody decoder (ofChars text.core) := by
  have hbody := decodeBody_eq decoder Blank.nil text.span_grammatical Blank.nil
  rw [ofChars_nil, List.nil_append, List.append_nil, text.span_symbols] at hbody
  rw [hbody, Span.decode]

end PaddedText

/-! ## Arrays -/

/-- The items behind an item are scanned one by one, the white space before each comma included. -/
theorem exists_items {pending : List Char} (hpending : Blank pending) (texts : List PaddedText) :
    ∃ items, Raw.GrammaticalItems false items ∧
      Raw.itemsBefore items [] =
        ofChars (pending ++ texts.flatMap fun text => ',' :: text.text) ++ [.char ']'] ∧
      Decode.each Span.ofRaw items = .ok (texts.map PaddedText.span) := by
  induction texts generalizing pending with
  | nil => exact ⟨.closed pending, hpending, by simp [Raw.itemsBefore], rfl⟩
  | cons text rest ih =>
      obtain ⟨items, hitems, hbefore, heach⟩ := ih text.trail_blank
      refine ⟨.item (pending ++ ',' :: text.lead) text.span.value items,
        ⟨⟨pending, text.lead, hpending, text.lead_blank, rfl⟩, text.span_grammatical, hitems⟩,
        ?_, ?_⟩
      · simp [Raw.itemsBefore_item, text.span_symbols, hbefore, PaddedText.text]
      · simp [Decode.each, Span.ofRaw_value, heach]

/-- Texts separated by commas are the first one and then each with a comma in front. -/
theorem intercalate_cons (first : List Char) (rest : List (List Char)) :
    [','].intercalate (first :: rest) = first ++ rest.flatMap (',' :: ·) := by
  induction rest generalizing first with
  | nil => simp
  | cons second rest ih => simp [List.intercalate_cons_cons, ih]

/-- An array of JSON texts is scanned into one span for each text, whatever white space stands
behind its bracket. -/
theorem exists_spacedArray {inner : List Char} (hinner : Blank inner) (texts : List PaddedText) :
    ∃ items, Raw.GrammaticalItems true items ∧
      Raw.itemsBefore items [] =
        ofChars (inner ++ [','].intercalate (texts.map PaddedText.text)) ++ [.char ']'] ∧
      Decode.each Span.ofRaw items = .ok (texts.map PaddedText.span) := by
  cases texts with
  | nil => exact ⟨.closed inner, hinner, by simp [Raw.itemsBefore], rfl⟩
  | cons text rest =>
      obtain ⟨items, hitems, hbefore, heach⟩ := exists_items text.trail_blank rest
      refine ⟨.item (inner ++ text.lead) text.span.value items,
        ⟨hinner.append text.lead_blank, text.span_grammatical, hitems⟩, ?_, ?_⟩
      · simp [Raw.itemsBefore_item, text.span_symbols, hbefore, PaddedText.text, intercalate_cons,
          List.flatMap_map]
      · simp [Decode.each, Span.ofRaw_value, heach]

/-- An array of JSON texts is scanned into one span for each text. -/
theorem exists_array (texts : List PaddedText) :
    ∃ items, Raw.GrammaticalItems true items ∧
      Raw.itemsBefore items [] =
        ofChars ([','].intercalate (texts.map PaddedText.text)) ++ [.char ']'] ∧
      Decode.each Span.ofRaw items = .ok (texts.map PaddedText.span) :=
  exists_spacedArray Blank.nil texts

end SearchWire
