import SearchWire.Bulk.Response
import SearchWire.Proofs.Bulk.Outcomes
import SearchWire.Proofs.Json.ReadBack
import SearchWire.Proofs.Json.Spans
import SearchWire.Proofs.Text.Utf8

/-!
# Bulk items are decoded in isolation

The body of a bulk response with any JSON texts as its items decodes, and each
item is what its text gives alone: `BulkResponse.ofBytes_bodyText` is this
statement. The scan of the array finds the end of each text exactly, so an item
that does not decode cannot reach into its neighbours.
-/

namespace SearchWire

open SearchWire.Symbol

/-- Decodes the text of one item alone. -/
def BulkItem.ofText (text : List Char) : Except ItemFault ActionResponse :=
  match Span.ofSymbols (ofChars text) with
  | .ok span => ofSpan span
  | .error fault => .error (.unreadable fault)

/-- Decoding the text of an item alone is decoding its span. -/
theorem BulkItem.ofText_core (text : PaddedText) : ofText text.core = ofSpan text.span := by
  rw [ofText, text.ofSymbols_core]

namespace BulkResponse

/-- The body of a response with the given item texts. -/
def bodyText (took : Nat) (errors : Bool) (texts : List PaddedText) : String :=
  "\x7b\"took\":" ++ String.ofList (Decimal.digitsOf took) ++ ",\"errors\":" ++
    (if errors then "true" else "false") ++ ",\"items\":[" ++
    String.ofList ([','].intercalate (texts.map PaddedText.text)) ++ "]\x7d"

/-- The written form of a body. -/
def bodyValue (took : Nat) (errors : Bool) (items : Items) : Raw :=
  .object (.member [] (Json.quoted "took".toList) [':'] (.number (Number.int took).numeral)
    (.member [','] (Json.quoted "errors".toList) [':'] (.bool errors)
      (.member [','] (Json.quoted "items".toList) [':'] (.array items) (.closed []))))

theorem bodyValue_grammatical (took : Nat) (errors : Bool) {items : Items}
    (h : Raw.GrammaticalItems true items) : (bodyValue took errors items).Grammatical := by
  have hcolon : Middle [':'] := ⟨[], [], Blank.nil, Blank.nil, rfl⟩
  have hcomma : Lead false [','] := ⟨[], [], Blank.nil, Blank.nil, rfl⟩
  exact ⟨Blank.nil, Json.quoted_grammatical _, hcolon, (Number.int took).numeral_grammatical,
    hcomma, Json.quoted_grammatical _, hcolon, trivial,
    hcomma, Json.quoted_grammatical _, hcolon, h, Blank.nil⟩

theorem bodyValue_symbols {took : Nat} {errors : Bool} {texts : List PaddedText} {items : Items}
    (h : Raw.itemsBefore items [] =
      ofChars ([','].intercalate (texts.map PaddedText.text)) ++ [.char ']']) :
    (bodyValue took errors items).symbols = ofString (bodyText took errors texts) := by
  have htook : (Number.int took).text = Decimal.digitsOf took := by
    have hsign : ¬ (took : Int) < 0 := by omega
    simp [Number.text, intText, hsign]
  have hnumber : (Raw.number (Number.int took).numeral).symbols =
      ofChars (Decimal.digitsOf took) := by
    simp [Raw.symbols, Raw.before, Number.numeral_text, htook]
  have hbool : (Raw.bool errors).symbols =
      ofChars (if errors then "true" else "false").toList := by
    cases errors <;> rfl
  simp only [bodyValue, Raw.symbols_object, Raw.symbols_array, Raw.membersBefore_member,
    Json.quoted_symbols, hnumber, hbool, h, bodyText, ofString, String.toList_append,
    String.toList_ofList]
  simp [Json.quote, Json.escape, Raw.membersBefore]

/-- The envelope of a body holds its number, its flag and the spans of its items. -/
theorem envelope_bodyValue {took : Nat} (htook : took < 2 ^ 64) (errors : Bool) {items : Items}
    {spans : List Span} (hspans : Decode.each Span.ofRaw items = .ok spans) :
    envelope nestingLimit (bodyValue took errors items) =
      .ok ⟨some took, some errors, some spans⟩ := by
  have hnumber := Decode.nat64_written htook 126
  have hlist : Decode.list Decode.span 126 (.array items) = .ok spans := hspans
  rw [envelope, nestingLimit, bodyValue, Decode.record, ofMembers]
  simp only [Decode.walk, Json.read_quoted, Outcome.ok_bind, step, String.reduceEq, if_true,
    if_false, hnumber, hlist, Decode.once, Decode.bool, Outcome.ok_map, Outcome.pure_eq_ok]

/-- The response whose items are what their texts give one by one. -/
def oneByOne (took : Nat) (errors : Bool) (texts : List PaddedText) : BulkResponse :=
  ⟨took, errors, texts.map fun text => BulkItem.ofText text.core⟩

/-- A body with any JSON texts as its items decodes, and each item is what its text gives alone. -/
theorem ofBytes_bodyText {took : Nat} (htook : took < 2 ^ 64) (errors : Bool)
    (texts : List PaddedText) :
    ofBytes (bodyText took errors texts).toUTF8 = .ok (oneByOne took errors texts) := by
  obtain ⟨items, hitems, hbefore, heach⟩ := exists_array texts
  have hbody : decodeBody envelope (ofString (bodyText took errors texts)) =
      .ok ⟨some took, some errors, some (texts.map PaddedText.span)⟩ := by
    have hdecode := decodeBody_eq envelope Blank.nil (bodyValue_grammatical took errors hitems)
      Blank.nil
    rw [ofChars_nil, List.nil_append, List.append_nil, bodyValue_symbols hbefore] at hdecode
    rw [hdecode, envelope_bodyValue htook errors heach]
  rw [ofBytes, ofBytes_toUTF8, hbody]
  simp [Envelope.open, oneByOne, BulkItem.ofText_core]

/-- Bulk items are decoded in isolation: each item is what its text gives alone, its text being
taken over without the white space around it; so another text in one place changes the item there
and no other, and never makes the body fail. The positions split into successes, failures and
items that did not decode. -/
theorem isolation {took : Nat} (htook : took < 2 ^ 64) (errors : Bool) (texts : List PaddedText) :
    ofBytes (bodyText took errors texts).toUTF8 = .ok (oneByOne took errors texts) ∧
      (∀ text ∈ texts, ∃ span, Span.ofSymbols (ofChars text.core) = .ok span ∧
        span.chars = text.core) ∧
      (∀ (position : Nat) (other : PaddedText),
        ofBytes (bodyText took errors (texts.set position other)).toUTF8 =
          .ok { oneByOne took errors texts with
            items := (oneByOne took errors texts).items.set position
              (BulkItem.ofText other.core) }) ∧
      ∃ succeeded failed, (oneByOne took errors texts).Split succeeded failed := by
  refine ⟨ofBytes_bodyText htook errors texts, fun text _ => ?_, fun position other => ?_,
    _, _, split (oneByOne took errors texts)⟩
  · exact ⟨text.span, text.ofSymbols_core, text.span_chars⟩
  · rw [ofBytes_bodyText htook, oneByOne, oneByOne, List.map_set]

/-- Two item texts, one of them an outcome with white space around it. -/
def twoTexts : List PaddedText :=
  [⟨[' '], Json.text (.object [("create", .object [("status", .int 201)])]), ['\n'],
      by decide, Json.isJson_text _, by decide⟩,
    ⟨[], Json.text .null, [], by decide, Json.isJson_text _, by decide⟩]

theorem isolation_twoTexts :
    ofBytes (bodyText 7 true twoTexts).toUTF8 = .ok (oneByOne 7 true twoTexts) ∧
      (∀ text ∈ twoTexts, ∃ span, Span.ofSymbols (ofChars text.core) = .ok span ∧
        span.chars = text.core) ∧
      (∀ (position : Nat) (other : PaddedText),
        ofBytes (bodyText 7 true (twoTexts.set position other)).toUTF8 =
          .ok { oneByOne 7 true twoTexts with
            items := (oneByOne 7 true twoTexts).items.set position
              (BulkItem.ofText other.core) }) ∧
      ∃ succeeded failed, (oneByOne 7 true twoTexts).Split succeeded failed :=
  isolation (by decide) true twoTexts

end BulkResponse

end SearchWire
