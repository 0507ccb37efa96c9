import SearchWire.Json.Decode

/-!
# Spans kept as they stand

A span is a written value without damage that is valid UTF-8. It is taken over
verbatim and decoded later, with the full depth of nesting at its own disposal;
until then numbers, escapes and depth are not looked at. `Span.text` is the text
of a span, from which white space around the value has been left out.
-/

namespace SearchWire

namespace Symbol

/-- A text without strays is the text of its characters. -/
theorem eq_ofChars_of_characters? {text : List Symbol} {chars : List Char}
    (h : characters? text = some chars) : text = ofChars chars := by
  induction text generalizing chars with
  | nil =>
      simp only [characters?, Option.some.injEq] at h
      subst h
      rfl
  | cons symbol rest ih =>
      cases symbol with
      | stray byte => simp [characters?] at h
      | char c =>
          simp only [characters?, Option.map_eq_some_iff] at h
          obtain ⟨tail, htail, rfl⟩ := h
          simp only [ofChars, List.map_cons]
          exact congrArg _ (ih htail)

end Symbol

/-- A written value that is kept verbatim. -/
structure Span where
  value : Raw
  chars : List Char
  intact : value.damage? = none
  symbols_eq : value.symbols = Symbol.ofChars chars

namespace Span

/-- Takes over a written value. -/
def ofRaw (value : Raw) : Except Fault Span :=
  match intact : value.damage? with
  | some damage => .error (.damage damage)
  | none =>
      match valid : Symbol.characters? value.symbols with
      | some chars => .ok ⟨value, chars, intact, Symbol.eq_ofChars_of_characters? valid⟩
      | none => .error (.damage .badEncoding)

/-- The text of a span. -/
def text (span : Span) : String :=
  String.ofList span.chars

/-- Decodes a span on its own. -/
def decode {α : Type} (span : Span) (decoder : Decoder α) : Except Fault α :=
  decoder nestingLimit span.value

/-- Reads a text as one span. -/
def ofSymbols (text : List Symbol) : Except Fault Span :=
  decodeBody (fun _ value => ofRaw value) text

end Span

/-- Takes over a value as a span. -/
def Decode.span : Decoder Span :=
  fun _ value => Span.ofRaw value

end SearchWire
