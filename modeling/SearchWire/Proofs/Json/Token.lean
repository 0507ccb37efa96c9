import SearchWire.Proofs.Json.Grammar
import SearchWire.Proofs.Json.Outcome
import SearchWire.Json.Decode

/-!
# Scanning strings, numbers and literals

Each lemma here puts a written part of a value in front of a text and says that
the scan splits the two at their seam. A number alone has no end of its own, so
the text behind it must not go on with a number; `Stops` says this of a text and
a class of characters.
-/

namespace SearchWire

/-- A text does not begin with a character of a class. -/
def Stops (keep : Char → Bool) (text : List Symbol) : Prop :=
  ∀ c rest, text = .char c :: rest → keep c = false

namespace Stops

variable {keep wide : Char → Bool}

theorem nil (keep : Char → Bool) : Stops keep [] := by
  intro c rest h
  cases h

theorem cons {c : Char} (h : keep c = false) (text : List Symbol) :
    Stops keep (.char c :: text) := by
  intro d rest hsame
  cases hsame
  exact h

/-- A text that does not begin with a wide class does not begin with a narrower one. -/
theorem mono {text : List Symbol} (h : Stops wide text)
    (hsub : ∀ c, keep c = true → wide c = true) : Stops keep text := by
  intro c rest hsame
  have hwide := h c rest hsame
  cases hkeep : keep c with
  | false => rfl
  | true => exact absurd (hsub c hkeep) (by simp [hwide])

end Stops

/-- A character that goes on with a number. -/
def continuesNumber (c : Char) : Bool :=
  c.isDigit || c = '.' || c = 'e' || c = 'E'

/-- The written form of a number without its sign. -/
def Numeral.unsigned (numeral : Numeral) : List Char :=
  numeral.whole ++ numeral.fraction.elim [] ('.' :: ·) ++ numeral.exponent.elim [] exponentText

namespace Numeral

/-- The sign of a number stands in front of the rest. -/
theorem text_eq_unsigned (numeral : Numeral) :
    numeral.text = (if numeral.negative then ['-'] else []) ++ numeral.unsigned := by
  obtain ⟨negative, whole, fraction, exponent⟩ := numeral
  cases fraction <;> cases exponent <;> simp [text, unsigned]

/-- After its sign a number begins with a digit. -/
theorem Grammatical.exists_unsigned_eq_cons {numeral : Numeral} (h : numeral.Grammatical) :
    ∃ first others, numeral.unsigned = first :: others ∧ first.isDigit = true := by
  obtain ⟨first, others, hwhole⟩ := List.exists_cons_of_ne_nil h.whole.1
  refine ⟨first, _, by rw [unsigned, hwhole, List.cons_append, List.cons_append], ?_⟩
  exact h.whole.2 first (by simp [hwhole])

end Numeral

namespace Symbol

@[simp] theorem ofChars_nil : ofChars [] = [] := rfl

@[simp] theorem ofChars_cons (c : Char) (chars : List Char) :
    ofChars (c :: chars) = .char c :: ofChars chars := rfl

@[simp] theorem ofChars_append (first second : List Char) :
    ofChars (first ++ second) = ofChars first ++ ofChars second :=
  List.map_append

end Symbol

open SearchWire.Symbol

namespace Scan

/-- A run of a class is split off in front of a text that does not go on with it. -/
theorem span_ofChars_append {keep : Char → Bool} {chars : List Char} {text : List Symbol}
    (hchars : ∀ c ∈ chars, keep c = true) (hstop : Stops keep text) :
    span keep (ofChars chars ++ text) = (chars, text) := by
  induction chars with
  | nil =>
      cases text with
      | nil => rfl
      | cons symbol rest =>
          cases symbol with
          | stray byte => rfl
          | char c => simp [span, hstop c rest rfl]
  | cons c rest ih =>
      have hrest := ih fun d hd => hchars d (List.mem_cons_of_mem _ hd)
      simp [span, hchars c List.mem_cons_self, hrest]

/-- White space is split off in front of a text that does not begin with any. -/
theorem blanks_append {blank : List Char} {text : List Symbol} (hblank : Blank blank)
    (hstop : Stops isBlank text) : blanks (ofChars blank ++ text) = (blank, text) :=
  span_ofChars_append hblank hstop

/-! ## Strings -/

/-- A character without a role in strings is taken over. -/
theorem quoted_plain {c : Char} (hcontrol : 0x20 ≤ c.toNat) (hquote : c ≠ '"')
    (hbackslash : c ≠ '\\') (text : List Symbol) :
    quoted (.char c :: text) = prepend (.plain (.char c)) (quoted text) := by
  -- the other goals exclude the equations of `quoted` for quotes and backslashes
  rw [quoted]
  · rw [if_neg (by omega)]
  · exact hquote
  · intros
    contradiction
  · intros
    contradiction
  · intros
    contradiction
  · intros
    contradiction

/-- A unit of a string is taken over and the scan goes on behind it. -/
theorem quoted_piece {piece : Piece} (h : piece.Grammatical) (text : List Symbol) :
    quoted (piece.symbols ++ text) = prepend piece (quoted text) := by
  cases piece with
  | plain symbol =>
      cases symbol with
      | stray byte => simp [Piece.symbols, quoted]
      | char c =>
          obtain ⟨hcontrol, hquote, hbackslash⟩ := h
          exact quoted_plain hcontrol hquote hbackslash text
  | escape letter =>
      simp only [Piece.Grammatical, isEscape, Bool.or_eq_true, decide_eq_true_eq] at h
      rcases h with ((((((rfl | rfl) | rfl) | rfl) | rfl) | rfl) | rfl) | rfl <;>
        simp [Piece.symbols, quoted, isEscape]
  | unicode a b c d =>
      obtain ⟨ha, hb, hc, hd⟩ := h
      simp [Piece.symbols, quoted, ha, hb, hc, hd]

/-- A closed string is scanned up to its closing quote. -/
theorem quoted_pieces {pieces : List Piece} (h : ∀ piece ∈ pieces, piece.Grammatical)
    (text : List Symbol) :
    quoted (pieces.flatMap Piece.symbols ++ .char '"' :: text) = (⟨pieces, none⟩, text) := by
  induction pieces with
  | nil => simp [quoted]
  | cons piece rest ih =>
      have hrest := ih fun other hother => h other (List.mem_cons_of_mem _ hother)
      rw [List.flatMap_cons, List.append_assoc, quoted_piece (h piece List.mem_cons_self), hrest]
      rfl

/-- A grammatical string is scanned as it is written. -/
theorem quoted_symbols {written : Quoted} (h : written.Grammatical) (text : List Symbol) :
    ∃ inner, written.symbols ++ text = .char '"' :: inner ∧ quoted inner = (written, text) := by
  obtain ⟨pieces, tear⟩ := written
  obtain ⟨rfl, hpieces⟩ := h
  exact ⟨_, by simp [Quoted.symbols], quoted_pieces hpieces text⟩

/-! ## Numbers -/

theorem digits_append {written : List Char} {text : List Symbol} (hwritten : Digits written)
    (hstop : Stops Char.isDigit text) : digits (ofChars written ++ text) = (written, text) :=
  span_ofChars_append hwritten.2 hstop

/-- The digits before the point are scanned as they are written. -/
theorem whole_append {written : List Char} {text : List Symbol} (hwritten : Digits written)
    (hzero : written.head? = some '0' → written = ['0']) (hstop : Stops Char.isDigit text) :
    whole (ofChars written ++ text) = .ok (written, text) := by
  rw [whole, digits_append hwritten hstop]
  obtain ⟨hne, -⟩ := hwritten
  split
  · simp_all
  · simp_all
  · simp_all

theorem fraction_some {written : List Char} {text : List Symbol} (hwritten : Digits written)
    (hstop : Stops Char.isDigit text) :
    fraction (.char '.' :: (ofChars written ++ text)) = .ok (some written, text) := by
  rw [fraction, digits_append hwritten hstop]
  obtain ⟨hne, -⟩ := hwritten
  split
  · simp_all
  · simp_all

theorem fraction_none {text : List Symbol} (hstop : Stops (· = '.') text) :
    fraction text = .ok (none, text) := by
  rw [fraction]
  rintro rest rfl
  simpa using hstop '.' rest rfl

/-- A sign is split off in front of digits. -/
theorem exponent_some {power : Exponent} {text : List Symbol} (hpower : power.Grammatical)
    (hstop : Stops Char.isDigit text) :
    exponent (ofChars (Numeral.exponentText power) ++ text) = .ok (some power, text) := by
  obtain ⟨letter, sign, written⟩ := power
  obtain ⟨hletter, hsign, hwritten⟩ := hpower
  have hdigits := digits_append hwritten hstop
  obtain ⟨first, others, rfl⟩ := List.exists_cons_of_ne_nil hwritten.1
  have hfirst : first.isDigit = true := hwritten.2 first List.mem_cons_self
  rw [ofChars_cons, List.cons_append] at hdigits
  cases sign with
  | none =>
      have hplus : first ≠ '+' := by rintro rfl; simp at hfirst
      have hminus : first ≠ '-' := by rintro rfl; simp at hfirst
      rcases hletter with rfl | rfl <;>
        simp [Numeral.exponentText, exponent, hdigits, hplus, hminus]
  | some sign =>
      rcases hsign sign rfl with rfl | rfl <;> rcases hletter with rfl | rfl <;>
        simp [Numeral.exponentText, exponent, hdigits]

theorem exponent_none {text : List Symbol} (hstop : Stops (fun c => c = 'e' || c = 'E') text) :
    exponent text = .ok (none, text) := by
  cases text with
  | nil => rfl
  | cons symbol rest =>
      cases symbol with
      | stray byte => rfl
      | char c =>
          have hletter := hstop c rest rfl
          simp only [Bool.or_eq_false_iff, decide_eq_false_iff_not] at hletter
          simp [exponent, hletter.1, hletter.2]

/-- What follows the digits before the point does not go on with digits. -/
theorem stops_power {power : Option Exponent} {text : List Symbol}
    (hpower : ∀ found ∈ power, found.Grammatical) (hstop : Stops continuesNumber text) :
    Stops (fun c => c.isDigit || c = '.')
      (ofChars (power.elim [] Numeral.exponentText) ++ text) := by
  cases power with
  | none =>
      refine hstop.mono fun c hc => ?_
      simp only [continuesNumber, hc, Bool.true_or]
  | some found =>
      rcases (hpower found rfl).1 with hletter | hletter <;>
        exact Stops.cons (by rw [hletter]; decide) _

/-- A number is scanned as it is written, after its sign. -/
theorem numeral_append {written : Numeral} {text : List Symbol} (h : written.Grammatical)
    (hstop : Stops continuesNumber text) :
    numeral written.negative (ofChars written.unsigned ++ text) = .ok (written, text) := by
  obtain ⟨negative, wholeDigits, fractionDigits, power⟩ := written
  obtain ⟨hwhole, hzero, hfraction, hpower⟩ := h
  -- What stands behind a part must end it, so the parts are settled from the back: the exponent,
  -- then the fraction, then the digits before the point.
  have hafter := stops_power hpower hstop
  have hexponent : exponent (ofChars (power.elim [] Numeral.exponentText) ++ text) =
      .ok (power, text) := by
    cases power with
    | none =>
        refine exponent_none (hstop.mono fun c hc => ?_)
        simp only [continuesNumber, Bool.or_assoc, hc, Bool.or_true]
    | some found =>
        refine exponent_some (hpower found rfl) (hstop.mono fun c hc => ?_)
        simp only [continuesNumber, hc, Bool.true_or]
  have hdigit : Stops Char.isDigit (ofChars (power.elim [] Numeral.exponentText) ++ text) :=
    hafter.mono fun c hc => by simp only [hc, Bool.true_or]
  cases fractionDigits with
  | none =>
      have hpoint : Stops (· = '.') (ofChars (power.elim [] Numeral.exponentText) ++ text) :=
        hafter.mono fun c hc => by simp only [hc, Bool.or_true]
      simp [numeral, Numeral.unsigned, whole_append hwhole hzero hdigit, fraction_none hpoint,
        hexponent]
  | some written =>
      have hwritten := hfraction written rfl
      have hpoint : Stops Char.isDigit (.char '.' :: (ofChars written ++
          (ofChars (power.elim [] Numeral.exponentText) ++ text))) := Stops.cons (by decide) _
      simp [numeral, Numeral.unsigned, whole_append hwhole hzero hpoint,
        fraction_some hwritten hdigit, hexponent]

/-- A number is scanned as it is written. -/
theorem number_append {written : Numeral} {text : List Symbol} (h : written.Grammatical)
    (hstop : Stops continuesNumber text) :
    number (ofChars written.text ++ text) = (.number written, text) := by
  have hscan := numeral_append h hstop
  rw [Numeral.text_eq_unsigned]
  cases hsign : written.negative with
  | true =>
      rw [hsign] at hscan
      simp [number, hscan]
  | false =>
      obtain ⟨first, others, hfirst, hdigit⟩ := h.exists_unsigned_eq_cons
      have hminus : first ≠ '-' := by rintro rfl; simp at hdigit
      rw [hsign, hfirst, ofChars_cons, List.cons_append] at hscan
      simp [number, hfirst, hminus, hscan]

/-! ## Literals -/

theorem afterWord_append (word : List Char) (text : List Symbol) :
    afterWord word (ofChars word ++ text) = .ok text := by
  induction word with
  | nil => cases text <;> rfl
  | cons c rest ih => simp [afterWord, ih]

theorem literal_append (word : List Char) (value : Raw) (text : List Symbol) :
    literal word value (ofChars word ++ text) = (value, text) := by
  rw [literal, afterWord_append]

end Scan

end SearchWire
