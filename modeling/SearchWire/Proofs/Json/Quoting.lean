import SearchWire.Proofs.Json.Grammar
import SearchWire.Proofs.Json.Outcome
import SearchWire.Json.Decode

/-!
# Written strings read back

`Json.quoted` is the written form of a string in units. `quoted_symbols` says
that it spells what `Json.quote` writes, and `read_quoted` that it stands for
the string it was written from, whatever characters that string has. No control
character is left in the text of a string, so none of its line breaks is.
-/

namespace SearchWire

/-- A text without control characters. -/
def Printable (text : List Char) : Prop :=
  ∀ c ∈ text, 0x20 ≤ c.toNat

instance (text : List Char) : Decidable (Printable text) :=
  List.decidableBAll (fun c : Char => 0x20 ≤ c.toNat) text

theorem printable_append {first second : List Char} :
    Printable (first ++ second) ↔ Printable first ∧ Printable second :=
  List.forall_mem_append

theorem printable_cons {c : Char} {rest : List Char} :
    Printable (c :: rest) ↔ 0x20 ≤ c.toNat ∧ Printable rest :=
  List.forall_mem_cons

theorem Printable.newline_notMem {text : List Char} (h : Printable text) : '\n' ∉ text :=
  fun hbreak => absurd (h '\n' hbreak) (by decide)

namespace Json

open Quoted

/-- The unit that a character of a string is written as. -/
def piece (c : Char) : Piece :=
  if c = '"' ∨ c = '\\' then .escape c
  else if c.toNat < 0x20 then
    if c.toNat = 0x08 then .escape 'b'
    else if c = '\t' then .escape 't'
    else if c = '\n' then .escape 'n'
    else if c.toNat = 0x0c then .escape 'f'
    else if c = '\r' then .escape 'r'
    else .unicode '0' '0' (hexDigit (c.toNat / 16)) (hexDigit (c.toNat % 16))
  else .plain (.char c)

/-- The written form of a string in units. -/
def quoted (chars : List Char) : Quoted :=
  ⟨chars.map piece, none⟩

/-! ## Digits of an escape -/

theorem isHex_hexDigit {value : Nat} (h : value < 16) : Scan.isHex (hexDigit value) = true := by
  revert value
  decide

theorem hexValue_hexDigit {value : Nat} (h : value < 16) : hexValue (hexDigit value) = value := by
  revert value
  decide

/-- Two digits after two zeros name a code unit below 256. -/
theorem unitValue_hexDigit {value : Nat} (h : value < 256) :
    unitValue '0' '0' (hexDigit (value / 16)) (hexDigit (value % 16)) = value := by
  have hzero : hexValue '0' = 0 := by decide
  rw [unitValue, hzero, hexValue_hexDigit (by omega), hexValue_hexDigit (by omega)]
  omega

/-! ## One character -/

theorem piece_symbols (c : Char) : (piece c).symbols = Symbol.ofChars (escape c) := by
  unfold piece escape
  by_cases hquote : c = '"'
  · subst hquote
    rfl
  · by_cases hbackslash : c = '\\'
    · subst hbackslash
      rfl
    · simp only [hquote, hbackslash, or_self, if_false]
      repeat' split
      all_goals rfl

theorem piece_grammatical (c : Char) : (piece c).Grammatical := by
  unfold piece
  split
  · next h => rcases h with rfl | rfl <;> simp [Piece.Grammatical, Scan.isEscape]
  · next hmarks =>
      rw [not_or] at hmarks
      split
      · next hcontrol =>
          repeat' split
          any_goals simp [Piece.Grammatical, Scan.isEscape]
          exact ⟨by decide, isHex_hexDigit (by omega), isHex_hexDigit (by omega)⟩
      · next hcontrol => exact ⟨by omega, hmarks.1, hmarks.2⟩

/-- A code unit that needs no other one stands for its character. -/
theorem unescape_unicode (tear : Option (Damage × List Symbol)) {a b c d : Char}
    (htrailing : isTrailing (unitValue a b c d) = false)
    (hleading : isLeading (unitValue a b c d) = false) (rest : List Piece) :
    unescape tear (.unicode a b c d :: rest) =
      (.char (Char.ofNat (unitValue a b c d)) :: ·) <$> unescape tear rest := by
  rw [unescape.eq_def]
  simp only [htrailing, hleading, Bool.false_eq_true, if_false]

/-- A written character stands for itself. -/
theorem unescape_piece (tear : Option (Damage × List Symbol)) (c : Char) (rest : List Piece) :
    unescape tear (piece c :: rest) = (.char c :: ·) <$> unescape tear rest := by
  have hchar {n : Nat} (h : c.toNat = n) : c = Char.ofNat n := by
    rw [← h, Char.ofNat_toNat]
  unfold piece
  split
  · next h => rcases h with rfl | rfl <;> rfl
  · split
    · next hcontrol =>
        split
        · next h => rw [hchar h]; rfl
        split
        · next h => rw [h]; rfl
        split
        · next h => rw [h]; rfl
        split
        · next h => rw [hchar h]; rfl
        split
        · next h => rw [h]; rfl
        -- the control characters without a letter of their own are written as a code unit
        have hunit := unitValue_hexDigit (show c.toNat < 256 by omega)
        have htrailing : isTrailing c.toNat = false := by simp [isTrailing]; omega
        have hleading : isLeading c.toNat = false := by simp [isLeading]; omega
        rw [← hunit] at htrailing hleading
        rw [unescape_unicode tear htrailing hleading, hunit, Char.ofNat_toNat]
    · rfl

/-- A written character has no control character in it. -/
theorem printable_escape (c : Char) : Printable (escape c) := by
  by_cases hcontrol : c.toNat < 0x20
  -- the control characters are a finite table
  · have hall : ∀ n < 0x20, Printable (escape (Char.ofNat n)) := by decide
    rw [← Char.ofNat_toNat c]
    exact hall c.toNat hcontrol
  · unfold escape
    split
    · decide
    · split
      · decide
      · rw [printable_cons]
        exact ⟨by omega, by decide⟩

/-! ## Whole strings -/

theorem quoted_symbols (chars : List Char) :
    (quoted chars).symbols = Symbol.ofChars (quote chars) := by
  have hpieces : (chars.map piece).flatMap Piece.symbols =
      Symbol.ofChars (chars.flatMap escape) := by
    induction chars with
    | nil => rfl
    | cons c rest ih =>
        rw [List.map_cons, List.flatMap_cons, List.flatMap_cons, piece_symbols, ih, Symbol.ofChars,
          Symbol.ofChars, Symbol.ofChars, List.map_append]
  simp [Quoted.symbols, quoted, quote, hpieces, Symbol.ofChars]

theorem quoted_grammatical (chars : List Char) : (quoted chars).Grammatical := by
  refine ⟨rfl, fun unit hunit => ?_⟩
  obtain ⟨c, -, rfl⟩ := List.mem_map.1 hunit
  exact piece_grammatical c

/-- A written string stands for the characters it was written from. -/
theorem characters_quoted (chars : List Char) : (quoted chars).characters = .ok chars := by
  have hunescape : unescape none (chars.map piece) = .ok (Symbol.ofChars chars) := by
    induction chars with
    | nil => rfl
    | cons c rest ih => rw [List.map_cons, unescape_piece, ih]; rfl
  simp [characters, quoted, hunescape]

/-- A written string reads back. -/
theorem read_quoted (text : String) : (quoted text.toList).read = .ok text := by
  rw [Quoted.read, characters_quoted, Outcome.ok_map, String.ofList_toList]

/-- A written string has no control character in it. -/
theorem printable_quote (chars : List Char) : Printable (quote chars) := by
  rw [quote, List.cons_append, printable_cons, printable_append]
  refine ⟨by decide, fun d hd => ?_, by decide⟩
  obtain ⟨c, -, hc⟩ := List.mem_flatMap.1 hd
  exact printable_escape c d hc

end Json

end SearchWire
