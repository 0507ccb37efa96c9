import SearchWire.Toml.Strings
import SearchWire.Toml.Text

/-!
# Written settings strings read back

Whatever form `StringForm.ofChars` takes for a string, the reader of that form
finds the string again and stops right after it. The two forms with escapes read
one written character alike, which `Unescapes` says once. The two forms of several
lines treat quotes alike, which `MarkReader` says once: up to two quotes in a row
belong to the string, and those before the closing three are found again there.
-/

namespace SearchWire

namespace Toml

/-! ## Characters -/

/-- A reader takes a character that stands for itself exactly when it need not be escaped; line
breaks have rules of their own. -/
theorem isPlain_iff {c : Char} (hbreak : c ≠ '\n') : isPlain c = true ↔ needsEscape c = false := by
  by_cases htab : c = '\t'
  · subst htab
    decide
  · simp only [isPlain, needsEscape, htab, decide_false, Bool.false_or, Bool.and_eq_true,
      Bool.or_eq_false_iff, Bool.and_eq_false_iff, decide_eq_true_eq, decide_eq_false_iff_not,
      decide_not]
    grind

theorem charOfHex?_upperHexDigit {point : Nat} (h : point < 0x80) :
    charOfHex? ['0', '0', upperHexDigit (point / 16), upperHexDigit (point % 16)] =
      some (Char.ofNat point) := by
  revert point
  decide

theorem toNat_lt_of_needsEscape {c : Char} (h : needsEscape c = true) : c.toNat < 0x80 := by
  simp only [needsEscape, Bool.or_eq_true, Bool.and_eq_true, decide_eq_true_eq] at h
  omega

theorem eq_of_toNat_eq {c : Char} {point : Nat} (h : c.toNat = point) : c = Char.ofNat point := by
  rw [← h, Char.ofNat_toNat]

/-- What the two readers of strings with escapes have in common: how they take one character. -/
structure Unescapes (read : Reader (List Char)) : Prop where
  plain {c : Char} (hplain : isPlain c = true) (hquote : c ≠ '"') (hback : c ≠ '\\')
    (rest : List Char) : read (c :: rest) = prepend c (read rest)
  escape {letter c : Char} (h : escape? letter = some c) (rest : List Char) :
    read ('\\' :: letter :: rest) = prepend c (read rest)
  unicode {p q r s c : Char} (h : charOfHex? [p, q, r, s] = some c) (rest : List Char) :
    read ('\\' :: 'u' :: p :: q :: r :: s :: rest) = prepend c (read rest)

theorem ne_u_of_escape? {letter c : Char} (h : escape? letter = some c) :
    letter ≠ 'u' ∧ letter ≠ 'U' := by
  constructor <;> rintro rfl <;> simp [escape?] at h

theorem unescapes_basic : Unescapes basic where
  plain hplain hquote hback rest := by
    rw [basic, if_pos hplain]
    all_goals simp_all
  escape h rest := by
    obtain ⟨hu, hU⟩ := ne_u_of_escape? h
    rw [basic, h]
    all_goals simp_all
  unicode h rest := by
    rw [basic, h]
    rfl

/-- The letter of an escape does not stand at the end of a line. -/
theorem atLineEnd_of_escape? {letter c : Char} (h : escape? letter = some c) (rest : List Char) :
    atLineEnd (letter :: rest) = false := by
  have hblank : isBlank letter = false := by
    rw [Bool.eq_false_iff]
    intro hblank
    simp only [isBlank, Bool.or_eq_true, decide_eq_true_eq] at hblank
    rcases hblank with rfl | rfl <;> simp [escape?] at h
  have hbreak : letter ≠ '\n' ∧ letter ≠ '\r' := by
    constructor <;> rintro rfl <;> simp [escape?] at h
  rw [atLineEnd, skipBlanks, List.dropWhile_cons_of_neg (by simp [hblank]), lineBreak?]
  all_goals simp_all

theorem unescapes_multiBasic : Unescapes (multiBasic false) where
  plain hplain hquote hback rest := by
    have hreturn : ∀ {c : Char}, isPlain c = true → c ≠ '\r' := by
      rintro _ h rfl
      exact absurd h (by decide)
    rw [multiBasic, if_neg (by simp), if_pos (by simp [hplain])]
    all_goals simp_all
  escape h rest := by
    obtain ⟨hu, hU⟩ := ne_u_of_escape? h
    rw [multiBasic, if_neg (by simp [atLineEnd_of_escape? h]), h]
    all_goals simp_all
  unicode h rest := by
    rw [multiBasic, h]
    rfl

namespace Unescapes

variable {read : Reader (List Char)}

/-- The written form of a character stands for it. -/
theorem read_escapeChar (hread : Unescapes read) {c : Char} (hquote : c ≠ '"') (hbreak : c ≠ '\n')
    (rest : List Char) : read (escapeChar c ++ rest) = prepend c (read rest) := by
  unfold escapeChar
  split
  next hbackspace => exact hread.escape (by rw [eq_of_toNat_eq hbackspace]; rfl) rest
  split
  next htab => exact hread.escape (by rw [htab]; rfl) rest
  split
  next hfeed => exact hread.escape (by rw [eq_of_toNat_eq hfeed]; rfl) rest
  split
  next hreturn => exact hread.escape (by rw [hreturn]; rfl) rest
  split
  next hback => exact hread.escape (by rw [hback]; rfl) rest
  split
  next hescape =>
    have hdigits := charOfHex?_upperHexDigit (toNat_lt_of_needsEscape hescape)
    rw [Char.ofNat_toNat] at hdigits
    exact hread.unicode hdigits rest
  next hback hescape =>
    have hplain : isPlain c = true := by simpa [isPlain_iff hbreak] using hescape
    exact hread.plain hplain hquote hback rest

end Unescapes

/-- The written form of a character does not begin with a quote. -/
theorem head?_escapeChar {c : Char} (hquote : c ≠ '"') (rest : List Char) :
    (escapeChar c ++ rest).head? ≠ some '"' := by
  unfold escapeChar
  repeat' split
  all_goals simp [hquote]

/-! ## One quote on each side -/

theorem basic_basicText (chars rest : List Char) :
    basic (basicText chars ++ '"' :: rest) = some (chars, rest) := by
  induction chars with
  | nil => rfl
  | cons c chars ih =>
      -- each character is taken with what it is written as, and the rest is read as before
      have hread : basic ((if c = '\n' then ['\\', 'n'] else if c = '"' then ['\\', '"']
          else escapeChar c) ++ (basicText chars ++ '"' :: rest)) =
            prepend c (basic (basicText chars ++ '"' :: rest)) := by
        split
        next hbreak => exact unescapes_basic.escape (by rw [hbreak]; rfl) _
        split
        next hquote => exact unescapes_basic.escape (by rw [hquote]; rfl) _
        next hbreak hquote => exact unescapes_basic.read_escapeChar hquote hbreak _
      rw [basicText, List.append_assoc, hread, ih]
      rfl

theorem literal_append {chars : List Char}
    (hplain : ∀ c ∈ chars, c ≠ '\'' ∧ isPlain c = true) (rest : List Char) :
    literal (chars ++ '\'' :: rest) = some (chars, rest) := by
  induction chars with
  | nil => rfl
  | cons c chars ih =>
      obtain ⟨⟨hquote, hc⟩, hchars⟩ := List.forall_mem_cons.mp hplain
      rw [List.cons_append, literal, if_pos hc, ih hchars]
      · rfl
      · exact hquote

/-! ## Three quotes on each side -/

/-- Up to two quotes after the closing three are found again. -/
theorem closing_replicate {mark : Char} {run : Nat} (hrun : run ≤ 2) {rest : List Char}
    (hrest : rest.head? ≠ some mark) :
    closing mark (List.replicate run mark ++ rest) = (List.replicate run mark, rest) := by
  obtain rfl | rfl | rfl : run = 0 ∨ run = 1 ∨ run = 2 := by omega
  all_goals
    rcases rest with _ | ⟨first, _ | ⟨second, rest⟩⟩ <;>
      simp_all [closing, List.replicate]

/-- What the two readers of strings of several lines have in common: how they take quotes. -/
structure MarkReader (mark : Char) (read : Reader (List Char)) : Prop where
  close (rest : List Char) : read (mark :: mark :: mark :: rest) = some (closing mark rest)
  single {rest : List Char} (h : ∀ more, rest ≠ mark :: mark :: more) :
    read (mark :: rest) = prepend mark (read rest)

namespace MarkReader

variable {mark : Char} {read : Reader (List Char)} {run : Nat} {chars text rest : List Char}

/-- Quotes right before the closing three belong to the string. -/
theorem read_replicate_close (hread : MarkReader mark read) (hrun : run ≤ 2)
    (hrest : rest.head? ≠ some mark) :
    read (List.replicate run mark ++ mark :: mark :: mark :: rest) =
      some (List.replicate run mark, rest) := by
  have hshift : List.replicate run mark ++ mark :: mark :: mark :: rest =
      mark :: mark :: mark :: (List.replicate run mark ++ rest) := by
    have hthree : mark :: mark :: mark :: rest = List.replicate 3 mark ++ rest := rfl
    rw [hthree, ← List.append_assoc, List.replicate_append_replicate, Nat.add_comm,
      ← List.replicate_append_replicate, List.append_assoc]
    rfl
  rw [hshift, hread.close, closing_replicate hrun hrest]

/-- Quotes before another character belong to the string. -/
theorem read_replicate (hread : MarkReader mark read) (hrun : run ≤ 2)
    (htext : text.head? ≠ some mark) (hfound : read text = some (chars, rest)) :
    read (List.replicate run mark ++ text) = some (List.replicate run mark ++ chars, rest) := by
  have hfree : ∀ {count : Nat}, count < 2 → ∀ more, List.replicate count mark ++ text ≠
      mark :: mark :: more := by
    intro count hcount more
    obtain rfl | rfl : count = 0 ∨ count = 1 := by omega
    all_goals
      rcases text with _ | ⟨first, text⟩ <;> simp_all [List.replicate]
  induction run with
  | zero => simpa using hfound
  | succ run ih =>
      rw [List.replicate_succ, List.cons_append, hread.single (hfree (by omega)), ih (by omega)]
      rfl

end MarkReader

theorem markReader_multiBasic : MarkReader '"' (multiBasic false) where
  close rest := by rw [multiBasic]
  single h := by
    rw [multiBasic, if_neg (by simp), if_pos (by decide)]
    all_goals simp_all

theorem markReader_multiLiteral : MarkReader '\'' multiLiteral where
  close rest := by rw [multiLiteral]
  single h := by
    rw [multiLiteral, if_pos (by decide)]
    all_goals simp_all

/-- The text of a string between double quotes is read back, also when quotes that belong to the
string stand before it. -/
theorem multiBasic_multiBasicText {run : Nat} (hrun : run ≤ 2) (chars : List Char)
    {rest : List Char} (hrest : rest.head? ≠ some '"') :
    multiBasic false
        (List.replicate run '"' ++ (multiBasicText run chars ++ '"' :: '"' :: '"' :: rest)) =
      some (List.replicate run '"' ++ chars, rest) := by
  induction chars generalizing run with
  | nil => simpa [multiBasicText] using markReader_multiBasic.read_replicate_close hrun hrest
  | cons c chars ih =>
      -- after any character but a quote, no quotes stand before the rest
      have hnone := @ih 0 (by omega)
      simp only [List.replicate_zero, List.nil_append] at hnone
      rw [multiBasicText]
      split
      next hquote =>
        subst hquote
        split
        next hfew =>
          have hmore := @ih (run + 1) (by omega)
          simpa [List.replicate_succ'] using hmore
        next hmany =>
          refine markReader_multiBasic.read_replicate hrun (by simp) ?_
          rw [List.cons_append, List.cons_append, unescapes_multiBasic.escape rfl, hnone]
          rfl
      next hquote =>
        split
        next hbreak =>
          subst hbreak
          refine markReader_multiBasic.read_replicate hrun (by simp) ?_
          rw [List.cons_append, multiBasic, if_neg (by simp), if_pos (by decide), hnone]
          · rfl
          all_goals simp
        next hbreak =>
          rw [List.append_assoc]
          refine markReader_multiBasic.read_replicate hrun (head?_escapeChar hquote _) ?_
          rw [unescapes_multiBasic.read_escapeChar hquote hbreak, hnone]
          rfl

/-- A string without escapes is read back, also when quotes that belong to it stand before it. -/
theorem multiLiteral_append {run : Nat} {chars : List Char}
    (hplain : ∀ c ∈ chars, c = '\n' ∨ isPlain c = true)
    (hruns : longestRun '\'' run chars ≤ 2) {rest : List Char} (hrest : rest.head? ≠ some '\'') :
    multiLiteral (List.replicate run '\'' ++ (chars ++ '\'' :: '\'' :: '\'' :: rest)) =
      some (List.replicate run '\'' ++ chars, rest) := by
  induction chars generalizing run with
  | nil =>
      rw [longestRun] at hruns
      simpa using markReader_multiLiteral.read_replicate_close hruns hrest
  | cons c chars ih =>
      obtain ⟨hc, hchars⟩ := List.forall_mem_cons.mp hplain
      rw [longestRun] at hruns
      split at hruns
      next hquote =>
        subst hquote
        have hmore := ih hchars hruns
        simpa [List.replicate_succ'] using hmore
      next hquote =>
        obtain ⟨hrun, hafter⟩ := Nat.max_le.mp hruns
        refine markReader_multiLiteral.read_replicate hrun (by simp [hquote]) ?_
        have hnone := ih hchars hafter
        simp only [List.replicate_zero, List.nil_append] at hnone
        rw [List.cons_append, multiLiteral, if_pos (by simpa using hc), hnone]
        · rfl
        · simp [hquote]
        · rintro _ rfl
          simp [isPlain] at hc

/-! ## Every form -/

/-- A line break right after the opening quotes is left out, and nothing else is. -/
theorem skipLineBreak_opening {hasLines : Bool} {text : List Char}
    (hfree : hasLines = false → text.head? ≠ some '\n' ∧ text.head? ≠ some '\r') :
    skipLineBreak ((if hasLines then ['\n'] else []) ++ text) = text := by
  cases hasLines with
  | true => rfl
  | false =>
      obtain ⟨hbreak, hreturn⟩ := hfree rfl
      rcases text with _ | ⟨first, text⟩
      · rfl
      · have hnone : lineBreak? (first :: text) = none := by
          rw [lineBreak?] <;> simp_all
        simp [skipLineBreak, hnone]

/-- A text with escapes begins with a line break only when its string has one. -/
theorem head?_multiBasicText {chars : List Char} (hlines : '\n' ∉ chars) {rest : List Char} :
    (multiBasicText 0 chars ++ '"' :: rest).head? ≠ some '\n' ∧
      (multiBasicText 0 chars ++ '"' :: rest).head? ≠ some '\r' := by
  rcases chars with _ | ⟨c, chars⟩
  · simp [multiBasicText]
  · have hbreak : c ≠ '\n' := by
      rintro rfl
      simp at hlines
    rw [multiBasicText]
    split
    · simp
    · simp only [escapeChar]
      repeat' split
      all_goals simp_all

/-- The text of a string between double quotes does not begin with a quote, so that its opening
quote is not taken for one of three. -/
theorem basicText_ne_quotes (chars : List Char) {rest : List Char} (hrest : rest.head? ≠ some '"')
    (more : List Char) : basicText chars ++ '"' :: rest ≠ '"' :: '"' :: more := by
  intro heq
  rcases chars with _ | ⟨c, chars⟩
  · simp_all [basicText]
  · have hhead := congrArg List.head? heq
    rw [basicText, List.append_assoc] at hhead
    split at hhead
    · simp at hhead
    split at hhead
    · simp at hhead
    · exact head?_escapeChar ‹_› _ hhead

/-- A string that a form shows consists of line breaks and characters that stand for themselves. -/
theorem StringForm.plain_of_shows {form : StringForm} {chars : List Char}
    (hshown : form.shows chars = true) : ∀ c ∈ chars, c = '\n' ∨ isPlain c = true := by
  intro c hc
  by_cases hbreak : c = '\n'
  · exact .inl hbreak
  · have hnone : chars.any needsEscape = false := by
      simp only [shows, Bool.and_eq_true] at hshown
      simpa using hshown.1
    exact .inr ((isPlain_iff hbreak).mpr (by simpa using List.any_eq_false.mp hnone c hc))

section

variable {chars : List Char} (rest : List Char)

theorem string_basic :
    string (StringForm.basic.text chars ++ '\n' :: rest) =
      some (String.ofList chars, '\n' :: rest) := by
  simp only [StringForm.text, List.cons_append, List.append_assoc, List.nil_append]
  rw [string, basic_basicText]
  · rfl
  · exact fun more h => basicText_ne_quotes chars (by simp) more h

theorem string_literal (hshown : StringForm.literal.shows chars = true) :
    string (StringForm.literal.text chars ++ '\n' :: rest) =
      some (String.ofList chars, '\n' :: rest) := by
  have hplain : ∀ c ∈ chars, c ≠ '\'' ∧ isPlain c = true := by
    intro c hc
    have hchar := StringForm.plain_of_shows hshown c hc
    simp only [StringForm.shows, Bool.and_eq_true, Bool.not_eq_true', List.contains_eq_mem,
      decide_eq_false_iff_not] at hshown
    grind
  simp only [StringForm.text, List.cons_append, List.append_assoc, List.nil_append]
  rw [string, literal_append hplain]
  · rfl
  · intro more heq
    rcases chars with _ | ⟨c, chars⟩
    · simp at heq
    · exact (hplain c (by simp)).1 (List.cons.inj heq).1

theorem string_multiBasic :
    string (StringForm.multiBasic.text chars ++ '\n' :: rest) =
      some (String.ofList chars, '\n' :: rest) := by
  simp only [StringForm.text, multiLine, List.cons_append, List.append_assoc, List.nil_append]
  have hread := @multiBasic_multiBasicText 0 (by omega) chars ('\n' :: rest) (by simp)
  simp only [List.replicate_zero, List.nil_append] at hread
  rw [string, skipLineBreak_opening, hread]
  · rfl
  · exact fun hlines => head?_multiBasicText (by simpa using hlines)

theorem string_multiLiteral (hshown : StringForm.multiLiteral.shows chars = true) :
    string (StringForm.multiLiteral.text chars ++ '\n' :: rest) =
      some (String.ofList chars, '\n' :: rest) := by
  have hplain := StringForm.plain_of_shows hshown
  have hruns : longestRun '\'' 0 chars ≤ 2 := by
    simp only [StringForm.shows, Bool.and_eq_true, decide_eq_true_eq] at hshown
    exact hshown.2
  simp only [StringForm.text, multiLine, List.cons_append, List.append_assoc, List.nil_append]
  have hread := @multiLiteral_append 0 chars hplain hruns ('\n' :: rest) (by simp)
  simp only [List.replicate_zero, List.nil_append] at hread
  rw [string, skipLineBreak_opening, hread]
  · rfl
  · intro hlines
    rcases chars with _ | ⟨c, chars⟩
    · simp
    · have hc := hplain c (by simp)
      constructor <;> rintro ⟨⟩
      · simp at hlines
      · simp [isPlain] at hc

end

/-- A string is read back from its written form, which ends there. -/
theorem string_stringText (chars rest : List Char) :
    string (stringText chars ++ '\n' :: rest) = some (String.ofList chars, '\n' :: rest) := by
  rw [stringText]
  cases hform : StringForm.ofChars chars with
  | basic => exact string_basic rest
  | literal => exact string_literal rest (StringForm.shows_of_ofChars hform (.inl rfl))
  | multiBasic => exact string_multiBasic rest
  | multiLiteral => exact string_multiLiteral rest (StringForm.shows_of_ofChars hform (.inr rfl))

end Toml

end SearchWire
