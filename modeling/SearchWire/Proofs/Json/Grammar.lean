import SearchWire.Json.Scan

/-!
# The grammar of JSON texts

`Raw.Grammatical` says of a written value that its parts are spelled as JSON
wants them: digits where digits belong, escapes that exist, commas and white
space between items and nowhere else. It asks for nothing beyond the spelling,
so a number may be past the largest double, a surrogate may stand alone and a
value may nest to any depth. `IsJson` are the texts of such values, and a
`PaddedText` is one with white space around it.
-/

namespace SearchWire

/-- White space, or nothing. -/
def Blank (text : List Char) : Prop :=
  ∀ c ∈ text, Scan.isBlank c = true

instance (text : List Char) : Decidable (Blank text) :=
  List.decidableBAll (fun c => Scan.isBlank c = true) text

theorem Blank.nil : Blank [] :=
  fun _ hc => absurd hc List.not_mem_nil

theorem Blank.append {first second : List Char} (hfirst : Blank first) (hsecond : Blank second) :
    Blank (first ++ second) :=
  List.forall_mem_append.2 ⟨hfirst, hsecond⟩

/-- One or more decimal digits. -/
def Digits (text : List Char) : Prop :=
  text ≠ [] ∧ ∀ c ∈ text, c.isDigit = true

theorem Digits.zero : Digits ['0'] := by
  refine ⟨List.cons_ne_nil _ _, fun c hc => ?_⟩
  rw [List.mem_singleton.1 hc]
  decide

/-- A unit of a string: no bare quote, backslash or control character, and no unknown escape. -/
def Piece.Grammatical : Piece → Prop
  | .plain (.char c) => 0x20 ≤ c.toNat ∧ c ≠ '"' ∧ c ≠ '\\'
  | .plain (.stray _) => True
  | .escape letter => Scan.isEscape letter = true
  | .unicode a b c d =>
      Scan.isHex a = true ∧ Scan.isHex b = true ∧ Scan.isHex c = true ∧ Scan.isHex d = true

/-- A string that is closed and made of grammatical units. -/
def Quoted.Grammatical (quoted : Quoted) : Prop :=
  quoted.tear = none ∧ ∀ piece ∈ quoted.pieces, piece.Grammatical

/-- An exponent: a letter, perhaps a sign, and digits. -/
def Exponent.Grammatical (exponent : Exponent) : Prop :=
  (exponent.letter = 'e' ∨ exponent.letter = 'E') ∧
    (∀ sign ∈ exponent.sign, sign = '+' ∨ sign = '-') ∧ Digits exponent.digits

/-- A number: digits without a superfluous zero in front, perhaps a fraction and an exponent. -/
structure Numeral.Grammatical (numeral : Numeral) : Prop where
  whole : Digits numeral.whole
  zero : numeral.whole.head? = some '0' → numeral.whole = ['0']
  fraction : ∀ digits ∈ numeral.fraction, Digits digits
  exponent : ∀ exponent ∈ numeral.exponent, exponent.Grammatical

/-- The text before a part of an array or an object: white space, with one comma in it unless the
part is the first. -/
def Lead (isFirst : Bool) (lead : List Char) : Prop :=
  if isFirst then Blank lead
  else ∃ before after, Blank before ∧ Blank after ∧ lead = before ++ ',' :: after

/-- The text between a name and its value: a colon with white space around it. -/
def Middle (middle : List Char) : Prop :=
  ∃ before after, Blank before ∧ Blank after ∧ middle = before ++ ':' :: after

namespace Raw

mutual

/-- A value that is spelled as JSON. -/
def Grammatical : Raw → Prop
  | .null | .bool _ => True
  | .number numeral => numeral.Grammatical
  | .string quoted => quoted.Grammatical
  | .array items => GrammaticalItems true items
  | .object members => GrammaticalMembers true members
  | .cutNumber _ | .broken _ _ => False

/-- Items of an array that are spelled as JSON, from the first item or a later one on. -/
def GrammaticalItems : Bool → Items → Prop
  | _, .closed blank => Blank blank
  | _, .torn _ _ => False
  | isFirst, .item lead value more =>
      Lead isFirst lead ∧ Grammatical value ∧ GrammaticalItems false more

/-- Members of an object that are spelled as JSON, from the first member or a later one on. -/
def GrammaticalMembers : Bool → Members → Prop
  | _, .closed blank => Blank blank
  | _, .torn _ _ => False
  | isFirst, .member lead name middle value more =>
      Lead isFirst lead ∧ name.Grammatical ∧ Middle middle ∧ Grammatical value ∧
        GrammaticalMembers false more

end

/-! ## Written forms in front of other texts -/

mutual

/-- A value written in front of a text is its own text and that text. -/
theorem before_eq_append (value : Raw) (text : List Symbol) :
    value.before text = value.symbols ++ text := by
  cases value with
  | null | string | number | cutNumber | broken => simp [symbols, before]
  | bool value => cases value <;> simp [symbols, before]
  | array items =>
      simp only [symbols, before, List.cons_append]
      rw [itemsBefore_eq_append items text]
  | object members =>
      simp only [symbols, before, List.cons_append]
      rw [membersBefore_eq_append members text]

/-- Items written in front of a text are their own text and that text. -/
theorem itemsBefore_eq_append (items : Items) (text : List Symbol) :
    itemsBefore items text = itemsBefore items [] ++ text := by
  cases items with
  | closed | torn => simp [itemsBefore]
  | item lead value more =>
      simp only [itemsBefore, List.append_assoc]
      rw [before_eq_append value, before_eq_append value (itemsBefore more []),
        itemsBefore_eq_append more text, List.append_assoc]

/-- Members written in front of a text are their own text and that text. -/
theorem membersBefore_eq_append (members : Members) (text : List Symbol) :
    membersBefore members text = membersBefore members [] ++ text := by
  cases members with
  | closed | torn => simp [membersBefore]
  | member lead name middle value more =>
      simp only [membersBefore, List.append_assoc]
      rw [before_eq_append value, before_eq_append value (membersBefore more []),
        membersBefore_eq_append more text, List.append_assoc]

end

theorem symbols_array (items : Items) :
    (Raw.array items).symbols = .char '[' :: itemsBefore items [] := rfl

theorem symbols_object (members : Members) :
    (Raw.object members).symbols = .char '{' :: membersBefore members [] := rfl

theorem itemsBefore_item (lead : List Char) (value : Raw) (more : Items) (text : List Symbol) :
    itemsBefore (.item lead value more) text =
      Symbol.ofChars lead ++ (value.symbols ++ itemsBefore more text) := by
  rw [itemsBefore, before_eq_append]

theorem membersBefore_member (lead : List Char) (name : Quoted) (middle : List Char) (value : Raw)
    (more : Members) (text : List Symbol) :
    membersBefore (.member lead name middle value more) text =
      Symbol.ofChars lead ++ (name.symbols ++ (Symbol.ofChars middle ++
        (value.symbols ++ membersBefore more text))) := by
  rw [membersBefore, before_eq_append]

/-! ## No damage -/

mutual

/-- A grammatical value has no damage. -/
theorem Grammatical.damage?_eq {value : Raw} (h : value.Grammatical) : value.damage? = none := by
  cases value with
  | null | bool | number => rfl
  | string quoted => simp [damage?, Quoted.damage?, h.1]
  | array items => exact GrammaticalItems.damage?_eq h
  | object members => exact GrammaticalMembers.damage?_eq h
  | cutNumber | broken => cases h

/-- Grammatical items have no damage. -/
theorem GrammaticalItems.damage?_eq {isFirst : Bool} {items : Items}
    (h : GrammaticalItems isFirst items) : itemsDamage? items = none := by
  cases items with
  | closed => rfl
  | torn => cases h
  | item lead value more =>
      obtain ⟨-, hvalue, hmore⟩ := h
      simp [itemsDamage?, Grammatical.damage?_eq hvalue, GrammaticalItems.damage?_eq hmore]

/-- Grammatical members have no damage. -/
theorem GrammaticalMembers.damage?_eq {isFirst : Bool} {members : Members}
    (h : GrammaticalMembers isFirst members) : membersDamage? members = none := by
  cases members with
  | closed => rfl
  | torn => cases h
  | member lead name middle value more =>
      obtain ⟨-, hname, -, hvalue, hmore⟩ := h
      simp [membersDamage?, Quoted.damage?, hname.1, Grammatical.damage?_eq hvalue,
        GrammaticalMembers.damage?_eq hmore]

end

end Raw

/-- A text that spells one JSON value. -/
def IsJson (text : List Char) : Prop :=
  ∃ value : Raw, value.Grammatical ∧ value.symbols = Symbol.ofChars text

/-- A JSON text with white space around it. -/
structure PaddedText where
  lead : List Char
  core : List Char
  trail : List Char
  lead_blank : Blank lead
  core_json : IsJson core
  trail_blank : Blank trail

/-- The whole text, white space included. -/
def PaddedText.text (padded : PaddedText) : List Char :=
  padded.lead ++ padded.core ++ padded.trail

end SearchWire
