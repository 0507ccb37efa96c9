import SearchWire.Proofs.Json.Token

/-!
# Scanning gives the written value back

`Raw.scan_symbols_append` says that the scan of a grammatical value, with any
text behind it that does not go on with a number, gives exactly that value and
that text: it neither stops early nor runs on, at any depth and whatever stands
inside strings. `decodeBody_eq` is the consequence for a whole text.
-/

namespace SearchWire

open SearchWire.Symbol

/-- A character that can begin a value. -/
def opensValue (c : Char) : Bool :=
  c = '{' || c = '[' || c = '"' || c = 'n' || c = 't' || c = 'f' || c = '-' || c.isDigit

/-- White space, commas and closing brackets begin no value. -/
theorem opensValue_eq_false {c : Char}
    (h : Scan.isBlank c = true ∨ c = ',' ∨ c = ']' ∨ c = '}') : opensValue c = false := by
  simp only [Scan.isBlank, Bool.or_eq_true, decide_eq_true_eq] at h
  rcases h with ((((rfl | rfl) | rfl) | rfl) | rfl | rfl | rfl) <;> decide

/-- A grammatical value begins with a character that can begin one. -/
theorem Raw.Grammatical.exists_before_eq {value : Raw} (h : value.Grammatical)
    (text : List Symbol) :
    ∃ first rest, value.before text = .char first :: rest ∧ opensValue first = true := by
  cases value with
  | null => exact ⟨_, _, rfl, by decide⟩
  | bool value => cases value <;> exact ⟨_, _, rfl, by decide⟩
  | number numeral =>
      obtain ⟨first, others, hfirst, hdigit⟩ := Numeral.Grammatical.exists_unsigned_eq_cons h
      rw [Raw.before, Numeral.text_eq_unsigned, hfirst]
      cases numeral.negative with
      | true => exact ⟨_, _, rfl, by decide⟩
      | false => exact ⟨_, _, rfl, by simp [opensValue, hdigit]⟩
  | string quoted => exact ⟨_, _, rfl, by decide⟩
  | array items => exact ⟨_, _, rfl, by decide⟩
  | object members => exact ⟨_, _, rfl, by decide⟩
  | cutNumber | broken => cases h

namespace Scan

/-- Behind white space a value is found where it begins. -/
theorem blanks_value {blank : List Char} {first : Char} (rest : List Symbol)
    (hblank : Blank blank) (hfirst : opensValue first = true) :
    blanks (ofChars blank ++ .char first :: rest) = (blank, .char first :: rest) := by
  refine blanks_append hblank (Stops.cons ?_ rest)
  cases hspace : isBlank first with
  | false => rfl
  | true => exact absurd (opensValue_eq_false (.inl hspace)) (by simp [hfirst])

/-! ## Arrays -/

theorem items_closed (fuel : Nat) (isFirst : Bool) {blank : List Char} (text : List Symbol)
    (hblank : Blank blank) :
    items (fuel + 1) isFirst (ofChars blank ++ .char ']' :: text) = (.closed blank, text) := by
  rw [items, blanks_append hblank (Stops.cons (by decide) text)]
  rfl

/-- The first item is the value behind the white space. -/
theorem items_first (fuel : Nat) {blank : List Char} {first : Char} (rest : List Symbol)
    (hblank : Blank blank) (hfirst : opensValue first = true) :
    items (fuel + 1) true (ofChars blank ++ .char first :: rest) =
      let found := value fuel (.char first :: rest)
      let more := items fuel false found.2
      (.item blank found.1 more.1, more.2) := by
  have hclose : first ≠ ']' := by rintro rfl; simp [opensValue] at hfirst
  have hcomma : first ≠ ',' := by rintro rfl; simp [opensValue] at hfirst
  rw [items, blanks_value rest hblank hfirst]
  simp [hclose, hcomma]

/-- A later item is the value behind the comma. -/
theorem items_later (fuel : Nat) {before after : List Char} {first : Char} (rest : List Symbol)
    (hbefore : Blank before) (hafter : Blank after) (hfirst : opensValue first = true) :
    items (fuel + 1) false (ofChars (before ++ ',' :: after) ++ .char first :: rest) =
      let found := value fuel (.char first :: rest)
      let more := items fuel false found.2
      (.item (before ++ ',' :: after) found.1 more.1, more.2) := by
  have hclose : first ≠ ']' := by rintro rfl; simp [opensValue] at hfirst
  rw [items, ofChars_append, ofChars_cons, List.append_assoc, List.cons_append,
    blanks_append hbefore (Stops.cons (by decide) _)]
  simp [blanks_value rest hafter hfirst, hclose]

/-! ## Objects -/

theorem members_closed (fuel : Nat) (isFirst : Bool) {blank : List Char} (text : List Symbol)
    (hblank : Blank blank) :
    members (fuel + 1) isFirst (ofChars blank ++ .char '}' :: text) = (.closed blank, text) := by
  rw [members, blanks_append hblank (Stops.cons (by decide) text)]
  rfl

/-- Behind a name the colon is found, and behind the colon the value. -/
theorem quoted_middle {middle : List Char} {name : Quoted} {first : Char} (rest : List Symbol)
    (hname : name.Grammatical) (hmiddle : Middle middle) (hfirst : opensValue first = true) :
    ∃ inner before after afterColon, middle = before ++ ':' :: after ∧
      name.symbols ++ (ofChars middle ++ .char first :: rest) = .char '"' :: inner ∧
      blanks (quoted inner).2 = (before, .char ':' :: afterColon) ∧
      blanks afterColon = (after, .char first :: rest) ∧ (quoted inner).1 = name := by
  obtain ⟨before, after, hbefore, hafter, rfl⟩ := hmiddle
  obtain ⟨inner, hinner, hquoted⟩ :=
    quoted_symbols hname (ofChars (before ++ ':' :: after) ++ .char first :: rest)
  refine ⟨inner, before, after, ofChars after ++ .char first :: rest, rfl, hinner, ?_,
    blanks_value rest hafter hfirst, by rw [hquoted]⟩
  rw [hquoted, ofChars_append, ofChars_cons, List.append_assoc, List.cons_append]
  exact blanks_append hbefore (Stops.cons (by decide) _)

/-- The first member is the one behind the white space. -/
theorem members_first (fuel : Nat) {blank middle : List Char} {name : Quoted} {first : Char}
    (rest : List Symbol) (hblank : Blank blank) (hname : name.Grammatical)
    (hmiddle : Middle middle) (hfirst : opensValue first = true) :
    members (fuel + 1) true
        (ofChars blank ++ (name.symbols ++ (ofChars middle ++ .char first :: rest))) =
      let found := value fuel (.char first :: rest)
      let more := members fuel false found.2
      (.member blank name middle found.1 more.1, more.2) := by
  obtain ⟨inner, before, after, afterColon, rfl, hinner, hcolon, hvalue, rfl⟩ :=
    quoted_middle rest hname hmiddle hfirst
  rw [members, hinner, blanks_append hblank (Stops.cons (by decide) inner)]
  simp [hcolon, hvalue]

/-- A later member is the one behind the comma. -/
theorem members_later (fuel : Nat) {lead middle : List Char} {name : Quoted} {first : Char}
    (rest : List Symbol) (hlead : Lead false lead) (hname : name.Grammatical)
    (hmiddle : Middle middle) (hfirst : opensValue first = true) :
    members (fuel + 1) false
        (ofChars lead ++ (name.symbols ++ (ofChars middle ++ .char first :: rest))) =
      let found := value fuel (.char first :: rest)
      let more := members fuel false found.2
      (.member lead name middle found.1 more.1, more.2) := by
  obtain ⟨blank, gap, hblank, hgap, rfl⟩ := hlead
  obtain ⟨inner, before, after, afterColon, rfl, hinner, hcolon, hvalue, rfl⟩ :=
    quoted_middle rest hname hmiddle hfirst
  rw [members, hinner, ofChars_append, ofChars_cons, List.append_assoc, List.cons_append,
    blanks_append hblank (Stops.cons (by decide) _)]
  simp [blanks_append hgap (Stops.cons (c := '"') (by decide) inner), hcolon, hvalue]

/-! ## Values -/

theorem value_number (fuel : Nat) {first : Char} (rest : List Symbol)
    (hfirst : first = '-' ∨ first.isDigit = true) :
    value (fuel + 1) (.char first :: rest) = number (.char first :: rest) := by
  have hne (c : Char) (hc : c ≠ '-') (hdigit : c.isDigit = false) : first ≠ c := by
    rintro rfl
    simp [hdigit, hc] at hfirst
  simp [value, hfirst, hne '{' (by decide) (by decide), hne '[' (by decide) (by decide),
    hne '"' (by decide) (by decide), hne 'n' (by decide) (by decide),
    hne 't' (by decide) (by decide), hne 'f' (by decide) (by decide)]

/-- A number begins with its sign or with a digit. -/
theorem number_text_eq_cons {numeral : Numeral} (h : numeral.Grammatical) :
    ∃ first others, numeral.text = first :: others ∧ (first = '-' ∨ first.isDigit = true) := by
  obtain ⟨first, others, hfirst, hdigit⟩ := h.exists_unsigned_eq_cons
  rw [Numeral.text_eq_unsigned]
  cases numeral.negative with
  | true => exact ⟨_, _, rfl, .inl rfl⟩
  | false => exact ⟨first, others, hfirst, .inr hdigit⟩

theorem continuesNumber_eq_false {c : Char} (h : isBlank c = true) :
    continuesNumber c = false := by
  simp only [isBlank, Bool.or_eq_true, decide_eq_true_eq] at h
  rcases h with (((rfl | rfl) | rfl) | rfl) <;> decide

/-- White space ends a number, and so does what comes after it unless it goes on with one. -/
theorem stops_blank {blank : List Char} {text : List Symbol} (hblank : Blank blank)
    (hstop : Stops continuesNumber text) : Stops continuesNumber (ofChars blank ++ text) := by
  cases blank with
  | nil => exact hstop
  | cons c rest => exact Stops.cons (continuesNumber_eq_false (hblank c List.mem_cons_self)) _

/-- The lead of a later part ends a number. -/
theorem stops_lead {lead : List Char} (hlead : Lead false lead) (text : List Symbol) :
    Stops continuesNumber (ofChars lead ++ text) := by
  obtain ⟨before, after, hbefore, -, rfl⟩ := hlead
  rw [ofChars_append, List.append_assoc]
  exact stops_blank hbefore (Stops.cons (by decide) _)

/-- What follows an item does not go on with a number. -/
theorem stops_items {more : Items} (h : Raw.GrammaticalItems false more) (text : List Symbol) :
    Stops continuesNumber (Raw.itemsBefore more text) := by
  cases more with
  | closed blank => exact stops_blank h (Stops.cons (by decide) text)
  | torn => cases h
  | item => exact stops_lead h.1 _

/-- What follows a member does not go on with a number. -/
theorem stops_members {more : Members} (h : Raw.GrammaticalMembers false more)
    (text : List Symbol) : Stops continuesNumber (Raw.membersBefore more text) := by
  cases more with
  | closed blank => exact stops_blank h (Stops.cons (by decide) text)
  | torn => cases h
  | member => exact stops_lead h.1 _

mutual

/-- A grammatical value is scanned as it is written. -/
theorem value_before {written : Raw} (fuel : Nat) {text : List Symbol} (h : written.Grammatical)
    (hstop : Stops continuesNumber text) (hfuel : 2 * written.symbols.length ≤ fuel) :
    value fuel (written.before text) = (written, text) := by
  obtain ⟨first, rest, hbefore, -⟩ := h.exists_before_eq []
  -- A value and the item around it each cost a unit of fuel, and a value has a symbol at least:
  -- two units for each symbol are enough.
  have hlength : written.symbols.length = rest.length + 1 := congrArg List.length hbefore
  obtain ⟨fuel, rfl⟩ : ∃ less, fuel = less + 1 := ⟨fuel - 1, by omega⟩
  cases written with
  | null => exact literal_append ['n', 'u', 'l', 'l'] .null text
  | bool value =>
      cases value with
      | true => exact literal_append ['t', 'r', 'u', 'e'] (.bool true) text
      | false => exact literal_append ['f', 'a', 'l', 's', 'e'] (.bool false) text
  | number numeral =>
      obtain ⟨first, others, htext, hfirst⟩ := number_text_eq_cons h
      have hnumber := number_append h hstop
      rw [htext, ofChars_cons, List.cons_append] at hnumber
      rw [Raw.before, htext, ofChars_cons, List.cons_append, value_number fuel _ hfirst, hnumber]
  | string quoted =>
      obtain ⟨inner, hinner, hquoted⟩ := quoted_symbols h text
      rw [Raw.before, hinner, value]
      simp [hquoted]
  | array parts =>
      have hparts : 2 * (Raw.itemsBefore parts []).length + 1 ≤ fuel := by
        simp only [Raw.symbols, Raw.before, List.length_cons] at hfuel
        omega
      rw [Raw.before, value]
      simp [items_before fuel text h hparts]
  | object parts =>
      have hparts : 2 * (Raw.membersBefore parts []).length + 1 ≤ fuel := by
        simp only [Raw.symbols, Raw.before, List.length_cons] at hfuel
        omega
      rw [Raw.before, value]
      simp [members_before fuel text h hparts]
  | cutNumber | broken => cases h

/-- Grammatical items are scanned as they are written. -/
theorem items_before {isFirst : Bool} {written : Items} (fuel : Nat) (text : List Symbol)
    (h : Raw.GrammaticalItems isFirst written)
    (hfuel : 2 * (Raw.itemsBefore written []).length + 1 ≤ fuel) :
    items fuel isFirst (Raw.itemsBefore written text) = (written, text) := by
  obtain ⟨fuel, rfl⟩ : ∃ less, fuel = less + 1 := ⟨fuel - 1, by omega⟩
  cases written with
  | closed blank => exact items_closed fuel isFirst text h
  | torn => cases h
  | item lead found more =>
      obtain ⟨hlead, hfound, hmore⟩ := h
      obtain ⟨first, rest, hbefore, hfirst⟩ :=
        hfound.exists_before_eq (Raw.itemsBefore more text)
      -- the item itself has a symbol, so the bound leaves fuel for the items behind it
      obtain ⟨_, _, hnonempty, -⟩ := hfound.exists_before_eq []
      have hlength : 0 < found.symbols.length := by
        rw [Raw.symbols, hnonempty]
        exact Nat.succ_pos _
      rw [Raw.itemsBefore, Raw.before_eq_append] at hfuel
      simp only [List.length_append] at hfuel
      have hvalue := value_before fuel hfound (stops_items hmore text) (by omega)
      have hrest := items_before fuel text hmore (by omega)
      rw [Raw.itemsBefore, hbefore]
      rw [hbefore] at hvalue
      cases isFirst with
      | true =>
          rw [items_first fuel rest hlead hfirst]
          simp [hvalue, hrest]
      | false =>
          obtain ⟨before, after, hblank, hgap, rfl⟩ := hlead
          rw [items_later fuel rest hblank hgap hfirst]
          simp [hvalue, hrest]

/-- Grammatical members are scanned as they are written. -/
theorem members_before {isFirst : Bool} {written : Members} (fuel : Nat) (text : List Symbol)
    (h : Raw.GrammaticalMembers isFirst written)
    (hfuel : 2 * (Raw.membersBefore written []).length + 1 ≤ fuel) :
    members fuel isFirst (Raw.membersBefore written text) = (written, text) := by
  obtain ⟨fuel, rfl⟩ : ∃ less, fuel = less + 1 := ⟨fuel - 1, by omega⟩
  cases written with
  | closed blank => exact members_closed fuel isFirst text h
  | torn => cases h
  | member lead name middle found more =>
      obtain ⟨hlead, hname, hmiddle, hfound, hmore⟩ := h
      obtain ⟨first, rest, hbefore, hfirst⟩ :=
        hfound.exists_before_eq (Raw.membersBefore more text)
      rw [Raw.membersBefore, Raw.before_eq_append] at hfuel
      simp only [Quoted.symbols, List.length_append, List.length_cons] at hfuel
      have hvalue := value_before fuel hfound (stops_members hmore text) (by omega)
      have hrest := members_before fuel text hmore (by omega)
      rw [Raw.membersBefore, hbefore]
      rw [hbefore] at hvalue
      cases isFirst with
      | true =>
          rw [members_first fuel rest hlead hname hmiddle hfirst]
          simp [hvalue, hrest]
      | false =>
          rw [members_later fuel rest hlead hname hmiddle hfirst]
          simp [hvalue, hrest]

end

end Scan

/-- The scan gives a grammatical value back, and the text behind it. -/
theorem Raw.scan_symbols_append {written : Raw} {text : List Symbol} (h : written.Grammatical)
    (hstop : Stops continuesNumber text) :
    Raw.scan (written.symbols ++ text) = (written, text) := by
  rw [Raw.scan, ← Raw.before_eq_append]
  refine Scan.value_before _ h hstop ?_
  rw [Raw.before_eq_append, List.length_append]
  omega

/-- A text with one grammatical value in it is cut into that value and the white space around. -/
theorem Document.ofSymbols_eq {lead trail : List Char} {written : Raw} (hlead : Blank lead)
    (h : written.Grammatical) (htrail : Blank trail) :
    Document.ofSymbols (ofChars lead ++ (written.symbols ++ ofChars trail)) =
      ⟨lead, written, ofChars trail⟩ := by
  obtain ⟨first, rest, hfirst, hopens⟩ := h.exists_before_eq (ofChars trail)
  have hscan := Raw.scan_symbols_append h (Scan.stops_blank htrail (Stops.nil _))
  rw [List.append_nil] at hscan
  rw [Raw.before_eq_append] at hfirst
  rw [Document.ofSymbols, hfirst, Scan.blanks_value rest hlead hopens, ← hfirst]
  simp [hscan]

/-- A text with one grammatical value in it decodes as that value. -/
theorem decodeBody_eq {α : Type} (decoder : Decoder α) {lead trail : List Char} {written : Raw}
    (hlead : Blank lead) (h : written.Grammatical) (htrail : Blank trail) :
    decodeBody decoder (ofChars lead ++ (written.symbols ++ ofChars trail)) =
      decoder nestingLimit written := by
  have hblank := Scan.blanks_append htrail (Stops.nil _)
  rw [List.append_nil] at hblank
  rw [decodeBody, Document.ofSymbols_eq hlead h htrail, Document.decode, hblank]
  cases decoder nestingLimit written with
  | error fault => rfl
  | ok value => rfl

/-- A body decodes when its value does and only white space stands behind the value. -/
theorem decodeBody_eq_ok_iff {α : Type} {decoder : Decoder α} {text : List Symbol} {result : α} :
    decodeBody decoder text = .ok result ↔
      decoder nestingLimit (Document.ofSymbols text).value = .ok result ∧
        (Scan.blanks (Document.ofSymbols text).rest).2.isEmpty = true := by
  rw [decodeBody, Document.decode]
  cases decoder nestingLimit (Document.ofSymbols text).value with
  | error fault => simp
  | ok value =>
      rw [Outcome.ok_bind]
      split
      · next hblank => simp [hblank]
      · next hmore => simp [hmore]

end SearchWire
