import SearchWire.Proofs.Binary64.Distinct
import SearchWire.Proofs.Json.Written

/-!
# The text of a value determines the value

`Raw.Shows` reads a written form without white space: it says of a value that the
parts of the form stand for the parts of the value, one after another. The form
in which a value is written shows it (`Json.written_shows`) and shows no other
(`Raw.Shows.unique`). A text is that of one form, so `Json.SpelledBy` says which
value a text without white space spells: that of a value spells this value
(`Json.spelledBy_text`) and no other (`Json.SpelledBy.unique`).
-/

namespace SearchWire

open SearchWire.Symbol

mutual

/-- A written form shows a value: its strings and numbers stand for those of the value, and nothing
but the marks that JSON wants stands between the parts. -/
inductive Raw.Shows : Raw → Json → Prop where
  | null : Raw.Shows .null .null
  | bool (value : Bool) : Raw.Shows (.bool value) (.bool value)
  | number {numeral : Numeral} {value : Number} (h : numeral.StandsFor value) :
      Raw.Shows (.number numeral) (.number value)
  | string {quoted : Quoted} {value : String} (h : quoted.read = .ok value) :
      Raw.Shows (.string quoted) (.string value)
  | array {written : Items} {items : List Json} (h : Items.Shows true written items) :
      Raw.Shows (.array written) (.array items)
  | object {written : Members} {entries : List (String × Json)}
      (h : Members.Shows true written entries) : Raw.Shows (.object written) (.object entries)

/-- Written items show values, from the first item or a later one on. -/
inductive Items.Shows : Bool → Items → List Json → Prop where
  | closed (isFirst : Bool) : Items.Shows isFirst (.closed []) []
  | item {isFirst : Bool} {written : Raw} {more : Items} {value : Json} {rest : List Json}
      (hvalue : written.Shows value) (hmore : Items.Shows false more rest) :
      Items.Shows isFirst (.item (Json.lead isFirst) written more) (value :: rest)

/-- Written members show entries, from the first member or a later one on. -/
inductive Members.Shows : Bool → Members → List (String × Json) → Prop where
  | closed (isFirst : Bool) : Members.Shows isFirst (.closed []) []
  | member {isFirst : Bool} {quoted : Quoted} {written : Raw} {more : Members} {name : String}
      {value : Json} {rest : List (String × Json)} (hname : quoted.read = .ok name)
      (hvalue : written.Shows value) (hmore : Members.Shows false more rest) :
      Members.Shows isFirst (.member (Json.lead isFirst) quoted [':'] written more)
        ((name, value) :: rest)

end

mutual

/-- A written form shows one value at most. -/
theorem Raw.Shows.unique {written : Raw} {first second : Json} (hfirst : written.Shows first)
    (hsecond : written.Shows second) : first = second := by
  cases hfirst with
  | null => cases hsecond; rfl
  | bool value => cases hsecond; rfl
  | number hvalue =>
      cases hsecond with
      | number hother => rw [hvalue.unique hother]
  | string hvalue =>
      cases hsecond with
      | string hother => rw [Except.ok.inj (hvalue.symm.trans hother)]
  | array hitems =>
      cases hsecond with
      | array hothers => rw [Items.Shows.unique hitems hothers]
  | object hentries =>
      cases hsecond with
      | object hothers => rw [Members.Shows.unique hentries hothers]

theorem Items.Shows.unique {isFirst : Bool} {written : Items} {first second : List Json}
    (hfirst : Items.Shows isFirst written first) (hsecond : Items.Shows isFirst written second) :
    first = second := by
  cases hfirst with
  | closed => cases hsecond; rfl
  | item hvalue hmore =>
      cases hsecond with
      | item hother hothers => rw [hvalue.unique hother, Items.Shows.unique hmore hothers]

theorem Members.Shows.unique {isFirst : Bool} {written : Members}
    {first second : List (String × Json)} (hfirst : Members.Shows isFirst written first)
    (hsecond : Members.Shows isFirst written second) : first = second := by
  cases hfirst with
  | closed => cases hsecond; rfl
  | member hname hvalue hmore =>
      cases hsecond with
      | member hname' hother hothers =>
          rw [Except.ok.inj (hname.symm.trans hname'), hvalue.unique hother,
            Members.Shows.unique hmore hothers]

end

namespace Json

mutual

/-- The form in which a value is written shows this value. -/
theorem written_shows (value : Json) : value.written.Shows value := by
  cases value with
  | null => exact .null
  | bool value => exact .bool value
  | number value => exact .number value.numeral_standsFor
  | string value => exact .string (read_quoted value)
  | array items => exact .array (writtenItems_shows true items)
  | object entries => exact .object (writtenEntries_shows true entries)

theorem writtenItems_shows (isFirst : Bool) (items : List Json) :
    Items.Shows isFirst (writtenItems isFirst items) items := by
  cases items with
  | nil => exact .closed isFirst
  | cons first rest => exact .item (written_shows first) (writtenItems_shows false rest)

theorem writtenEntries_shows (isFirst : Bool) (entries : List (String × Json)) :
    Members.Shows isFirst (writtenEntries isFirst entries) entries := by
  cases entries with
  | nil => exact .closed isFirst
  | cons entry rest =>
      obtain ⟨name, value⟩ := entry
      exact .member (read_quoted name) (written_shows value) (writtenEntries_shows false rest)

end

/-- A text is a JSON text without white space that shows a value. -/
def SpelledBy (value : Json) (text : List Char) : Prop :=
  ∃ written : Raw, written.Grammatical ∧ written.symbols = ofChars text ∧ written.Shows value

/-- The text of a value spells this value. -/
theorem spelledBy_text (value : Json) : value.SpelledBy value.text :=
  ⟨value.written, value.written_grammatical, value.written_symbols, value.written_shows⟩

/-- A text spells one value at most. -/
theorem SpelledBy.unique {first second : Json} {text : List Char} (hfirst : first.SpelledBy text)
    (hsecond : second.SpelledBy text) : first = second := by
  obtain ⟨written, hwritten, hsymbols, hshows⟩ := hfirst
  obtain ⟨other, hother, hsymbols', hshows'⟩ := hsecond
  have hscan := Raw.scan_symbols_append hwritten (Stops.nil _)
  rw [hsymbols, ← hsymbols', Raw.scan_symbols_append hother (Stops.nil _)] at hscan
  obtain rfl : other = written := congrArg Prod.fst hscan
  exact hshows.unique hshows'

/-- The text of a value spells this value and no other. -/
theorem spelledBy_toText_iff {value other : Json} :
    other.SpelledBy value.toText.toList ↔ other = value := by
  rw [toText, String.toList_ofList]
  constructor
  · exact fun h => h.unique value.spelledBy_text
  · rintro rfl
    exact other.spelledBy_text

/-- Different values have different texts. -/
theorem toText_injective {first second : Json} (h : first.toText = second.toText) :
    first = second := by
  rw [← spelledBy_toText_iff, ← h, spelledBy_toText_iff]

end Json

end SearchWire
