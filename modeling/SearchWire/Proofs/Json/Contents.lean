import SearchWire.Json.Value
import SearchWire.Proofs.Json.Compose

/-!
# What texts stand for

A decoder that takes a value with all its members reads the whole text of the
value. `PaddedText.Holds` says that a text stands for a scalar, and
`ObjectText.members_object` that an object of such texts stands for its members
in text order, each under its name.
-/

namespace SearchWire

namespace Decode

/-- All members of an object are read one after another, under their names. -/
theorem readsEach_objectMembers (depth : Nat) :
    ReadsEach (fun name value => (name, ·) <$> members depth value) (objectMembers depth) where
  closed _ := rfl
  torn _ _ := rfl
  member lead name middle value more := by
    rw [objectMembers]
    cases name.read with
    | error fault => rfl
    | ok key => cases members depth value <;> rfl

theorem arrayMembers_eq (depth : Nat) (items : Items) :
    arrayMembers depth items = each (members depth) items := by
  cases items with
  | closed | torn => rfl
  | item lead value more =>
      rw [arrayMembers, each]
      simp only [arrayMembers_eq depth more]

end Decode

namespace Json

/-- A value that is no array and no object. -/
def IsScalar : Json → Prop
  | .null | .bool _ | .number _ | .string _ => True
  | .array _ | .object _ => False

/-- A scalar has nothing to settle. -/
theorem settle?_of_isScalar {value : Json} (h : value.IsScalar) : value.settle? = some value := by
  cases value with
  | null | bool | number | string => rfl
  | array | object => exact h.elim

theorem settleEntries?_of_isScalar {entries : List (String × Json)}
    (h : ∀ entry ∈ entries, entry.2.IsScalar) : settleEntries? entries = some entries := by
  induction entries with
  | nil => rfl
  | cons entry rest ih =>
      obtain ⟨name, value⟩ := entry
      rw [settleEntries?, settle?_of_isScalar (h _ List.mem_cons_self),
        ih fun other hother => h other (List.mem_cons_of_mem _ hother)]
      rfl

end Json

namespace PaddedText

/-- The value that a text stands for; `null` when it stands for none. -/
def content (text : PaddedText) : Json :=
  (Decode.members nestingLimit text.span.value).toOption.getD .null

/-- A text stands for a scalar, wherever it is. -/
def Holds (text : PaddedText) (value : Json) : Prop :=
  value.IsScalar ∧ ∀ depth, Decode.members depth text.span.value = .ok value

theorem Holds.content_eq {text : PaddedText} {value : Json} (h : text.Holds value) :
    text.content = value := by
  rw [content, h.2]
  rfl

theorem holds_null {text : PaddedText} (h : text.core = ['n', 'u', 'l', 'l']) :
    text.Holds .null := by
  have hvalue : text.span.value = .null := by
    refine span_value trivial ?_
    rw [h]
    rfl
  refine ⟨trivial, fun depth => ?_⟩
  rw [hvalue, Decode.members]

theorem holds_number {text : PaddedText} {numeral : Numeral} {number : Number}
    (h : text.core = numeral.text) (hnumeral : numeral.Grammatical)
    (hnumber : numeral.read = .ok number) : text.Holds (.number number) := by
  have hvalue : text.span.value = .number numeral := by
    refine span_value hnumeral ?_
    rw [h, Raw.symbols, Raw.before, List.append_nil]
  refine ⟨trivial, fun depth => ?_⟩
  rw [hvalue, Decode.members, hnumber]
  rfl

theorem holds_string {text : PaddedText} {value : String} (h : Spells text.core value) :
    text.Holds (.string value) := by
  obtain ⟨quoted, hquoted, hsymbols, hread⟩ := h
  have hvalue : text.span.value = .string quoted := by
    refine span_value hquoted ?_
    rw [← hsymbols, Raw.symbols, Raw.before, List.append_nil]
  refine ⟨trivial, fun depth => ?_⟩
  rw [hvalue, Decode.members, hread]
  rfl

end PaddedText

/-- A member under its name, with the value that it stands for. -/
def MemberText.content (member : MemberText) : String × Json :=
  (member.name, member.value.content)

/-- An object of scalars stands for its members in text order. -/
theorem ObjectText.members_object {object : ObjectText} {text : PaddedText}
    (hcore : text.core = object.text)
    (h : ∀ member ∈ object.members, ∃ value, member.value.Holds value) (depth : Nat) :
    Decode.members (depth + 1) text.span.value =
      .ok (.object (object.members.map MemberText.content)) := by
  obtain ⟨members, hvalue, hlists⟩ := text.exists_span_value hcore
  have hall : object.entries.mapM (fun entry =>
      (entry.1, ·) <$> Decode.members depth entry.2.value) =
        .ok (object.members.map MemberText.content) := by
    rw [Outcome.mapM_eq_ok_iff, ObjectText.entries, List.forall₂_map_left_iff,
      List.forall₂_map_right_iff, List.forall₂_same]
    intro member hmember
    obtain ⟨value, hholds⟩ := h member hmember
    rw [MemberText.entry, MemberText.content, hholds.2 depth, hholds.content_eq]
    rfl
  rw [hvalue, Decode.members, (Decode.readsEach_objectMembers depth).eq_mapM hlists, hall]
  rfl

end SearchWire
