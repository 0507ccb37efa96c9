import SearchWire.Json.Value
import SearchWire.Proofs.Json.Written

/-!
# How deep a text may nest

A value is read from its own text unless the text nests deeper than allowed.
`Json.levels` counts how deep a value nests, and `Decode.members_written` says
that the reader of all members gives back a value whose numbers read back when
its levels are allowed and reports the depth of its text otherwise. The two
cases are kept together by `Decode.unlessTooDeep`, since the reader passes from
one part to the next only within the levels.
-/

namespace SearchWire

namespace Json

mutual

/-- How many arrays and objects stand around the innermost part of a value, itself included. -/
def levels : Json → Nat
  | .null | .bool _ | .number _ | .string _ => 0
  | .array items => itemsLevels items + 1
  | .object entries => entriesLevels entries + 1

/-- The levels of the deepest item. -/
def itemsLevels : List Json → Nat
  | [] => 0
  | item :: rest => max item.levels (itemsLevels rest)

/-- The levels of the deepest entry. -/
def entriesLevels : List (String × Json) → Nat
  | [] => 0
  | (_, value) :: rest => max value.levels (entriesLevels rest)

end

mutual

/-- Every number of a value is read as it is written. -/
def NumbersReadBack : Json → Prop
  | .null | .bool _ | .string _ => True
  | .number value => value.numeral.read = .ok value
  | .array items => ItemsReadBack items
  | .object entries => EntriesReadBack entries

/-- Every number of some items is read as it is written. -/
def ItemsReadBack : List Json → Prop
  | [] => True
  | item :: rest => item.NumbersReadBack ∧ ItemsReadBack rest

/-- Every number of some entries is read as it is written. -/
def EntriesReadBack : List (String × Json) → Prop
  | [] => True
  | (_, value) :: rest => value.NumbersReadBack ∧ EntriesReadBack rest

end

end Json

namespace Decode

open Json

/-- A value within the levels that are allowed, and the damage of a text that nests deeper. -/
def unlessTooDeep {α : Type} (levels depth : Nat) (value : α) : Except Fault α :=
  if levels ≤ depth then .ok value else .error (.damage .tooDeep)

/-- One more level is allowed around a value that has one more. -/
theorem unlessTooDeep_succ {α : Type} (levels depth : Nat) (value : α) :
    unlessTooDeep (levels + 1) (depth + 1) value = unlessTooDeep levels depth value := by
  simp [unlessTooDeep]

/-- What is built from a value is within the levels when the value is. -/
theorem unlessTooDeep_map {α β : Type} (levels depth : Nat) (value : α) (f : α → β) :
    f <$> unlessTooDeep levels depth value = unlessTooDeep levels depth (f value) := by
  unfold unlessTooDeep
  split <;> rfl

/-- Two parts are within the levels when the deeper one is. -/
theorem unlessTooDeep_both {α β γ : Type} (first second depth : Nat) (value : α) (other : β)
    (join : α → β → γ) :
    (do
      let found ← unlessTooDeep first depth value
      let others ← unlessTooDeep second depth other
      return join found others) = unlessTooDeep (max first second) depth (join value other) := by
  unfold unlessTooDeep
  by_cases hfirst : first ≤ depth
  · rw [if_pos hfirst, Outcome.ok_bind]
    by_cases hsecond : second ≤ depth
    · rw [if_pos hsecond, if_pos (Nat.max_le.2 ⟨hfirst, hsecond⟩)]
      rfl
    · rw [if_neg hsecond, if_neg (fun hboth => hsecond (Nat.max_le.1 hboth).2)]
      rfl
  · rw [if_neg hfirst, if_neg (fun hboth => hfirst (Nat.max_le.1 hboth).1)]
    rfl

mutual

/-- A value whose numbers read back is read from its own text, unless the text nests too deep. -/
theorem members_written (depth : Nat) {value : Json} (h : value.NumbersReadBack) :
    members depth value.written = unlessTooDeep value.levels depth value := by
  cases value with
  | null | bool => rfl
  | number value =>
      rw [written, members, h]
      rfl
  | string value =>
      rw [written, members, read_quoted]
      rfl
  | array items =>
      cases depth with
      | zero => rfl
      | succ depth =>
          rw [written, members, arrayMembers_written depth true h, unlessTooDeep_map, levels,
            unlessTooDeep_succ]
  | object entries =>
      cases depth with
      | zero => rfl
      | succ depth =>
          rw [written, members, objectMembers_written depth true h, unlessTooDeep_map, levels,
            unlessTooDeep_succ]

theorem arrayMembers_written (depth : Nat) (isFirst : Bool) {items : List Json}
    (h : ItemsReadBack items) :
    arrayMembers depth (writtenItems isFirst items) =
      unlessTooDeep (itemsLevels items) depth items := by
  cases items with
  | nil => simp [writtenItems, arrayMembers, unlessTooDeep, itemsLevels]
  | cons item rest =>
      obtain ⟨hitem, hrest⟩ := h
      rw [writtenItems, arrayMembers, members_written depth hitem,
        arrayMembers_written depth false hrest]
      exact unlessTooDeep_both _ _ depth item rest List.cons

theorem objectMembers_written (depth : Nat) (isFirst : Bool) {entries : List (String × Json)}
    (h : EntriesReadBack entries) :
    objectMembers depth (writtenEntries isFirst entries) =
      unlessTooDeep (entriesLevels entries) depth entries := by
  cases entries with
  | nil => simp [writtenEntries, objectMembers, unlessTooDeep, entriesLevels]
  | cons entry rest =>
      obtain ⟨name, value⟩ := entry
      obtain ⟨hvalue, hrest⟩ := h
      rw [writtenEntries, objectMembers, read_quoted, Outcome.ok_bind, members_written depth hvalue,
        objectMembers_written depth false hrest]
      exact unlessTooDeep_both _ _ depth value rest fun first others => (name, first) :: others

end

end Decode

end SearchWire
