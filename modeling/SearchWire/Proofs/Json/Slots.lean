import SearchWire.Proofs.Json.ReadBack
import SearchWire.Query.Compile

/-!
# Objects with members that may be missing

A request writes an option as a member when it is set and leaves the member out
otherwise. Such an object is a list of slots, and `record_present_injective`
says that the object determines what stands in each slot: the names of the slots
are distinct, so a missing member is never taken for another one.
`underField_injective` says the same of the two forms of a value under a field,
which are told apart because the value itself is no object.
-/

namespace SearchWire

namespace Json

/-- The members of the slots that are filled. -/
def present (slots : List (String × Option Json)) : List (String × Json) :=
  slots.flatMap fun slot => optional slot.1 slot.2

theorem present_cons (slot : String × Option Json) (rest : List (String × Option Json)) :
    present (slot :: rest) = optional slot.1 slot.2 ++ present rest := rfl

theorem names_present_sublist (slots : List (String × Option Json)) :
    ((present slots).map Prod.fst).Sublist (slots.map Prod.fst) := by
  induction slots with
  | nil => exact List.Sublist.refl _
  | cons slot rest ih =>
      obtain ⟨name, value⟩ := slot
      rw [present_cons]
      cases value with
      | none => exact ih.cons name
      | some value => exact ih.cons_cons name

/-- The first slot is not filled from a later one. -/
theorem present_ne_cons {name : String} {slots : List (String × Option Json)}
    (h : name ∉ slots.map Prod.fst) (value : Json) (rest : List (String × Json)) :
    present slots ≠ (name, value) :: rest := by
  intro hsame
  have hname : name ∈ (present slots).map Prod.fst := by rw [hsame]; exact List.mem_cons_self
  exact h ((names_present_sublist slots).subset hname)

/-- Members determine what stands in the slots they come from. -/
theorem present_injective {names : List String} (hdistinct : names.Nodup)
    {first second : List (String × Option Json)} (hfirst : first.map Prod.fst = names)
    (hsecond : second.map Prod.fst = names) (h : present first = present second) :
    first = second := by
  induction first generalizing second names with
  | nil =>
      subst hfirst
      exact (List.map_eq_nil_iff.1 hsecond).symm
  | cons slot rest ih =>
      obtain ⟨name, value⟩ := slot
      subst hfirst
      obtain ⟨other, others, rfl, hname, hothers⟩ := List.map_eq_cons_iff.1 hsecond
      obtain ⟨otherName, otherValue⟩ := other
      obtain rfl : otherName = name := hname
      obtain ⟨hfree, hlater⟩ := List.nodup_cons.1 hdistinct
      rw [present_cons, present_cons] at h
      cases value with
      | none =>
          cases otherValue with
          | none => rw [ih hlater rfl hothers h]
          | some json => exact absurd h (present_ne_cons hfree json _)
      | some json =>
          cases otherValue with
          | none => exact absurd h.symm (present_ne_cons (hothers ▸ hfree) json _)
          | some otherJson =>
              obtain ⟨hjson, hmore⟩ := List.cons.inj h
              cases hjson
              rw [ih hlater rfl hothers hmore]

/-- An object determines what stands in its slots. -/
theorem record_present_injective (names : List String) (hdistinct : names.Nodup)
    {first second : List (String × Option Json)} (hfirst : first.map Prod.fst = names)
    (hsecond : second.map Prod.fst = names)
    (h : record (present first) = record (present second)) : first = second := by
  have hnodup {slots : List (String × Option Json)} (hslots : slots.map Prod.fst = names) :
      ((present slots).map Prod.fst).Nodup :=
    (hslots ▸ hdistinct).sublist (names_present_sublist slots)
  rw [record_of_nodup (hnodup hfirst), record_of_nodup (hnodup hsecond)] at h
  exact present_injective hdistinct hfirst hsecond (Json.object.inj h)

/-- A value is no object. -/
def NoObject (value : Json) : Prop :=
  ∀ entries, value ≠ .object entries

theorem single_injective {first second : String} {value other : Json}
    (h : single first value = single second other) : first = second ∧ value = other := by
  cases h
  exact ⟨rfl, rfl⟩

/-- A value under a field determines the field, the value and the options, whichever form it is
written in. -/
theorem underField_injective (valueName : String) (names : List String)
    (hdistinct : (valueName :: names).Nodup) {field otherField : String} {value otherValue : Json}
    {slots otherSlots : List (String × Option Json)} (hslots : slots.map Prod.fst = names)
    (hotherSlots : otherSlots.map Prod.fst = names) (hvalue : value.NoObject)
    (hotherValue : otherValue.NoObject)
    (h : underField field valueName value (present slots) =
      underField otherField valueName otherValue (present otherSlots)) :
    field = otherField ∧ value = otherValue ∧ slots = otherSlots := by
  obtain ⟨hfield, hbody⟩ := single_injective h
  refine ⟨hfield, ?_⟩
  split at hbody
  · next hshort =>
      split at hbody
      · next hotherShort =>
          rw [List.isEmpty_iff] at hshort hotherShort
          exact ⟨hbody, present_injective (List.nodup_cons.1 hdistinct).2 hslots hotherSlots
            (hshort.trans hotherShort.symm)⟩
      · exact absurd hbody (hvalue _)
  · split at hbody
    · exact absurd hbody.symm (hotherValue _)
    · -- in the long form the value is one more slot, and it is filled
      have hall := @record_present_injective (valueName :: names) hdistinct
        ((valueName, some value) :: slots) ((valueName, some otherValue) :: otherSlots)
        (congrArg _ hslots) (congrArg _ hotherSlots) hbody
      obtain ⟨hfirst, hrest⟩ := List.cons.inj hall
      exact ⟨Option.some.inj (Prod.ext_iff.1 hfirst).2, hrest⟩

end Json

end SearchWire
