import SearchWire.Json.Value
import SearchWire.Json.Span
import SearchWire.Proofs.Json.ObjectText

/-!
# What decodes has no damage

A decoder looks at the values that it keeps and passes over the others. Either
way it gives no result for a text that is broken off or malformed anywhere in
the value, so a reader that is content with well-formed text accepts at least
what a decoder accepts. `Decode.Thorough` says this of a decoder, and there is
one lemma for each way to build decoders.
-/

namespace SearchWire

open Raw

/-- The pieces of a string stand for symbols only when the string is closed. -/
theorem Quoted.tear_eq_none {tear : Option (Damage × List Symbol)} {pieces : List Piece}
    {symbols : List Symbol} (h : unescape tear pieces = .ok symbols) : tear = none := by
  match pieces with
  | [] =>
      match tear with
      | none => rfl
      | some _ => cases h
  | .plain _ :: rest | .escape _ :: rest =>
      obtain ⟨_, hrest, -⟩ := Outcome.map_eq_ok_iff.1 h
      exact tear_eq_none hrest
  | .unicode a b c d :: rest =>
      rw [unescape.eq_def] at h
      dsimp only at h
      split at h
      · cases h
      split at h
      · match rest with
        | .unicode _ _ _ _ :: more =>
            -- both halves of a pair
            dsimp only at h
            split at h
            · obtain ⟨_, hmore, -⟩ := Outcome.map_eq_ok_iff.1 h
              exact tear_eq_none hmore
            · cases h
        | [] | .plain _ :: _ | .escape _ :: _ => cases h
      · obtain ⟨_, hrest, -⟩ := Outcome.map_eq_ok_iff.1 h
        exact tear_eq_none hrest

/-- A string that reads has no damage. -/
theorem Quoted.damage?_eq_none {quoted : Quoted} {text : String} (h : quoted.read = .ok text) :
    quoted.damage? = none := by
  obtain ⟨chars, hchars, -⟩ := Outcome.map_eq_ok_iff.1 h
  rw [characters] at hchars
  split at hchars
  · cases hchars
  · next symbols hsymbols => rw [damage?, tear_eq_none hsymbols, Option.map_none]

namespace Decode

variable {α β σ : Type}

/-- An outcome is a result only when the value has no damage. -/
def Checks (value : Raw) (outcome : Except Fault α) : Prop :=
  ∀ result, outcome = .ok result → value.damage? = none

/-- An outcome, with the items that it leaves, is a result only when all damage of the items is
among those that are left. -/
def ChecksItems (items : Items) (outcome : Except Fault (α × Items)) : Prop :=
  ∀ result rest, outcome = .ok (result, rest) → itemsDamage? rest = none →
    itemsDamage? items = none

/-- A decoder gives results only for values without damage. -/
def Thorough (decoder : Decoder α) : Prop :=
  ∀ depth value, Checks value (decoder depth value)

namespace Checks

variable {value : Raw} {outcome : Except Fault α}

theorem error (value : Raw) (fault : Fault) : Checks value (.error fault : Except Fault α) :=
  fun _ h => nomatch h

theorem refuse (value other : Raw) (expected : String) :
    Checks value (other.refuse expected : Except Fault α) :=
  fun _ h => absurd h (refuse_ne_ok _ _ _)

theorem of_intact (h : value.damage? = none) : Checks value outcome :=
  fun _ _ => h

theorem map (h : Checks value outcome) (f : α → β) : Checks value (f <$> outcome) := by
  intro result hresult
  obtain ⟨found, hfound, -⟩ := Outcome.map_eq_ok_iff.1 hresult
  exact h found hfound

theorem bind (h : Checks value outcome) (next : α → Except Fault β) :
    Checks value (outcome >>= next) := by
  intro result hresult
  obtain ⟨found, hfound, -⟩ := Outcome.bind_eq_ok_iff.1 hresult
  exact h found hfound

theorem once (h : Checks value outcome) (field : String) (slot : Option α) :
    Checks value (Decode.once field slot outcome) := by
  cases slot with
  | some old => exact error value _
  | none => exact h.map some

theorem skip (value : Raw) : Checks value value.skip := by
  intro result h
  rw [Raw.skip] at h
  split at h
  · cases h
  · next hdamage => exact hdamage

end Checks

/-! ## Single values -/

theorem thorough_bool : Thorough bool := by
  intro depth value
  unfold bool
  split
  · exact .of_intact rfl
  · exact .refuse _ _ _

theorem checks_quoted (quoted : Quoted) : Checks (.string quoted) quoted.read :=
  fun _ h => Quoted.damage?_eq_none h

theorem thorough_stringAs (expected : String) : Thorough (stringAs expected) := by
  intro depth value
  unfold stringAs
  split
  · exact checks_quoted _
  · exact .refuse _ _ _

theorem thorough_intWithin (expected : String) (low high : Int) :
    Thorough (intWithin expected low high) := by
  intro depth value
  unfold intWithin
  split
  · exact .of_intact rfl
  · exact .refuse _ _ _

theorem thorough_double : Thorough double := by
  intro depth value
  unfold double
  split
  · exact .of_intact rfl
  · exact .refuse _ _ _

theorem thorough_span : Thorough span := by
  intro depth value found h
  rw [← Span.value_of_ofRaw h]
  exact found.intact

/-! ## Values made of others -/

variable {inner : Decoder α} {element : Raw → Except Fault α}
  {step : σ → String → Raw → Except Fault σ}

theorem Thorough.map (h : Thorough inner) (f : α → β) :
    Thorough fun depth value => f <$> inner depth value :=
  fun depth value => (h depth value).map f

theorem Thorough.optional (h : Thorough inner) : Thorough (optional inner) := by
  intro depth value
  unfold Decode.optional
  split
  · exact .of_intact rfl
  · exact (h _ _).map some

/-- An item and the items behind it have no damage when all of them have none. -/
theorem itemsDamage?_item (lead : List Char) {value : Raw} {more : Items}
    (hvalue : value.damage? = none) (hmore : itemsDamage? more = none) :
    itemsDamage? (.item lead value more) = none := by
  rw [itemsDamage?, hvalue, hmore]
  rfl

/-- A member and the members behind it have no damage when all of them have none. -/
theorem membersDamage?_member (lead middle : List Char) {name : Quoted} {key : String}
    {value : Raw} {more : Members} (hname : name.read = .ok key) (hvalue : value.damage? = none)
    (hmore : membersDamage? more = none) :
    membersDamage? (.member lead name middle value more) = none := by
  rw [membersDamage?, Quoted.damage?_eq_none hname, hvalue, hmore]
  rfl

theorem checks_each (h : ∀ value, Checks value (element value)) (items : Items) :
    Checks (.array items) (each element items) := by
  intro results hresults
  cases items with
  | closed blank => rfl
  | torn damage text => cases hresults
  | item lead value more =>
      rw [each] at hresults
      obtain ⟨first, hfirst, hresults⟩ := Outcome.bind_eq_ok_iff.1 hresults
      obtain ⟨rest, hrest, -⟩ := Outcome.bind_eq_ok_iff.1 hresults
      exact itemsDamage?_item lead (h value first hfirst) (checks_each h more rest hrest)

theorem Thorough.list (h : Thorough inner) : Thorough (list inner) := by
  intro depth value
  unfold Decode.list
  split
  · exact checks_each (h _) _
  · exact .error _ _
  · exact .refuse _ _ _

/-- A walk that looks at every value gets through members without damage only. -/
theorem checks_walk (h : ∀ state name value, Checks value (step state name value))
    (members : Members) (state : σ) : Checks (.object members) (walk step members state) := by
  intro result hresult
  cases members with
  | closed blank => rfl
  | torn damage text => cases hresult
  | member lead name middle value more =>
      rw [walk] at hresult
      obtain ⟨key, hkey, hresult⟩ := Outcome.bind_eq_ok_iff.1 hresult
      obtain ⟨next, hnext, hresult⟩ := Outcome.bind_eq_ok_iff.1 hresult
      exact membersDamage?_member lead middle hkey (h state key value next hnext)
        (checks_walk h more next result hresult)

theorem thorough_object {step : Nat → σ → String → Raw → Except Fault σ}
    (h : ∀ depth state name value, Checks value (step depth state name value))
    (expected : String) (start : σ) : Thorough (object expected step start) := by
  intro depth value
  unfold object
  split
  · exact checks_walk (h _) _ _
  · exact .error _ _
  · exact .refuse _ _ _

theorem ChecksItems.done (items : Items) (result : α) :
    ChecksItems items (.ok (result, items)) := by
  intro _ rest h hrest
  cases h
  exact hrest

/-- A field that is taken from items is looked at. -/
theorem ChecksItems.next (h : ∀ value, Checks value (element value)) {items : Items}
    {more : Option α × Items → Except Fault (β × Items)}
    (hmore : ∀ field rest, ChecksItems rest (more (field, rest))) :
    ChecksItems items (Decode.next element items >>= more) := by
  intro result rest hresult hrest
  obtain ⟨⟨field, others⟩, hfield, hresult⟩ := Outcome.bind_eq_ok_iff.1 hresult
  have hothers := hmore field others result rest hresult hrest
  cases items with
  | closed blank => rfl
  | torn damage text => cases hfield
  | item lead value more =>
      obtain ⟨found, hfound, hlast⟩ := Outcome.bind_eq_ok_iff.1 hfield
      cases hlast
      exact itemsDamage?_item lead (h value found hfound) hothers

theorem itemsDamage?_of_finish {items : Items} (h : finish items = .ok ()) :
    itemsDamage? items = none := by
  cases items with
  | closed blank => rfl
  | torn | item => cases h

theorem membersDamage?_of_finishMembers {members : Members} (h : finishMembers members = .ok ()) :
    membersDamage? members = none := by
  cases members with
  | closed blank => rfl
  | torn damage text =>
      rw [finishMembers] at h
      split at h <;> cases h
  | member => cases h

theorem thorough_record {ofMembers : Nat → Members → Except Fault α}
    {ofItems : Nat → Items → Except Fault (α × Items)}
    (hmembers : ∀ depth members, Checks (.object members) (ofMembers depth members))
    (hitems : ∀ depth items, ChecksItems items (ofItems depth items)) (name : String) :
    Thorough (record name ofMembers ofItems) := by
  intro depth value
  unfold record
  split
  · exact hmembers _ _
  · next depth items =>
      intro result hresult
      obtain ⟨⟨found, rest⟩, hfound, hresult⟩ := Outcome.bind_eq_ok_iff.1 hresult
      obtain ⟨_, hfinish, -⟩ := Outcome.bind_eq_ok_iff.1 hresult
      exact hitems depth items found rest hfound (itemsDamage?_of_finish hfinish)
  · exact .error _ _
  · exact .error _ _
  · exact .refuse _ _ _

/-! ## Values of any kind -/

mutual

theorem thorough_members (depth : Nat) (value : Raw) : Checks value (members depth value) := by
  cases value with
  | null | bool | number => exact .of_intact rfl
  | string quoted =>
      rw [members]
      exact (checks_quoted quoted).map _
  | array items =>
      cases depth with
      | zero => exact .error _ _
      | succ depth => exact (checks_arrayMembers depth items).map _
  | object entries =>
      cases depth with
      | zero => exact .error _ _
      | succ depth => exact (checks_objectMembers depth entries).map _
  | cutNumber | broken => exact .error _ _

theorem checks_arrayMembers (depth : Nat) (items : Items) :
    Checks (.array items) (arrayMembers depth items) := by
  intro results hresults
  cases items with
  | closed blank => rfl
  | torn damage text => cases hresults
  | item lead value more =>
      rw [arrayMembers] at hresults
      obtain ⟨first, hfirst, hresults⟩ := Outcome.bind_eq_ok_iff.1 hresults
      obtain ⟨rest, hrest, -⟩ := Outcome.bind_eq_ok_iff.1 hresults
      exact itemsDamage?_item lead (thorough_members depth value first hfirst)
        (checks_arrayMembers depth more rest hrest)

theorem checks_objectMembers (depth : Nat) (entries : Members) :
    Checks (.object entries) (objectMembers depth entries) := by
  intro results hresults
  cases entries with
  | closed blank => rfl
  | torn damage text => cases hresults
  | member lead name middle value more =>
      rw [objectMembers] at hresults
      obtain ⟨key, hkey, hresults⟩ := Outcome.bind_eq_ok_iff.1 hresults
      obtain ⟨first, hfirst, hresults⟩ := Outcome.bind_eq_ok_iff.1 hresults
      obtain ⟨rest, hrest, -⟩ := Outcome.bind_eq_ok_iff.1 hresults
      exact membersDamage?_member lead middle hkey (thorough_members depth value first hfirst)
        (checks_objectMembers depth more rest hrest)

end

mutual

theorem thorough_jsonWith (carried : String → Except Fault Json) (depth : Nat) (value : Raw) :
    Checks value (jsonWith carried depth value) := by
  cases value with
  | null | bool | number => exact .of_intact rfl
  | string quoted =>
      rw [jsonWith]
      exact (checks_quoted quoted).map _
  | array items =>
      cases depth with
      | zero => exact .error _ _
      | succ depth => exact (checks_itemsWith carried depth items).map _
  | object entries =>
      cases depth with
      | zero => exact .error _ _
      | succ depth => exact checks_objectWith carried depth entries
  | cutNumber | broken => exact .error _ _

theorem checks_itemsWith (carried : String → Except Fault Json) (depth : Nat) (items : Items) :
    Checks (.array items) (itemsWith carried depth items) := by
  intro results hresults
  cases items with
  | closed blank => rfl
  | torn damage text => cases hresults
  | item lead value more =>
      rw [itemsWith] at hresults
      obtain ⟨first, hfirst, hresults⟩ := Outcome.bind_eq_ok_iff.1 hresults
      obtain ⟨rest, hrest, -⟩ := Outcome.bind_eq_ok_iff.1 hresults
      exact itemsDamage?_item lead (thorough_jsonWith carried depth value first hfirst)
        (checks_itemsWith carried depth more rest hrest)

theorem checks_objectWith (carried : String → Except Fault Json) (depth : Nat) (entries : Members) :
    Checks (.object entries) (objectWith carried depth entries) := by
  intro result hresult
  cases entries with
  | closed blank => rfl
  | torn damage text => cases hresult
  | member lead name middle value more =>
      rw [objectWith] at hresult
      obtain ⟨key, hkey, hresult⟩ := Outcome.bind_eq_ok_iff.1 hresult
      split at hresult
      · -- a carrier is read to its end, though its value is that of another text
        obtain ⟨text, htext, hresult⟩ := Outcome.bind_eq_ok_iff.1 hresult
        obtain ⟨found, -, hresult⟩ := Outcome.bind_eq_ok_iff.1 hresult
        obtain ⟨_, hfinish, -⟩ := Outcome.bind_eq_ok_iff.1 hresult
        exact membersDamage?_member lead middle hkey (thorough_stringAs _ depth value text htext)
          (membersDamage?_of_finishMembers hfinish)
      · obtain ⟨first, hfirst, hresult⟩ := Outcome.bind_eq_ok_iff.1 hresult
        obtain ⟨rest, hrest, -⟩ := Outcome.bind_eq_ok_iff.1 hresult
        exact membersDamage?_member lead middle hkey
          (thorough_jsonWith carried depth value first hfirst)
          (checks_entriesWith carried depth more rest hrest)

theorem checks_entriesWith (carried : String → Except Fault Json) (depth : Nat)
    (entries : Members) : Checks (.object entries) (entriesWith carried depth entries) := by
  intro results hresults
  cases entries with
  | closed blank => rfl
  | torn damage text => cases hresults
  | member lead name middle value more =>
      rw [entriesWith] at hresults
      obtain ⟨key, hkey, hresults⟩ := Outcome.bind_eq_ok_iff.1 hresults
      obtain ⟨first, hfirst, hresults⟩ := Outcome.bind_eq_ok_iff.1 hresults
      obtain ⟨rest, hrest, -⟩ := Outcome.bind_eq_ok_iff.1 hresults
      exact membersDamage?_member lead middle hkey
        (thorough_jsonWith carried depth value first hfirst)
        (checks_entriesWith carried depth more rest hrest)

end

end Decode

end SearchWire
