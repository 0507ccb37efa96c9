import SearchWire.Bulk.Response

/-!
# The outcomes of a bulk response

Every position of a bulk response holds a success, a failure or an item that did
not decode. `BulkResponse.split` says that `failures` and `decodeErrors` tell
these apart exactly: each lists its positions in order, and together with the
successes they make up all positions, none of them twice.
-/

namespace SearchWire

namespace BulkResponse

/-- The outcome of one action, or why it could not be told. -/
abbrev Item := Except ItemFault ActionResponse

/-- The selection of successes. -/
def success? : Item → Option ActionResponse
  | .ok response => if response.isSuccess then some response else none
  | .error _ => none

/-- The selection of failures. -/
def failure? : Item → Option ActionResponse
  | .ok response => if response.isSuccess then none else some response
  | .error _ => none

/-- The selection of items that did not decode. -/
def fault? : Item → Option ItemFault
  | .ok _ => none
  | .error fault => some fault

/-! ## Selections with positions -/

section Picked

variable {β : Type}

/-- The entries that a selection takes from items, with their positions from a given one on. -/
def picked (select : Item → Option β) (position : Nat) (items : List Item) : List (Nat × β) :=
  (items.zipIdx position).filterMap fun entry => (select entry.1).map (entry.2, ·)

theorem picked_cons (select : Item → Option β) (position : Nat) (item : Item)
    (rest : List Item) :
    picked select position (item :: rest) =
      ((select item).map (position, ·)).toList ++ picked select (position + 1) rest := by
  rw [picked, List.zipIdx_cons, List.filterMap_cons]
  cases select item <;> rfl

/-- An entry is picked when its item is selected. -/
theorem mem_picked {select : Item → Option β} {items : List Item} {entry : Nat × β} :
    entry ∈ picked select 0 items ↔
      ∃ item, items[entry.1]? = some item ∧ select item = some entry.2 := by
  obtain ⟨position, value⟩ := entry
  simp only [picked, List.mem_filterMap, Option.map_eq_some_iff, Prod.mk.injEq]
  constructor
  · rintro ⟨⟨item, index⟩, hmem, found, hselect, rfl, rfl⟩
    exact ⟨item, List.mk_mem_zipIdx_iff_getElem?.1 hmem, hselect⟩
  · rintro ⟨item, hitem, hselect⟩
    exact ⟨(item, position), List.mk_mem_zipIdx_iff_getElem?.2 hitem, value, hselect, rfl, rfl⟩

/-- The positions of a selection increase. -/
theorem pairwise_picked (select : Item → Option β) (position : Nat) (items : List Item) :
    ((picked select position items).map Prod.fst).Pairwise (· < ·) := by
  have hall : ((items.zipIdx position).map Prod.snd).Pairwise (· < ·) := by
    rw [List.zipIdx_map_snd]
    exact List.pairwise_lt_range'
  rw [List.pairwise_map] at hall ⊢
  refine hall.filterMap _ fun first second hlt found hfound found' hfound' => ?_
  obtain ⟨_, _, rfl⟩ := Option.map_eq_some_iff.1 hfound
  obtain ⟨_, _, rfl⟩ := Option.map_eq_some_iff.1 hfound'
  exact hlt

end Picked

/-- Successes, failures and items that did not decode are at all positions, none at two. -/
theorem perm_picked (position : Nat) (items : List Item) :
    ((picked success? position items).map Prod.fst ++
      (picked failure? position items).map Prod.fst ++
      (picked fault? position items).map Prod.fst).Perm
        (List.range' position items.length) := by
  induction items generalizing position with
  | nil => exact .refl _
  | cons item rest ih =>
      -- the first position goes to the one list that selects its item
      have hrest := ih (position + 1)
      rw [picked_cons, picked_cons, picked_cons, List.length_cons, List.range'_succ]
      cases item with
      | error fault =>
          simp only [success?, failure?, fault?, Option.map_none, Option.map_some,
            Option.toList_none, Option.toList_some, List.nil_append, List.singleton_append,
            List.map_cons]
          exact List.perm_middle.trans (hrest.cons position)
      | ok response =>
          cases hsuccess : response.isSuccess with
          | true =>
              simp only [success?, failure?, fault?, hsuccess, if_true, Option.map_none,
                Option.map_some, Option.toList_none, Option.toList_some, List.nil_append,
                List.map_cons, List.cons_append]
              exact hrest.cons position
          | false =>
              simp only [success?, failure?, fault?, hsuccess, Bool.false_eq_true, if_false,
                Option.map_none, Option.map_some, Option.toList_none, Option.toList_some,
                List.nil_append, List.map_cons, List.append_assoc, List.cons_append]
              rw [List.append_assoc] at hrest
              exact List.perm_middle.trans (hrest.cons position)

/-! ## What the response tells -/

theorem undecoded_eq_picked (position : Nat) (items : List Item) :
    undecoded position items = picked fault? position items := by
  induction items generalizing position with
  | nil => rfl
  | cons item rest ih =>
      rw [picked_cons, ← ih]
      cases item <;> rfl

theorem filter_decoded_eq_picked (position : Nat) (items : List Item) :
    (decoded items).filter (!·.isSuccess) = (picked failure? position items).map Prod.snd := by
  induction items generalizing position with
  | nil => rfl
  | cons item rest ih =>
      rw [picked_cons, List.map_append, ← ih]
      cases item with
      | error fault => rfl
      | ok response =>
          cases hsuccess : response.isSuccess <;> simp [decoded, failure?, hsuccess]

/-- A response is split into successes and failures, each with its position, and the items that
did not decode. -/
structure Split (response : BulkResponse) (succeeded failed : List (Nat × ActionResponse)) :
    Prop where
  positions : (succeeded.map Prod.fst ++ failed.map Prod.fst ++
    response.decodeErrors.map Prod.fst).Perm (List.range response.items.length)
  succeeded_increase : (succeeded.map Prod.fst).Pairwise (· < ·)
  failed_increase : (failed.map Prod.fst).Pairwise (· < ·)
  undecoded_increase : (response.decodeErrors.map Prod.fst).Pairwise (· < ·)
  succeeded_items : ∀ entry ∈ succeeded,
    response.items[entry.1]? = some (.ok entry.2) ∧ entry.2.isSuccess = true
  failed_items : ∀ entry ∈ failed,
    response.items[entry.1]? = some (.ok entry.2) ∧ entry.2.isSuccess = false
  undecoded_items : ∀ entry ∈ response.decodeErrors,
    response.items[entry.1]? = some (.error entry.2)
  failures : response.failures = failed.map Prod.snd

theorem success?_eq_some {item : Item} {response : ActionResponse}
    (h : success? item = some response) : item = .ok response ∧ response.isSuccess = true := by
  cases item with
  | error fault => cases h
  | ok found =>
      rw [success?] at h
      split at h
      · next hsuccess =>
          cases h
          exact ⟨rfl, hsuccess⟩
      · cases h

theorem failure?_eq_some {item : Item} {response : ActionResponse}
    (h : failure? item = some response) : item = .ok response ∧ response.isSuccess = false := by
  cases item with
  | error fault => cases h
  | ok found =>
      rw [failure?] at h
      split at h
      · cases h
      · next hfailure =>
          cases h
          exact ⟨rfl, Bool.eq_false_iff.2 hfailure⟩

theorem fault?_eq_some {item : Item} {fault : ItemFault} (h : fault? item = some fault) :
    item = .error fault := by
  cases item with
  | ok response => cases h
  | error found =>
      cases h
      rfl

/-- Every response is split by its positions. -/
theorem split (response : BulkResponse) :
    response.Split (picked success? 0 response.items) (picked failure? 0 response.items) where
  positions := by
    rw [decodeErrors, undecoded_eq_picked, List.range_eq_range']
    exact perm_picked 0 response.items
  succeeded_increase := pairwise_picked success? 0 response.items
  failed_increase := pairwise_picked failure? 0 response.items
  undecoded_increase := by
    rw [decodeErrors, undecoded_eq_picked]
    exact pairwise_picked fault? 0 response.items
  succeeded_items := by
    intro entry hentry
    obtain ⟨item, hitem, hselect⟩ := mem_picked.1 hentry
    obtain ⟨rfl, hsuccess⟩ := success?_eq_some hselect
    exact ⟨hitem, hsuccess⟩
  failed_items := by
    intro entry hentry
    obtain ⟨item, hitem, hselect⟩ := mem_picked.1 hentry
    obtain ⟨rfl, hfailure⟩ := failure?_eq_some hselect
    exact ⟨hitem, hfailure⟩
  undecoded_items := by
    intro entry hentry
    rw [decodeErrors, undecoded_eq_picked] at hentry
    obtain ⟨item, hitem, hselect⟩ := mem_picked.1 hentry
    rw [hitem, fault?_eq_some hselect]
  failures := filter_decoded_eq_picked 0 response.items

end BulkResponse

end SearchWire
