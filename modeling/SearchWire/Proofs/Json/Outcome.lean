import Mathlib.Data.List.Forall2

/-!
# Steps that may fail

The readers of this library are chains of steps, each of which gives a value or
the first fault. The rewriting rules here run a chain whose steps are known, and
`bind_eq_ok_iff`, `map_eq_ok_iff` and `mapM_eq_ok_iff` take a chain apart that
ended well. `toOption_eq` and `mapM_map_eq` compare two chains.
-/

namespace SearchWire

namespace Outcome

variable {ε α β : Type}

@[simp] theorem ok_bind (value : α) (next : α → Except ε β) :
    (Except.ok value >>= next) = next value := rfl

@[simp] theorem error_bind (fault : ε) (next : α → Except ε β) :
    (Except.error fault >>= next) = .error fault := rfl

@[simp] theorem ok_map (f : α → β) (value : α) :
    f <$> (Except.ok value : Except ε α) = .ok (f value) := rfl

@[simp] theorem error_map (f : α → β) (fault : ε) :
    f <$> (Except.error fault : Except ε α) = .error fault := rfl

@[simp] theorem pure_eq_ok (value : α) : (pure value : Except ε α) = .ok value := rfl

/-- A chain of two steps ends well when both do. -/
theorem bind_eq_ok_iff {first : Except ε α} {next : α → Except ε β} {result : β} :
    first >>= next = .ok result ↔ ∃ value, first = .ok value ∧ next value = .ok result := by
  cases first with
  | error fault => simp
  | ok value => simp

/-- A mapped step ends well when the step does. -/
theorem map_eq_ok_iff {first : Except ε α} {f : α → β} {result : β} :
    f <$> first = .ok result ↔ ∃ value, first = .ok value ∧ f value = result := by
  cases first with
  | error fault => simp
  | ok value => simp

/-- A last step that only builds a result ends well when the step before it does. -/
theorem bind_ok_eq_ok_iff {first : Except ε α} {f : α → β} {result : β} :
    (first >>= fun value => .ok (f value)) = .ok result ↔
      ∃ value, first = .ok value ∧ f value = result := by
  cases first with
  | error fault => simp
  | ok value => simp

theorem exists_bind_ok_eq_ok_iff {first : Except ε α} {f : α → β} :
    (∃ result, (first >>= fun value => .ok (f value)) = .ok result) ↔
      ∃ value, first = .ok value := by
  cases first with
  | error fault => simp
  | ok value => simp

/-- A mapped step fails when the step does not end well. -/
theorem exists_map_eq_error_iff {first : Except ε α} {f : α → β} :
    (∃ fault, f <$> first = .error fault) ↔ ¬ ∃ result, first = .ok result := by
  cases first with
  | error fault => simp
  | ok value => simp

/-- Steps that end well together, and with the same result, give the same result or none. -/
theorem toOption_eq {first second : Except ε α}
    (h : ∀ result, first = .ok result ↔ second = .ok result) :
    first.toOption = second.toOption := by
  cases second with
  | ok result => rw [(h result).2 rfl]
  | error fault =>
      cases first with
      | ok result => cases (h result).1 rfl
      | error fault' => rfl

/-- Steps for the members of a list end well when each of them does. -/
theorem mapM_eq_ok_iff {f : α → Except ε β} {list : List α} {results : List β} :
    list.mapM f = .ok results ↔ List.Forall₂ (fun member result => f member = .ok result)
      list results := by
  induction list generalizing results with
  | nil => simp [eq_comm]
  | cons member rest ih =>
      simp only [List.mapM_cons, bind_eq_ok_iff, pure_eq_ok, Except.ok.injEq, ih,
        List.forall₂_cons_left_iff]
      constructor
      · rintro ⟨first, hfirst, others, hothers, rfl⟩
        exact ⟨first, others, hfirst, hothers, rfl⟩
      · rintro ⟨first, others, hfirst, hothers, rfl⟩
        exact ⟨first, hfirst, others, hothers, rfl⟩

theorem exists_mapM_iff {f : α → Except ε β} {list : List α} :
    (∃ results, list.mapM f = .ok results) ↔ ∀ member ∈ list, ∃ result, f member = .ok result := by
  induction list with
  | nil => simp
  | cons member rest ih =>
      rw [List.forall_mem_cons, ← ih]
      simp only [List.mapM_cons, bind_eq_ok_iff, pure_eq_ok]
      constructor
      · rintro ⟨_, first, hfirst, others, hothers, -⟩
        exact ⟨⟨first, hfirst⟩, others, hothers⟩
      · rintro ⟨⟨first, hfirst⟩, others, hothers⟩
        exact ⟨_, first, hfirst, others, hothers, rfl⟩

/-- Steps that end well for the members of a list do so in any other order, with the same
results. -/
theorem exists_mapM_of_perm {f : α → Except ε β} {first second : List α} {results : List β}
    (hperm : first.Perm second) (h : second.mapM f = .ok results) :
    ∃ others, first.mapM f = .ok others ∧ others.Perm results := by
  induction hperm generalizing results with
  | nil => exact ⟨results, h, .refl _⟩
  | cons member _ ih =>
      rw [mapM_eq_ok_iff, List.forall₂_cons_left_iff] at h
      obtain ⟨head, tail, hhead, htail, rfl⟩ := h
      obtain ⟨others, hothers, hsame⟩ := ih (mapM_eq_ok_iff.2 htail)
      exact ⟨head :: others, mapM_eq_ok_iff.2 (.cons hhead (mapM_eq_ok_iff.1 hothers)),
        hsame.cons head⟩
  | swap left right rest =>
      rw [mapM_eq_ok_iff, List.forall₂_cons_left_iff] at h
      obtain ⟨one, _, hone, h, rfl⟩ := h
      obtain ⟨two, others, htwo, hothers, rfl⟩ := List.forall₂_cons_left_iff.1 h
      exact ⟨two :: one :: others, mapM_eq_ok_iff.2 (.cons htwo (.cons hone hothers)), .swap _ _ _⟩
  | trans _ _ ihfirst ihsecond =>
      obtain ⟨middle, hmiddle, hsame⟩ := ihsecond h
      obtain ⟨others, hothers, hmore⟩ := ihfirst hmiddle
      exact ⟨others, hothers, hmore.trans hsame⟩

/-- When steps for the members of a list end well, each result stands where its member does. -/
theorem exists_getElem?_of_mapM {f : α → Except ε β} {list : List α} {results : List β}
    (h : list.mapM f = .ok results) {position : Nat} {member : α}
    (hmember : list[position]? = some member) :
    ∃ result, results[position]? = some result ∧ f member = .ok result := by
  have hall := mapM_eq_ok_iff.1 h
  obtain ⟨hposition, rfl⟩ := List.getElem?_eq_some_iff.1 hmember
  have hposition' : position < results.length := hall.length_eq ▸ hposition
  exact ⟨results[position], List.getElem?_eq_getElem hposition', hall.get hposition hposition'⟩

/-- Mapping each result of a list of steps is mapping all of them at the end. -/
theorem mapM_map_eq {γ : Type} (f : α → Except ε β) (g : α → β → γ) (list : List α) :
    list.mapM (fun member => g member <$> f member) = List.zipWith g list <$> list.mapM f := by
  induction list with
  | nil => rfl
  | cons member rest ih =>
      rw [List.mapM_cons, List.mapM_cons, ih]
      cases f member with
      | error fault => rfl
      | ok first => cases rest.mapM f <;> rfl

end Outcome

end SearchWire
