import SearchWire.Proofs.Json.ObjectText
import SearchWire.Response.RawResults

/-!
# Named results and where they come from

`Decode.rawResults_entries` says that an object of named results holds, under
each name, the last member of that name. `RawResults.get?_foldl_insertNew` says
that results added only where their names are free leave all earlier ones in
place, and that of two added under one name the first stays.
-/

namespace SearchWire

namespace Decode

/-- A walk that collects spans inserts the entries of the object in text order. -/
theorem walk_collectSpan {members : Members} {depth : Nat} {start results : RawResults}
    (h : walk (collectSpan depth) members start = .ok results) :
    results = start.insertAll members.entries := by
  cases members with
  | closed blank =>
      cases h
      rfl
  | torn damage text => cases h
  | member lead name middle value more =>
      rw [walk, Outcome.bind_eq_ok_iff] at h
      obtain ⟨key, hkey, h⟩ := h
      obtain ⟨next, hnext, h⟩ := Outcome.bind_eq_ok_iff.1 h
      obtain ⟨span, hspan, rfl⟩ := Outcome.map_eq_ok_iff.1 hnext
      have hrest := walk_collectSpan h
      rw [hrest, Members.entries, hkey, hspan]
      rfl

/-- An object of named results holds its entries, a later one replacing an earlier one. -/
theorem rawResults_entries {depth : Nat} {value : Raw} {results : RawResults}
    (h : rawResults depth value = .ok results) :
    results.entries = Named.insertAll value.entries [] := by
  obtain ⟨less, members, rfl, hwalk⟩ := object_eq_ok h
  rw [walk_collectSpan hwalk]
  rfl

end Decode

namespace RawResults

/-- What a result gives when its text is decoded alone. -/
def readAlone {α : Type} (name : String) (text : List Char) (decoder : Decoder α) :
    Except Failure (Option α) :=
  match decodeBody decoder (Symbol.ofChars text) with
  | .ok value => .ok (some value)
  | .error fault => .error (.unreadable name fault)

/-- Reading a result decodes its text alone. -/
theorem read_eq_readAlone {α : Type} {results : RawResults} {name : String} {text : PaddedText}
    (h : results.get? name = some text.span) (decoder : Decoder α) :
    results.read name decoder = readAlone name text.core decoder := by
  rewrite [read, h, readAlone, ← text.decode_span]
  rfl

/-- Reading a result that decodes gives its value. -/
theorem read_eq_ok {α : Type} {results : RawResults} {name : String} {span : Span}
    {decoder : Decoder α} {value : α} (h : results.get? name = some span)
    (hvalue : decoder nestingLimit span.value = .ok value) :
    results.read name decoder = .ok (some value) := by
  simp only [read, h, Span.decode, hvalue]

/-- A name that is not there reads as nothing. -/
theorem read_eq_none {α : Type} {results : RawResults} {name : String}
    (h : results.get? name = none) (decoder : Decoder α) :
    results.read name decoder = .ok none := by
  rw [read, h]

theorem get?_insert (results : RawResults) (name other : String) (span : Span) :
    (results.insert name span).get? other =
      (if name = other then some span else none).or (results.get? other) :=
  Named.find?_insert name other span results.entries

theorem get?_insertNew (results : RawResults) (name other : String) (span : Span) :
    (results.insertNew name span).get? other =
      (results.get? other).or (if name = other then some span else none) := by
  unfold insertNew
  by_cases hsame : name = other
  · subst hsame
    have hcontains : Named.contains name results.entries = (results.get? name).isSome := rfl
    cases hfound : results.get? name with
    | none => simp [hcontains, hfound, get?_insert]
    | some found => simp [hcontains, hfound]
  · rw [if_neg hsame, Option.or_none]
    split
    · rfl
    · rw [get?_insert, if_neg hsame, Option.none_or]

/-- Entries added one after another where their names are free: what was there stays, and the first
entry of a free name is added. -/
theorem get?_foldl_insertNew (results : RawResults) (entries : List (String × Span))
    (name : String) :
    (entries.foldl (fun results entry => results.insertNew entry.1 entry.2) results).get? name =
      (results.get? name).or (Named.find? name entries) := by
  induction entries generalizing results with
  | nil => exact Option.or_none.symm
  | cons entry rest ih =>
      rw [List.foldl_cons, ih, get?_insertNew, Option.or_assoc, Named.find?_cons]
      congr 1
      split <;> rfl

theorem sorted_insertNew {results : RawResults} (h : Named.Sorted results.entries) (name : String)
    (span : Span) : Named.Sorted (results.insertNew name span).entries := by
  unfold insertNew
  split
  · exact h
  · exact h.insert name span

theorem sorted_foldl_insertNew {results : RawResults} (h : Named.Sorted results.entries)
    (entries : List (String × Span)) :
    Named.Sorted
      (entries.foldl (fun results entry => results.insertNew entry.1 entry.2) results).entries := by
  induction entries generalizing results with
  | nil => exact h
  | cons entry rest ih => exact ih (sorted_insertNew h entry.1 entry.2)

end RawResults

end SearchWire
