/-!
# Named things in the order of their names

A list of pairs of a name and a thing in which the names increase. `insert`
keeps the order and replaces the thing of a name that is present, so every name
stands once whatever the history of insertions.
-/

namespace SearchWire

namespace Named

variable {α : Type}

/-- Puts a thing under its name, in place of the thing that has the name already. -/
def insert (name : String) (thing : α) : List (String × α) → List (String × α)
  | [] => [(name, thing)]
  | (other, old) :: rest =>
      if name < other then (name, thing) :: (other, old) :: rest
      else if name = other then (name, thing) :: rest
      else (other, old) :: insert name thing rest

/-- Puts a thing under its name and tells which thing it replaces, if any. -/
def exchange (name : String) (thing : α) : List (String × α) → Option α × List (String × α)
  | [] => (none, [(name, thing)])
  | (other, old) :: rest =>
      if name < other then (none, (name, thing) :: (other, old) :: rest)
      else if name = other then (some old, (name, thing) :: rest)
      else
        let (replaced, kept) := exchange name thing rest
        (replaced, (other, old) :: kept)

/-- Inserts pairs one after another. -/
def insertAll (entries named : List (String × α)) : List (String × α) :=
  entries.foldl (fun built entry => insert entry.1 entry.2 built) named

/-- The things inserted one after another under their names. -/
def ofList (entries : List (String × α)) : List (String × α) :=
  insertAll entries []

/-- The thing under a name. -/
def find? (name : String) (named : List (String × α)) : Option α :=
  named.lookup name

/-- Whether a name is present. -/
def contains (name : String) (named : List (String × α)) : Bool :=
  (find? name named).isSome

/-- A thing is found under the name it was put under. -/
theorem find?_insert_self (name : String) (thing : α) (named : List (String × α)) :
    find? name (insert name thing named) = some thing := by
  unfold find?
  induction named with
  | nil => simp [insert]
  | cons entry rest ih =>
      obtain ⟨other, old⟩ := entry
      simp only [insert]
      split
      · simp
      · split
        · simp
        · next different =>
            have unequal : (name == other) = false := by simpa using different
            simpa [List.lookup_cons, unequal] using ih

/-- Putting a thing under one name leaves the things under the other names. -/
theorem find?_insert_of_ne {name other : String} (thing : α) (named : List (String × α))
    (different : other ≠ name) : find? other (insert name thing named) = find? other named := by
  have unequal : (other == name) = false := by simpa using different
  unfold find?
  induction named with
  | nil => simp [insert, List.lookup_cons, unequal]
  | cons entry rest ih =>
      obtain ⟨present, old⟩ := entry
      simp only [insert]
      split
      · simp [List.lookup_cons, unequal]
      · split
        · next same =>
            subst same
            simp [List.lookup_cons, unequal]
        · simp only [List.lookup_cons, ih]

end Named

end SearchWire
