import SearchWire.Binary64.Basic

/-!
# JSON values

A number is an integer or a finite double, so no JSON value holds a NaN or an
infinity: `Json.ofBinary64` writes those as `null`. An object lists its entries
in order. `Json.record` builds one entry by entry; an entry under a name that is
already present keeps the earlier place and takes the later value.
-/

namespace SearchWire

/-- A JSON number: an integer, or a finite double. -/
inductive Number where
  | int (value : Int)
  | float (value : Finite)
deriving DecidableEq

/-- A JSON value. -/
inductive Json where
  | null
  | bool (value : Bool)
  | number (value : Number)
  | string (value : String)
  | array (items : List Json)
  | object (entries : List (String × Json))
deriving Inhabited

namespace Json

/-- A JSON integer. -/
def int (value : Int) : Json :=
  .number (.int value)

/-- A JSON integer that is a natural number. -/
def nat (value : Nat) : Json :=
  .number (.int value)

/-- A double as a JSON number; a NaN and the infinities have no number and become `null`. -/
def ofBinary64 : Binary64 → Json
  | .finite value => .number (.float value)
  | .infinite _ | .nan _ => .null

/-- An array of strings. -/
def strings (values : List String) : Json :=
  .array (values.map .string)

/-- Sets the entry of a name: in its place when the name is present, at the end otherwise. -/
def insertEntry {α : Type} (name : String) (value : α) : List (String × α) → List (String × α)
  | [] => [(name, value)]
  | (other, old) :: rest =>
      if other = name then (name, value) :: rest else (other, old) :: insertEntry name value rest

/-- Setting the entry of a new name appends it. -/
theorem insertEntry_of_notMem {α : Type} {name : String} (value : α)
    {entries : List (String × α)} (absent : name ∉ entries.map Prod.fst) :
    insertEntry name value entries = entries ++ [(name, value)] := by
  induction entries with
  | nil => rfl
  | cons entry rest ih =>
      obtain ⟨other, old⟩ := entry
      simp only [List.map_cons, List.mem_cons, not_or] at absent
      simp [insertEntry, Ne.symm absent.1, ih absent.2]

/-- Setting the entry of a present name keeps the names and their places. -/
theorem names_insertEntry_of_mem {α : Type} {name : String} (value : α)
    {entries : List (String × α)} (present : name ∈ entries.map Prod.fst) :
    (insertEntry name value entries).map Prod.fst = entries.map Prod.fst := by
  induction entries with
  | nil => simp at present
  | cons entry rest ih =>
      obtain ⟨other, old⟩ := entry
      simp only [insertEntry]
      split
      · next same => simp [same]
      · next different =>
          simp only [List.map_cons, List.mem_cons] at present
          have later := present.resolve_left (Ne.symm different)
          simp [ih later]

/-- The object built by setting the given entries one after another. -/
def record (entries : List (String × Json)) : Json :=
  .object (entries.foldl (fun built entry => insertEntry entry.1 entry.2 built) [])

/-- The object with one entry. -/
def single (name : String) (value : Json) : Json :=
  .object [(name, value)]

/-- The entry of an option that is set, and no entry otherwise. -/
def optional (name : String) (value : Option Json) : List (String × Json) :=
  match value with
  | some json => [(name, json)]
  | none => []

/-- The entry of a list that is not empty, and no entry otherwise. -/
def unlessEmpty (name : String) (items : List Json) : List (String × Json) :=
  if items.isEmpty then [] else [(name, .array items)]

/-- The value of the first entry under a name. -/
def entry? (name : String) : Json → Option Json
  | .object entries => entries.lookup name
  | _ => none

end Json

end SearchWire
