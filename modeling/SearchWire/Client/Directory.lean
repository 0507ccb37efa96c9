/-!
# A directory of texts

A directory holds files and further directories. A location names one place in
it, by the names on the way; a path is a text of parts that leads to a location
and may also stay, or go up. `Directory.find?` follows a path through the
directories that exist, and `Directory.save` creates those that are missing and
then writes a file.
-/

namespace SearchWire

/-- The names that lead to a place, from the outermost on; none lead to the directory itself. A
place outside it begins with one `..` for each directory above. -/
abbrev Location := List String

/-- Whether a place is the directory itself or one of those above it, which always exist. -/
def Location.isAbove (location : Location) : Bool :=
  location.all fun name => name = ".."

/-- What stands at a place. -/
inductive FileEntry where
  | file (text : String)
  | directory
deriving DecidableEq

/-- The places that hold something, seen from a directory and without those that always exist. -/
structure Directory where
  entries : List (Location × FileEntry) := []

namespace Directory

/-- The parts of a path. -/
def parts (path : String) : List String :=
  (path.toList.splitOn '/').map String.ofList

/-- Whether a part stays where it is. -/
def stays (part : String) : Bool :=
  part = "" || part = "."

/-- Whether a part holds the character that no path may have. -/
def hasNull (part : String) : Bool :=
  part.toList.contains '\x00'

/-- Whether a part is the name of a place, of at most 255 bytes. -/
def isName (part : String) : Bool :=
  !stays part && part ≠ ".." && !hasNull part && part.utf8ByteSize ≤ 255

/-- The location to which one part of a path leads. -/
def step (location : Location) (part : String) : Location :=
  if stays part then location
  else if part = ".." && !location.isAbove then location.dropLast
  else location ++ [part]

/-- What stands at a location. -/
def content? (directory : Directory) (location : Location) : Option FileEntry :=
  if location.isAbove then some .directory else directory.entries.lookup location

/-- Puts an entry at a location in place of the former one. -/
def put (directory : Directory) (location : Location) (entry : FileEntry) : Directory :=
  ⟨(location, entry) :: directory.entries.filter (·.1 ≠ location)⟩

/-- An entry is found where it was put, unless the place always exists. -/
theorem content?_put_self (directory : Directory) {location : Location} (entry : FileEntry)
    (below : location.isAbove = false) :
    (directory.put location entry).content? location = some entry := by
  simp [put, content?, below]

/-- Putting an entry at one location leaves what stands at the others. -/
theorem content?_put_of_ne (directory : Directory) {location other : Location} (entry : FileEntry)
    (different : other ≠ location) :
    (directory.put location entry).content? other = directory.content? other := by
  have kept : ∀ entries : List (Location × FileEntry),
      (entries.filter (·.1 ≠ location)).lookup other = entries.lookup other := by
    intro entries
    induction entries with
    | nil => rfl
    | cons first rest ih =>
        obtain ⟨place, old⟩ := first
        by_cases same : place = location
        · have unequal : (other == place) = false := by simpa [same] using different
          rw [List.filter_cons_of_neg (by simp [same]), ih, List.lookup_cons, unequal]
        · rw [List.filter_cons_of_pos (by simp [same]), List.lookup_cons, List.lookup_cons, ih]
  have unequal : (other == location) = false := by simpa using different
  simp only [put, content?, List.lookup_cons, unequal, kept]

/-- The location to which parts of a path lead. Each part is taken from a directory. -/
def follow? (directory : Directory) (location : Location) : List String → Option Location
  | [] => some location
  | part :: rest =>
      if directory.content? location = some .directory then
        directory.follow? (step location part) rest
      else none

/-- What stands at a path. -/
def find? (directory : Directory) (path : String) : Option FileEntry := do
  let location ← directory.follow? [] (parts path)
  directory.content? location

/-- Creates the directories along parts of a path that are missing, and whether all of them exist
then: a file in the way, or a name that cannot be, stops it. -/
def makeAlong (directory : Directory) (location : Location) : List String → Directory × Bool
  | [] => (directory, true)
  | part :: rest =>
      let next := step location part
      match directory.content? next with
      | some .directory => directory.makeAlong next rest
      | some (.file _) => (directory, false)
      | none =>
          if isName part then (directory.put next .directory).makeAlong next rest
          else (directory, false)

/-- The parts of the path to the directory above: the last part that does not stay is left out. -/
def partsAbove (path : String) : List String :=
  ((parts path).filter fun part => !stays part).dropLast

/-- Creates the directories above a path, and whether all of them exist then. -/
def makeAbove (directory : Directory) (path : String) : Directory × Bool :=
  let above := partsAbove path
  if above.any hasNull then (directory, false) else directory.makeAlong [] above

/-- Writes a file at a path, in a directory that exists. -/
def write? (directory : Directory) (path text : String) : Option Directory := do
  let place ← directory.follow? [] (parts path).dropLast
  let name ← (parts path).getLast?
  if directory.content? place = some .directory ∧ isName name ∧
      directory.content? (place ++ [name]) ≠ some .directory then
    some (directory.put (place ++ [name]) (.file text))
  else none

/-- Writes a file at a path, below directories that are created as needed, and whether it did.
The directories stay when the file cannot be written. -/
def save (directory : Directory) (path text : String) : Directory × Bool :=
  match directory.makeAbove path with
  | (made, false) => (made, false)
  | (made, true) =>
      match made.write? path text with
      | some written => (written, true)
      | none => (made, false)

end Directory

end SearchWire
