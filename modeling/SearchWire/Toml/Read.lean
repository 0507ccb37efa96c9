import SearchWire.Toml.Scalars

/-!
# Reading settings

`Toml.read?` reads a text of lines. A line is empty, a comment, a header `[path]`
of a table, a header `[[path]]` of one more table of an array, or an assignment. A
value is a string, a scalar, an array or an inline table, whose entries stand on
one line. A text with any other line, with a key that is set twice or with a path
or a value that is too deep is refused as a whole.
-/

namespace SearchWire

namespace Toml

/-- A character of a key without quotes. -/
def isBare (c : Char) : Bool :=
  c.isAlphanum || c = '_' || c = '-'

/-- Reads one key of a path. -/
def simpleKey : Reader String
  | '"' :: rest => (basic rest).map fun (s, r) => (String.ofList s, r)
  | '\'' :: rest => (literal rest).map fun (s, r) => (String.ofList s, r)
  | text =>
      let key := text.takeWhile isBare
      if key.isEmpty then none else some (String.ofList key, text.dropWhile isBare)

/-- The largest number of keys in a path, and of arrays and inline tables that stand within one
another. -/
def depthLimit : Nat := 79

/-- Reads a path of at most `count` keys with points between them. -/
def keysUpTo : Nat → Reader (String × List String)
  | 0, _ => none
  | count + 1, text => do
      let (key, rest) ← simpleKey (skipBlanks text)
      match skipBlanks rest with
      | '.' :: more => do
          let ((next, path), after) ← keysUpTo count more
          return ((key, next :: path), after)
      | after => return ((key, []), after)

/-- Reads a path of keys. -/
def keyPath : Reader (String × List String) :=
  keysUpTo depthLimit

/-- Leaves out white space, comments and line ends between the items of an array; `fuel` bounds
the number of lines. -/
def skipLines : Nat → List Char → List Char
  | 0, text => text
  | fuel + 1, text =>
      let rest := skipComment (skipBlanks text)
      match lineBreak? rest with
      | some more => skipLines fuel more
      | none => rest

mutual

/-- Reads a value in which at most `depth` arrays and inline tables stand within one another; `fuel`
bounds the nesting and the number of its parts. -/
def value : Nat → Nat → Reader Value
  | 0, _, _ => none
  | fuel + 1, depth, text =>
      match text with
      | '[' :: rest =>
          match depth with
          | 0 => none
          | inner + 1 => do
              let (items, after) ← items fuel inner rest
              return (.array items, after)
      | '\x7b' :: rest =>
          match depth with
          | 0 => none
          | inner + 1 =>
              match skipBlanks rest with
              | '\x7d' :: after => some (.table [], after)
              | start => do
                  let (entries, after) ← members fuel inner [] start
                  return (.table entries, after)
      | c :: _ =>
          if c = '"' || c = '\'' then (string text).map fun (s, rest) => (.string s, rest)
          else scalar text
      | [] => none

/-- Reads the items of an array up to its closing bracket; a comma may follow the last one. -/
def items : Nat → Nat → Reader (List Value)
  | 0, _, _ => none
  | fuel + 1, depth, text =>
      match skipLines text.length text with
      | ']' :: rest => some ([], rest)
      | start => do
          let (first, afterFirst) ← value fuel depth start
          match skipLines afterFirst.length afterFirst with
          | ']' :: rest => return ([first], rest)
          | ',' :: rest => do
              let (others, after) ← items fuel depth rest
              return (first :: others, after)
          | _ => none

/-- Reads more entries of an inline table, at least one, up to its closing brace. -/
def members : Nat → Nat → Entries → Reader Entries
  | 0, _, _, _ => none
  | fuel + 1, depth, entries, text => do
      let ((key, path), afterKey) ← keyPath text
      let start ← mark? '=' afterKey
      let (found, afterValue) ← value fuel depth (skipBlanks start)
      let extended ← setDotted found true key path entries
      match skipBlanks afterValue with
      | '\x7d' :: rest => return (extended, rest)
      | ',' :: rest => members fuel depth extended rest
      | _ => none

end

/-- The tables read so far and the path of the header that the next assignments belong to. -/
structure Document where
  entries : Entries := []
  header : List String := []

namespace Document

/-- Names the table of a header. -/
def withHeader (document : Document) (path : List String) : Option Document := do
  let (_, entries) ← descend nameTable path .header document.entries
  return ⟨entries, path⟩

/-- Adds a table to the array of tables of a header. -/
def withElement (document : Document) (path : List String) : Option Document := do
  let key ← path.getLast?
  let (_, entries) ← descend (appendTable key) path.dropLast .header document.entries
  return ⟨entries, path⟩

/-- Sets a value under a key of the current table. -/
def withValue (document : Document) (key : String) (path : List String) (value : Value) :
    Option Document := do
  let change (origin : Origin) (entries : Entries) : Option (Origin × Entries) := do
    let changed ← setDotted value true key path entries
    return (origin, changed)
  let (_, entries) ← descend change document.header .header document.entries
  return { document with entries }

end Document

/-- Reads the header of a table after its opening bracket. -/
def tableHeader (document : Document) (text : List Char) : Option (Document × List Char) := do
  let ((key, path), afterKeys) ← keyPath text
  let rest ← mark? ']' afterKeys
  let named ← document.withHeader (key :: path)
  return (named, rest)

/-- Reads the header of one more table of an array after its opening brackets. -/
def elementHeader (document : Document) (text : List Char) : Option (Document × List Char) := do
  let ((key, path), afterKeys) ← keyPath text
  let rest ← mark? ']' afterKeys >>= mark? ']'
  let added ← document.withElement (key :: path)
  return (added, rest)

/-- Reads an assignment. -/
def assignment (document : Document) (text : List Char) : Option (Document × List Char) := do
  let ((key, path), afterKey) ← keyPath text
  let afterEquals ← mark? '=' afterKey
  let start := skipBlanks afterEquals
  let (found, after) ← value (2 * start.length + 2) depthLimit start
  let assigned ← document.withValue key path found
  return (assigned, after)

/-- Reads one line up to its end. -/
def line (document : Document) (text : List Char) : Option (Document × List Char) :=
  match skipBlanks text with
  | [] => some (document, [])
  | '#' :: rest => some (document, '#' :: rest)
  | '\n' :: rest => some (document, '\n' :: rest)
  | '\r' :: rest => some (document, '\r' :: rest)
  | '[' :: '[' :: rest => elementHeader document rest
  | '[' :: rest => tableHeader document rest
  | start => assignment document start

/-- Reads lines; `fuel` bounds their number. -/
def lines : Nat → Document → List Char → Option Document
  | _, document, [] => some document
  | 0, _, _ => none
  | fuel + 1, document, text => do
      let (next, rest) ← line document text
      let following ← endLine? rest
      lines fuel next following

/-- Reads the tables of a text. A byte order mark may begin it. -/
def read? (text : String) : Option Entries :=
  let chars :=
    match text.toList with
    | '\ufeff' :: rest => rest
    | all => all
  (lines (chars.length + 1) {} chars).map (·.entries)

end Toml

end SearchWire
