import SearchWire.Binary64.Basic
import SearchWire.Calendar.Instant

/-!
# Settings tables

A settings text builds a tree of tables. A table remembers how it came about:
implied by the path of a header, named by a header, or made by a dotted key. A
table is named by at most one header, a dotted key does not reach into a table
that a header names, and no key is set twice; `descend`, `setDotted` and
`nameTable` keep these rules. An array of tables grows by one table with each of
its headers (`appendTable`), and a path that leads through it leads into its last
table. An inline table is a value, which nothing extends.
-/

namespace SearchWire

namespace Toml

/-- A time of day. The second 60 is a leap second. -/
structure Time where
  hour : Nat
  minute : Nat
  second : Nat
  nanosecond : Nat
deriving DecidableEq

/-- How far a clock is from universal time. -/
inductive Offset where
  | utc
  | minutes (count : Int)
deriving DecidableEq

/-- A day, a time of day, or both; an offset makes it a point of universal time. -/
inductive Moment where
  | day (date : CalendarDay)
  | time (time : Time)
  | clock (date : CalendarDay) (time : Time) (offset : Option Offset)
deriving DecidableEq

/-- How a table came about. -/
inductive Origin where
  | implied
  | header
  | dotted
deriving DecidableEq

mutual

/-- A value; an inline table is one. -/
inductive Value where
  | string (value : String)
  | bool (value : Bool)
  | int (value : Int)
  | float (value : Binary64)
  | moment (value : Moment)
  | array (items : List Value)
  | table (entries : List (String × Item))

/-- A value, a table or an array of tables, which has a last table. -/
inductive Item where
  | value (value : Value)
  | table (origin : Origin) (entries : List (String × Item))
  | tables (earlier : List (List (String × Item))) (last : List (String × Item))

end

/-- The entries of a table, in the order in which their keys were first met. -/
abbrev Entries := List (String × Item)

/-- Sets the item of a key, at the end when the key is new. -/
def put (key : String) (item : Item) : Entries → Entries
  | [] => [(key, item)]
  | (other, old) :: rest =>
      if other = key then (key, item) :: rest else (other, old) :: put key item rest

/-- Applies a change to the table under a path of header keys, from the outermost on. Tables that
are missing are implied, and an array of tables leads into its last one. -/
def descend (change : Origin → Entries → Option (Origin × Entries)) :
    List String → Origin → Entries → Option (Origin × Entries)
  | [], origin, entries => change origin entries
  | key :: path, origin, entries =>
      match entries.lookup key with
      | some (.value _) => none
      | some (.table inner content) => do
          let (newOrigin, newContent) ← descend change path inner content
          return (origin, put key (.table newOrigin newContent) entries)
      | some (.tables earlier last) => do
          let (_, newLast) ← descend change path .header last
          return (origin, put key (.tables earlier newLast) entries)
      | none => do
          let (newOrigin, newContent) ← descend change path .implied []
          return (origin, put key (.table newOrigin newContent) entries)

/-- Sets a value under a dotted key in a table. The keys before the last lead through tables that
no header names alone, and the value goes to the current table or to one made by dotted keys, where
the last key must be free; `receives` says whether this table may take the value. -/
def setDotted (value : Value) : Bool → String → List String → Entries → Option Entries
  | receives, key, [], entries =>
      match receives, entries.lookup key with
      | true, none => some (put key (.value value) entries)
      | _, _ => none
  | _, key, next :: path, entries =>
      match entries.lookup key with
      | some (.value _) => none
      | some (.table .header _) => none
      | some (.table origin content) => do
          let newContent ← setDotted value (origin == .dotted) next path content
          return put key (.table origin newContent) entries
      | some (.tables earlier last) => do
          let newLast ← setDotted value false next path last
          return put key (.tables earlier newLast) entries
      | none => do
          let newContent ← setDotted value true next path []
          return put key (.table .dotted newContent) entries

/-- Names a table by a header, which must not have been named or made by a dotted key before. -/
def nameTable (origin : Origin) (entries : Entries) : Option (Origin × Entries) :=
  match origin with
  | .implied => some (.header, entries)
  | .header | .dotted => none

/-- Adds a table to the array of tables of a key, which is new or has such an array. -/
def appendTable (key : String) (origin : Origin) (entries : Entries) :
    Option (Origin × Entries) :=
  match entries.lookup key with
  | none => some (origin, put key (.tables [] []) entries)
  | some (.tables earlier last) => some (origin, put key (.tables (earlier ++ [last]) []) entries)
  | some (.value _) | some (.table _ _) => none

end Toml

end SearchWire
