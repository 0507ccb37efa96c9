import SearchWire.Json.Span
import SearchWire.Text.Named
import SearchWire.Validation.Failure

/-!
# Named results that are not decoded yet

The names of results are chosen by the caller, so they are kept as spans under
their names and decoded one at a time. `RawResults.read` answers `none` for a
name that is not there, since a caller may probe for optional results; a result
that is there and does not decode is a failure that carries the name.
-/

namespace SearchWire

/-- Spans under their names, in the order of the names. -/
structure RawResults where
  entries : List (String × Span) := []

namespace RawResults

/-- Puts a span under a name. -/
def insert (results : RawResults) (name : String) (span : Span) : RawResults :=
  ⟨Named.insert name span results.entries⟩

/-- Puts spans under their names, one after another. -/
def insertAll (results : RawResults) (entries : List (String × Span)) : RawResults :=
  ⟨Named.insertAll entries results.entries⟩

/-- Puts a span under a name that is not taken. -/
def insertNew (results : RawResults) (name : String) (span : Span) : RawResults :=
  if Named.contains name results.entries then results else results.insert name span

/-- The span under a name. -/
def get? (results : RawResults) (name : String) : Option Span :=
  Named.find? name results.entries

/-- Whether a name is there. -/
def contains (results : RawResults) (name : String) : Bool :=
  Named.contains name results.entries

/-- The number of results. -/
def size (results : RawResults) : Nat :=
  results.entries.length

/-- The spans as one object, each verbatim. -/
def text (results : RawResults) : String :=
  let entry (named : String × Span) : List Char :=
    Json.quote named.1.toList ++ ':' :: named.2.chars
  String.ofList ('{' :: [','].intercalate (results.entries.map entry) ++ ['}'])

/-- Decodes the result under a name, if there is one. -/
def read {α : Type} (results : RawResults) (name : String) (decoder : Decoder α) :
    Except Failure (Option α) :=
  match results.get? name with
  | none => .ok none
  | some span =>
      match span.decode decoder with
      | .ok value => .ok (some value)
      | .error fault => .error (.unreadable name fault)

end RawResults

namespace Decode

/-- Collects the members of an object as spans; a later member replaces an earlier one of its
name. -/
def collectSpan (_ : Nat) (results : RawResults) (name : String) (value : Raw) :
    Except Fault RawResults :=
  results.insert name <$> Span.ofRaw value

/-- Decodes an object of named results. -/
def rawResults : Decoder RawResults :=
  object "a map" collectSpan {}

end Decode

end SearchWire
