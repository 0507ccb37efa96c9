import SearchWire.Json.Value

/-!
# Errors of the store

The store reports an error as an object or, in older versions, as a bare string,
which becomes the reason of an error without a type. An error may have a cause
and a list of root causes, which are errors again. `StoreError.toJson` writes
the object form and leaves out what is absent or empty.
-/

namespace SearchWire

/-- An error reported by the store. -/
inductive StoreError where
  | report (type : String) (reason index : Option String) (causedBy : Option StoreError)
      (rootCause : List StoreError)

namespace StoreError

/-- An error that has only a reason. -/
def ofReason (reason : String) : StoreError :=
  .report "" (some reason) none none []

/-- The type of an error; empty when the store gave a bare string. -/
def type : StoreError → String
  | .report type _ _ _ _ => type

/-- The reason of an error. -/
def reason : StoreError → Option String
  | .report _ reason _ _ _ => reason

/-- The index that an error concerns. -/
def index : StoreError → Option String
  | .report _ _ index _ _ => index

/-- The cause of an error. -/
def causedBy : StoreError → Option StoreError
  | .report _ _ _ causedBy _ => causedBy

/-- The root causes of an error. -/
def rootCause : StoreError → List StoreError
  | .report _ _ _ _ rootCause => rootCause

/-- The wording of an error: its type and its reason. -/
def message (error : StoreError) : String :=
  match error.reason with
  | none => error.type
  | some reason => if error.type.isEmpty then reason else error.type ++ ": " ++ reason

mutual

/-- The JSON form of an error. -/
def toJson : StoreError → Json
  | .report type reason index causedBy rootCause =>
      .object
        (("type", .string type) :: Json.optional "reason" (reason.map .string) ++
          Json.optional "index" (index.map .string) ++
          causeEntries causedBy ++
          Json.unlessEmpty "root_cause" (listToJson rootCause))

/-- The entry of a cause. -/
def causeEntries : Option StoreError → List (String × Json)
  | some error => [("caused_by", toJson error)]
  | none => []

/-- The JSON forms of errors. -/
def listToJson : List StoreError → List Json
  | [] => []
  | error :: rest => toJson error :: listToJson rest

end

/-- The fields of an error read so far. -/
structure Partial where
  type : Option String := none
  reason : Option (Option String) := none
  index : Option (Option String) := none
  causedBy : Option (Option StoreError) := none
  rootCause : Option (List StoreError) := none

/-- The error of the fields read, absent ones being empty. -/
def Partial.finish (fields : Partial) : StoreError :=
  .report (fields.type.getD "") (fields.reason.getD none) (fields.index.getD none)
    (fields.causedBy.getD none) (fields.rootCause.getD [])

/-- Reads a string. -/
def stringOf? : Json → Option String
  | .string value => some value
  | _ => none

/-- Reads a string or `null`. -/
def optionalStringOf? : Json → Option (Option String)
  | .null => some none
  | .string value => some (some value)
  | _ => none

/-- Sets a field that is not set yet. -/
def setOnce {α : Type} (slot value : Option α) : Option (Option α) :=
  match slot with
  | some _ => none
  | none => value.map some

mutual

/-- The error that a value with all its members stands for. -/
def ofJson? : Json → Option StoreError
  | .string reason => some (ofReason reason)
  | .object entries => Partial.finish <$> fieldsOf? {} entries
  | _ => none
termination_by structural value => value

/-- Reads the fields of an error from the members of an object. Each field may stand once, and
members of other names do not matter. -/
def fieldsOf? (fields : Partial) : List (String × Json) → Option Partial
  | [] => some fields
  | (name, value) :: rest =>
      if name = "type" then do
        let type ← setOnce fields.type (stringOf? value)
        fieldsOf? { fields with type } rest
      else if name = "reason" then do
        let reason ← setOnce fields.reason (optionalStringOf? value)
        fieldsOf? { fields with reason } rest
      else if name = "index" then do
        let index ← setOnce fields.index (optionalStringOf? value)
        fieldsOf? { fields with index } rest
      else if name = "caused_by" then do
        let causedBy ← setOnce fields.causedBy (causeOf? value)
        fieldsOf? { fields with causedBy } rest
      else if name = "root_cause" then do
        let rootCause ← setOnce fields.rootCause (rootsOf? value)
        fieldsOf? { fields with rootCause } rest
      else fieldsOf? fields rest
termination_by structural entries => entries

/-- Reads a cause, which may be `null`. -/
def causeOf? : Json → Option (Option StoreError)
  | .null => some none
  | .string reason => some (some (ofReason reason))
  | .object entries => (some ∘ Partial.finish) <$> fieldsOf? {} entries
  | _ => none
termination_by structural value => value

/-- Reads root causes from an array. -/
def rootsOf? : Json → Option (List StoreError)
  | .array items => listOf? items
  | _ => none
termination_by structural value => value

/-- Reads errors from the items of an array. -/
def listOf? : List Json → Option (List StoreError)
  | [] => some []
  | item :: rest => do
      let first ← ofJson? item
      let others ← listOf? rest
      return first :: others
termination_by structural items => items

end

end StoreError

/-- Decodes an error of the store. -/
def Decode.storeError : Decoder StoreError :=
  fun depth value => do
    let content ← members depth value
    match StoreError.ofJson? content with
    | some error => return error
    | none => .error (.mismatch (.noForm "StoreErrorRepr"))

end SearchWire
