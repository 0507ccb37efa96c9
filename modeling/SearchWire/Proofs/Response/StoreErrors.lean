import SearchWire.Proofs.Json.Lookup
import SearchWire.Proofs.Json.Nesting
import SearchWire.Response.StoreError

/-!
# Errors of the store read back

An error is written with what is absent left out, and a reader takes what is
left out for absent, at every level of causes and root causes. So an error reads
back from its own text (`StoreError.decodeBody_toJson`) unless the text nests too
deep. An error that arrived as a bare string, itself or as a cause of another, is
written in the object form at the place where the string was; `StoreError.Link`
leads to that place.
-/

namespace SearchWire

open Json

namespace StoreError

/-! ## One member after another -/

/-- Sets the field that a member names. -/
def step? (fields : Partial) (name : String) (value : Json) : Option Partial :=
  if name = "type" then
    (setOnce fields.type (stringOf? value)).map fun type => { fields with type }
  else if name = "reason" then
    (setOnce fields.reason (optionalStringOf? value)).map fun reason => { fields with reason }
  else if name = "index" then
    (setOnce fields.index (optionalStringOf? value)).map fun index => { fields with index }
  else if name = "caused_by" then
    (setOnce fields.causedBy (causeOf? value)).map fun causedBy => { fields with causedBy }
  else if name = "root_cause" then
    (setOnce fields.rootCause (rootsOf? value)).map fun rootCause => { fields with rootCause }
  else some fields

/-- The fields of an error are set member by member. -/
theorem fieldsOf?_cons (fields : Partial) (name : String) (value : Json)
    (rest : List (String × Json)) :
    fieldsOf? fields ((name, value) :: rest) =
      (step? fields name value).bind fun next => fieldsOf? next rest := by
  rw [fieldsOf?, step?]
  split
  · rw [Option.bind_map]
    rfl
  split
  · rw [Option.bind_map]
    rfl
  split
  · rw [Option.bind_map]
    rfl
  split
  · rw [Option.bind_map]
    rfl
  split
  · rw [Option.bind_map]
    rfl
  · rfl

theorem fieldsOf?_append (fields : Partial) (first second : List (String × Json)) :
    fieldsOf? fields (first ++ second) =
      (fieldsOf? fields first).bind fun next => fieldsOf? next second := by
  induction first generalizing fields with
  | nil => rfl
  | cons entry rest ih =>
      obtain ⟨name, value⟩ := entry
      rw [List.cons_append, fieldsOf?_cons, fieldsOf?_cons, Option.bind_assoc]
      exact Option.bind_congr fun next _ => ih next

/-- A cause is an error, or `null` when there is none. -/
theorem causeOf?_eq {value : Json} (h : value ≠ .null) :
    causeOf? value = some <$> ofJson? value := by
  cases value with
  | null => exact absurd rfl h
  | string reason => rfl
  | object entries =>
      rw [causeOf?, ofJson?]
      cases fieldsOf? {} entries <;> rfl
  | bool | number | array => rfl

/-! ## Reading back -/

/-- A reason that is left out leaves its field unset. -/
theorem fieldsOf?_reason {fields : Partial} (h : fields.reason = none) (reason : Option String) :
    fieldsOf? fields (Json.optional "reason" (reason.map .string)) =
      some { fields with reason := reason.map some } := by
  obtain ⟨type, slot, index, causedBy, rootCause⟩ := fields
  subst h
  cases reason <;> rfl

/-- An index that is left out leaves its field unset. -/
theorem fieldsOf?_index {fields : Partial} (h : fields.index = none) (index : Option String) :
    fieldsOf? fields (Json.optional "index" (index.map .string)) =
      some { fields with index := index.map some } := by
  obtain ⟨type, reason, slot, causedBy, rootCause⟩ := fields
  subst h
  cases index <;> rfl

theorem toJson_ne_null (error : StoreError) : error.toJson ≠ .null := by
  cases error
  simp [toJson]

mutual

/-- An error is what its JSON form stands for. -/
theorem ofJson?_toJson (error : StoreError) : ofJson? error.toJson = some error := by
  cases error with
  | report type reason index causedBy rootCause =>
      have htype : step? {} "type" (.string type) = some { type := some type } := rfl
      rw [toJson, ofJson?]
      simp only [List.append_assoc, List.cons_append, fieldsOf?_cons, fieldsOf?_append]
      rw [htype, Option.bind_some, fieldsOf?_reason rfl, Option.bind_some, fieldsOf?_index rfl,
        Option.bind_some, fieldsOf?_causeEntries rfl causedBy, Option.bind_some,
        fieldsOf?_rootEntries rfl rootCause]
      -- a field that is left out has its default, and the default is what was left out
      cases reason <;> cases index <;> cases causedBy <;> cases rootCause <;> rfl

theorem fieldsOf?_causeEntries {fields : Partial} (h : fields.causedBy = none)
    (causedBy : Option StoreError) :
    fieldsOf? fields (causeEntries causedBy) =
      some { fields with causedBy := causedBy.map some } := by
  obtain ⟨type, reason, index, slot, rootCause⟩ := fields
  subst h
  cases causedBy with
  | none => rfl
  | some error =>
      have herror := ofJson?_toJson error
      have hcause : causeOf? error.toJson = some (some error) := by
        rw [causeOf?_eq (toJson_ne_null error), herror]
        rfl
      rw [causeEntries, fieldsOf?_cons, step?]
      simp [setOnce, hcause, fieldsOf?]

theorem fieldsOf?_rootEntries {fields : Partial} (h : fields.rootCause = none)
    (errors : List StoreError) :
    fieldsOf? fields (Json.unlessEmpty "root_cause" (listToJson errors)) =
      some { fields with rootCause := if errors.isEmpty then none else some errors } := by
  obtain ⟨type, reason, index, causedBy, slot⟩ := fields
  subst h
  cases errors with
  | nil => rfl
  | cons error rest =>
      have hroots : rootsOf? (.array (listToJson (error :: rest))) = some (error :: rest) := by
        rw [rootsOf?, listOf?_toJson (error :: rest)]
      have hentries : Json.unlessEmpty "root_cause" (listToJson (error :: rest)) =
          [("root_cause", .array (listToJson (error :: rest)))] := by
        rw [listToJson]
        rfl
      rw [hentries, fieldsOf?_cons, step?]
      simp [setOnce, hroots, fieldsOf?]

theorem listOf?_toJson (errors : List StoreError) : listOf? (listToJson errors) = some errors := by
  cases errors with
  | nil => rfl
  | cons error rest =>
      have herror := ofJson?_toJson error
      have hrest := listOf?_toJson rest
      rw [listToJson, listOf?, herror, hrest]
      rfl

end

theorem entriesReadBack_append {first second : List (String × Json)} (h : EntriesReadBack first)
    (hsecond : EntriesReadBack second) : EntriesReadBack (first ++ second) := by
  induction first with
  | nil => exact hsecond
  | cons entry rest ih => exact ⟨h.1, ih h.2⟩

theorem entriesReadBack_optional (name : String) (text : Option String) :
    EntriesReadBack (Json.optional name (text.map .string)) := by
  cases text with
  | none => trivial
  | some text => exact ⟨trivial, trivial⟩

mutual

/-- The JSON form of an error has no numbers. -/
theorem numbersReadBack_toJson (error : StoreError) : error.toJson.NumbersReadBack := by
  cases error with
  | report type reason index causedBy rootCause =>
      have hcause := entriesReadBack_causeEntries causedBy
      have hroots := itemsReadBack_listToJson rootCause
      have hrootEntries :
          EntriesReadBack (Json.unlessEmpty "root_cause" (listToJson rootCause)) := by
        unfold Json.unlessEmpty
        split
        · trivial
        · exact ⟨hroots, trivial⟩
      have hreason := entriesReadBack_optional "reason" reason
      have hindex := entriesReadBack_optional "index" index
      rw [toJson]
      exact entriesReadBack_append (entriesReadBack_append (entriesReadBack_append
        ⟨trivial, hreason⟩ hindex) hcause) hrootEntries

theorem entriesReadBack_causeEntries (causedBy : Option StoreError) :
    EntriesReadBack (causeEntries causedBy) := by
  cases causedBy with
  | none => trivial
  | some error => exact ⟨numbersReadBack_toJson error, trivial⟩

theorem itemsReadBack_listToJson (errors : List StoreError) :
    ItemsReadBack (listToJson errors) := by
  cases errors with
  | nil => trivial
  | cons error rest => exact ⟨numbersReadBack_toJson error, itemsReadBack_listToJson rest⟩

end

/-! ## The causes of an error -/

/-- A member of a field's name sets the field, which was unset before; another leaves it alone. -/
def SetsSlot {α : Type} (get : Partial → Option α) (field : String) (read : Json → Option α)
    (fields : Partial) (name : String) (value : Json) (next : Partial) : Prop :=
  if name = field then get fields = none ∧ ∃ found, read value = some found ∧ get next = some found
  else get next = get fields

theorem setOnce_eq_some_iff {α : Type} {slot value result : Option α} :
    setOnce slot value = some result ↔
      slot = none ∧ ∃ found, value = some found ∧ some found = result := by
  cases slot with
  | some old => simp [setOnce]
  | none => simp [setOnce, Option.map_eq_some_iff]

theorem setsSlot_causedBy {fields next : Partial} {name : String} {value : Json}
    (h : step? fields name value = some next) :
    SetsSlot Partial.causedBy "caused_by" causeOf? fields name value next := by
  unfold step? at h
  grind [SetsSlot, setOnce_eq_some_iff, Option.map_eq_some_iff]

theorem setsSlot_rootCause {fields next : Partial} {name : String} {value : Json}
    (h : step? fields name value = some next) :
    SetsSlot Partial.rootCause "root_cause" rootsOf? fields name value next := by
  unfold step? at h
  grind [SetsSlot, setOnce_eq_some_iff, Option.map_eq_some_iff]

section Slots

variable {α : Type} {get : Partial → Option α} {field : String} {read : Json → Option α}

/-- A field that is set is set to the end. -/
theorem get_kept_of_fieldsOf?
    (hsets : ∀ {fields next : Partial} {name : String} {value : Json},
      step? fields name value = some next → SetsSlot get field read fields name value next)
    {entries : List (String × Json)} {fields last : Partial} {found : α}
    (h : fieldsOf? fields entries = some last) (hset : get fields = some found) :
    get last = some found := by
  induction entries generalizing fields with
  | nil =>
      rw [fieldsOf?] at h
      rwa [← Option.some.inj h]
  | cons entry rest ih =>
      obtain ⟨name, value⟩ := entry
      rw [fieldsOf?_cons, Option.bind_eq_some_iff] at h
      obtain ⟨next, hnext, hrest⟩ := h
      have hslot := hsets hnext
      unfold SetsSlot at hslot
      split at hslot
      · exact absurd (hset.symm.trans hslot.1) (by simp)
      · exact ih hrest (hslot.trans hset)

/-- A field holds what the member of its name stands for. -/
theorem get_eq_of_lookup
    (hsets : ∀ {fields next : Partial} {name : String} {value : Json},
      step? fields name value = some next → SetsSlot get field read fields name value next)
    {entries : List (String × Json)} {fields last : Partial} {value : Json}
    (h : fieldsOf? fields entries = some last) (hvalue : entries.lookup field = some value) :
    ∃ found, read value = some found ∧ get last = some found := by
  induction entries generalizing fields with
  | nil => cases hvalue
  | cons entry rest ih =>
      obtain ⟨name, first⟩ := entry
      rw [fieldsOf?_cons, Option.bind_eq_some_iff] at h
      obtain ⟨next, hnext, hrest⟩ := h
      have hslot := hsets hnext
      have hlookup := Named.find?_cons field (name, first) rest
      rw [Named.find?, hvalue] at hlookup
      unfold SetsSlot at hslot
      split at hslot
      · next hname =>
          rw [if_pos hname, Option.some.injEq] at hlookup
          obtain ⟨-, found, hread, hset⟩ := hslot
          exact ⟨found, hlookup ▸ hread, get_kept_of_fieldsOf? hsets hrest hset⟩
      · next hname =>
          rw [if_neg hname] at hlookup
          exact ih hrest hlookup.symm

end Slots

/-- A step from an error to one that it came from: to its cause, or to a root cause. -/
inductive Link where
  | cause
  | root (position : Nat)
deriving DecidableEq

/-- The keys that lead to the place of a step in the JSON form. -/
def Link.keys : Link → List Key
  | .cause => [.name "caused_by"]
  | .root position => [.name "root_cause", .item position]

/-- The error that a step leads to. -/
def Link.part? : Link → StoreError → Option StoreError
  | .cause, error => error.causedBy
  | .root position, error => error.rootCause[position]?

/-- The error that steps lead to. -/
def part? : List Link → StoreError → Option StoreError
  | [], error => some error
  | link :: rest, error => (link.part? error).bind (part? rest)

theorem getElem?_of_listOf? {items : List Json} {errors : List StoreError} {position : Nat}
    {item : Json} (h : listOf? items = some errors) (hitem : items[position]? = some item) :
    ∃ error, ofJson? item = some error ∧ errors[position]? = some error := by
  induction items generalizing errors position with
  | nil => cases hitem
  | cons first rest ih =>
      rw [listOf?] at h
      obtain ⟨error, herror, hmore⟩ := Option.bind_eq_some_iff.1 h
      obtain ⟨others, hothers, hall⟩ := Option.bind_eq_some_iff.1 hmore
      obtain rfl : error :: others = errors := Option.some.inj hall
      cases position with
      | zero =>
          rw [List.getElem?_cons_zero, Option.some.injEq] at hitem
          exact ⟨error, hitem ▸ herror, rfl⟩
      | succ position =>
          obtain ⟨found, hfound, hplace⟩ := ih hothers hitem
          exact ⟨found, hfound, hplace⟩

theorem getElem?_listToJson {errors : List StoreError} {position : Nat} {error : StoreError}
    (h : errors[position]? = some error) : (listToJson errors)[position]? = some error.toJson := by
  induction errors generalizing position with
  | nil => cases h
  | cons first rest ih =>
      cases position with
      | zero =>
          rw [List.getElem?_cons_zero, Option.some.injEq] at h
          rw [listToJson, List.getElem?_cons_zero, h]
      | succ position => exact ih h

/-- What stands at the place of a step stands for the error that the step leads to, unless it is a
`null`. -/
theorem part?_of_ofJson? {content value : Json} {error : StoreError} {link : Link}
    (h : ofJson? content = some error) (hvalue : at? link.keys content = some value)
    (hnull : value ≠ .null) :
    ∃ found, link.part? error = some found ∧ ofJson? value = some found := by
  -- only an object has entries
  obtain ⟨entries, rfl⟩ : ∃ entries, content = .object entries := by
    cases content with
    | object entries => exact ⟨entries, rfl⟩
    | null | bool | number | string | array => cases link <;> cases hvalue
  rw [ofJson?] at h
  obtain ⟨last, hlast, rfl⟩ := Option.map_eq_some_iff.1 h
  cases link with
  | cause =>
      have hentry : entries.lookup "caused_by" = some value := by
        rwa [Link.keys, at?_singleton] at hvalue
      obtain ⟨found, hread, hset⟩ := get_eq_of_lookup setsSlot_causedBy hlast hentry
      rw [causeOf?_eq hnull] at hread
      obtain ⟨cause, hcause, rfl⟩ := Option.map_eq_some_iff.1 hread
      refine ⟨cause, ?_, hcause⟩
      show last.causedBy.getD none = some cause
      rw [hset, Option.getD_some]
  | root position =>
      obtain ⟨roots, hentry, hitem⟩ := Option.bind_eq_some_iff.1 hvalue
      obtain ⟨found, hread, hset⟩ := get_eq_of_lookup setsSlot_rootCause hlast hentry
      cases roots with
      | array items =>
          rw [at?_singleton] at hitem
          obtain ⟨cause, hcause, hplace⟩ := getElem?_of_listOf? hread hitem
          refine ⟨cause, ?_, hcause⟩
          show (last.rootCause.getD [])[position]? = some cause
          rw [hset, Option.getD_some, hplace]
      | null | bool | number | string | object => cases hitem

/-- A bare string becomes the reason of an error that has nothing else. -/
theorem part?_of_string {links : List Link} {content : Json} {error : StoreError}
    {reason : String} (h : ofJson? content = some error)
    (hreason : at? (links.flatMap Link.keys) content = some (.string reason)) :
    part? links error = some (ofReason reason) := by
  induction links generalizing content error with
  | nil =>
      obtain rfl : content = .string reason := Option.some.inj hreason
      exact h.symm
  | cons link rest ih =>
      rw [List.flatMap_cons, at?_append] at hreason
      obtain ⟨value, hvalue, hrest⟩ := Option.bind_eq_some_iff.1 hreason
      have hnull : value ≠ .null := by
        rintro rfl
        cases rest with
        | nil => cases hrest
        | cons next more => cases next <;> cases hrest
      obtain ⟨found, hfound, hjson⟩ := part?_of_ofJson? h hvalue hnull
      rw [part?, hfound, Option.bind_some]
      exact ih hjson hrest

/-- The JSON form of an error holds, at the place of a step, the JSON form of the error that the
step leads to. -/
theorem at?_keys_toJson {link : Link} {error found : StoreError}
    (h : link.part? error = some found) : at? link.keys error.toJson = some found.toJson := by
  obtain ⟨type, reason, index, causedBy, rootCause⟩ := error
  cases link with
  | cause =>
      obtain rfl : causedBy = some found := h
      have hentry :
          entry? "caused_by" (toJson (.report type reason index (some found) rootCause)) =
            some found.toJson := by
        cases reason <;> cases index <;> rfl
      exact at?_name hentry []
  | root position =>
      have hplace : rootCause[position]? = some found := h
      have hitem := getElem?_listToJson hplace
      have hentry : entry? "root_cause" (toJson (.report type reason index causedBy rootCause)) =
          some (.array (listToJson rootCause)) := by
        cases rootCause with
        | nil => cases hplace
        | cons => cases reason <;> cases index <;> cases causedBy <;> rfl
      rw [Link.keys, at?_name hentry]
      exact at?_item hitem []

/-- The JSON form of an error holds the JSON forms of all the errors that it came from. -/
theorem at?_toJson {links : List Link} {error found : StoreError}
    (h : part? links error = some found) :
    at? (links.flatMap Link.keys) error.toJson = some found.toJson := by
  induction links generalizing error with
  | nil =>
      obtain rfl : error = found := Option.some.inj h
      rfl
  | cons link rest ih =>
      obtain ⟨next, hnext, hrest⟩ := Option.bind_eq_some_iff.1 h
      rw [List.flatMap_cons, at?_append, at?_keys_toJson hnext, Option.bind_some]
      exact ih hrest

/-! ## Texts of errors -/

/-- The text of an error is read as the error when it nests as deep as is allowed. -/
theorem storeError_written (error : StoreError) :
    Decode.storeError nestingLimit error.toJson.written =
      Decode.unlessTooDeep error.toJson.levels nestingLimit error := by
  rw [Decode.storeError, Decode.members_written nestingLimit (numbersReadBack_toJson error)]
  unfold Decode.unlessTooDeep
  split
  · rw [Outcome.ok_bind, ofJson?_toJson]
    rfl
  · rfl

/-- What a body stands for as an error is what its content stands for. -/
theorem ofJson?_of_decodeBody {body : ByteArray} {content : Json} {error : StoreError}
    (hcontent : decodeBody Decode.members (Symbol.ofBytes body) = .ok content)
    (h : decodeBody Decode.storeError (Symbol.ofBytes body) = .ok error) :
    ofJson? content = some error := by
  obtain ⟨hmembers, -⟩ := decodeBody_eq_ok_iff.1 hcontent
  obtain ⟨herror, -⟩ := decodeBody_eq_ok_iff.1 h
  rw [Decode.storeError, hmembers, Outcome.ok_bind] at herror
  split at herror
  · next found hfound => rwa [← Except.ok.inj herror]
  · cases herror

/-- An error reads back from its own text when the text nests at most as deep as is allowed, and
its text is refused as too deep otherwise. In an error that was read from a body, each bare string,
at the top or as a cause at any depth, has become an error with an empty type and the string as its
reason, and the text of the whole has that error in object form where the string was. -/
theorem decodeBody_toJson (error : StoreError) :
    decodeBody Decode.storeError (Symbol.ofBytes error.toJson.toText.toUTF8) =
        (if error.toJson.levels ≤ nestingLimit then .ok error else .error (.damage .tooDeep)) ∧
      ∀ body content, decodeBody Decode.members (Symbol.ofBytes body) = .ok content →
        decodeBody Decode.storeError (Symbol.ofBytes body) = .ok error →
        ∀ links reason, at? (links.flatMap Link.keys) content = some (.string reason) →
          part? links error = some (.report "" (some reason) none none []) ∧
            at? (links.flatMap Link.keys) error.toJson =
              some (.object [("type", .string ""), ("reason", .string reason)]) := by
  constructor
  · rw [Json.decodeBody_toText]
    exact storeError_written error
  · intro body content hcontent herror links reason hreason
    have hpart := part?_of_string (ofJson?_of_decodeBody hcontent herror) hreason
    exact ⟨hpart, at?_toJson hpart⟩

/-- A report whose cause is a bare string. -/
def stringCause : Json :=
  .object [("type", .string "search_failed"), ("caused_by", .string "disk full")]

/-- The error that the report stands for. -/
def diskFull : StoreError :=
  .report "search_failed" none none (some (.ofReason "disk full")) []

theorem decodeBody_toJson_diskFull :
    decodeBody Decode.storeError (Symbol.ofBytes stringCause.toText.toUTF8) = .ok diskFull ∧
      decodeBody Decode.storeError (Symbol.ofBytes diskFull.toJson.toText.toUTF8) = .ok diskFull ∧
      at? [.name "caused_by"] diskFull.toJson =
        some (.object [("type", .string ""), ("reason", .string "disk full")]) := by
  have hnumbers : stringCause.NumbersReadBack := ⟨trivial, trivial, trivial⟩
  have hmembers : Decode.members nestingLimit stringCause.written = .ok stringCause := by
    rw [Decode.members_written nestingLimit hnumbers]
    rfl
  have hcontent : decodeBody Decode.members (Symbol.ofBytes stringCause.toText.toUTF8) =
      .ok stringCause := by
    rw [Json.decodeBody_toText, hmembers]
  have herror : decodeBody Decode.storeError (Symbol.ofBytes stringCause.toText.toUTF8) =
      .ok diskFull := by
    rw [Json.decodeBody_toText, Decode.storeError, hmembers]
    rfl
  obtain ⟨hround, hplaces⟩ := decodeBody_toJson diskFull
  obtain ⟨-, hcause⟩ := hplaces _ _ hcontent herror [.cause] "disk full" rfl
  refine ⟨herror, ?_, hcause⟩
  rw [hround]
  rfl

end StoreError

end SearchWire
