import SearchWire.Bulk.Request
import SearchWire.Proofs.Json.ReadBack
import SearchWire.Proofs.Text.Utf8
import SearchWire.Proofs.Validation.Report

/-!
# Bulk framing can be undone

`ActionKind.Heads` says of a line that a JSON reader finds in it one operation
with an id and an index, and `Frames` that a list of lines is what a batch of
actions stands for, line by line. `BulkRequest.framing` says that cutting the
body of a request at its line breaks gives such lines and nothing else, so the
body determines the operations, ids, indices and sources it was framed from.
-/

namespace SearchWire

/-- A line reads as an object whose single name is the operation; its value names the id and the
index, each exactly when it is not empty. -/
def ActionKind.Heads (kind : ActionKind) (id index line : String) : Prop :=
  ∃ fields : List (String × Json),
    decodeBody Decode.json (Symbol.ofBytes line.toUTF8) =
        .ok (.object [(kind.text, .object fields)]) ∧
      (fields.map Prod.fst).Nodup ∧
      ∀ name value, (name, value) ∈ fields ↔
        name = "_id" ∧ value = .string id ∧ id ≠ "" ∨
          name = "_index" ∧ value = .string index ∧ index ≠ ""

/-- The lines that an action sends behind its head: the source of a document, which an update puts
under a name, and nothing for a deletion. -/
inductive BulkAction.Sends : BulkAction → List String → Prop where
  | create {document : BulkDocument} {source : Json} (h : document.source = .ok source) :
      Sends (.create document) [source.toText]
  | index {document : BulkDocument} {source : Json} (h : document.source = .ok source) :
      Sends (.index document) [source.toText]
  | update {document : BulkDocument} {source : Json} (h : document.source = .ok source) :
      Sends (.update document) ["\x7b\"doc\":" ++ source.toText ++ "\x7d"]
  | delete (target id : String) : Sends (.delete target id) []

/-- The lines of a batch: for each action in order the line that heads it and the lines it
sends. -/
inductive Frames : List BulkAction → List String → Prop where
  | nil : Frames [] []
  | cons {action : BulkAction} {rest : List BulkAction} {line : String} {sent lines : List String}
      (hhead : action.kind.Heads action.id action.ownIndex line) (hsent : action.Sends sent)
      (hrest : Frames rest lines) : Frames (action :: rest) (line :: (sent ++ lines))

/-- The source of an action as it is written; a deletion has none. -/
def BulkAction.sourceText? (action : BulkAction) : Option String :=
  action.document?.bind fun document => document.source.toOption.map Json.toText

/-- What a body tells of an action: its operation, its id, its own index and its source. -/
def BulkAction.content (action : BulkAction) : ActionKind × String × String × Option String :=
  (action.kind, action.id, action.ownIndex, action.sourceText?)

/-! ## Heads -/

namespace ActionKind

theorem text_injective {first second : ActionKind} (h : first.text = second.text) :
    first = second := by
  cases first <;> cases second <;> first | rfl | exact absurd h (by decide)

theorem text_ne_carrierName (kind : ActionKind) : kind.text ≠ carrierName := by
  cases kind <;> decide

/-- A string that is present exactly when it is not empty is determined by its presence. -/
theorem eq_of_present_iff {first second : String}
    (h : ∀ value : Json,
      value = .string first ∧ first ≠ "" ↔ value = .string second ∧ second ≠ "") :
    first = second := by
  by_cases hfirst : first = ""
  · by_cases hsecond : second = ""
    · rw [hfirst, hsecond]
    · exact absurd hfirst ((h (.string second)).2 ⟨rfl, hsecond⟩).2
  · exact Json.string.inj ((h (.string first)).1 ⟨rfl, hfirst⟩).1

/-- A line heads at most one operation, id and index. -/
theorem Heads.unique {first second : ActionKind} {id id' index index' line : String}
    (hfirst : first.Heads id index line) (hsecond : second.Heads id' index' line) :
    first = second ∧ id = id' ∧ index = index' := by
  obtain ⟨fields, hread, -, hfields⟩ := hfirst
  obtain ⟨others, hread', -, hothers⟩ := hsecond
  rw [hread] at hread'
  simp only [Except.ok.injEq, Json.object.injEq, List.cons.injEq, Prod.mk.injEq, and_true]
    at hread'
  obtain ⟨hkind, rfl⟩ := hread'
  refine ⟨text_injective hkind, eq_of_present_iff fun value => ?_,
    eq_of_present_iff fun value => ?_⟩
  · simpa using (hfields "_id" value).symm.trans (hothers "_id" value)
  · simpa using (hfields "_index" value).symm.trans (hothers "_index" value)

end ActionKind

namespace BulkAction

/-- The fields that a head names. -/
def fields (action : BulkAction) : List (String × Json) :=
  entryUnlessEmpty "_id" action.id ++ entryUnlessEmpty "_index" action.ownIndex

theorem mem_entryUnlessEmpty {name text : String} {entry : String × Json} :
    entry ∈ entryUnlessEmpty name text ↔ entry = (name, .string text) ∧ text ≠ "" := by
  unfold entryUnlessEmpty
  by_cases hempty : text = ""
  · simp [hempty]
  · simp [hempty]

theorem mem_fields {action : BulkAction} {entry : String × Json} :
    entry ∈ action.fields ↔
      entry = ("_id", .string action.id) ∧ action.id ≠ "" ∨
        entry = ("_index", .string action.ownIndex) ∧ action.ownIndex ≠ "" := by
  rw [fields, List.mem_append, mem_entryUnlessEmpty, mem_entryUnlessEmpty]

theorem nodup_fields (action : BulkAction) : (action.fields.map Prod.fst).Nodup := by
  unfold fields entryUnlessEmpty
  cases action.id.isEmpty <;> cases action.ownIndex.isEmpty <;> simp

/-- The line in front of an action holds its fields under its operation. -/
theorem metadata_eq (action : BulkAction) :
    action.metadata = .object [(action.kind.text, .object action.fields)] := by
  rw [metadata, ← fields, Json.record_of_nodup action.nodup_fields]
  rfl

/-- The line in front of an action reads as it was written. -/
theorem decodeBody_metadata (action : BulkAction) :
    decodeBody Decode.json (Symbol.ofBytes action.metadata.toText.toUTF8) =
      .ok action.metadata := by
  rw [Json.decodeBody_toText, metadata_eq]
  have hcarrier : carrierName ∉ action.fields.map Prod.fst := by
    rintro hmem
    obtain ⟨entry, hentry, hname⟩ := List.mem_map.1 hmem
    rcases mem_fields.1 hentry with ⟨rfl, -⟩ | ⟨rfl, -⟩
    · exact absurd (show "_id" = carrierName from hname) (by decide)
    · exact absurd (show "_index" = carrierName from hname) (by decide)
  have hfields : Decode.jsonWith Decode.carried 126 (Json.object action.fields).written =
      .ok (.object action.fields) := by
    refine Decode.jsonWith_object action.nodup_fields hcarrier fun entry hentry => ?_
    rcases mem_fields.1 hentry with ⟨rfl, -⟩ | ⟨rfl, -⟩ <;> exact Decode.jsonWith_string _ _
  refine Decode.jsonWith_object (by simp) ?_ ?_
  · simpa using action.kind.text_ne_carrierName.symm
  · intro entry hentry
    rw [List.mem_singleton.1 hentry]
    exact hfields

/-- The line in front of an action heads it. -/
theorem heads_metadata (action : BulkAction) :
    action.kind.Heads action.id action.ownIndex action.metadata.toText := by
  refine ⟨action.fields, ?_, action.nodup_fields, fun name value => ?_⟩
  · rw [decodeBody_metadata, metadata_eq]
  · rw [mem_fields, Prod.mk.injEq, Prod.mk.injEq, and_assoc, and_assoc]

end BulkAction

/-! ## Batches -/

/-- Actions of one kind that send the same lines send the same source, and nothing is left over. -/
theorem BulkAction.Sends.unique {first second : BulkAction} {sent sent' lines lines' : List String}
    (hfirst : first.Sends sent) (hsecond : second.Sends sent') (hkind : first.kind = second.kind)
    (hlines : sent ++ lines = sent' ++ lines') :
    first.sourceText? = second.sourceText? ∧ lines = lines' := by
  cases hfirst with
  | create h =>
      cases hsecond with
      | create h' => simpa [sourceText?, document?, h, h', Except.toOption] using hlines
      | index | update | delete => cases hkind
  | index h =>
      cases hsecond with
      | index h' => simpa [sourceText?, document?, h, h', Except.toOption] using hlines
      | create | update | delete => cases hkind
  | update h =>
      cases hsecond with
      | update h' => simpa [sourceText?, document?, h, h', Except.toOption] using hlines
      | create | index | delete => cases hkind
  | delete =>
      cases hsecond with
      | delete => exact ⟨rfl, hlines⟩
      | create | index | update => cases hkind

theorem Json.toText_single_doc (source : Json) :
    (Json.single "doc" source).toText = "\x7b\"doc\":" ++ source.toText ++ "\x7d" := by
  rw [← String.toList_inj]
  simp [toText, single, text, entriesText, quote, escape]

/-- The lines written for an action are its head and what it sends. -/
theorem BulkAction.lines_eq_ok {action : BulkAction} {lines : List Json}
    (h : action.lines = .ok lines) :
    ∃ sent, lines.map Json.toText = action.metadata.toText :: sent ∧ action.Sends sent := by
  cases action with
  | create document =>
      obtain ⟨source, hsource, hlines⟩ := Outcome.bind_eq_ok_iff.1 h
      cases hlines
      exact ⟨_, rfl, .create hsource⟩
  | index document =>
      obtain ⟨source, hsource, hlines⟩ := Outcome.bind_eq_ok_iff.1 h
      cases hlines
      exact ⟨_, rfl, .index hsource⟩
  | update document =>
      obtain ⟨source, hsource, hlines⟩ := Outcome.bind_eq_ok_iff.1 h
      cases hlines
      exact ⟨_, congrArg (_ :: [·]) source.toText_single_doc, .update hsource⟩
  | delete target id =>
      cases h
      exact ⟨[], rfl, .delete target id⟩

namespace Frames

/-- Batches that are framed by the same lines have the same contents. -/
theorem unique {first second : List BulkAction} {lines : List String} (hfirst : Frames first lines)
    (hsecond : Frames second lines) :
    first.map BulkAction.content = second.map BulkAction.content := by
  induction hfirst generalizing second with
  | nil =>
      cases hsecond
      rfl
  | @cons action rest line sent lines hhead hsent hrest ih =>
      generalize hall : line :: (sent ++ lines) = all at hsecond
      cases hsecond with
      | nil => cases hall
      | cons hhead' hsent' hrest' =>
          obtain ⟨rfl, hlines⟩ := List.cons.inj hall
          -- the head tells the operation, and the operation how many lines come with it
          obtain ⟨hkind, hid, hindex⟩ := hhead.unique hhead'
          obtain ⟨hsource, rfl⟩ := hsent.unique hsent' hkind hlines
          rw [List.map_cons, List.map_cons, ih hrest', BulkAction.content, BulkAction.content,
            hkind, hid, hindex, hsource]

end Frames

namespace BulkRequest

/-- The lines written for a batch frame it. -/
theorem frames_linesOf {actions : List BulkAction} {lines : List Json}
    (h : linesOf actions = .ok lines) : Frames actions (lines.map Json.toText) := by
  induction actions generalizing lines with
  | nil =>
      cases h
      exact .nil
  | cons action rest ih =>
      rw [linesOf, Outcome.bind_eq_ok_iff] at h
      obtain ⟨first, hfirst, h⟩ := h
      obtain ⟨others, hothers, hall⟩ := Outcome.bind_eq_ok_iff.1 h
      obtain rfl := Except.ok.inj hall
      obtain ⟨sent, hlines, hsent⟩ := BulkAction.lines_eq_ok hfirst
      rw [List.map_append, hlines]
      exact .cons action.heads_metadata hsent (ih hothers)

/-- The body of a request is the text of its lines, each closed by a line break. -/
theorem text_eq_ok {request : BulkRequest} {body : String} (h : request.text = .ok body) :
    ∃ lines, linesOf request.actions = .ok lines ∧
      body = String.ofList ((lines.map Json.text).flatMap (· ++ ['\n'])) := by
  rw [text, Outcome.bind_eq_ok_iff] at h
  obtain ⟨-, -, h⟩ := h
  cases hlines : linesOf request.actions with
  | error fault =>
      rw [hlines] at h
      cases h
  | ok lines =>
      rw [hlines] at h
      refine ⟨lines, rfl, ?_⟩
      rw [List.flatMap_map]
      exact (Except.ok.inj h).symm

/-- A request without actions has no body. -/
theorem actions_ne_nil {request : BulkRequest} {body : String} (h : request.text = .ok body) :
    request.actions ≠ [] := by
  intro hempty
  have hfatal : request.validate.isFatal = true := by
    rw [validate, Report.isFatal_ofList_iff]
    exact ⟨BulkProblem.noActions.finding, by simp [problems, hempty], rfl⟩
  rw [text, Report.whenSound_of_fatal hfatal] at h
  cases h

/-- The body of a request, cut at its line breaks, gives lines that frame its actions. -/
theorem frames_text {request : BulkRequest} {body : String} (h : request.text = .ok body) :
    ∃ lines, Frames request.actions lines ∧
      (utf8Bytes body).getLast? = some 10 ∧
      (utf8Bytes body).splitOn 10 = lines.map utf8Bytes ++ [[]] := by
  obtain ⟨lines, hlines, rfl⟩ := text_eq_ok h
  have hframes := frames_linesOf hlines
  -- only a batch with actions is framed, so there is a last line to close
  have hne : lines.map Json.text ≠ [] := by
    intro hnil
    obtain ⟨action, rest, hactions⟩ := List.exists_cons_of_ne_nil (actions_ne_nil h)
    rw [List.map_eq_nil_iff.1 hnil, hactions] at hframes
    cases hframes
  refine ⟨_, hframes, getLast?_utf8Bytes hne, ?_⟩
  rw [splitOn_utf8Bytes, List.map_map, List.map_map]
  · rfl
  · intro text htext
    obtain ⟨line, -, rfl⟩ := List.mem_map.1 htext
    exact line.printable_text.newline_notMem

/-- Cutting the body of a request at its line breaks gives, for its actions in order, the line that
heads each and then the source it sends, and nothing else; so another request with the same body
has the same operations, ids, indices and sources. -/
theorem framing {request : BulkRequest} {body : String} (h : request.text = .ok body) :
    ∃ lines, Frames request.actions lines ∧
      (utf8Bytes body).getLast? = some 10 ∧
      (utf8Bytes body).splitOn 10 = lines.map utf8Bytes ++ [[]] ∧
      ∀ (other : BulkRequest) (otherBody : String), other.text = .ok otherBody →
        utf8Bytes otherBody = utf8Bytes body →
        other.actions.map BulkAction.content = request.actions.map BulkAction.content := by
  obtain ⟨lines, hframes, hend, hcut⟩ := frames_text h
  refine ⟨lines, hframes, hend, hcut, fun other otherBody hother hbytes => ?_⟩
  obtain ⟨otherLines, hotherFrames, -, hotherCut⟩ := frames_text hother
  rw [hbytes, hcut] at hotherCut
  have hsame := List.map_inj_right (fun _ _ => utf8Bytes_injective)
    |>.1 (List.append_cancel_right hotherCut)
  rw [hsame] at hframes
  exact hotherFrames.unique hframes

/-- A batch of three actions with a line break in an id and in a source. -/
def mixedBatch : BulkRequest where
  actions := [.create ⟨"a\n1", "logs", .ok (.string "x\ny")⟩, .delete "" "2",
    .update ⟨"3", "", .ok (.object [])⟩]
  defaultIndex := some "logs"

theorem framing_mixedBatch :
    ∃ body, mixedBatch.text = .ok body ∧ ∃ lines, Frames mixedBatch.actions lines ∧
      (utf8Bytes body).getLast? = some 10 ∧
      (utf8Bytes body).splitOn 10 = lines.map utf8Bytes ++ [[]] ∧
      ∀ (other : BulkRequest) (otherBody : String), other.text = .ok otherBody →
        utf8Bytes otherBody = utf8Bytes body →
        other.actions.map BulkAction.content = mixedBatch.actions.map BulkAction.content :=
  ⟨_, rfl, framing rfl⟩

end BulkRequest

end SearchWire
