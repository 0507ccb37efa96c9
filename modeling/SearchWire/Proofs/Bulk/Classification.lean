import SearchWire.Proofs.Bulk.Isolation
import SearchWire.Proofs.Bulk.ItemBody

/-!
# How an item of a bulk response is classified

An item is looked at from the outside in: whether it is an object, how many
members it has, whether the one member is named after an operation, and whether
its value is a body of an outcome. Each of these questions is asked only when
those before it have been answered well, so `BulkItem.classified` gives one
answer for every text.
-/

namespace SearchWire

namespace ActionKind

theorem ofName?_text (kind : ActionKind) : ofName? kind.text = some kind := by
  cases kind <;> decide

theorem named_text : ∀ entry ∈ named, entry.1 = entry.2.text := by
  decide

/-- A name of no operation is not known. -/
theorem ofName?_eq_none {name : String} (h : ∀ kind : ActionKind, name ≠ kind.text) :
    ofName? name = none :=
  Named.find?_eq_none fun entry hentry hsame =>
    h entry.2 (hsame.symm.trans (named_text entry hentry))

end ActionKind

namespace BulkItem

/-- A run collects all members in text order. -/
theorem run_collect (depth : Nat) (entries collected : List (String × Span)) :
    run (collect depth) entries collected = .ok (collected ++ entries) := by
  induction entries generalizing collected with
  | nil => rw [List.append_nil]; rfl
  | cons entry rest ih =>
      rw [run_cons, collect, Span.ofRaw_value, Outcome.ok_map, Outcome.ok_bind, ih,
        List.append_assoc]
      rfl

/-- An item that is an object decodes as its members, those with the same name included. -/
theorem decode_entries {text : PaddedText} {item : ObjectText} (h : text.core = item.text) :
    text.span.decode entries = .ok item.entries := by
  obtain ⟨members, hvalue, hlists⟩ := text.exists_span_value h
  rw [Span.decode, hvalue]
  exact (hlists.walk_eq _ _).trans (run_collect _ _ _)

/-- An item that is no object does not decode. -/
theorem ofText_of_not_object {text : PaddedText} (h : ∀ item : ObjectText, text.core ≠ item.text) :
    ∃ fault, ofText text.core = .error (.unreadable fault) := by
  rw [ofText_core, ofSpan]
  cases hdecode : text.span.decode entries with
  | error fault => exact ⟨fault, rfl⟩
  | ok found =>
      obtain ⟨depth, members, hvalue, hwalk⟩ := Decode.object_eq_ok hdecode
      obtain ⟨item, hitem⟩ := text.exists_objectText hvalue (Members.named_of_walk hwalk)
      exact absurd hitem (h item)

theorem ofText_of_length_ne {text : PaddedText} {item : ObjectText} (h : text.core = item.text)
    (hlength : item.members.length ≠ 1) :
    ofText text.core = .error (.keyCount item.members.length) := by
  rw [ofText_core, ofSpan, decode_entries h, ObjectText.entries]
  match hmembers : item.members with
  | [] => rfl
  | [_] => simp [hmembers] at hlength
  | _ :: _ :: rest => simp

/-- The text of an item is an object with one member. -/
def Holds (text : PaddedText) (member : MemberText) : Prop :=
  ∃ item : ObjectText, text.core = item.text ∧ item.members = [member]

theorem Holds.decode_entries {text : PaddedText} {member : MemberText} (h : Holds text member) :
    text.span.decode entries = .ok [(member.name, member.value.span)] := by
  obtain ⟨item, hitem, hmembers⟩ := h
  rw [BulkItem.decode_entries hitem, ObjectText.entries, hmembers]
  rfl

theorem Holds.ofText_of_unknown {text : PaddedText} {member : MemberText} (h : Holds text member)
    (hname : ∀ kind : ActionKind, member.name ≠ kind.text) :
    ofText text.core = .error (.unknownAction member.name) := by
  rw [ofText_core, ofSpan, h.decode_entries]
  simp only [ActionKind.ofName?_eq_none hname]

/-- An item that is named after an operation gives the outcome in its body. -/
theorem Holds.ofText_eq {text : PaddedText} {member : MemberText} (h : Holds text member)
    {kind : ActionKind} (hname : member.name = kind.text) :
    ofText text.core = (member.value.span.decode (ItemBody.decoder kind)).mapError .unreadable := by
  rw [ofText_core, ofSpan, h.decode_entries]
  simp only [hname, ActionKind.ofName?_text]
  cases member.value.span.decode (ItemBody.decoder kind) <;> rfl

/-- An item that is named after an operation decodes when its value is a body, and it reflects
this. -/
theorem Holds.ofText_eq_ok_iff {text : PaddedText} {member : MemberText} (h : Holds text member)
    {kind : ActionKind} (hname : member.name = kind.text) {response : ActionResponse} :
    ofText text.core = .ok response ↔
      ∃ entries, ItemBody.Writes member.value entries ∧
        ItemBody.WellFormed (nestingLimit - 1) entries ∧ response.action = kind ∧
        ItemBody.Reflects (nestingLimit - 1) response entries := by
  rw [h.ofText_eq hname, ← ItemBody.decode_eq_ok_iff]
  cases member.value.span.decode (ItemBody.decoder kind) <;> simp [Except.mapError]

theorem Holds.ofText_unreadable_iff {text : PaddedText} {member : MemberText}
    (h : Holds text member) {kind : ActionKind} (hname : member.name = kind.text) :
    (∃ fault, ofText text.core = .error (.unreadable fault)) ↔
      ¬ ∃ entries, ItemBody.Writes member.value entries ∧
        ItemBody.WellFormed (nestingLimit - 1) entries := by
  constructor
  · rintro ⟨fault, hfault⟩ ⟨entries, hwrites, hwell⟩
    obtain ⟨response, haction, hreflects⟩ := hwell.exists_reflects kind
    have hok := (h.ofText_eq_ok_iff hname).2 ⟨entries, hwrites, hwell, haction, hreflects⟩
    rw [hfault] at hok
    cases hok
  · intro hnone
    rw [h.ofText_eq hname]
    cases hdecode : member.value.span.decode (ItemBody.decoder kind) with
    | error fault => exact ⟨fault, rfl⟩
    | ok response =>
        obtain ⟨entries, hwrites, hwell, -⟩ := ItemBody.decode_eq_ok_iff.1 hdecode
        exact absurd ⟨entries, hwrites, hwell⟩ hnone

/-- The outcome of an item depends on its operation and the fields of its body alone. -/
theorem Holds.ofText_eq_of_fields_eq {text other : PaddedText} {member otherMember : MemberText}
    (h : Holds text member) (hother : Holds other otherMember)
    (hname : otherMember.name = member.name) {body otherBody : ObjectText}
    (hbody : member.value.core = body.text) (hotherBody : otherMember.value.core = otherBody.text)
    (hfields : otherBody.entries.filter ItemBody.isField = body.entries.filter ItemBody.isField) :
    ofText other.core = ofText text.core := by
  by_cases hkind : ∃ kind : ActionKind, member.name = kind.text
  · obtain ⟨kind, hkind⟩ := hkind
    rw [h.ofText_eq hkind, hother.ofText_eq (hname.trans hkind),
      ItemBody.decode_eq_of_fields_eq hbody hotherBody hfields]
  · have hunknown : ∀ kind : ActionKind, member.name ≠ kind.text :=
      fun kind hsame => hkind ⟨kind, hsame⟩
    rw [h.ofText_of_unknown hunknown, hother.ofText_of_unknown (hname ▸ hunknown), hname]

/-- Every item is classified from the outside in. One that is no object does not decode; an object
with another number of members than one is refused with this number, members with the same name
being counted apart; one member that is not named after an operation is refused with its name,
whatever its value is. Otherwise the item is that operation and decodes exactly when the value is a
body: its fields are well formed, none comes twice and the status is there. Then the response holds
what the fields say, and other members of the body never matter. The status is an integer of sixteen
bits without a sign, and the version and the two sequence numbers are ones of sixty-four bits or
`null`. -/
theorem classified (text : PaddedText) :
    ((∀ item : ObjectText, text.core ≠ item.text) →
        ∃ fault, ofText text.core = .error (.unreadable fault)) ∧
      (∀ item : ObjectText, text.core = item.text → item.members.length ≠ 1 →
        ofText text.core = .error (.keyCount item.members.length)) ∧
      (∀ member, Holds text member →
        ((∀ kind : ActionKind, member.name ≠ kind.text) →
          ofText text.core = .error (.unknownAction member.name)) ∧
        (∀ kind : ActionKind, member.name = kind.text →
          ((∃ fault, ofText text.core = .error (.unreadable fault)) ↔
            ¬ ∃ entries, ItemBody.Writes member.value entries ∧
              ItemBody.WellFormed (nestingLimit - 1) entries) ∧
          ∀ entries, ItemBody.Writes member.value entries →
            ItemBody.WellFormed (nestingLimit - 1) entries →
              ∃ response, ofText text.core = .ok response ∧ response.action = kind ∧
                ItemBody.Reflects (nestingLimit - 1) response entries) ∧
        ∀ (other : PaddedText) (otherMember : MemberText), Holds other otherMember →
          otherMember.name = member.name → ∀ body otherBody : ObjectText,
            member.value.core = body.text → otherMember.value.core = otherBody.text →
            otherBody.entries.filter ItemBody.isField = body.entries.filter ItemBody.isField →
              (ofText other.core).toOption = (ofText text.core).toOption) ∧
      (∀ (written : Raw) (status : Nat), Decode.nat16 (nestingLimit - 1) written = .ok status ↔
        written.IsInteger status ∧ status < 2 ^ 16) ∧
      ∀ (written : Raw) (number : Option Nat),
        Decode.optional Decode.nat64 (nestingLimit - 1) written = .ok number ↔
          written = .null ∧ number = none ∨
            ∃ value : Nat, number = some value ∧ written.IsInteger value ∧ value < 2 ^ 64 := by
  refine ⟨ofText_of_not_object, fun item => ofText_of_length_ne, fun member hholds =>
    ⟨hholds.ofText_of_unknown, fun kind hname => ⟨hholds.ofText_unreadable_iff hname, ?_⟩, ?_⟩,
    fun _ _ => Decode.nat16_eq_ok_iff, fun _ _ => Decode.optional_nat64_eq_ok_iff⟩
  · intro entries hwrites hwell
    obtain ⟨response, haction, hreflects⟩ := hwell.exists_reflects kind
    exact ⟨response, (hholds.ofText_eq_ok_iff hname).2
      ⟨entries, hwrites, hwell, haction, hreflects⟩, haction, hreflects⟩
  · intro other otherMember hother hname body otherBody hbody hotherBody hfields
    rw [hholds.ofText_eq_of_fields_eq hother hname hbody hotherBody hfields]

end BulkItem

end SearchWire
