import SearchWire.Proofs.Json.Compose

/-!
# Records, field by field

A record sets a field once, from the member that has its name, and refuses a
second such member. `run_isOk_iff_once` says when a run over the members of an
object succeeds under this rule: each member is accepted, and no field is named
twice. A record may also be written as an array, which gives the fields the
spans of its items one after another: `Items.Lists.next` is one such step, and
`Items.Lists.finish_iff` the end.
-/

namespace SearchWire

/-! ## Records from objects -/

/-- No field is named by two members. -/
def NamedOnce (fields : List String) (entries : List (String × Span)) : Prop :=
  entries.Pairwise fun first second => second.1 ∈ fields → first.1 ≠ second.1

theorem NamedOnce.of_nodup {entries : List (String × Span)} (h : (entries.map Prod.fst).Nodup)
    (fields : List String) : NamedOnce fields entries := by
  refine (List.pairwise_map.1 h).imp ?_
  intro first second hne _
  exact hne

/-- A field that is named once at most is found where it is named. -/
theorem NamedOnce.last?_eq {fields : List String} {entries : List (String × Span)}
    (h : NamedOnce fields entries) {entry : String × Span} (hentry : entry ∈ entries)
    (hfield : entry.1 ∈ fields) : Named.last? entry.1 entries = some entry.2 := by
  induction entries with
  | nil => cases hentry
  | cons first rest ih =>
      obtain ⟨hfirst, hrest⟩ := List.pairwise_cons.1 h
      rw [Named.last?_cons]
      rcases List.mem_cons.1 hentry with rfl | hentry
      · have hnone : Named.last? entry.1 rest = none :=
          Named.find?_eq_none fun other hother hsame =>
            hfirst other (List.mem_reverse.1 hother) (hsame ▸ hfield) hsame.symm
        rw [hnone, if_pos rfl, Option.none_or]
      · rw [ih hrest hentry, Option.some_or]

section Once

variable {σ α : Type}

/-- A field is set when it was not set before and its value decodes. -/
theorem Decode.once_eq_ok_iff {field : String} {slot : Option α} {value : Except Fault α}
    {result : Option α} :
    once field slot value = .ok result ↔
      slot = none ∧ ∃ found, value = .ok found ∧ some found = result := by
  cases slot with
  | some old => simp [once]
  | none => simp [once, Outcome.map_eq_ok_iff]

theorem Decode.exists_once_iff {field : String} {slot : Option α} {value : Except Fault α} :
    (∃ result, once field slot value = .ok result) ↔ slot = none ∧ ∃ found, value = .ok found := by
  simp only [once_eq_ok_iff, exists_and_left]
  refine and_congr_right fun _ => ⟨?_, ?_⟩
  · rintro ⟨_, found, hfound, -⟩
    exact ⟨found, hfound⟩
  · rintro ⟨found, hfound⟩
    exact ⟨_, found, hfound, rfl⟩

theorem Decode.require_eq_ok_iff {field : String} {slot : Option α} {value : α} :
    require field slot = .ok value ↔ slot = some value := by
  cases slot <;> simp [require]

/-- A member sets a field that was not set before, when it has the field's name, and leaves it alone
when it has not. -/
def SetsOnce (get : σ → Option α) (field : String) (decode : Raw → Except Fault α) (state : σ)
    (name : String) (value : Raw) (next : σ) : Prop :=
  if name = field then get state = none ∧ ∃ found, decode value = .ok found ∧ some found = get next
  else get next = get state

variable {get : σ → Option α} {field name : String} {decode : Raw → Except Fault α}
  {state next : σ} {value : Raw}

theorem SetsOnce.setsField (h : SetsOnce get field decode state name value next) :
    SetsField get field (fun value => some <$> decode value) state name value next := by
  unfold SetsOnce at h
  unfold SetsField
  split at h
  · next hname =>
      obtain ⟨-, found, hfound, hnext⟩ := h
      rw [if_pos hname]
      show some <$> decode value = .ok (get next)
      rw [hfound, ← hnext, Outcome.ok_map]
  · next hname => rw [if_neg hname, h]

/-- A field stays unset under the members of other names. -/
theorem SetsOnce.unset_iff (h : SetsOnce get field decode state name value next) :
    get next = none ↔ get state = none ∧ name ≠ field := by
  unfold SetsOnce at h
  split at h
  · next hname =>
      obtain ⟨-, found, -, hnext⟩ := h
      simp [← hnext, hname]
  · next hname => simp [h, hname]

/-- When fields are set once, a run succeeds when every member is accepted, no field is named twice
and those that are named have not been set before. -/
theorem run_isOk_iff_once {step : σ → String → Raw → Except Fault σ} {fields : List String}
    {accepts : String → Raw → Prop} {unset : σ → String → Prop}
    (hstep : ∀ (state : σ) (name : String) (span : Span),
      (∃ next, step state name span.value = .ok next) ↔
        accepts name span.value ∧ (name ∈ fields → unset state name))
    (hnext : ∀ (state : σ) (name : String) (value : Raw) (next : σ),
      step state name value = .ok next →
        ∀ field ∈ fields, unset next field ↔ unset state field ∧ name ≠ field)
    (entries : List (String × Span)) (state : σ) :
    (∃ final, run step entries state = .ok final) ↔
      (∀ entry ∈ entries, accepts entry.1 entry.2.value) ∧ NamedOnce fields entries ∧
        ∀ entry ∈ entries, entry.1 ∈ fields → unset state entry.1 := by
  induction entries generalizing state with
  | nil => simp [run, NamedOnce]
  | cons entry rest ih =>
      have hfirst := hstep state entry.1 entry.2
      simp only [run_cons, Outcome.bind_eq_ok_iff, List.forall_mem_cons, NamedOnce,
        List.pairwise_cons]
      constructor
      · rintro ⟨final, next, hok, hfinal⟩
        obtain ⟨haccepts, hunset⟩ := hfirst.1 ⟨next, hok⟩
        obtain ⟨hall, hdistinct, hothers⟩ := (ih next).1 ⟨final, hfinal⟩
        -- what is unset behind the first member is unset before it and has another name
        have hboth : ∀ other ∈ rest, other.1 ∈ fields →
            unset state other.1 ∧ entry.1 ≠ other.1 := fun other hother hfield =>
          (hnext state entry.1 _ next hok other.1 hfield).1 (hothers other hother hfield)
        exact ⟨⟨haccepts, hall⟩, ⟨fun other hother hfield => (hboth other hother hfield).2,
          hdistinct⟩, hunset, fun other hother hfield => (hboth other hother hfield).1⟩
      · rintro ⟨⟨haccepts, hall⟩, ⟨hnew, hdistinct⟩, hunset, hothers⟩
        obtain ⟨next, hok⟩ := hfirst.2 ⟨haccepts, hunset⟩
        have hleft : ∀ other ∈ rest, other.1 ∈ fields → unset next other.1 :=
          fun other hother hfield => (hnext state entry.1 _ next hok other.1 hfield).2
            ⟨hothers other hother hfield, hnew other hother hfield⟩
        obtain ⟨final, hfinal⟩ := (ih next).2 ⟨hall, hdistinct, hleft⟩
        exact ⟨final, next, hok, hfinal⟩

/-- A field is taken from a member when its slot is and an empty slot gives the default. -/
theorem takenFrom_iff_slot {absent value : α} {found : Option Span} :
    TakenFrom decode absent value found ↔
      ∃ slot, TakenFrom (fun value => some <$> decode value) none slot found ∧
        slot.getD absent = value := by
  cases found with
  | none => simp [TakenFrom, eq_comm]
  | some span => simp [TakenFrom, Outcome.map_eq_ok_iff]

theorem TakenFrom.decodes {absent value : α} {found : Option Span} {span : Span}
    (h : TakenFrom decode absent value found) (hfound : found = some span) :
    decode span.value = .ok value := by
  subst hfound
  exact h

end Once

/-! ## Records from arrays -/

/-- A record in the form of an array takes its fields from the spans of the items, one after
another. -/
theorem Items.Lists.next {items : Items} {spans : List Span} {position : Nat}
    (h : items.Lists (spans.drop position)) :
    ∃ more : Items, more.Lists (spans.drop (position + 1)) ∧
      (∀ {α β : Type} (element : Raw → Except Fault α)
        (rest : Option α × Items → Except Fault β) (result : β),
        (Decode.next element items >>= rest) = .ok result ↔
          ∃ field, TakenFrom (fun value => some <$> element value) none field spans[position]? ∧
            rest (field, more) = .ok result) ∧
      ∀ {α β : Type} (expected : String) (place : Nat) (element : Raw → Except Fault α)
        (rest : α × Items → Except Fault β) (result : β),
        (Decode.nextRequired expected place element items >>= rest) = .ok result ↔
          ∃ field, (∃ span, spans[position]? = some span ∧ element span.value = .ok field) ∧
            rest (field, more) = .ok result := by
  rw [← List.head?_drop, ← List.tail_drop]
  generalize spans.drop position = left at h ⊢
  cases h with
  | closed blank =>
      refine ⟨.closed blank, .closed blank, fun element rest result => ?_,
        fun _ _ _ _ _ => ?_⟩
      · simp [Decode.next, TakenFrom]
      · simp [Decode.next, Decode.nextRequired]
  | @item lead span more spans hmore =>
      refine ⟨more, hmore, fun element rest result => ?_, fun _ _ element _ _ => ?_⟩
      · cases hvalue : element span.value <;> simp [Decode.next, TakenFrom, hvalue]
      · cases hvalue : element span.value <;> simp [Decode.next, Decode.nextRequired, hvalue]

/-- A record in the form of an array ends with its last field. -/
theorem Items.Lists.finish_iff {items : Items} {spans : List Span} (h : items.Lists spans) :
    Decode.finish items = .ok () ↔ spans = [] := by
  cases h <;> simp [Decode.finish]

/-! ## Records in either form -/

namespace Decode

variable {α : Type} {name : String} {ofMembers : Nat → Members → Except Fault α}
  {ofItems : Nat → Items → Except Fault (α × Items)} {depth : Nat} {result : α}

/-- An array decodes as a record when its items are read to their end. -/
theorem record_array_eq_ok_iff {items : Items} :
    record name ofMembers ofItems (depth + 1) (.array items) = .ok result ↔
      ∃ rest, ofItems depth items = .ok (result, rest) ∧ finish rest = .ok () := by
  rw [record, Outcome.bind_eq_ok_iff]
  constructor
  · rintro ⟨⟨value, rest⟩, hitems, h⟩
    obtain ⟨⟨⟩, hfinish, h⟩ := Outcome.bind_eq_ok_iff.1 h
    cases h
    exact ⟨rest, hitems, hfinish⟩
  · rintro ⟨rest, hitems, hfinish⟩
    exact ⟨(result, rest), hitems, Outcome.bind_eq_ok_iff.2 ⟨(), hfinish, rfl⟩⟩

/-- Only an object and an array decode as a record. -/
theorem record_eq_ok {value : Raw} (h : record name ofMembers ofItems depth value = .ok result) :
    ∃ less, depth = less + 1 ∧
      ((∃ members, value = .object members ∧ ofMembers less members = .ok result) ∨
        ∃ items, value = .array items ∧
          ∃ rest, ofItems less items = .ok (result, rest) ∧ finish rest = .ok ()) := by
  have h' := h
  unfold record at h'
  split at h'
  · next less members => exact ⟨less, rfl, .inl ⟨members, rfl, h'⟩⟩
  · next less items => exact ⟨less, rfl, .inr ⟨items, rfl, record_array_eq_ok_iff.1 h⟩⟩
  · cases h'
  · cases h'
  · exact absurd h' (Raw.refuse_ne_ok _ _ _)

end Decode

end SearchWire
