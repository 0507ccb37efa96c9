import SearchWire.Proofs.Json.Slots
import SearchWire.Proofs.Text.Named

/-!
# What stands at a place of a JSON value

A place of a JSON value is given by keys, the names of entries and the positions
of items that lead to it. `entry?_record` says what stands under a name of an
object that was built by setting entries, and `entry?_present` what stands in
its slots when their names are distinct.
-/

namespace SearchWire

namespace Json

/-- A step into a JSON value: to the entry of a name, or to the item at a position. -/
inductive Key where
  | name (text : String)
  | item (position : Nat)
deriving DecidableEq

/-- The value that a step leads to. -/
def child? : Key → Json → Option Json
  | .name text, value => value.entry? text
  | .item position, .array items => items[position]?
  | .item _, _ => none

/-- The value at a place. -/
def at? : List Key → Json → Option Json
  | [], value => some value
  | key :: rest, value => (child? key value).bind (at? rest)

theorem at?_cons (key : Key) (rest : List Key) (value : Json) :
    at? (key :: rest) value = (child? key value).bind (at? rest) := rfl

theorem at?_singleton (key : Key) (value : Json) : at? [key] value = child? key value :=
  Option.bind_fun_some _

/-- A place within a place. -/
theorem at?_append (first rest : List Key) (value : Json) :
    at? (first ++ rest) value = (at? first value).bind (at? rest) := by
  induction first generalizing value with
  | nil => rfl
  | cons key keys ih =>
      rw [List.cons_append, at?_cons, at?_cons, Option.bind_assoc]
      exact Option.bind_congr fun child _ => ih child

/-- The only entry of an object. -/
theorem at?_single (name : String) (value : Json) (rest : List Key) :
    at? (.name name :: rest) (single name value) = at? rest value := by
  have hchild : child? (.name name) (single name value) = some value := List.lookup_cons_self
  rw [at?_cons, hchild, Option.bind_some]

theorem at?_item {items : List Json} {position : Nat} {value : Json}
    (h : items[position]? = some value) (rest : List Key) :
    at? (.item position :: rest) (.array items) = at? rest value := by
  have hchild : child? (.item position) (.array items) = some value := h
  rw [at?_cons, hchild, Option.bind_some]

theorem at?_name {value child : Json} {name : String} (h : value.entry? name = some child)
    (rest : List Key) : at? (.name name :: rest) value = at? rest child := by
  have hchild : child? (.name name) value = some child := h
  rw [at?_cons, hchild, Option.bind_some]

/-! ## Objects that are built entry by entry -/

theorem lookup_insertEntry (name other : String) (value : Json) (entries : List (String × Json)) :
    (insertEntry other value entries).lookup name =
      if other = name then some value else entries.lookup name := by
  have hcons (entry : String × Json) (rest : List (String × Json)) :
      (entry :: rest).lookup name = if entry.1 = name then some entry.2 else rest.lookup name :=
    Named.find?_cons name entry rest
  induction entries with
  | nil => rw [insertEntry, hcons]
  | cons entry rest ih =>
      obtain ⟨present, old⟩ := entry
      rw [insertEntry]
      split
      · next hsame =>
          subst hsame
          rw [hcons, hcons]
          split <;> rfl
      · next hdifferent =>
          rw [hcons, hcons, ih]
          split
          · next hname => rw [if_neg (hname ▸ Ne.symm hdifferent)]
          · rfl

/-- Under a name stands what was set last. -/
theorem entry?_record (name : String) (entries : List (String × Json)) :
    entry? name (record entries) = Named.last? name entries := by
  suffices hall : ∀ built : List (String × Json),
      (entries.foldl (fun built entry => insertEntry entry.1 entry.2 built) built).lookup name =
        (Named.last? name entries).or (built.lookup name) by
    have hempty := hall []
    rwa [List.lookup_nil, Option.or_none] at hempty
  induction entries with
  | nil => exact fun _ => rfl
  | cons entry rest ih =>
      intro built
      rw [List.foldl_cons, ih, lookup_insertEntry, Named.last?_cons, Option.or_assoc]
      split <;> rfl

/-- Distinct names keep what is set under them. -/
theorem entry?_record_of_mem {entries : List (String × Json)} (h : (entries.map Prod.fst).Nodup)
    {name : String} {value : Json} (hmem : (name, value) ∈ entries) :
    entry? name (record entries) = some value := by
  rw [record_of_nodup h]
  exact (Named.find?_eq_some_iff h).2 hmem

/-- A slot that is filled stands under its name. -/
theorem entry?_present (names : List String) (hdistinct : names.Nodup)
    {slots : List (String × Option Json)} (hslots : slots.map Prod.fst = names) {name : String}
    {value : Json} (hmem : (name, some value) ∈ slots) :
    entry? name (record (present slots)) = some value := by
  have hnodup : ((present slots).map Prod.fst).Nodup :=
    (hslots ▸ hdistinct).sublist (names_present_sublist slots)
  exact entry?_record_of_mem hnodup (List.mem_flatMap.2 ⟨_, hmem, List.mem_singleton_self _⟩)

/-- Under the name of a slot stands what fills it, and nothing when it is not filled. -/
theorem entry?_slot (names : List String) (hdistinct : names.Nodup)
    {slots : List (String × Option Json)} (hslots : slots.map Prod.fst = names) {name : String}
    {slot : Option Json} (hmem : (name, slot) ∈ slots) :
    entry? name (record (present slots)) = slot := by
  cases slot with
  | some value => exact entry?_present names hdistinct hslots hmem
  | none =>
      rw [entry?_record, Named.last?_eq_none_iff]
      intro hname
      obtain ⟨⟨_, value⟩, hentry, rfl⟩ := List.mem_map.1 hname
      obtain ⟨⟨_, _ | filled⟩, hother, hvalue⟩ := List.mem_flatMap.1 hentry
      · cases hvalue
      · obtain ⟨rfl, rfl⟩ := Prod.mk.inj (List.mem_singleton.1 hvalue)
        have hnodup : (slots.map Prod.fst).Nodup := hslots ▸ hdistinct
        have hsame := ((Named.find?_eq_some_iff hnodup).2 hmem).symm.trans
          ((Named.find?_eq_some_iff hnodup).2 hother)
        cases hsame

/-- Beside an option that is set, a value under a field is written in the long form. -/
theorem at?_underField (valueName : String) (names : List String)
    (hdistinct : (valueName :: names).Nodup) {slots : List (String × Option Json)}
    (hslots : slots.map Prod.fst = names) (field : String) (value : Json) {name : String}
    {option : Json} (hmem : (name, some option) ∈ slots) :
    at? [.name field, .name name] (underField field valueName value (present slots)) =
      some option := by
  have hpresent : (name, option) ∈ present slots :=
    List.mem_flatMap.2 ⟨_, hmem, List.mem_singleton_self _⟩
  have hoptions : ¬ (present slots).isEmpty = true := by
    rw [List.isEmpty_iff]
    exact List.ne_nil_of_mem hpresent
  -- in the long form the value is one more slot
  have hlong : entry? name (record (present ((valueName, some value) :: slots))) = some option :=
    entry?_present (valueName :: names) hdistinct (congrArg _ hslots) (List.mem_cons_of_mem _ hmem)
  rw [underField, at?_single, if_neg hoptions]
  exact at?_name hlong []

end Json

end SearchWire
