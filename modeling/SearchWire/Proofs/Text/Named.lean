import SearchWire.Text.Named

/-!
# Named things and the history of their insertions

A list of named things is determined by what it holds under each name:
`ext_of_find?` says this of lists in which the names increase, and insertion
keeps them increasing. `find?_insertAll` gives what a list holds after a history
of insertions, in which the last thing under a name counts.
-/

namespace SearchWire

namespace Named

variable {α : Type}

/-- The names increase. -/
def Sorted (named : List (String × α)) : Prop :=
  named.Pairwise fun first second => first.1 < second.1

/-- The thing that comes last under a name. -/
def last? (name : String) (entries : List (String × α)) : Option α :=
  find? name entries.reverse

theorem find?_cons (name : String) (entry : String × α) (rest : List (String × α)) :
    find? name (entry :: rest) = if entry.1 = name then some entry.2 else find? name rest := by
  obtain ⟨other, thing⟩ := entry
  unfold find?
  rw [List.lookup_cons]
  by_cases hsame : other = name
  · subst hsame
    simp
  · have hne : (name == other) = false := by simpa using Ne.symm hsame
    simp [hne, hsame]

theorem find?_append (name : String) (first second : List (String × α)) :
    find? name (first ++ second) = (find? name first).or (find? name second) :=
  List.lookup_append

theorem last?_cons (name : String) (entry : String × α) (rest : List (String × α)) :
    last? name (entry :: rest) =
      (last? name rest).or (if entry.1 = name then some entry.2 else none) := by
  rw [last?, List.reverse_cons, find?_append, find?_cons]
  rfl

theorem last?_singleton (name : String) (entry : String × α) :
    last? name [entry] = if entry.1 = name then some entry.2 else none := by
  rw [last?, List.reverse_singleton, find?_cons]
  rfl

theorem last?_append (name : String) (first second : List (String × α)) :
    last? name (first ++ second) = (last? name second).or (last? name first) := by
  rw [last?, List.reverse_append, find?_append]
  rfl

/-- Changing the things leaves each under its name. -/
theorem find?_map {β : Type} (f : α → β) (name : String) (named : List (String × α)) :
    find? name (named.map fun entry => (entry.1, f entry.2)) = (find? name named).map f := by
  induction named with
  | nil => rfl
  | cons entry rest ih =>
      rw [List.map_cons, find?_cons, find?_cons, ih]
      split <;> rfl

/-- Nothing is found under a name that does not occur. -/
theorem find?_eq_none {name : String} {named : List (String × α)}
    (h : ∀ entry ∈ named, entry.1 ≠ name) : find? name named = none := by
  induction named with
  | nil => rfl
  | cons entry rest ih =>
      rw [find?_cons, if_neg (h entry List.mem_cons_self),
        ih fun other hother => h other (List.mem_cons_of_mem _ hother)]

/-- What is found under a name stands there. -/
theorem mem_of_find? {name : String} {thing : α} {named : List (String × α)}
    (h : find? name named = some thing) : (name, thing) ∈ named := by
  induction named with
  | nil => cases h
  | cons entry rest ih =>
      rw [find?_cons] at h
      split at h
      · next hname =>
          cases h
          rw [← hname]
          exact List.mem_cons_self
      · exact List.mem_cons_of_mem _ (ih h)

/-- Leaving out entries of other names changes nothing under a name. -/
theorem find?_filter {keep : String × α → Bool} {name : String}
    (h : ∀ thing, keep (name, thing) = true) (named : List (String × α)) :
    find? name (named.filter keep) = find? name named := by
  induction named with
  | nil => rfl
  | cons entry rest ih =>
      rw [find?_cons]
      cases hkeep : keep entry with
      | true => rw [List.filter_cons_of_pos hkeep, find?_cons, ih]
      | false =>
          have hname : entry.1 ≠ name := by
            rintro rfl
            exact Bool.false_ne_true (hkeep.symm.trans (h entry.2))
          rw [List.filter_cons_of_neg (by simp [hkeep]), if_neg hname, ih]

theorem last?_filter {keep : String × α → Bool} {name : String}
    (h : ∀ thing, keep (name, thing) = true) (entries : List (String × α)) :
    last? name (entries.filter keep) = last? name entries := by
  rw [last?, ← List.filter_reverse, find?_filter h]
  rfl

theorem last?_eq_none_iff {name : String} {entries : List (String × α)} :
    last? name entries = none ↔ name ∉ entries.map Prod.fst := by
  constructor
  · intro h hname
    obtain ⟨entry, hentry, rfl⟩ := List.mem_map.1 hname
    obtain ⟨before, after, rfl⟩ := List.append_of_mem hentry
    rw [last?_append, last?_cons, if_pos rfl] at h
    cases hafter : last? entry.1 after <;> simp [hafter] at h
  · intro h
    refine find?_eq_none fun entry hentry hname => h ?_
    exact hname ▸ List.mem_map_of_mem (List.mem_reverse.1 hentry)

/-! ## Increasing names -/

theorem Sorted.nil : Sorted ([] : List (String × α)) :=
  List.Pairwise.nil

/-- What an insertion leaves is the new thing under its name or was there before. -/
theorem mem_insert {name : String} {thing : α} {named : List (String × α)} {entry : String × α}
    (h : entry ∈ insert name thing named) : entry = (name, thing) ∨ entry ∈ named := by
  induction named with
  | nil => exact .inl (List.mem_singleton.1 h)
  | cons first rest ih =>
      obtain ⟨other, old⟩ := first
      simp only [insert] at h
      split at h
      · exact List.mem_cons.1 h
      · split at h
        · exact (List.mem_cons.1 h).imp id (List.mem_cons_of_mem _)
        · rcases List.mem_cons.1 h with rfl | h
          · exact .inr List.mem_cons_self
          · exact (ih h).imp id (List.mem_cons_of_mem _)

/-- Insertion keeps the names increasing. -/
theorem Sorted.insert {named : List (String × α)} (h : Sorted named) (name : String) (thing : α) :
    Sorted (insert name thing named) := by
  induction named with
  | nil => exact List.pairwise_singleton _ _
  | cons first rest ih =>
      obtain ⟨other, old⟩ := first
      obtain ⟨hfirst, hrest⟩ := List.pairwise_cons.1 h
      simp only [Named.insert]
      split
      · next hless =>
          refine List.pairwise_cons.2 ⟨fun entry hentry => ?_, h⟩
          rcases List.mem_cons.1 hentry with rfl | hentry
          · exact hless
          · exact String.lt_trans hless (hfirst entry hentry)
      · next hnotless =>
          split
          · next hsame =>
              subst hsame
              exact List.pairwise_cons.2 ⟨hfirst, hrest⟩
          · next hdifferent =>
              refine List.pairwise_cons.2 ⟨fun entry hentry => ?_, ih hrest⟩
              rcases mem_insert hentry with rfl | hentry
              · refine Decidable.by_contra fun hnot => hdifferent ?_
                exact String.le_antisymm (String.not_lt.1 hnot) (String.not_lt.1 hnotless)
              · exact hfirst entry hentry

theorem Sorted.insertAll {named : List (String × α)} (h : Sorted named)
    (entries : List (String × α)) : Sorted (insertAll entries named) := by
  induction entries generalizing named with
  | nil => exact h
  | cons entry rest ih => exact ih (h.insert entry.1 entry.2)

/-- Nothing is found under a name below the first. -/
theorem find?_eq_none_of_lt {name : String} {entry : String × α} {rest : List (String × α)}
    (h : Sorted (entry :: rest)) (hless : name < entry.1) : find? name (entry :: rest) = none := by
  refine find?_eq_none fun other hother => ?_
  rcases List.mem_cons.1 hother with rfl | hother
  · exact (String.ne_of_lt hless).symm
  · exact (String.ne_of_lt (String.lt_trans hless ((List.pairwise_cons.1 h).1 other hother))).symm

/-- Behind the first name it does not come again. -/
theorem find?_rest {entry : String × α} {rest : List (String × α)} (h : Sorted (entry :: rest)) :
    find? entry.1 rest = none :=
  find?_eq_none fun other hother => (String.ne_of_lt ((List.pairwise_cons.1 h).1 other hother)).symm

/-- Lists with increasing names that hold the same under each name are equal. -/
theorem ext_of_find? {first second : List (String × α)} (hfirst : Sorted first)
    (hsecond : Sorted second) (h : ∀ name, find? name first = find? name second) :
    first = second := by
  induction first generalizing second with
  | nil =>
      cases second with
      | nil => rfl
      | cons other others =>
          have hname := h other.1
          rw [find?_cons, if_pos rfl] at hname
          cases hname
  | cons entry rest ih =>
      have hentry := h entry.1
      rw [find?_cons, if_pos rfl] at hentry
      cases second with
      | nil => cases hentry
      | cons other others =>
          have hother := h other.1
          rw [find?_cons other.1 other, if_pos rfl] at hother
          -- of two different first names the smaller would be found in one list only
          have hname : entry.1 = other.1 := by
            refine String.le_antisymm (fun hless => ?_) (fun hless => ?_)
            · rw [find?_eq_none_of_lt hfirst hless] at hother
              cases hother
            · rw [find?_eq_none_of_lt hsecond hless] at hentry
              cases hentry
          rw [find?_cons, if_pos hname.symm] at hentry
          have hrest : ∀ name, find? name rest = find? name others := by
            intro name
            by_cases hsame : entry.1 = name
            · rw [← hsame, find?_rest hfirst, hname, find?_rest hsecond]
            · have hboth := h name
              rwa [find?_cons, find?_cons, if_neg hsame, if_neg (hname ▸ hsame)] at hboth
          rw [ih (List.pairwise_cons.1 hfirst).2 (List.pairwise_cons.1 hsecond).2 hrest,
            Prod.ext hname (Option.some.inj hentry)]

/-- What an insertion leaves under a name. -/
theorem find?_insert (name other : String) (thing : α) (named : List (String × α)) :
    find? other (insert name thing named) =
      (if name = other then some thing else none).or (find? other named) := by
  by_cases hsame : name = other
  · rw [if_pos hsame, ← hsame]
    exact find?_insert_self name thing named
  · rw [if_neg hsame, Option.none_or]
    exact find?_insert_of_ne thing named (Ne.symm hsame)

/-- What is replaced under a name is what is found there, and the rest is an insertion. -/
theorem exchange_eq {named : List (String × α)} (h : Sorted named) (name : String) (thing : α) :
    exchange name thing named = (find? name named, insert name thing named) := by
  induction named with
  | nil => rfl
  | cons first rest ih =>
      obtain ⟨other, old⟩ := first
      obtain ⟨-, hrest⟩ := List.pairwise_cons.1 h
      rw [exchange, Named.insert]
      by_cases hless : name < other
      · rw [if_pos hless, if_pos hless, find?_eq_none_of_lt h hless]
      · rw [if_neg hless, if_neg hless, find?_cons]
        by_cases hsame : name = other
        · rw [if_pos hsame, if_pos hsame, if_pos hsame.symm]
        · rw [if_neg hsame, if_neg hsame, if_neg (Ne.symm hsame), ih hrest]

/-- What a history of insertions leaves under a name: the last thing inserted under it, or what was
there before. -/
theorem find?_insertAll (name : String) (entries named : List (String × α)) :
    find? name (insertAll entries named) = (last? name entries).or (find? name named) := by
  induction entries generalizing named with
  | nil => rfl
  | cons entry rest ih =>
      have hstep : insertAll (entry :: rest) named =
          insertAll rest (insert entry.1 entry.2 named) := rfl
      rw [hstep, ih, last?_cons, Option.or_assoc, find?_insert]

/-! ## Distinct names -/

/-- Among distinct names an entry is what is found under its name. -/
theorem find?_eq_some_iff {name : String} {thing : α} {named : List (String × α)}
    (h : (named.map Prod.fst).Nodup) : find? name named = some thing ↔ (name, thing) ∈ named := by
  induction named with
  | nil => simp [find?]
  | cons entry rest ih =>
      obtain ⟨hentry, hrest⟩ := List.nodup_cons.1 h
      rw [find?_cons, List.mem_cons]
      by_cases hname : entry.1 = name
      · subst hname
        have habsent : (entry.1, thing) ∉ rest := fun hmem =>
          hentry (List.mem_map.2 ⟨_, hmem, rfl⟩)
        obtain ⟨first, old⟩ := entry
        simp [habsent, eq_comm]
      · have hdifferent : (name, thing) ≠ entry := fun hsame => hname (by rw [← hsame])
        simp [hname, hdifferent, ih hrest]

/-- Among distinct names the order does not matter. -/
theorem find?_eq_of_perm {first second : List (String × α)} (hperm : first.Perm second)
    (h : (first.map Prod.fst).Nodup) (name : String) : find? name first = find? name second := by
  have hsecond : (second.map Prod.fst).Nodup := (hperm.map Prod.fst).nodup h
  refine Option.ext fun thing => ?_
  rw [find?_eq_some_iff h, find?_eq_some_iff hsecond, hperm.mem_iff]

/-- Among distinct names the last thing under a name is the only one. -/
theorem last?_eq_find? {named : List (String × α)} (h : (named.map Prod.fst).Nodup)
    (name : String) : last? name named = find? name named :=
  (find?_eq_of_perm (List.reverse_perm named).symm h name).symm

/-- Among distinct names the order does not matter for what comes last. -/
theorem last?_eq_of_perm {first second : List (String × α)} (hperm : first.Perm second)
    (h : (first.map Prod.fst).Nodup) (name : String) : last? name first = last? name second := by
  have hsecond : (second.map Prod.fst).Nodup := (hperm.map Prod.fst).nodup h
  rw [last?_eq_find? h, last?_eq_find? hsecond, find?_eq_of_perm hperm h]

theorem Sorted.nodup {named : List (String × α)} (h : Sorted named) :
    (named.map Prod.fst).Nodup :=
  List.pairwise_map.2 (h.imp String.ne_of_lt)

theorem sorted_ofList (entries : List (String × α)) : Sorted (ofList entries) :=
  Sorted.nil.insertAll entries

theorem find?_ofList (name : String) (entries : List (String × α)) :
    find? name (ofList entries) = last? name entries := by
  rw [ofList, find?_insertAll]
  exact Option.or_none

/-- Histories that end alike under every name leave the same. -/
theorem ofList_eq_of_last? {first second : List (String × α)}
    (h : ∀ name, last? name first = last? name second) : ofList first = ofList second :=
  ext_of_find? (sorted_ofList first) (sorted_ofList second) fun name => by
    rw [find?_ofList, find?_ofList, h]

/-- What is there under a name is the last thing inserted under it. -/
theorem mem_ofList_iff {name : String} {thing : α} {entries : List (String × α)} :
    (name, thing) ∈ ofList entries ↔ last? name entries = some thing := by
  rw [← find?_eq_some_iff (sorted_ofList entries).nodup, find?_ofList]

/-- Inserting further things goes on with the history. -/
theorem insertAll_ofList (before after : List (String × α)) :
    insertAll after (ofList before) = ofList (before ++ after) :=
  List.foldl_append.symm

/-- The names under which things were inserted are the names there are. -/
theorem mem_names_ofList (name : String) (entries : List (String × α)) :
    name ∈ (ofList entries).map Prod.fst ↔ name ∈ entries.map Prod.fst := by
  rw [← Decidable.not_iff_not, ← last?_eq_none_iff, ← last?_eq_none_iff,
    last?_eq_find? (sorted_ofList entries).nodup, find?_ofList]

/-- Where the names of a kind are distinct, insertion loses nothing of this kind and adds nothing
to it. -/
theorem filter_ofList_perm {keep : String → Bool} {entries : List (String × α)}
    (h : ((entries.filter fun entry => keep entry.1).map Prod.fst).Nodup) :
    ((ofList entries).filter fun entry => keep entry.1).Perm
      (entries.filter fun entry => keep entry.1) := by
  have hall := (sorted_ofList entries).nodup
  have hnodup {named : List (String × α)} (hnames : (named.map Prod.fst).Nodup) : named.Nodup :=
    (List.pairwise_map.1 hnames).imp fun hne hsame => hne (congrArg Prod.fst hsame)
  rw [List.perm_ext_iff_of_nodup ((hnodup hall).filter _) (hnodup h)]
  rintro ⟨name, thing⟩
  rw [List.mem_filter]
  by_cases hkeep : keep name = true
  · have hkept : last? name (entries.filter fun entry => keep entry.1) = last? name entries :=
      last?_filter (fun _ => hkeep) entries
    rw [← find?_eq_some_iff hall, find?_ofList, ← hkept, last?_eq_find? h, find?_eq_some_iff h]
    exact and_iff_left hkeep
  · rw [List.mem_filter]
    exact iff_of_false (fun hmem => hkeep hmem.2) (fun hmem => hkeep hmem.2)

theorem nodup_zip {names : List String} (h : names.Nodup) (things : List α) :
    ((names.zip things).map Prod.fst).Nodup := by
  induction names generalizing things with
  | nil => exact List.nodup_nil
  | cons name rest ih =>
      obtain ⟨hname, hrest⟩ := List.nodup_cons.1 h
      cases things with
      | nil => exact List.nodup_nil
      | cons thing others =>
          rw [List.zip_cons_cons, List.map_cons, List.nodup_cons]
          refine ⟨fun hmem => hname ?_, ih hrest others⟩
          obtain ⟨⟨other, found⟩, hentry, rfl⟩ := List.mem_map.1 hmem
          exact (List.of_mem_zip hentry).1

/-- Things that are given distinct names in order are found by their positions. -/
theorem find?_zip {names : List String} (h : names.Nodup) (things : List α) {position : Nat}
    {name : String} (hname : names[position]? = some name) :
    find? name (names.zip things) = things[position]? := by
  refine Option.ext fun thing => ?_
  rw [find?_eq_some_iff (nodup_zip h things), List.mem_iff_getElem?]
  constructor
  · rintro ⟨place, hplace⟩
    obtain ⟨hfirst, hthing⟩ := List.getElem?_zip_eq_some.1 hplace
    have hlength : place < names.length := (List.getElem?_eq_some_iff.1 hfirst).1
    rwa [(List.getElem?_inj hlength h).1 (hfirst.trans hname.symm)] at hthing
  · intro hthing
    exact ⟨position, List.getElem?_zip_eq_some.2 ⟨hname, hthing⟩⟩

theorem last?_zip {names : List String} (h : names.Nodup) (things : List α) {position : Nat}
    {name : String} (hname : names[position]? = some name) :
    last? name (names.zip things) = things[position]? := by
  rw [last?_eq_find? (nodup_zip h things), find?_zip h things hname]

end Named

end SearchWire
