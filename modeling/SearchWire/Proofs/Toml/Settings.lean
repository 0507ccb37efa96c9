import SearchWire.Proofs.Toml.Quoting
import SearchWire.Toml.Read

/-!
# Written settings read back

A setting is a key without quotes and a string or a truth value. Written lines of
settings with different keys are read as exactly these settings, in their order:
a line sets its key and leaves the settings before it as they are, and the lines
of a text follow one another.
-/

namespace SearchWire

namespace Toml

/-- A value that is written in quotes or as one word. -/
inductive Scalar where
  | string (value : String)
  | bool (value : Bool)

/-- The written form of a value. -/
def Scalar.text : Scalar → List Char
  | string value => stringText value.toList
  | bool value => boolText value

/-- The value as it is read. -/
def Scalar.value : Scalar → Value
  | string value => .string value
  | bool value => .bool value

/-- A key with its value. -/
structure Setting where
  key : String
  value : Scalar

/-- The line that sets a key. -/
def Setting.chars (setting : Setting) : List Char :=
  lineText setting.key setting.value.text

/-- The entry of a setting in a table. -/
def Setting.entry (setting : Setting) : String × Item :=
  (setting.key, .value setting.value.value)

/-- A key that needs no quotes. -/
def IsBareKey (key : String) : Prop :=
  key ≠ "" ∧ ∀ c ∈ key.toList, isBare c = true

instance (key : String) : Decidable (IsBareKey key) :=
  inferInstanceAs (Decidable (_ ∧ _))

/-! ## One line -/

/-- A written string begins with a quote. -/
theorem stringText_opening (chars : List Char) :
    ∃ first rest, stringText chars = first :: rest ∧ (first = '"' ∨ first = '\'') := by
  rw [stringText]
  cases StringForm.ofChars chars with
  | basic => exact ⟨'"', _, rfl, .inl rfl⟩
  | literal => exact ⟨'\'', _, rfl, .inr rfl⟩
  | multiBasic => exact ⟨'"', _, rfl, .inl rfl⟩
  | multiLiteral => exact ⟨'\'', _, rfl, .inr rfl⟩

/-- No white space stands before a written value. -/
theorem Scalar.skipBlanks_text (scalar : Scalar) (rest : List Char) :
    skipBlanks (scalar.text ++ rest) = scalar.text ++ rest := by
  cases scalar with
  | string value =>
      obtain ⟨first, more, htext, hfirst⟩ := stringText_opening value.toList
      rw [Scalar.text, htext, List.cons_append, skipBlanks, List.dropWhile_cons_of_neg]
      rcases hfirst with rfl | rfl <;> decide
  | bool value => cases value <;> rfl

/-- A value is read from its written form, which the end of the line ends. -/
theorem value_text (scalar : Scalar) (fuel depth : Nat) (rest : List Char) :
    Toml.value (fuel + 1) depth (scalar.text ++ '\n' :: rest) =
      some (scalar.value, '\n' :: rest) := by
  cases scalar with
  | string value =>
      have hread := string_stringText value.toList rest
      obtain ⟨first, more, htext, hfirst⟩ := stringText_opening value.toList
      rw [htext, List.cons_append] at hread
      rw [Scalar.text, htext, List.cons_append, Toml.value, if_pos (by simpa using hfirst), hread]
      · simp [Scalar.value]
      all_goals
        rintro rfl
        simp at hfirst
  | bool value => cases value <;> rfl

/-- A key without quotes is not empty, and no character with a meaning of its own begins it. -/
theorem IsBareKey.opening {key : String} (hkey : IsBareKey key) :
    ∃ first rest, key.toList = first :: rest ∧ isBare first = true := by
  obtain ⟨hnonempty, hbare⟩ := hkey
  cases hchars : key.toList with
  | nil => exact absurd (String.toList_eq_nil_iff.mp hchars) hnonempty
  | cons first rest => exact ⟨first, rest, rfl, hbare first (by simp [hchars])⟩

theorem ne_of_isBare {c other : Char} (hc : isBare c = true) (hother : isBare other = false) :
    c ≠ other := by
  rintro rfl
  simp [hc] at hother

theorem simpleKey_bare {key : String} (hkey : IsBareKey key) (rest : List Char) :
    simpleKey (key.toList ++ ' ' :: rest) = some (key, ' ' :: rest) := by
  obtain ⟨first, more, hopening, hfirst⟩ := hkey.opening
  have htake : (key.toList ++ ' ' :: rest).takeWhile isBare = key.toList := by
    rw [List.takeWhile_append_of_pos hkey.2, List.takeWhile_cons_of_neg (by decide),
      List.append_nil]
  have hdrop : (key.toList ++ ' ' :: rest).dropWhile isBare = ' ' :: rest := by
    rw [List.dropWhile_append_of_pos hkey.2, List.dropWhile_cons_of_neg (by decide)]
  have hsome : key.toList.isEmpty = false := by rw [hopening]; rfl
  rw [simpleKey]
  · simp only [htake, hdrop, hsome, Bool.false_eq_true, if_false, String.ofList_toList]
  all_goals
    rintro after heq
    rw [hopening] at heq
    exact ne_of_isBare hfirst (by decide) (List.cons.inj heq).1

/-- No white space stands before a key without quotes. -/
theorem IsBareKey.skipBlanks_key {key : String} (hkey : IsBareKey key) (rest : List Char) :
    skipBlanks (key.toList ++ rest) = key.toList ++ rest := by
  obtain ⟨first, more, hopening, hfirst⟩ := hkey.opening
  rw [hopening, List.cons_append, skipBlanks, List.dropWhile_cons_of_neg]
  simp [isBlank, ne_of_isBare hfirst (by decide : isBare ' ' = false),
    ne_of_isBare hfirst (by decide : isBare '\t' = false)]

/-- A key without quotes is read as a path of one key, up to the equals sign. -/
theorem keyPath_bare {key : String} (hkey : IsBareKey key) (rest : List Char) :
    keyPath (key.toList ++ ' ' :: '=' :: rest) = some ((key, []), '=' :: rest) := by
  have hequals : skipBlanks (' ' :: '=' :: rest) = '=' :: rest := rfl
  rw [keyPath, depthLimit, keysUpTo, hkey.skipBlanks_key, simpleKey_bare hkey]
  simp [hequals]

/-- A line that begins with a key without quotes is an assignment. -/
theorem line_eq_assignment {key : String} (hkey : IsBareKey key) (document : Document)
    (rest : List Char) :
    line document (key.toList ++ rest) = assignment document (key.toList ++ rest) := by
  obtain ⟨first, more, hopening, hfirst⟩ := hkey.opening
  rw [line, hkey.skipBlanks_key, hopening, List.cons_append]
  split
  case h_7 => rfl
  case h_1 heq => simp at heq
  case h_6 _ heq => exact absurd (List.cons.inj heq).1 (ne_of_isBare hfirst (by decide))
  all_goals
    next heq => exact absurd (List.cons.inj heq).1 (ne_of_isBare hfirst (by decide))

/-- A new key goes to the end of a table. -/
theorem put_of_lookup_eq_none {entries : Entries} {key : String}
    (hnew : entries.lookup key = none) (item : Item) :
    put key item entries = entries ++ [(key, item)] := by
  induction entries with
  | nil => rfl
  | cons first rest ih =>
      obtain ⟨other, old⟩ := first
      have hother : other ≠ key := by
        rintro rfl
        simp at hnew
      rw [List.lookup_cons, beq_eq_false_iff_ne.mpr hother.symm] at hnew
      rw [put, if_neg hother, ih hnew, List.cons_append]

theorem Document.withValue_new {entries : Entries} {key : String}
    (hnew : entries.lookup key = none) (value : Value) :
    Document.withValue ⟨entries, []⟩ key [] value =
      some ⟨entries ++ [(key, .value value)], []⟩ := by
  simp [withValue, descend, setDotted, hnew, put_of_lookup_eq_none hnew]

/-- A line sets its key, which must be new, and leaves the settings before it as they are. -/
theorem line_chars {entries : Entries} {setting : Setting} (hkey : IsBareKey setting.key)
    (hnew : entries.lookup setting.key = none) (rest : List Char) :
    line ⟨entries, []⟩ (setting.chars ++ rest) =
      some (⟨entries ++ [setting.entry], []⟩, '\n' :: rest) := by
  have hchars : setting.chars ++ rest =
      setting.key.toList ++ ' ' :: '=' :: ' ' :: (setting.value.text ++ '\n' :: rest) := by
    simp [Setting.chars, lineText]
  have hstart : skipBlanks (' ' :: (setting.value.text ++ '\n' :: rest)) =
      setting.value.text ++ '\n' :: rest :=
    setting.value.skipBlanks_text ('\n' :: rest)
  rw [hchars, line_eq_assignment hkey, assignment, keyPath_bare hkey]
  simp [mark?, hstart, value_text, Document.withValue_new hnew, Setting.entry]

/-! ## All lines -/

/-- Lines with keys that are new and different set these keys one after the other. -/
theorem lines_chars {settings : List Setting} (hkeys : ∀ setting ∈ settings, IsBareKey setting.key)
    (hdistinct : (settings.map (·.key)).Nodup) {entries : Entries}
    (hnew : ∀ setting ∈ settings, entries.lookup setting.key = none) {fuel : Nat}
    (hfuel : (settings.flatMap Setting.chars).length ≤ fuel) :
    lines fuel ⟨entries, []⟩ (settings.flatMap Setting.chars) =
      some ⟨entries ++ settings.map Setting.entry, []⟩ := by
  induction settings generalizing entries fuel with
  | nil => cases fuel <;> simp [lines]
  | cons setting settings ih =>
      obtain ⟨hkey, hkeys⟩ := List.forall_mem_cons.mp hkeys
      obtain ⟨hfresh, hrest⟩ := List.forall_mem_cons.mp hnew
      obtain ⟨hother, hdistinct⟩ := List.nodup_cons.mp hdistinct
      have hline : 0 < setting.chars.length := by
        simp only [Setting.chars, lineText, List.length_append, List.length_singleton]
        omega
      rw [List.flatMap_cons, List.length_append] at hfuel
      obtain ⟨fuel, rfl⟩ : ∃ count, fuel = count + 1 := ⟨fuel - 1, by omega⟩
      have hnext : ∀ next ∈ settings,
          (entries ++ [setting.entry]).lookup next.key = none := by
        intro next hmem
        have hne : next.key ≠ setting.key := fun heq =>
          hother (List.mem_map.mpr ⟨next, hmem, heq⟩)
        simp [List.lookup_append, hrest next hmem, Setting.entry, List.lookup_cons,
          beq_eq_false_iff_ne.mpr hne]
      have hend : endLine? ('\n' :: settings.flatMap Setting.chars) =
          some (settings.flatMap Setting.chars) := rfl
      rw [List.flatMap_cons, lines, line_chars hkey hfresh]
      · have hlines := @ih hkeys hdistinct _ hnext fuel (by omega)
        simp [hend, hlines]
      · intro hnil
        simp [(List.append_eq_nil_iff.mp hnil).1] at hline

/-- A text of settings with different keys is read as these settings and nothing else. -/
theorem read?_settings {settings : List Setting}
    (hkeys : ∀ setting ∈ settings, IsBareKey setting.key)
    (hdistinct : (settings.map (·.key)).Nodup) :
    read? (String.ofList (settings.flatMap Setting.chars)) =
      some (settings.map Setting.entry) := by
  -- a text that begins with a key has no byte order mark to leave out
  have hmark : ∀ rest, settings.flatMap Setting.chars ≠ '\ufeff' :: rest := by
    intro rest heq
    rcases settings with _ | ⟨setting, settings⟩
    · simp at heq
    · obtain ⟨first, more, hopening, hfirst⟩ := (hkeys setting (by simp)).opening
      simp only [List.flatMap_cons, Setting.chars, lineText, hopening, List.cons_append] at heq
      exact ne_of_isBare hfirst (by decide) (List.cons.inj heq).1
  have hlines := @lines_chars settings hkeys hdistinct [] (by simp) _ (Nat.le_succ _)
  simp only [read?, String.toList_ofList]
  rw [hlines]
  rfl

end Toml

end SearchWire
