import SearchWire.Client.Config
import SearchWire.Proofs.Toml.Settings

/-!
# Configurations saved and loaded

A configuration writes one setting for each option that is set, and is read back
from its text as it was. A file is found where it was saved: writing it puts an
entry where no directory stands, so that its path leads there as before.
-/

namespace SearchWire

/-! ## Files -/

namespace Directory

theorem follow?_append (directory : Directory) (location : Location) (first second : List String) :
    directory.follow? location (first ++ second) =
      (directory.follow? location first).bind fun place => directory.follow? place second := by
  induction first generalizing location with
  | nil => rfl
  | cons part rest ih =>
      simp only [List.cons_append, follow?]
      split
      · exact ih (step location part)
      · rfl

/-- A path leads where it led before when an entry is put where no directory stands. -/
theorem follow?_put {directory : Directory} {target : Location} (entry : FileEntry)
    (hfree : directory.content? target ≠ some .directory) {location place : Location}
    {parts : List String} (hfollow : directory.follow? location parts = some place) :
    (directory.put target entry).follow? location parts = some place := by
  induction parts generalizing location with
  | nil => exact hfollow
  | cons part rest ih =>
      simp only [follow?] at hfollow ⊢
      split at hfollow
      next hdirectory =>
        have hne : location ≠ target := fun heq => hfree (heq ▸ hdirectory)
        rw [content?_put_of_ne _ _ hne, if_pos hdirectory]
        exact ih hfollow
      next => simp at hfollow

theorem step_of_isName {name : String} (hname : isName name = true) (location : Location) :
    step location name = location ++ [name] := by
  simp only [isName, Bool.and_eq_true, Bool.not_eq_true', decide_eq_true_eq] at hname
  simp [step, hname]

theorem isAbove_concat_of_isName {name : String} (hname : isName name = true)
    (location : Location) : Location.isAbove (location ++ [name]) = false := by
  simp only [isName, Bool.and_eq_true, Bool.not_eq_true', decide_eq_true_eq] at hname
  simp [Location.isAbove, hname]

/-- A file is found at the path at which it was written. -/
theorem find?_of_write? {directory written : Directory} {path text : String}
    (hwrite : directory.write? path text = some written) :
    written.find? path = some (.file text) := by
  simp only [write?, Option.bind_eq_bind, Option.bind_eq_some_iff] at hwrite
  obtain ⟨place, hplace, name, hlast, hwrite⟩ := hwrite
  split at hwrite
  next hfits =>
    obtain ⟨hdirectory, hname, hfree⟩ := hfits
    obtain rfl := Option.some.inj hwrite
    have hparts : parts path = (parts path).dropLast ++ [name] := by
      obtain ⟨above, habove⟩ := List.getLast?_eq_some_iff.mp hlast
      simp [habove]
    have hne : place ≠ place ++ [name] := by simp
    have hfound : (directory.put (place ++ [name]) (.file text)).follow? [] (parts path) =
        some (place ++ [name]) := by
      rw [hparts, follow?_append, follow?_put _ hfree hplace]
      simp [follow?, content?_put_of_ne _ _ hne, hdirectory, step_of_isName hname]
    simp [find?, hfound, content?_put_self _ _ (isAbove_concat_of_isName hname place)]
  next => simp at hwrite

theorem find?_of_save {directory saved : Directory} {path text : String}
    (hsave : directory.save path text = (saved, true)) :
    saved.find? path = some (.file text) := by
  unfold save at hsave
  split at hsave
  · simp at hsave
  next made _ =>
    split at hsave
    next written hwrite =>
      obtain rfl : written = saved := (Prod.ext_iff.mp hsave).1
      exact find?_of_write? hwrite
    · simp at hsave

end Directory

/-! ## Configurations -/

namespace ClientConfig

open Toml (Setting)

/-- The settings that a configuration writes: the options that are set, and whether errors are
traced. -/
def settings (config : ClientConfig) : List Setting :=
  (config.defaultIndex.map fun index => ⟨"default_index", .string index⟩).toList ++
    (config.refresh.map fun policy => ⟨"refresh", .string policy.text⟩).toList ++
    [⟨"error_trace", .bool config.errorTrace⟩] ++
    (config.trackTotalHits.map fun track => ⟨"track_total_hits", .bool track⟩).toList

theorem optionLine_eq (key : String) {α : Type} (option : Option α) (scalar : α → Toml.Scalar) :
    optionLine key (option.map fun value => (scalar value).text) =
      ((option.map fun value => Setting.mk key (scalar value)).toList).flatMap Setting.chars := by
  cases option <;> simp [optionLine, Setting.chars]

theorem text_eq (config : ClientConfig) :
    config.text = String.ofList (config.settings.flatMap Setting.chars) := by
  have hindex := optionLine_eq "default_index" config.defaultIndex .string
  have hrefresh := optionLine_eq "refresh" config.refresh fun policy => .string policy.text
  have htrack := optionLine_eq "track_total_hits" config.trackTotalHits .bool
  simp only [Toml.Scalar.text] at hindex hrefresh htrack
  simp only [text, chars, settings, hindex, hrefresh, htrack, List.flatMap_append]
  simp [Setting.chars, Toml.Scalar.text]

/-- The keys of the options, in the order in which they are written. -/
def optionKeys : List String :=
  ["default_index", "refresh", "error_trace", "track_total_hits"]

theorem isBareKey_of_mem {key : String} (h : key ∈ optionKeys) : Toml.IsBareKey key := by
  simp only [optionKeys, List.mem_cons, List.not_mem_nil, or_false] at h
  rcases h with rfl | rfl | rfl | rfl <;> simp [Toml.IsBareKey, Toml.isBare]

theorem keys_sublist (config : ClientConfig) :
    (config.settings.map (·.key)).Sublist optionKeys := by
  obtain ⟨_ | index, _ | policy, trace, _ | track⟩ := config <;> simp [settings, optionKeys]

/-- A configuration is read back from the settings it writes. -/
theorem ofEntries?_settings (config : ClientConfig) :
    ofEntries? (config.settings.map Setting.entry) = some config := by
  have hname : ∀ policy : Refresh, Refresh.named.lookup policy.text = some policy := by
    intro policy
    cases policy <;> rfl
  obtain ⟨_ | index, _ | policy, trace, _ | track⟩ := config <;>
    simp [settings, ofEntries?, optionOf?, Setting.entry, Toml.Scalar.value, stringOf?, boolOf?,
      refreshOf?, List.lookup_cons, hname]

/-- The text of a configuration sets the options that are set and no others, and is read as this
configuration. A file to which it was saved loads as this configuration too. -/
theorem saved_readBack (config : ClientConfig) :
    Toml.read? config.text = some (config.settings.map Setting.entry) ∧
      ofText? config.text = some config ∧
      ∀ {directory saved : Directory} {path : String},
        config.save directory path = (saved, true) →
          saved.find? path = some (.file config.text) ∧
            load saved path = .ok config ∧ loadOrDefault saved path = .ok config := by
  have hread : Toml.read? config.text = some (config.settings.map Setting.entry) := by
    rw [text_eq]
    refine Toml.read?_settings (fun setting hsetting => ?_) ?_
    · exact isBareKey_of_mem ((keys_sublist config).subset (List.mem_map_of_mem hsetting))
    · exact (keys_sublist config).nodup (by decide)
  have hconfig : ofText? config.text = some config := by
    simp [ofText?, hread, ofEntries?_settings]
  refine ⟨hread, hconfig, fun hsave => ?_⟩
  have hfile := Directory.find?_of_save hsave
  exact ⟨hfile, by simp [load, hfile, hconfig], by simp [loadOrDefault, load, hfile, hconfig]⟩

/-- A configuration whose index needs escapes, and with an option that is set to `false`. -/
def quotedIndexConfig : ClientConfig where
  defaultIndex := some "a\"\"\"b\\'''c\n\u0001é"
  refresh := some .waitFor
  trackTotalHits := some false

/-- The directory in which this configuration was saved, in a new directory of its own. -/
def quotedIndexDirectory : Directory :=
  (quotedIndexConfig.save {} "nested/client.toml").1

theorem saved_readBack_quotedIndex :
    quotedIndexConfig.save {} "nested/client.toml" = (quotedIndexDirectory, true) ∧
      load quotedIndexDirectory "nested/client.toml" = .ok quotedIndexConfig := by
  have hsave : quotedIndexConfig.save {} "nested/client.toml" = (quotedIndexDirectory, true) :=
    Prod.ext rfl (by decide +kernel)
  exact ⟨hsave, ((saved_readBack quotedIndexConfig).2.2 hsave).2.1⟩

end ClientConfig

end SearchWire
