import SearchWire.Json.Value
import SearchWire.Proofs.Json.Written

/-!
# Numbers and objects read back

An integer that fits sixty-four bits reads back as itself. `jsonWith_object` says
that an object with distinct names, none of which is the name of a carrier,
reads back as it was written when its values do. Distinct names are needed
because a reader keeps one value for each name.
-/

namespace SearchWire

namespace Json

/-- Setting the entries of new names one after another appends them. -/
theorem foldl_insertEntry {built rest : List (String × Json)}
    (h : ((built ++ rest).map Prod.fst).Nodup) :
    rest.foldl (fun built entry => insertEntry entry.1 entry.2 built) built = built ++ rest := by
  induction rest generalizing built with
  | nil => rw [List.foldl_nil, List.append_nil]
  | cons entry rest ih =>
      rw [List.append_cons] at h
      have habsent : entry.1 ∉ built.map Prod.fst := by
        rw [List.map_append, List.map_append, List.nodup_append] at h
        have hbuilt := (List.nodup_append.1 h.1).2.2
        exact fun hmem => hbuilt entry.1 hmem entry.1 (by simp) rfl
      rw [List.foldl_cons, insertEntry_of_notMem entry.2 habsent, ih h, ← List.append_cons]

/-- An object built from distinct names lists them as they come. -/
theorem record_of_nodup {entries : List (String × Json)} (h : (entries.map Prod.fst).Nodup) :
    record entries = .object entries := by
  have hall : (([] ++ entries).map Prod.fst).Nodup := h
  rw [record, foldl_insertEntry hall, List.nil_append]

end Json

/-- An integer of sixty-four bits, signed or not, reads back. -/
theorem Numeral.read_int {value : Int} (hlow : -2 ^ 63 ≤ value) (hhigh : value < 2 ^ 64) :
    (Number.int value).numeral.read = .ok (.int value) := by
  have hdigits : Nat.ofDigitChars 10 (Decimal.digitsOf value.natAbs) 0 = value.natAbs :=
    Nat.ofDigitChars_ten_toDigits
  have hnumber : (Number.int value).numeral.number? = some (.int value) := by
    simp only [Number.numeral, number?, hdigits]
    by_cases hsign : value < 0
    · have hmagnitude : -(value.natAbs : Int) = value := by omega
      rw [if_pos (decide_eq_true hsign), if_pos (by omega), hmagnitude]
    · have hmagnitude : (value.natAbs : Int) = value := by omega
      rw [if_neg (by simpa using hsign), if_pos (by omega), hmagnitude]
  rw [Numeral.read, hnumber]

namespace Decode

open Json

/-- A natural number of sixty-four bits reads back. -/
theorem nat64_written {value : Nat} (h : value < 2 ^ 64) (depth : Nat) :
    nat64 depth (.number (Number.int value).numeral) = .ok value := by
  have hread := Numeral.read_int (show -2 ^ 63 ≤ (value : Int) by omega) (by omega)
  have hrange : (0 : Int) ≤ value ∧ (value : Int) ≤ 2 ^ 64 - 1 := by omega
  rw [nat64, intWithin, hread, Outcome.ok_bind, intFrom, if_pos hrange, Outcome.ok_map,
    Int.toNat_natCast]

variable {carried : String → Except Fault Json} {depth : Nat}

theorem jsonWith_string (depth : Nat) (value : String) :
    jsonWith carried depth (Json.string value).written = .ok (.string value) := by
  rw [written, jsonWith, read_quoted, Outcome.ok_map]

/-- Entries read back when their values do. -/
theorem entriesWith_written {entries : List (String × Json)} (isFirst : Bool)
    (h : ∀ entry ∈ entries, jsonWith carried depth entry.2.written = .ok entry.2) :
    entriesWith carried depth (writtenEntries isFirst entries) = .ok entries := by
  induction entries generalizing isFirst with
  | nil => rfl
  | cons entry rest ih =>
      obtain ⟨name, value⟩ := entry
      have hvalue := h (name, value) List.mem_cons_self
      have hrest := ih false fun other hother => h other (List.mem_cons_of_mem _ hother)
      simp [writtenEntries, entriesWith, read_quoted, hvalue, hrest]

/-- An object of distinct names that is no carrier reads back when its values do. -/
theorem jsonWith_object {entries : List (String × Json)} (hnames : (entries.map Prod.fst).Nodup)
    (hcarrier : carrierName ∉ entries.map Prod.fst)
    (h : ∀ entry ∈ entries, jsonWith carried depth entry.2.written = .ok entry.2) :
    jsonWith carried (depth + 1) (Json.object entries).written = .ok (.object entries) := by
  cases entries with
  | nil => rfl
  | cons entry rest =>
      obtain ⟨name, value⟩ := entry
      have hvalue := h (name, value) List.mem_cons_self
      have hrest := entriesWith_written false fun other hother =>
        h other (List.mem_cons_of_mem _ hother)
      have hname : name ≠ carrierName := by
        rintro rfl
        exact hcarrier List.mem_cons_self
      rw [written, writtenEntries, jsonWith, objectWith]
      simp [read_quoted, hname, hvalue, hrest, record_of_nodup hnames]

end Decode

end SearchWire
