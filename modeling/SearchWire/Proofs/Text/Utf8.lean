import SearchWire.Text.Symbol

/-!
# Texts and their bytes

`utf8Bytes` are the bytes of a string. `Symbol.ofBytes_toUTF8` says that cutting
them into symbols gives the characters of the string back and no stray, and
`splitOn_utf8Bytes` that cutting them at the byte of the line break is cutting
the string at its line breaks.
-/

namespace SearchWire

/-- The bytes of a string. -/
def utf8Bytes (text : String) : List UInt8 :=
  text.toUTF8.data.toList

/-- The bytes of a string are those of its characters, one after another. -/
theorem utf8Bytes_ofList (chars : List Char) :
    utf8Bytes (String.ofList chars) = chars.flatMap String.utf8EncodeChar := by
  rw [utf8Bytes, String.toUTF8_eq_toByteArray, String.toByteArray_ofList, List.utf8Encode,
    List.data_toByteArray]

/-- Two strings with the same bytes are equal. -/
theorem utf8Bytes_injective {first second : String} (h : utf8Bytes first = utf8Bytes second) :
    first = second := by
  have hdata : first.toByteArray.data = second.toByteArray.data := Array.toList_inj.1 h
  exact String.toByteArray_inj.1 (ByteArray.ext hdata)

/-! ## Characters from bytes -/

namespace Symbol

/-- From the place where the encoding of some characters begins, exactly these characters are
read. -/
theorem ofBytesFrom_of_extract {bytes : ByteArray} {chars : List Char} {position : Nat}
    (h : bytes.extract position bytes.size = chars.utf8Encode) :
    ofBytesFrom bytes position = ofChars chars := by
  induction chars generalizing position with
  | nil =>
      have hsize := congrArg ByteArray.size h
      simp only [ByteArray.size_extract, List.utf8Encode_nil, ByteArray.size_empty] at hsize
      rw [ofBytesFrom, dif_neg (by omega)]
      rfl
  | cons c rest ih =>
      have hdecode : bytes.utf8DecodeChar? position = some c := by
        rw [ByteArray.utf8DecodeChar?_eq_utf8DecodeChar?_extract, h,
          List.utf8DecodeChar?_utf8Encode_cons]
      have hinside : position < bytes.size :=
        ByteArray.lt_size_of_isSome_utf8DecodeChar? (by simp [hdecode])
      -- behind the first character stands the encoding of the others
      have hrest : bytes.extract (position + c.utf8Size) bytes.size = rest.utf8Encode := by
        have hwidth : [c].utf8Encode.size = c.utf8Size := by
          simp [List.utf8Encode_singleton]
        have hsize := congrArg ByteArray.size h
        rw [List.utf8Encode_cons] at h hsize
        simp only [ByteArray.size_extract, ByteArray.size_append, hwidth] at hsize
        have htail := congrArg
          (fun part : ByteArray => part.extract c.utf8Size (c.utf8Size + rest.utf8Encode.size)) h
        rw [ByteArray.extract_append_eq_right hwidth.symm (by rw [hwidth]),
          ByteArray.extract_extract] at htail
        rw [← htail]
        congr 1
        omega
      rw [ofBytesFrom, dif_pos hinside]
      simp only [hdecode, ih hrest]
      rfl

/-- The bytes of a string are read as its characters. -/
theorem ofBytes_toUTF8 (text : String) : ofBytes text.toUTF8 = ofString text := by
  refine ofBytesFrom_of_extract ?_
  rw [ByteArray.extract_zero_size, String.toUTF8_eq_toByteArray, ← String.toByteArray_ofList,
    String.ofList_toList]

end Symbol

/-! ## Lines -/

/-- The byte of the line break occurs in the encoding of no other character. -/
theorem newline_mem_utf8EncodeChar {c : Char} :
    10 ∈ String.utf8EncodeChar c ↔ c = '\n' := by
  have hchar : c = '\n' ↔ c.val.toNat = 10 := by
    rw [← Char.toNat_inj]
    rfl
  have hbyte (value : Nat) : 10 = UInt8.ofNat value ↔ value % 256 = 10 := by
    rw [eq_comm, ← UInt8.toNat_inj, UInt8.toNat_ofNat']
    rfl
  rw [hchar, String.utf8EncodeChar]
  -- only the encoding in one byte has a byte below 128
  split
  · simp only [List.mem_singleton, hbyte]
    omega
  · split
    · simp only [List.mem_cons, List.not_mem_nil, or_false, hbyte]
      omega
    · split
      · simp only [List.mem_cons, List.not_mem_nil, or_false, hbyte]
        omega
      · simp only [List.mem_cons, List.not_mem_nil, or_false, hbyte]
        omega

/-- A string without line breaks has no byte of one. -/
theorem newline_notMem_utf8Bytes {chars : List Char} (h : '\n' ∉ chars) :
    10 ∉ utf8Bytes (String.ofList chars) := by
  rw [utf8Bytes_ofList, List.mem_flatMap]
  rintro ⟨c, hc, hbyte⟩
  rw [newline_mem_utf8EncodeChar.1 hbyte] at hc
  exact h hc

/-- The bytes of lines, each closed by a line break, end with one. -/
theorem getLast?_utf8Bytes {lines : List (List Char)} (h : lines ≠ []) :
    (utf8Bytes (String.ofList (lines.flatMap (· ++ ['\n'])))).getLast? = some 10 := by
  have hbreak : String.utf8EncodeChar '\n' = [10] := rfl
  rw [utf8Bytes_ofList, ← List.dropLast_concat_getLast h, List.flatMap_append, List.flatMap_append,
    List.flatMap_singleton, List.flatMap_append, List.flatMap_singleton, hbreak,
    ← List.append_assoc, List.getLast?_concat]

/-- Cutting the bytes of lines, each closed by a line break, gives the lines back. -/
theorem splitOn_utf8Bytes {lines : List (List Char)} (h : ∀ line ∈ lines, '\n' ∉ line) :
    (utf8Bytes (String.ofList (lines.flatMap (· ++ ['\n'])))).splitOn 10 =
      lines.map (fun line => utf8Bytes (String.ofList line)) ++ [[]] := by
  induction lines with
  | nil => rfl
  | cons line rest ih =>
      have hline := newline_notMem_utf8Bytes (h line List.mem_cons_self)
      have hrest := ih fun other hother => h other (List.mem_cons_of_mem _ hother)
      have hbreak : String.utf8EncodeChar '\n' = [10] := rfl
      rw [utf8Bytes_ofList] at hline hrest ⊢
      rw [List.flatMap_cons, List.append_assoc, List.flatMap_append, List.singleton_append,
        List.flatMap_cons, hbreak, List.singleton_append,
        List.splitOn_append_cons_self_of_not_mem hline, hrest, List.map_cons, utf8Bytes_ofList,
        List.cons_append]

end SearchWire
