import TraceSlice.Text.Numeral

/-!
# Texts as bytes

A text is stored as the UTF-8 encoding of its characters. A scanner that counts bytes may come to stand inside a
character, where the text cannot be cut: a **boundary** is an offset at which a character starts or the text ends.
What a boundary **leaves** is the list of the characters from there on, and all that is said here of bytes and slices is
said in terms of it (`Leaves.byte?_eq`, `Leaves.slice?_eq`). A byte below 128 is a whole character, and no byte of a
longer character looks like one (`congr_initial`), so a test for an ASCII character may be made on a single byte.
-/

namespace TraceSlice.Text

/-! ### Bytes, boundaries and slices -/

/-- The bytes of a text. -/
def bytes (text : String) : List Byte := text.toByteArray.data.toList

/-- Does a character start at this offset, or the text end? -/
def IsBoundary (text : String) (offset : Nat) : Prop := String.Pos.Raw.IsValid text ⟨offset⟩

instance (text : String) (offset : Nat) : Decidable (IsBoundary text offset) :=
  inferInstanceAs (Decidable (String.Pos.Raw.IsValid text ⟨offset⟩))

/-- The byte at `offset`, as the character with that code. There is none outside the text. -/
def byte? (text : String) (offset : Nat) : Option Char := (bytes text)[offset]?.map Char.ofUInt8

/-- The text between two offsets. It can be cut out only at boundaries (`IsBoundary`). -/
def slice? (text : String) (start stop : Nat) : Option String :=
  if h : IsBoundary text start ∧ IsBoundary text stop ∧ start ≤ stop then
    some (text.extract (text.pos ⟨start⟩ h.1) (text.pos ⟨stop⟩ h.2.1))
  else none

/-- `slice?` up to the end of the text. -/
def sliceFrom? (text : String) (start : Nat) : Option String := slice? text start text.utf8ByteSize

example : slice? "é:" 2 3 = some ":" ∧ slice? "é:" 1 3 = none ∧ slice? "é:" 2 4 = none := by decide

/-! ### What a boundary leaves -/

/-- The characters from `offset` on are `rest`, and one of them starts there if there are any. -/
def Leaves (text : String) (offset : Nat) (rest : List Char) : Prop :=
  ∃ before : List Char, text.toList = before ++ rest ∧ (String.ofList before).utf8ByteSize = offset

theorem isBoundary_iff {text : String} {offset : Nat} : IsBoundary text offset ↔ ∃ rest, Leaves text offset rest := by
  rw [IsBoundary, String.Pos.Raw.isValid_iff_exists_append]
  constructor
  · rintro ⟨before, rest, rfl, hoffset⟩
    refine ⟨rest.toList, before.toList, String.toList_append, ?_⟩
    rw [String.ofList_toList]
    exact (congrArg String.Pos.Raw.byteIdx hoffset).symm
  · rintro ⟨rest, before, htext, rfl⟩
    refine ⟨String.ofList before, String.ofList rest, ?_, rfl⟩
    rw [← String.ofList_append, ← htext, String.ofList_toList]

theorem IsBoundary.le_size {text : String} {offset : Nat} (h : IsBoundary text offset) : offset ≤ text.utf8ByteSize :=
  String.Pos.Raw.IsValid.le_utf8ByteSize h

theorem bytes_ofList (cs : List Char) : bytes (String.ofList cs) = cs.flatMap String.utf8EncodeChar := by
  simp [bytes, List.utf8Encode]

theorem length_bytes (text : String) : (bytes text).length = text.utf8ByteSize := String.size_toByteArray

theorem exists_byte? {text : String} {offset : Nat} (h : offset < text.utf8ByteSize) :
    ∃ c, byte? text offset = some c := by
  rw [← length_bytes] at h
  exact ⟨_, by rw [byte?, List.getElem?_eq_getElem h, Option.map_some]⟩

namespace Leaves

variable {text : String} {offset : Nat} {rest : List Char}

theorem zero (text : String) : Leaves text 0 text.toList := ⟨[], rfl, rfl⟩

theorem isBoundary (h : Leaves text offset rest) : IsBoundary text offset := isBoundary_iff.mpr ⟨rest, h⟩

/-- Past `word`, the rest of the text is left. -/
theorem advance {word : List Char} (h : Leaves text offset (word ++ rest)) :
    Leaves text (offset + (String.ofList word).utf8ByteSize) rest := by
  obtain ⟨before, htext, rfl⟩ := h
  exact ⟨before ++ word, by simp [htext], by simp [String.ofList_append]⟩

/-- What is left takes the bytes from the offset to the end. -/
theorem size_eq (h : Leaves text offset rest) : offset + (String.ofList rest).utf8ByteSize = text.utf8ByteSize := by
  obtain ⟨before, htext, rfl⟩ := h
  rw [← String.utf8ByteSize_append, ← String.ofList_append, ← htext, String.ofList_toList]

theorem lt_size_iff (h : Leaves text offset rest) : offset < text.utf8ByteSize ↔ rest ≠ [] := by
  rw [← h.size_eq, Nat.lt_add_right_iff_pos, Nat.pos_iff_ne_zero, ne_eq, String.utf8ByteSize_eq_zero_iff,
    String.ofList_eq_empty_iff]

/-- The bytes from a boundary on are those of the characters that are left, by `String.utf8EncodeChar`. -/
theorem drop_bytes (h : Leaves text offset rest) : (bytes text).drop offset = rest.flatMap String.utf8EncodeChar := by
  obtain ⟨before, htext, rfl⟩ := h
  rw [← String.ofList_toList (s := text), htext, bytes_ofList, List.flatMap_append, ← length_bytes, bytes_ofList,
    List.drop_left]

theorem byte?_eq (h : Leaves text offset rest) (i : Nat) :
    byte? text (offset + i) = (rest.flatMap String.utf8EncodeChar)[i]?.map Char.ofUInt8 := by
  rw [byte?, ← h.drop_bytes, List.getElem?_drop]

/-- `slice?` between two boundaries gives what the first leaves and the second does not. -/
theorem slice?_eq {word : List Char} (h : Leaves text offset (word ++ rest)) :
    slice? text offset (offset + (String.ofList word).utf8ByteSize) = some (String.ofList word) := by
  rw [slice?, dif_pos ⟨h.isBoundary, h.advance.isBoundary, Nat.le_add_right _ _⟩, Option.some.injEq,
    ← String.toByteArray_inj, String.toByteArray_extract]
  obtain ⟨before, htext, rfl⟩ := h
  have hbytes : text.toByteArray =
      (String.ofList before).toByteArray ++ ((String.ofList word).toByteArray ++ (String.ofList rest).toByteArray) := by
    rw [← String.toByteArray_append, ← String.toByteArray_append, ← String.ofList_append, ← String.ofList_append,
      ← htext, String.ofList_toList]
  show text.toByteArray.extract ((String.ofList before).utf8ByteSize + 0)
    ((String.ofList before).utf8ByteSize + (String.ofList word).utf8ByteSize) = _
  rw [hbytes, ByteArray.extract_append_size_add' String.size_toByteArray.symm,
    ByteArray.extract_append_eq_left String.size_toByteArray.symm]

theorem sliceFrom?_eq (h : Leaves text offset rest) : sliceFrom? text offset = some (String.ofList rest) := by
  rw [sliceFrom?, ← h.size_eq]
  exact slice?_eq (by rwa [List.append_nil])

end Leaves

/-! ### Single bytes as characters -/

theorem utf8Size_eq_one_iff {c : Char} : c.utf8Size = 1 ↔ c.toNat < 128 := by
  rw [Char.utf8Size_eq_one_iff, UInt32.le_iff_toNat_le]
  exact Nat.lt_succ_iff.symm

/-- The character whose code is the first byte of `c`. -/
def initial (c : Char) : Char := Char.ofUInt8 ((String.utf8EncodeChar c).head String.utf8EncodeChar_ne_nil)

theorem map_encode_eq_cons (c : Char) :
    (String.utf8EncodeChar c).map Char.ofUInt8 = initial c :: (String.utf8EncodeChar c).tail.map Char.ofUInt8 :=
  (congrArg (List.map Char.ofUInt8) (List.cons_head_tail String.utf8EncodeChar_ne_nil)).symm

/-- An ASCII character is its only byte: `utf8EncodeChar` makes one of it. -/
theorem map_encode {c : Char} (h : c.utf8Size = 1) : (String.utf8EncodeChar c).map Char.ofUInt8 = [c] := by
  have hlt : c.val.toNat < 128 := utf8Size_eq_one_iff.mp h
  have hcode : c.val.toUInt8.toUInt32 = c.val := by
    apply UInt32.toNat_inj.mp
    rw [UInt8.toNat_toUInt32, UInt32.toNat_toUInt8]
    exact Nat.mod_eq_of_lt (by omega)
  rw [String.utf8EncodeChar_eq_singleton h, List.map_singleton]
  exact congrArg (fun x => [x]) (Char.ext hcode)

theorem initial_of_ascii {c : Char} (h : c.utf8Size = 1) : initial c = c := by
  have hbytes := map_encode h
  rw [map_encode_eq_cons] at hbytes
  exact List.head_eq_of_cons_eq hbytes

/-- All bytes of a character that takes more than one are above the ASCII range. -/
theorem le_of_mem_encode {c : Char} (h : c.utf8Size ≠ 1) {b : Byte} (hb : b ∈ String.utf8EncodeChar c) :
    128 ≤ b.toNat := by
  have hge : ¬ c.val.toNat < 128 := mt utf8Size_eq_one_iff.mpr h
  revert hb
  fun_cases String.utf8EncodeChar c with
  | case1 v hv => exact absurd (Nat.lt_succ_of_le hv) hge
  | case2 v _ _ =>
      simp only [List.mem_cons, List.not_mem_nil, or_false]
      rintro (rfl | rfl) <;> simp only [UInt8.toNat_ofNat'] <;> omega
  | case3 v _ _ _ =>
      simp only [List.mem_cons, List.not_mem_nil, or_false]
      rintro (rfl | rfl | rfl) <;> simp only [UInt8.toNat_ofNat'] <;> omega
  | case4 v _ _ _ =>
      simp only [List.mem_cons, List.not_mem_nil, or_false]
      rintro (rfl | rfl | rfl | rfl) <;> simp only [UInt8.toNat_ofNat'] <;> omega

theorem utf8Size_ofUInt8 {b : Byte} (h : 128 ≤ b.toNat) : (Char.ofUInt8 b).utf8Size ≠ 1 := by
  rw [ne_eq, utf8Size_eq_one_iff]
  exact Nat.not_lt_of_le h

theorem utf8Size_initial {c : Char} (h : c.utf8Size ≠ 1) : (initial c).utf8Size ≠ 1 :=
  utf8Size_ofUInt8 (le_of_mem_encode h (List.head_mem _))

/-- What treats all characters but the ASCII ones alike can look at the `initial` byte only. -/
theorem congr_initial {α : Type} {f : Char → α} {other : α} (h : ∀ c, c.utf8Size ≠ 1 → f c = other) (c : Char) :
    f (initial c) = f c := by
  by_cases hc : c.utf8Size = 1
  · rw [initial_of_ascii hc]
  · rw [h c hc, h _ (utf8Size_initial hc)]

namespace Leaves

variable {text : String} {offset : Nat} {c : Char} {rest : List Char}

/-- Past an ASCII character, one byte on. -/
theorem tail (h : Leaves text offset (c :: rest)) (hc : c.utf8Size = 1) : Leaves text (offset + 1) rest := by
  have hadvance : Leaves text (offset + (String.ofList [c]).utf8ByteSize) rest := advance h
  simpa [hc] using hadvance

theorem byte?_cons (h : Leaves text offset (c :: rest)) : byte? text offset = some (initial c) := by
  have hbyte := h.byte?_eq 0
  rwa [Nat.add_zero, ← List.getElem?_map, List.flatMap_cons, List.map_append, map_encode_eq_cons, List.cons_append,
    List.getElem?_cons_zero] at hbyte

/-- Where a byte with the code of an ASCII character stands, this character does. -/
theorem of_byte? (h : Leaves text offset rest) (hc : c.utf8Size = 1) (hbyte : byte? text offset = some c) :
    ∃ more, rest = c :: more ∧ Leaves text (offset + 1) more := by
  cases rest with
  | nil =>
      have hnone := h.byte?_eq 0
      rw [Nat.add_zero, hbyte] at hnone
      cases hnone
  | cons d more =>
      rw [h.byte?_cons, Option.some.injEq] at hbyte
      have hd : d.utf8Size = 1 := Decidable.byContradiction fun hd => utf8Size_initial hd (hbyte ▸ hc)
      obtain rfl : d = c := (initial_of_ascii hd).symm.trans hbyte
      exact ⟨more, rfl, h.tail hd⟩

/-- Inside a character no `byte?` looks like an ASCII character. -/
theorem byte?_inside (h : Leaves text offset (c :: rest)) {i : Nat} (hpos : 0 < i) (hi : i < c.utf8Size) :
    ∃ b, byte? text (offset + i) = some b ∧ b.utf8Size ≠ 1 := by
  have hlt : i < (String.utf8EncodeChar c).length := by simpa using hi
  rw [h.byte?_eq, List.flatMap_cons, List.getElem?_append_left hlt, List.getElem?_eq_getElem hlt]
  exact ⟨_, rfl, utf8Size_ofUInt8 (le_of_mem_encode (by omega) (List.getElem_mem hlt))⟩

end Leaves

/-- A class of ASCII characters. -/
def IsAscii (p : Char → Bool) : Prop := ∀ c, p c = true → c.utf8Size = 1

theorem IsAscii.congr_initial {p : Char → Bool} (hp : IsAscii p) (c : Char) : p (initial c) = p c :=
  Text.congr_initial (fun c hc => Bool.eq_false_iff.mpr (mt (hp c) hc)) c

/-- How many bytes at the head of a text are in the class `p`; for classes that are `IsAscii`, as many as characters.
-/
def leading (p : Char → Bool) (text : String) : Nat := (((bytes text).map Char.ofUInt8).takeWhile p).length

theorem leading_eq {p : Char → Bool} (hp : IsAscii p) (text : String) :
    leading p text = (text.toList.takeWhile p).length := by
  rw [leading, ← String.ofList_toList (s := text), bytes_ofList, String.toList_ofList]
  induction text.toList with
  | nil => rfl
  | cons c cs ih =>
      rw [List.flatMap_cons, List.map_append]
      by_cases hc : p c = true
      · rw [map_encode (hp c hc), List.singleton_append, List.takeWhile_cons_of_pos hc, List.takeWhile_cons_of_pos hc,
          List.length_cons, List.length_cons, ih]
      · have hinitial : ¬ p (initial c) = true := by
          rwa [hp.congr_initial]
        rw [map_encode_eq_cons, List.cons_append, List.takeWhile_cons_of_neg hinitial, List.takeWhile_cons_of_neg hc]

end TraceSlice.Text
