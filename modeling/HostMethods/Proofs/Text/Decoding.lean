import HostMethods.Text.Utf8
import Mathlib.Tactic.IntervalCases

/-!
# Reading back what was written as UTF-8

Reading bytes that may be broken gives up nothing of bytes that are not: the bytes of a text are
read as this text (`Text.ofUtf8_toUTF8`), and bytes that are UTF-8 at all are those of the text that
they are read as (`Text.toUTF8_ofUtf8`). So a replacement character in what was read was either
written as such or stands for bytes that are no UTF-8.

A character is read byte by byte. The first byte says how many are owed and gives the range of the
next one (`leadByte_two`, `leadByte_three`, `leadByte_four`), and each of the others adds six bits
(`decodeFrom_next`). The two narrower ranges at the first byte of a longer character rule out
nothing that is written: overlong forms are not, because a character takes the shortest form, and
surrogates and values above U+10FFFF are not, because they are no characters.
-/

namespace HostMethods.Text

/-! ### The bytes of texts -/

theorem toUTF8_append (before after : String) :
    (before ++ after).toUTF8 = before.toUTF8 ++ after.toUTF8 := by
  rw [String.toUTF8_eq_toByteArray, String.toByteArray_append]
  rfl

theorem toUTF8_inj {text text' : String} : text.toUTF8 = text'.toUTF8 ↔ text = text' := by
  rw [String.toUTF8_eq_toByteArray, String.toUTF8_eq_toByteArray, String.toByteArray_inj]

theorem isValidUTF8_toUTF8 (text : String) : text.toUTF8.IsValidUTF8 := by
  rw [String.toUTF8_eq_toByteArray]
  exact text.isValidUTF8

/-- The bytes of a text. -/
def bytesOf (text : String) : List UInt8 :=
  text.toUTF8.data.toList

theorem bytesOf_append (before after : String) :
    bytesOf (before ++ after) = bytesOf before ++ bytesOf after := by
  rw [bytesOf, toUTF8_append, ByteArray.toList_data_append]
  rfl

/-- The bytes of a text are those of its characters. -/
theorem bytesOf_eq_flatMap (text : String) :
    bytesOf text = text.toList.flatMap String.utf8EncodeChar := by
  rw [bytesOf, String.toUTF8_eq_toByteArray, ← String.utf8Encode_toList, List.utf8Encode,
    List.data_toByteArray, List.toList_toArray]

/-! ### First bytes -/

/-- A character that is a single byte. -/
theorem leadByte_one {v : Nat} (h : v < 128) :
    leadByte (UInt8.ofNat v) = .whole (Char.ofNat v) := by
  have hvalue : (UInt8.ofNat v).toNat = v := by
    rw [UInt8.toNat_ofNat', Nat.mod_eq_of_lt (by omega)]
  have hlt : UInt8.ofNat v < 0x80 := UInt8.lt_iff_toNat_lt.2 (hvalue.symm ▸ h)
  rw [leadByte, if_pos hlt, hvalue]

/-- One more byte is owed. -/
theorem leadByte_two {d : Nat} (hlow : 2 ≤ d) (hhigh : d < 32) :
    leadByte (UInt8.ofNat (d + 192)) = .opening ⟨d, 0, 0x80, 0xBF⟩ := by
  interval_cases d <;> rfl

/-- Two more bytes are owed, and the first of them keeps the value out of the shorter forms and out
of the surrogates. -/
theorem leadByte_three {d : Nat} (h : d < 16) :
    leadByte (UInt8.ofNat (d + 224)) =
      .opening ⟨d, 1, if d = 0 then 0xA0 else 0x80, if d = 13 then 0x9F else 0xBF⟩ := by
  interval_cases d <;> rfl

/-- Three more bytes are owed, and the first of them keeps the value out of the shorter forms and
below the end of all characters. -/
theorem leadByte_four {d : Nat} (h : d < 5) :
    leadByte (UInt8.ofNat (d + 240)) =
      .opening ⟨d, 2, if d = 0 then 0x90 else 0x80, if d = 4 then 0x8F else 0xBF⟩ := by
  interval_cases d <;> rfl

/-- The first byte of a longer character opens it. -/
theorem decodeFrom_opening {b : UInt8} {p : Pending} (h : leadByte b = .opening p)
    (rest : List UInt8) : decodeFrom none (b :: rest) = decodeFrom (some p) rest := by
  rw [decodeFrom, h]

/-! ### The bytes that are owed -/

section Owed

variable {value owed d : Nat} {low high : UInt8}

theorem toNat_tailByte (hd : d < 64) : (UInt8.ofNat (d + 128)).toNat = d + 128 := by
  rw [UInt8.toNat_ofNat', Nat.mod_eq_of_lt (by omega)]

theorem tailByte_mem_range (hd : d < 64) (hlow : low.toNat ≤ d + 128)
    (hhigh : d + 128 ≤ high.toNat) :
    low ≤ UInt8.ofNat (d + 128) ∧ UInt8.ofNat (d + 128) ≤ high := by
  rw [UInt8.le_iff_toNat_le, UInt8.le_iff_toNat_le, toNat_tailByte hd]
  exact ⟨hlow, hhigh⟩

/-- The byte that is expected adds six bits. -/
theorem decodeFrom_next (hd : d < 64) (hlow : low.toNat ≤ d + 128) (hhigh : d + 128 ≤ high.toNat)
    (rest : List UInt8) :
    decodeFrom (some ⟨value, owed + 1, low, high⟩) (UInt8.ofNat (d + 128) :: rest) =
      decodeFrom (some ⟨value * 64 + d, owed, 0x80, 0xBF⟩) rest := by
  rw [decodeFrom, if_pos (tailByte_mem_range hd hlow hhigh)]
  simp only [toNat_tailByte hd, Nat.add_sub_cancel]

/-- The last byte that is expected ends the character. -/
theorem decodeFrom_last (hd : d < 64) (rest : List UInt8) :
    decodeFrom (some ⟨value, 0, 0x80, 0xBF⟩) (UInt8.ofNat (d + 128) :: rest) =
      Char.ofNat (value * 64 + d) :: decodeFrom none rest := by
  have hrange : 0x80 ≤ UInt8.ofNat (d + 128) ∧ UInt8.ofNat (d + 128) ≤ 0xBF :=
    tailByte_mem_range hd (by simp) (by simp; omega)
  rw [decodeFrom, if_pos hrange]
  simp only [toNat_tailByte hd, Nat.add_sub_cancel]

end Owed

/-! ### Characters -/

section Characters

variable {v : Nat} (rest : List UInt8)

theorem decodeFrom_one (h : v < 128) :
    decodeFrom none (UInt8.ofNat v :: rest) = Char.ofNat v :: decodeFrom none rest := by
  rw [decodeFrom, leadByte_one h]

theorem decodeFrom_two (hlow : 128 ≤ v) (hhigh : v < 2048) :
    decodeFrom none (UInt8.ofNat (v / 64 % 32 + 192) :: UInt8.ofNat (v % 64 + 128) :: rest) =
      Char.ofNat v :: decodeFrom none rest := by
  have hvalue : v / 64 % 32 * 64 + v % 64 = v := by omega
  rw [decodeFrom_opening (leadByte_two (by omega) (by omega)), decodeFrom_last (by omega), hvalue]

theorem decodeFrom_three (hlow : 2048 ≤ v) (hhigh : v < 65536) (hvalid : v < 55296 ∨ 57343 < v) :
    decodeFrom none (UInt8.ofNat (v / 4096 % 16 + 224) :: UInt8.ofNat (v / 64 % 64 + 128) ::
        UInt8.ofNat (v % 64 + 128) :: rest) =
      Char.ofNat v :: decodeFrom none rest := by
  have hvalue : (v / 4096 % 16 * 64 + v / 64 % 64) * 64 + v % 64 = v := by omega
  rw [decodeFrom_opening (leadByte_three (by omega)),
    decodeFrom_next (by omega) ?_ ?_, decodeFrom_last (by omega), hvalue]
  · split
    · simp
      omega
    · simp
  · split <;> (simp; omega)

theorem decodeFrom_four (hlow : 65536 ≤ v) (hhigh : v < 1114112) :
    decodeFrom none (UInt8.ofNat (v / 262144 % 8 + 240) :: UInt8.ofNat (v / 4096 % 64 + 128) ::
        UInt8.ofNat (v / 64 % 64 + 128) :: UInt8.ofNat (v % 64 + 128) :: rest) =
      Char.ofNat v :: decodeFrom none rest := by
  have hvalue : ((v / 262144 % 8 * 64 + v / 4096 % 64) * 64 + v / 64 % 64) * 64 + v % 64 = v := by
    omega
  rw [decodeFrom_opening (leadByte_four (by omega)),
    decodeFrom_next (by omega) ?_ ?_, decodeFrom_next (by omega) (by simp) (by simp; omega),
    decodeFrom_last (by omega), hvalue]
  · split
    · simp
      omega
    · simp
  · split <;> (simp; omega)

/-- **A character is read from its bytes**, whatever follows them. -/
theorem decodeFrom_utf8EncodeChar (c : Char) :
    decodeFrom none (String.utf8EncodeChar c ++ rest) = c :: decodeFrom none rest := by
  have hvalid : c.val.toNat < 55296 ∨ 57343 < c.val.toNat ∧ c.val.toNat < 1114112 := c.valid
  have hchar : Char.ofNat c.val.toNat = c := Char.ofNat_toNat c
  rw [String.utf8EncodeChar]
  -- the forms by the length of the character
  split
  · rw [List.singleton_append, decodeFrom_one rest (by omega), hchar]
  · split
    · exact (decodeFrom_two rest (by omega) (by omega)).trans (by rw [hchar])
    · split
      · exact (decodeFrom_three rest (by omega) (by omega) (by omega)).trans (by rw [hchar])
      · exact (decodeFrom_four rest (by omega) (by omega)).trans (by rw [hchar])

end Characters

/-! ### Texts -/

theorem decodeFrom_flatMap_utf8EncodeChar (cs : List Char) :
    decodeFrom none (cs.flatMap String.utf8EncodeChar) = cs := by
  induction cs with
  | nil => rfl
  | cons c cs ih => rw [List.flatMap_cons, decodeFrom_utf8EncodeChar, ih]

/-- **The bytes of a text are read as this text.** -/
theorem ofUtf8_toUTF8 (text : String) : ofUtf8 text.toUTF8 = text := by
  rw [ofUtf8, ← bytesOf, bytesOf_eq_flatMap, decodeFrom_flatMap_utf8EncodeChar,
    String.ofList_toList]

/-- **Bytes that are UTF-8 are those of the text that they are read as.** -/
theorem toUTF8_ofUtf8 {bytes : ByteArray} (h : bytes.IsValidUTF8) :
    (ofUtf8 bytes).toUTF8 = bytes := by
  have hread : ofUtf8 bytes = String.ofByteArray bytes h := ofUtf8_toUTF8 (.ofByteArray bytes h)
  rw [hread]
  rfl

end HostMethods.Text
