import HostMethods.Text.Utf8

/-!
# Parts of texts, by bytes

A text can be cut at some byte positions only: in front of a character, or behind the last one
(`IsBoundary`). What stands in front of a boundary and what stands behind it are texts again
(`isBoundary_iff`), so what is said here about boundaries is said about a text `s ++ t` and the
position `s.utf8ByteSize`.

A byte tells which character begins at its position only if that character is an ASCII character,
and that it is none otherwise (`exists_byteAt?_cons`). The bytes of a whole text tell more: where
they are found, the text is found, and both its ends are boundaries (`exists_append_of_extract`).
-/

namespace HostMethods

open Text (utf8Length)

/-! ### Numbers of bytes -/

/-- Bytes of UTF-8 are counted alike in texts and in lists of characters. -/
theorem utf8ByteSize_ofList (cs : List Char) : (String.ofList cs).utf8ByteSize = utf8Length cs := by
  induction cs with
  | nil => rfl
  | cons c cs ih =>
    rw [← List.singleton_append, String.ofList_append, String.utf8ByteSize_append, ih,
      ← String.singleton_eq_ofList, String.utf8ByteSize_singleton, List.singleton_append,
      Text.utf8Length_cons]

theorem utf8Length_eq_zero_iff {cs : List Char} : utf8Length cs = 0 ↔ cs = [] := by
  rw [← utf8ByteSize_ofList, String.utf8ByteSize_eq_zero_iff, String.ofList_eq_empty_iff]

/-! ### Slices -/

/-- A text begins with its own bytes. -/
theorem extract_append_left (s t : String) :
    (s ++ t).toByteArray.extract 0 s.utf8ByteSize = s.toByteArray := by
  rw [String.toByteArray_append, ByteArray.extract_append_eq_left String.size_toByteArray.symm]

/-- Behind a text begin the bytes of what comes after it. -/
theorem extract_append_right (s t : String) (n : Nat) :
    (s ++ t).toByteArray.extract s.utf8ByteSize (s.utf8ByteSize + n) =
      t.toByteArray.extract 0 n := by
  rw [String.toByteArray_append, ← String.size_toByteArray]
  exact ByteArray.extract_append_size_add (i := 0)

/-- The part of a text between two byte offsets. There is none if an offset lies behind the end of
the text or inside a character. -/
def slice? (s : String) (start stop : Nat) : Option String :=
  if start ≤ stop ∧ stop ≤ s.utf8ByteSize then
    String.fromUTF8? (s.toByteArray.extract start stop)
  else none

/-- The bytes of a text are that text's. -/
theorem fromUTF8?_toByteArray (s : String) : String.fromUTF8? s.toByteArray = some s := by
  rw [String.fromUTF8?, dif_pos s.isValidUTF8]
  rfl

/-- A text is cut off in front of what follows it. -/
theorem slice?_append_left (s t : String) : slice? (s ++ t) 0 s.utf8ByteSize = some s := by
  have hle : s.utf8ByteSize ≤ (s ++ t).utf8ByteSize := by
    rw [String.utf8ByteSize_append]
    exact Nat.le_add_right _ _
  rw [slice?, if_pos ⟨Nat.zero_le _, hle⟩, extract_append_left, fromUTF8?_toByteArray]

/-- A text is cut off behind what comes before it. -/
theorem slice?_append_right (s t : String) :
    slice? (s ++ t) s.utf8ByteSize (s ++ t).utf8ByteSize = some t := by
  have hsize := String.utf8ByteSize_append (s := s) (t := t)
  have hstop : (s ++ t).utf8ByteSize = s.toByteArray.size + t.toByteArray.size := by
    rw [hsize, String.size_toByteArray, String.size_toByteArray]
  rw [slice?, if_pos ⟨by omega, Nat.le_refl _⟩, String.toByteArray_append,
    ByteArray.extract_append_eq_right String.size_toByteArray.symm hstop, fromUTF8?_toByteArray]

/-! ### Boundaries -/

/-- Whether a character begins at a byte position, or the text ends there. -/
def IsBoundary (s : String) (pos : Nat) : Prop :=
  String.Pos.Raw.IsValid s ⟨pos⟩

instance (s : String) (pos : Nat) : Decidable (IsBoundary s pos) :=
  inferInstanceAs (Decidable (String.Pos.Raw.IsValid s ⟨pos⟩))

/-- **A text is cut in two at its boundaries.** -/
theorem isBoundary_iff {s : String} {pos : Nat} :
    IsBoundary s pos ↔ ∃ before after, s = before ++ after ∧ pos = before.utf8ByteSize := by
  rw [IsBoundary, String.Pos.Raw.isValid_iff_exists_append]
  simp only [String.Pos.Raw.ext_iff, String.byteIdx_rawEndPos]

theorem isBoundary_append (s t : String) : IsBoundary (s ++ t) s.utf8ByteSize :=
  isBoundary_iff.2 ⟨s, t, rfl, rfl⟩

/-- The part of a text between two boundaries. There is none if a position is no boundary, also if
nothing would be between them. -/
def cut? (s : String) (start stop : Nat) : Option String :=
  if IsBoundary s start ∧ IsBoundary s stop then slice? s start stop else none

theorem cut?_append_left (s t : String) : cut? (s ++ t) 0 s.utf8ByteSize = some s := by
  have hstart : IsBoundary (s ++ t) 0 := isBoundary_iff.2 ⟨"", s ++ t, by simp, rfl⟩
  rw [cut?, if_pos ⟨hstart, isBoundary_append s t⟩, slice?_append_left]

theorem cut?_append_right (s t : String) :
    cut? (s ++ t) s.utf8ByteSize (s ++ t).utf8ByteSize = some t := by
  have hstop : IsBoundary (s ++ t) (s ++ t).utf8ByteSize :=
    isBoundary_iff.2 ⟨s ++ t, "", by simp, rfl⟩
  rw [cut?, if_pos ⟨isBoundary_append s t, hstop⟩, slice?_append_right]

/-! ### Bytes -/

/-- The byte at a position. -/
def byteAt? (s : String) (pos : Nat) : Option UInt8 :=
  s.toByteArray[pos]?

/-- A byte is at a position inside the text. -/
theorem lt_of_byteAt? {s : String} {pos : Nat} {b : UInt8} (h : byteAt? s pos = some b) :
    pos < s.utf8ByteSize := by
  rw [byteAt?, getElem?_def] at h
  split at h
  next hlt => exact String.size_toByteArray ▸ hlt
  next => cases h

theorem byteAt?_utf8ByteSize (s : String) : byteAt? s s.utf8ByteSize = none := by
  rw [byteAt?, ← String.size_toByteArray]
  exact getElem?_neg _ _ (Nat.lt_irrefl _)

/-- The bytes of what comes after a text stand behind the text's bytes. -/
theorem byteAt?_append_right (s t : String) (i : Nat) :
    byteAt? (s ++ t) (s.utf8ByteSize + i) = byteAt? t i := by
  rw [byteAt?, byteAt?, String.toByteArray_append, ← String.size_toByteArray, getElem?_def,
    getElem?_def]
  simp [ByteArray.getElem_append_right]

/-- The first byte of a character is the character, as long as it is an ASCII character, and is no
ASCII character otherwise. -/
theorem exists_utf8EncodeChar_eq_cons (c : Char) :
    ∃ b bytes, String.utf8EncodeChar c = b :: bytes ∧
      (Char.ofUInt8 b = c ∨ 128 ≤ c.toNat ∧ 128 ≤ (Char.ofUInt8 b).toNat) := by
  have hbyte {n : Nat} (hlt : n < 256) : (Char.ofUInt8 (UInt8.ofNat n)).toNat = n := by
    show (UInt8.ofNat n).toNat = n
    rw [UInt8.toNat_ofNat', Nat.mod_eq_of_lt hlt]
  have hvalue : c.val.toNat = c.toNat := rfl
  rw [String.utf8EncodeChar]
  -- the forms by the length of the character
  split
  · exact ⟨_, _, rfl, .inl (Char.toNat_inj.1 (hbyte (by omega)))⟩
  · have hlong : 128 ≤ c.toNat := by omega
    split
    · exact ⟨_, _, rfl, .inr ⟨hlong, by rw [hbyte] <;> omega⟩⟩
    · split
      · exact ⟨_, _, rfl, .inr ⟨hlong, by rw [hbyte] <;> omega⟩⟩
      · exact ⟨_, _, rfl, .inr ⟨hlong, by rw [hbyte] <;> omega⟩⟩

/-- **The byte at a boundary tells which ASCII character begins there**, if any. -/
theorem exists_byteAt?_cons (s : String) (c : Char) (cs : List Char) :
    ∃ b, byteAt? (s ++ String.ofList (c :: cs)) s.utf8ByteSize = some b ∧
      ∀ d : Char, d.toNat < 128 → (Char.ofUInt8 b = d ↔ c = d) := by
  obtain ⟨b, bytes, hchar, hb⟩ := exists_utf8EncodeChar_eq_cons c
  have hbytes : (String.ofList (c :: cs)).toByteArray =
      (b :: (bytes ++ cs.flatMap String.utf8EncodeChar)).toByteArray := by
    rw [String.toByteArray_ofList, List.utf8Encode, List.flatMap_cons, hchar, List.cons_append]
  refine ⟨b, ?_, fun d hd ↦ ?_⟩
  · rw [← Nat.add_zero s.utf8ByteSize, byteAt?_append_right, byteAt?, hbytes,
      getElem?_pos _ 0 (by simp), List.getElem_toByteArray]
    rfl
  · rcases hb with hsame | ⟨hc, hlong⟩
    · rw [hsame]
    · refine iff_of_false ?_ ?_
      · rintro rfl
        exact absurd hd (Nat.not_lt.2 hlong)
      · rintro rfl
        exact absurd hd (Nat.not_lt.2 hc)

theorem exists_byteAt?_of_lt (s : String) {c : Char} (hc : c.toNat < 128) (cs : List Char) :
    ∃ b, byteAt? (s ++ String.ofList (c :: cs)) s.utf8ByteSize = some b ∧ Char.ofUInt8 b = c := by
  obtain ⟨b, hbyte, hb⟩ := exists_byteAt?_cons s c cs
  exact ⟨b, hbyte, (hb c hc).2 rfl⟩

/-- A text begins with another one if its bytes do. -/
theorem exists_append_of_extract_zero {s t : String}
    (h : s.toByteArray.extract 0 t.utf8ByteSize = t.toByteArray) : ∃ after, s = t ++ after := by
  have hsize := congrArg ByteArray.size h
  rw [ByteArray.size_extract, String.size_toByteArray, String.size_toByteArray] at hsize
  have hle : t.utf8ByteSize ≤ s.utf8ByteSize := by omega
  have hbound : IsBoundary s t.utf8ByteSize :=
    String.Pos.Raw.isValid_iff_isValidUTF8_extract_zero.2 ⟨hle, h ▸ t.isValidUTF8⟩
  obtain ⟨before, after, rfl, hsame⟩ := isBoundary_iff.1 hbound
  rw [hsame, extract_append_left, String.toByteArray_inj] at h
  exact ⟨after, by rw [h]⟩

/-- **Where the bytes of a text are found, the text is found.** -/
theorem exists_append_of_extract {s t : String} {pos : Nat} (hne : t ≠ "")
    (h : s.toByteArray.extract pos (pos + t.utf8ByteSize) = t.toByteArray) :
    ∃ before after, s = before ++ (t ++ after) ∧ before.utf8ByteSize = pos := by
  have hpos : t.utf8ByteSize ≠ 0 := mt String.utf8ByteSize_eq_zero_iff.1 hne
  have hsize := congrArg ByteArray.size h
  rw [ByteArray.size_extract, String.size_toByteArray, String.size_toByteArray] at hsize
  have hle : pos + t.utf8ByteSize ≤ s.utf8ByteSize := by omega
  have hends := (String.Pos.Raw.isValidUTF8_extract_iff ⟨pos⟩ ⟨pos + t.utf8ByteSize⟩
    (Nat.le_add_right _ _) hle).1 (h ▸ t.isValidUTF8)
  have hbound : IsBoundary s pos := by
    rcases hends with heq | ⟨hstart, -⟩
    · have hsame : pos = pos + t.utf8ByteSize := String.Pos.Raw.ext_iff.1 heq
      omega
    · exact hstart
  obtain ⟨before, rest, rfl, rfl⟩ := isBoundary_iff.1 hbound
  rw [extract_append_right] at h
  obtain ⟨after, rfl⟩ := exists_append_of_extract_zero h
  exact ⟨before, after, rfl, rfl⟩

end HostMethods
