import HostMethods.Proofs.Text.Decoding
import Mathlib.Data.List.Basic

/-!
# Lines

A line is a text without a newline in it, followed by a newline. In UTF-8 the byte of a newline
occurs in no other character, so bytes that were put together from lines fall apart into the same
lines again (`Text.splitOn_framed`), the empty ones included. Behind the last newline there is
nothing left, which splitting shows as one more empty piece.
-/

namespace HostMethods.Text

/-- The byte of a newline. -/
def newline : UInt8 := 10

theorem bytesOf_newline : bytesOf "\n" = [newline] := by
  decide

/-- A number is cut to the size of a byte. -/
theorem mod_eq_of_newline_eq {n : Nat} (h : newline = UInt8.ofNat n) : n % 256 = 10 := by
  have hvalue := congrArg UInt8.toNat h
  rw [UInt8.toNat_ofNat'] at hvalue
  exact hvalue.symm

/-- The byte of a newline stands for a newline. -/
theorem eq_of_newline_mem {c : Char} (h : newline ∈ String.utf8EncodeChar c) : c = '\n' := by
  have hlead : ∀ {n m : Nat}, 128 ≤ m → m + n < 256 → newline ≠ UInt8.ofNat (n + m) := by
    intro n m hm hlt heq
    have hvalue := mod_eq_of_newline_eq heq
    omega
  rw [String.utf8EncodeChar] at h
  split at h
  next hle =>
    have hvalue := mod_eq_of_newline_eq (List.mem_singleton.1 h)
    have hcode : c.val.toNat = 10 := by omega
    exact Char.ext (UInt32.toNat_inj.1 hcode)
  · exfalso
    split at h
    · simp only [List.mem_cons, List.not_mem_nil, or_false] at h
      rcases h with h | h <;> exact hlead (by decide) (by omega) h
    · split at h
      · simp only [List.mem_cons, List.not_mem_nil, or_false] at h
        rcases h with h | h | h <;> exact hlead (by decide) (by omega) h
      · simp only [List.mem_cons, List.not_mem_nil, or_false] at h
        rcases h with h | h | h | h <;> exact hlead (by decide) (by omega) h

/-- Texts without a newline have no byte of a newline. -/
theorem newline_not_mem_bytesOf {text : String} (h : '\n' ∉ text.toList) :
    newline ∉ bytesOf text := by
  rw [bytesOf_eq_flatMap]
  intro hmem
  obtain ⟨c, hc, hbyte⟩ := List.mem_flatMap.1 hmem
  exact h (eq_of_newline_mem hbyte ▸ hc)

/-! ### Splitting -/

/-- Lines, one after the other, each with its newline. -/
def framed (lines : List (List UInt8)) : List UInt8 :=
  lines.flatMap (· ++ [newline])

/-- **Bytes that were put together from lines fall apart into them.** -/
theorem splitOn_framed {lines : List (List UInt8)} (h : ∀ line ∈ lines, newline ∉ line) :
    (framed lines).splitOn newline = lines ++ [[]] := by
  induction lines with
  | nil => exact List.splitOn_nil newline
  | cons line lines ih =>
    obtain ⟨hline, hlines⟩ := List.forall_mem_cons.1 h
    rw [framed, List.flatMap_cons, List.append_assoc, List.singleton_append,
      List.splitOn_append_cons_self_of_not_mem hline, List.cons_append]
    exact congrArg (line :: ·) (ih hlines)

/-- There is no line that is not ended. -/
theorem framed_eq_nil_or_getLast? (lines : List (List UInt8)) :
    framed lines = [] ∨ (framed lines).getLast? = some newline := by
  rcases lines.eq_nil_or_concat with rfl | ⟨before, line, rfl⟩
  · exact .inl rfl
  · refine .inr ?_
    rw [framed, List.concat_eq_append, List.flatMap_append, List.flatMap_singleton,
      ← List.append_assoc, List.getLast?_concat]

/-! ### Numbers

A number is written as digits, behind a minus sign if it is negative, and such a text is read back.
Of what the library says of reading numbers (`Int.toInt?_repr`) nothing comes with the modules that
are imported here, so it is derived from what it says of digits. -/

/-- The digits of a number are digits. -/
theorem isDigit_of_mem_repr {n : Nat} {c : Char} (h : c ∈ n.repr.toList) : c.isDigit = true := by
  rw [Nat.toList_repr] at h
  exact Nat.isDigit_of_mem_toDigits (by decide) (by decide) h

theorem not_mem_repr {c : Char} (h : c.isDigit = false) (n : Nat) : c ∉ n.repr.toList :=
  fun hmem ↦ Bool.eq_false_iff.1 h (isDigit_of_mem_repr hmem)

/-- A number is written on one line. -/
theorem newline_not_mem_toString (i : Int) : '\n' ∉ (toString i).toList := by
  rw [Int.toString_eq_repr, Int.repr_eq_if]
  split
  · exact not_mem_repr rfl _
  · rw [String.toList_append]
    exact fun hmem ↦ (List.mem_append.1 hmem).elim (by decide) (not_mem_repr rfl _)

theorem ne_underscore_of_isDigit {c : Char} (h : c.isDigit = true) : c ≠ '_' := by
  rintro rfl
  cases h

/-- A text that consists of digits is accepted as a number. -/
theorem isNat_of_isDigit {s : String.Slice} (hne : s.copy.toList ≠ [])
    (hdigits : ∀ c ∈ s.copy.toList, c.isDigit = true) : s.isNat = true := by
  simp only [String.Slice.isNat, String.Slice.forIn_eq_forIn_toList]
  generalize s.copy.toList = cs at *
  obtain ⟨c, cs, rfl⟩ := List.exists_cons_of_ne_nil hne
  obtain ⟨hc, hcs⟩ := List.forall_mem_cons.1 hdigits
  clear hne hdigits
  -- behind a digit, a further digit changes nothing
  simp only [List.forIn_cons, ne_underscore_of_isDigit hc, hc, if_true, if_false, pure_bind]
  induction cs with
  | nil => rfl
  | cons d ds ih =>
    obtain ⟨hd, hds⟩ := List.forall_mem_cons.1 hcs
    simp only [List.forIn_cons, ne_underscore_of_isDigit hd, hd, if_true, if_false, pure_bind]
    exact ih hds

/-- The digits of a number are read as the number. -/
theorem toNat?_of_copy_eq {s : String.Slice} {n : Nat} (h : s.copy = n.repr) :
    s.toNat? = some n := by
  have hdigits : ∀ c ∈ s.copy.toList, c.isDigit = true := fun c hc ↦
    isDigit_of_mem_repr (h ▸ hc)
  have hne : s.copy.toList ≠ [] := by
    rw [h, Nat.toList_repr]
    exact Nat.toDigits_ne_nil
  have hread : s.copy.toList.foldl
      (fun n c ↦ if c = '_' then n else n * 10 + (c.toNat - '0'.toNat)) 0 = n := by
    rw [← @Nat.ofDigitChars_ten_toDigits n, ← Nat.toList_repr, ← h, Nat.ofDigitChars_eq_foldl]
    refine List.foldl_ext _ _ _ fun k c hc ↦ ?_
    rw [if_neg (ne_underscore_of_isDigit (hdigits c hc)), Nat.mul_comm]
  rw [String.Slice.toNat?, if_pos (isNat_of_isDigit hne hdigits),
    String.Slice.foldl_eq_foldl_toList, hread]

/-- A number that is not negative is written as its digits. -/
theorem toInt?_natural (n : Nat) : n.repr.toInt? = some (n : Int) := by
  have hprefix : n.repr.toSlice.dropPrefix? '-' = none := by
    refine Option.eq_none_iff_forall_ne_some.2 fun rest hrest ↦ not_mem_repr (c := '-') rfl n ?_
    have hsplit := String.Slice.eq_append_of_dropPrefix?_char_eq_some hrest
    rw [String.copy_toSlice] at hsplit
    rw [hsplit, String.toList_append, String.toList_singleton]
    exact List.mem_cons_self
  rw [String.toInt?, String.Slice.toInt?, hprefix]
  exact congrArg (Option.map Int.ofNat) (toNat?_of_copy_eq String.copy_toSlice)

/-- The others are written behind a minus sign. -/
theorem toInt?_negative (n : Nat) : ("-" ++ n.repr).toInt? = some (-(n : Int)) := by
  have hprefix : ("-" ++ n.repr).toSlice.startsWith '-' ≠ false := by
    rw [String.Slice.startsWith_char_eq_head?, String.copy_toSlice, String.toList_append]
    exact Bool.noConfusion
  obtain ⟨rest, hrest⟩ :=
    Option.ne_none_iff_exists'.1 (mt String.Slice.dropPrefix?_eq_none_iff.1 hprefix)
  have hsplit := String.Slice.eq_append_of_dropPrefix?_char_eq_some hrest
  rw [String.copy_toSlice] at hsplit
  have hdigits : rest.copy = n.repr := ((String.append_right_inj "-").1 hsplit).symm
  rw [String.toInt?, String.Slice.toInt?, hrest]
  exact (congrArg (Option.map Int.negOfNat) (toNat?_of_copy_eq hdigits)).trans
    (congrArg some Int.negOfNat_eq)

/-- What is written for a number is read as this number. -/
theorem toInt?_toString (i : Int) : (toString i).toInt? = some i := by
  rw [Int.toString_eq_repr, Int.repr_eq_if]
  split
  next hnonneg => rw [toInt?_natural, Int.toNat_of_nonneg hnonneg]
  next hneg => rw [toInt?_negative, Int.toNat_of_nonneg (by omega), Int.neg_neg]

end HostMethods.Text
