import HostMethods.Argument
import Mathlib.Data.List.Basic

/-!
# Texts unit by unit

A text that is handed over in code units, each of them read back on its own, comes out as it was
except for characters above U+FFFF. Such a character is two units, neither of which is a character,
so it comes out as two replacement characters (`Text.map_charOfUnit_units`). Nothing above U+FFFF
comes out, so a text comes out as it was exactly if nothing above U+FFFF is in it
(`Text.unitwise_eq_self_iff`).

An `int` slot stands for the code unit in its low half, whatever the high half is. In numbers this
is what the slot is modulo 2 ^ 16 (`ArgKind.charOfSlot_eq_decodedChar`), so the character that is
read is one up to U+FFFF.
-/

namespace HostMethods

namespace Text

/-! ### Units as characters -/

/-- A text whose characters above U+FFFF have each become two replacement characters. -/
def unitwise (s : String) : String :=
  String.ofList (s.toList.flatMap fun c ↦
    if c.toNat ≤ 0xFFFF then [c] else [replacement, replacement])

theorem isSurrogate_iff {u : UInt16} :
    isSurrogate u = true ↔ 0xD800 ≤ u.toNat ∧ u.toNat ≤ 0xDFFF := by
  rw [isSurrogate, Bool.and_eq_true, decide_eq_true_iff, decide_eq_true_iff, UInt16.le_iff_toNat_le,
    UInt16.le_iff_toNat_le]
  rfl

theorem toNat_toUInt16 {n : Nat} (h : n < 0x10000) : n.toUInt16.toNat = n :=
  UInt16.toNat_ofNat_of_lt' h

/-- A unit that is a character by itself. -/
theorem charOfUnit_toUInt16 {c : Char} (h : c.toNat ≤ 0xFFFF) :
    charOfUnit c.toNat.toUInt16 = c := by
  have hvalid : c.toNat < 0xD800 ∨ 0xDFFF < c.toNat ∧ c.toNat < 0x110000 := c.valid
  have hunit : c.toNat.toUInt16.toNat = c.toNat := toNat_toUInt16 (by omega)
  have hnot : ¬ isSurrogate c.toNat.toUInt16 = true := by
    rw [isSurrogate_iff, hunit]
    omega
  rw [charOfUnit, if_neg hnot, hunit, Char.ofNat_toNat]

/-- A half of a pair. -/
theorem charOfUnit_of_surrogate {n : Nat} (hlow : 0xD800 ≤ n) (hhigh : n ≤ 0xDFFF) :
    charOfUnit n.toUInt16 = replacement := by
  refine if_pos (isSurrogate_iff.2 ?_)
  rw [toNat_toUInt16 (by omega)]
  exact ⟨hlow, hhigh⟩

/-- **The units of one character, read back one by one.** -/
theorem map_charOfUnit_charUnits (c : Char) :
    (charUnits c).map charOfUnit =
      if c.toNat ≤ 0xFFFF then [c] else [replacement, replacement] := by
  rw [charUnits]
  by_cases h : c.toNat ≤ 0xFFFF
  · rw [if_pos (Nat.lt_succ_of_le h), if_pos h, List.map_singleton, charOfUnit_toUInt16 h]
  · have hvalid : c.toNat < 0xD800 ∨ 0xDFFF < c.toNat ∧ c.toNat < 0x110000 := c.valid
    rw [if_neg (by omega), if_neg h, List.map_cons, List.map_singleton,
      charOfUnit_of_surrogate (by omega) (by omega), charOfUnit_of_surrogate (by omega) (by omega)]

/-- **The units of a text, read back one by one.** -/
theorem map_charOfUnit_units (s : String) :
    (units s).map charOfUnit = (unitwise s).toList := by
  rw [units, List.map_flatMap, unitwise, String.toList_ofList]
  exact List.flatMap_congr fun c _ ↦ map_charOfUnit_charUnits c

/-- No character above U+FFFF is left. -/
theorem toNat_le_of_mem_unitwise {s : String} {c : Char} (h : c ∈ (unitwise s).toList) :
    c.toNat ≤ 0xFFFF := by
  rw [unitwise, String.toList_ofList] at h
  obtain ⟨d, -, hd⟩ := List.mem_flatMap.1 h
  split at hd
  next hle => rwa [List.mem_singleton.1 hd]
  next =>
    obtain rfl | rfl := List.mem_pair.1 hd <;> decide

/-- **A text comes out as it was exactly if it has no character above U+FFFF.** -/
theorem unitwise_eq_self_iff {s : String} :
    unitwise s = s ↔ ∀ c ∈ s.toList, c.toNat ≤ 0xFFFF := by
  constructor
  · intro h c hc
    rw [← h] at hc
    exact toNat_le_of_mem_unitwise hc
  · intro h
    have hsingle : (s.toList.flatMap fun c ↦
        if c.toNat ≤ 0xFFFF then [c] else [replacement, replacement]) = s.toList.flatMap ([·]) :=
      List.flatMap_congr fun c hc ↦ if_pos (h c hc)
    rw [unitwise, hsingle, List.flatMap_singleton', String.ofList_toList]

/-! ### Sizes -/

/-- What a unit stands for is a character up to U+FFFF. -/
theorem toNat_charOfUnit_le (u : UInt16) : (charOfUnit u).toNat ≤ 0xFFFF := by
  rw [charOfUnit]
  split
  · decide
  next hnot =>
    have hlt : u.toNat < 0x10000 := u.toNat_lt
    rw [isSurrogate_iff] at hnot
    have hvalid : u.toNat.isValidChar := by
      unfold Nat.isValidChar
      omega
    have hchar : (Char.ofNat u.toNat).toNat = u.toNat := by
      rw [Char.ofNat, dif_pos hvalid]
      rfl
    omega

/-- Characters up to U+FFFF have at most three bytes. -/
theorem utf8Size_le_three {c : Char} (h : c.toNat ≤ 0xFFFF) : c.utf8Size ≤ 3 := by
  have hfour := c.utf8Size_le_four
  have hne : c.utf8Size ≠ 4 := by
    rw [Ne, Char.utf8Size_eq_four_iff]
    exact UInt32.not_lt.2 (UInt32.le_iff_toNat_le.2 h)
  omega

end Text

namespace ArgKind

/-- The slot that a caller fills with a code unit. -/
def slotOfUnit (u : UInt16) : Int32 :=
  u.toUInt32.toInt32

/-- The slot has the unit in it that it was filled with. -/
theorem charOfSlot_slotOfUnit (u : UInt16) : charOfSlot (slotOfUnit u) = Text.charOfUnit u := by
  rw [charOfSlot, slotOfUnit, UInt32.toUInt32_toInt32, UInt16.toUInt16_toUInt32]

/-- The character that a number in a slot means: modulo 2 ^ 16 it is a code unit, and U+FFFD stands
for the units from 0xD800 to 0xDFFF, which are no characters. -/
def decodedChar (i : Int32) : Char :=
  let unit := (i.toInt % 0x10000).toNat
  if 0xD800 ≤ unit ∧ unit ≤ 0xDFFF then '\uFFFD' else Char.ofNat unit

/-- The unit in the low half of a slot. -/
theorem toNat_lowHalf (i : Int32) : i.toUInt32.toUInt16.toNat = (i.toInt % 0x10000).toNat := by
  -- as a number with a sign, a slot is its bits or less than them by all of its values
  have hsigned : i.toInt = if 2 * i.toUInt32.toNat < 2 ^ 32 then (i.toUInt32.toNat : Int)
      else i.toUInt32.toNat - (2 ^ 32 : Nat) := BitVec.toInt_eq_toNat_cond i.toBitVec
  rw [UInt32.toNat_toUInt16, hsigned]
  split <;> omega

/-- **A slot is read as the character that its number means.** -/
theorem charOfSlot_eq_decodedChar (i : Int32) : charOfSlot i = decodedChar i := by
  simp only [charOfSlot, decodedChar, Text.charOfUnit, Text.isSurrogate_iff, toNat_lowHalf]
  rfl

/-- **Only the low half of a slot counts.** -/
theorem charOfSlot_lowHalf (i : Int32) :
    charOfSlot (Int32.ofInt (i.toInt % 0x10000)) = charOfSlot i := by
  have hlow : (Int32.ofInt (i.toInt % 0x10000)).toInt % 0x10000 = i.toInt % 0x10000 := by
    rw [Int32.toInt_ofInt, Int32.size, Int.bmod_def]
    split <;> omega
  rw [charOfSlot_eq_decodedChar, charOfSlot_eq_decodedChar, decodedChar, hlow, decodedChar]

end ArgKind

end HostMethods
