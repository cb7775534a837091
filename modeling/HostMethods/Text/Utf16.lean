/-!
# UTF-16 code units

Guest text is measured, and passed character by character, in UTF-16 code units: a character up
to U+FFFF is one unit, a character above it is a surrogate pair. A single unit is read back on its
own, so half of a pair has no character of its own and reads as the replacement character.
-/

namespace HostMethods.Text

/-- The character that stands for text which cannot be read. -/
def replacement : Char := '\uFFFD'

/-- The code units of one character: itself up to U+FFFF, a surrogate pair above. -/
def charUnits (c : Char) : List UInt16 :=
  if c.toNat < 0x10000 then [c.toNat.toUInt16]
  else
    let offset := c.toNat - 0x10000
    [(0xD800 + offset / 0x400).toUInt16, (0xDC00 + offset % 0x400).toUInt16]

/-- The code units of a text, in order. -/
def units (s : String) : List UInt16 :=
  s.toList.flatMap charUnits

/-- A text's length as the guest counts it. -/
def unitCount (s : String) : Nat :=
  (units s).length

/-- Whether a code unit is half of a surrogate pair. -/
def isSurrogate (u : UInt16) : Bool :=
  0xD800 ≤ u && u ≤ 0xDFFF

/-- The character a lone code unit stands for; a surrogate has none and is replaced. -/
def charOfUnit (u : UInt16) : Char :=
  if isSurrogate u then replacement else Char.ofNat u.toNat

end HostMethods.Text
