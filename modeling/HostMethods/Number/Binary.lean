import HostMethods.Number.Shortest

/-!
# Binary floating-point numbers

A guest `float` or `double` is never computed with here, only moved, compared and shown. So both
are kept as their bits in the binary interchange formats, and equality of bits is plain equality
of values of the library. The comparison that the guest sees is `sameNumber`: a NaN differs from
everything, and the two zeros agree.
-/

namespace HostMethods.Number

/-- The layout of a binary interchange format: a sign bit, then the exponent, then the fraction.
-/
structure Layout where
  /-- Bits of the exponent field. -/
  exponentBits : Nat
  /-- Bits of the fraction field. -/
  fractionBits : Nat

namespace Layout

/-- Single precision. -/
def binary32 : Layout := ⟨8, 23⟩

/-- Double precision. -/
def binary64 : Layout := ⟨11, 52⟩

/-- The fraction field. -/
def fraction (l : Layout) (bits : Nat) : Nat :=
  bits % (1 <<< l.fractionBits)

/-- The exponent field. -/
def exponent (l : Layout) (bits : Nat) : Nat :=
  (bits >>> l.fractionBits) % (1 <<< l.exponentBits)

/-- The sign bit. -/
def isNegative (l : Layout) (bits : Nat) : Bool :=
  (bits >>> (l.fractionBits + l.exponentBits)) % 2 = 1

/-- Whether the exponent field marks infinities and NaNs. -/
def isSpecial (l : Layout) (bits : Nat) : Bool :=
  l.exponent bits = (1 <<< l.exponentBits) - 1

/-- Whether the bits stand for no number. -/
def isNaN (l : Layout) (bits : Nat) : Bool :=
  l.isSpecial bits && l.fraction bits ≠ 0

/-- Whether the bits are one of the two zeros. -/
def isZero (l : Layout) (bits : Nat) : Bool :=
  l.exponent bits = 0 && l.fraction bits = 0

/-- Numeric equality: a NaN equals nothing, and the two zeros are equal. -/
def sameNumber (l : Layout) (a b : Nat) : Bool :=
  !l.isNaN a && !l.isNaN b && (a == b || (l.isZero a && l.isZero b))

/-- The exponent of the last place of the numbers with exponent field 1. -/
def leastExponent (l : Layout) : Int :=
  2 - (1 <<< (l.exponentBits - 1) : Nat) - l.fractionBits

/-- The numbers that round to a finite value other than zero. -/
def interval (l : Layout) (bits : Nat) : Interval :=
  let e := l.exponent bits
  let f := l.fraction bits
  if e = 0 then .around f l.leastExponent false
  else .around ((1 <<< l.fractionBits) + f) (l.leastExponent + (e - 1 : Nat)) (f = 0 && 1 < e)

/-- The decimal text of a value: shortest digits, written out in full, with a minus sign for every
negative value, zero included. -/
def text (l : Layout) (bits : Nat) : String :=
  if l.isNaN bits then "NaN"
  else
    let magnitude :=
      if l.isSpecial bits then "inf"
      else if l.isZero bits then "0"
      else
        let (digits, power) := (l.interval bits).shortest
        positional digits power
    if l.isNegative bits then "-" ++ magnitude else magnitude

end Layout

/-- A guest `float`, as its bits. -/
structure Binary32 where
  /-- Sign, exponent and fraction, highest bit first. -/
  bits : UInt32
  deriving DecidableEq, Inhabited

/-- A guest `double`, as its bits. -/
structure Binary64 where
  /-- Sign, exponent and fraction, highest bit first. -/
  bits : UInt64
  deriving DecidableEq, Inhabited

/-- Positive zero. -/
def Binary32.zero : Binary32 := ⟨0⟩

/-- Numeric equality. -/
def Binary32.sameNumber (a b : Binary32) : Bool :=
  Layout.binary32.sameNumber a.bits.toNat b.bits.toNat

/-- The decimal text of a `float`. -/
def Binary32.text (x : Binary32) : String :=
  Layout.binary32.text x.bits.toNat

/-- Positive zero. -/
def Binary64.zero : Binary64 := ⟨0⟩

/-- Numeric equality. -/
def Binary64.sameNumber (a b : Binary64) : Bool :=
  Layout.binary64.sameNumber a.bits.toNat b.bits.toNat

/-- The decimal text of a `double`. -/
def Binary64.text (x : Binary64) : String :=
  Layout.binary64.text x.bits.toNat

end HostMethods.Number
