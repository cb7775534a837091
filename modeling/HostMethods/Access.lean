import HostMethods.Text.Quoted

/-!
# Access flags

Fields and methods carry a set of flags in sixteen bits. Bits without a name are kept, and count
in every comparison, but no text shows them.
-/

namespace HostMethods

/-- A set of access flags, one bit each. -/
structure Access where
  /-- The flags' bits. -/
  bits : UInt16
  deriving DecidableEq, Inhabited

namespace Access

/-- The named flags, lowest bit first. -/
def named : List (Access × String) :=
  [(⟨0x0001⟩, "public"), (⟨0x0002⟩, "private"), (⟨0x0004⟩, "protected"), (⟨0x0008⟩, "static"),
    (⟨0x0010⟩, "final"), (⟨0x0020⟩, "synchronized"), (⟨0x0100⟩, "native")]

/-- The flag of public members. -/
def publicFlag : Access := ⟨0x0001⟩

/-- The flag of members that belong to the class and not to an instance. -/
def staticFlag : Access := ⟨0x0008⟩

/-- The flag of methods that the host implements. -/
def nativeFlag : Access := ⟨0x0100⟩

/-- The flags of a public constant. -/
def publicConstant : Access := ⟨0x0019⟩

/-- All flags of either set. -/
def union (a b : Access) : Access :=
  ⟨a.bits ||| b.bits⟩

/-- Whether all flags of `b` are set in `a`. -/
def contains (a b : Access) : Bool :=
  a.bits &&& b.bits = b.bits

/-- Whether the static flag is set. -/
def isStatic (a : Access) : Bool :=
  a.contains staticFlag

/-- Whether the native flag is set. -/
def isNative (a : Access) : Bool :=
  a.contains nativeFlag

/-- The bits as four hexadecimal digits. -/
def hex (a : Access) : String :=
  let digits := Nat.toDigits 16 a.bits.toNat
  String.ofList (List.replicate (4 - digits.length) '0' ++ digits)

/-- The flags for diagnostics: the bits, then the names of the flags that have one. -/
def describe (a : Access) : String :=
  let names := (named.filter fun (flag, _) ↦ a.contains flag).map Prod.snd
  "AccessFlags(0x" ++ a.hex ++ " " ++ String.intercalate " " names ++ ")"

/-- A union has the bits of both parts. -/
theorem testBit_union (a b : Access) (i : Nat) :
    (a.union b).bits.toNat.testBit i = (a.bits.toNat.testBit i || b.bits.toNat.testBit i) := by
  rw [union, UInt16.toNat_or, Nat.testBit_or]

/-- The static flag adds a single bit. -/
theorem testBit_union_staticFlag (a : Access) (i : Nat) :
    (a.union staticFlag).bits.toNat.testBit i = (a.bits.toNat.testBit i || i = 3) := by
  have hbit : staticFlag.bits.toNat.testBit i = decide (i = 3) := by
    rw [show staticFlag.bits.toNat = 2 ^ 3 from rfl, Nat.testBit_two_pow]
    exact decide_eq_decide.2 eq_comm
  rw [testBit_union, hbit]

/-- A union contains its left part. -/
theorem contains_union_left (a b : Access) : (a.union b).contains a = true := by
  have h : (a.bits ||| b.bits) &&& a.bits = a.bits := by
    apply UInt16.eq_of_toBitVec_eq
    ext i hi
    simpa using Or.inl
  simp [contains, union, h]

/-- A union contains its right part. -/
theorem contains_union_right (a b : Access) : (a.union b).contains b = true := by
  have h : (a.bits ||| b.bits) &&& b.bits = b.bits := by
    apply UInt16.eq_of_toBitVec_eq
    ext i hi
    simpa using Or.inr
  simp [contains, union, h]

end Access

end HostMethods
