/-!
# Guest types

The types of the guest language and their descriptor texts. Every type a program can write down is
a value of `GuestType`, and so is some nonsense: an array of `void`, an object type whose name is
empty or holds a semicolon. `WellFormed` marks the types that a text can denote; the reader of
`HostMethods.Descriptor.Reader` yields exactly those, while a class under construction may carry
any.
-/

namespace HostMethods

/-- A type of the guest language. -/
inductive GuestType
  | boolean
  | byte
  | char
  | short
  | int
  | long
  | float
  | double
  | void
  | object (name : String)
  | array (element : GuestType)
  deriving DecidableEq, Inhabited

namespace GuestType

/-- The characters of a type's descriptor: a letter for a primitive type, `L`, the class name and
a semicolon for an object type, and a bracket before the element type of an array. -/
def chars : GuestType → List Char
  | boolean => ['Z']
  | byte => ['B']
  | char => ['C']
  | short => ['S']
  | int => ['I']
  | long => ['J']
  | float => ['F']
  | double => ['D']
  | void => ['V']
  | object name => 'L' :: (name.toList ++ [';'])
  | array element => '[' :: element.chars

/-- The descriptor text of a type. -/
def text (t : GuestType) : String :=
  String.ofList t.chars

/-- The types that are no class or array, by their letter. -/
def ofLetter? : Char → Option GuestType
  | 'Z' => some boolean
  | 'B' => some byte
  | 'C' => some char
  | 'S' => some short
  | 'I' => some int
  | 'J' => some long
  | 'F' => some float
  | 'D' => some double
  | 'V' => some void
  | _ => none

/-- Whether values of the type are references. -/
def isReference : GuestType → Bool
  | object _ | array _ => true
  | _ => false

/-- A type that may stand for a value: `void` occurs nowhere in it, and an object name is neither
empty nor holds the semicolon that would end it. -/
def WellFormed : GuestType → Prop
  | void => False
  | object name => name ≠ "" ∧ ';' ∉ name.toList
  | array element => element.WellFormed
  | _ => True

/-- A letter that names a type is the whole descriptor of that type. -/
theorem chars_of_ofLetter? {c : Char} {t : GuestType} (h : ofLetter? c = some t) :
    t.chars = [c] := by
  unfold ofLetter? at h
  split at h <;> simp_all <;> subst h <;> rfl

end GuestType

end HostMethods
