import HostMethods.Descriptor.GuestType
import HostMethods.Number.Binary

/-!
# Guest values

A value fills one slot of an operand stack, a field or a static cell. The guest's small integral
types have no values of their own: `boolean`, `byte`, `char` and `short` are held as `int`.

An object is known to values only by a reference, and a reference is an address: two references
are equal exactly when they name the same object, whatever the objects hold.
-/

namespace HostMethods

open Number (Binary32 Binary64)

/-- The identity of an object. -/
structure Ref where
  /-- Where the object lives in the store. -/
  address : Nat
  deriving DecidableEq, Inhabited

/-- What a slot holds. -/
inductive Value
  | null
  | int (i : Int32)
  | long (l : Int64)
  | float (x : Binary32)
  | double (x : Binary64)
  | ref (r : Ref)
  deriving DecidableEq, Inhabited

/-- The kinds of values that a slot distinguishes. -/
inductive ValueKind
  | null
  | int
  | long
  | float
  | double
  | reference
  deriving DecidableEq

/-- The name of a kind in messages. -/
def ValueKind.name : ValueKind → String
  | null => "null"
  | int => "int"
  | long => "long"
  | float => "float"
  | double => "double"
  | reference => "reference"

namespace Value

/-- The kind of a value. -/
def kind : Value → ValueKind
  | null => .null
  | int _ => .int
  | long _ => .long
  | float _ => .float
  | double _ => .double
  | ref _ => .reference

/-- Whether the value is the null reference. -/
def isNull (v : Value) : Bool :=
  v = null

/-- The number in an `int` slot. -/
def int? : Value → Option Int32
  | int i => some i
  | _ => none

/-- The number in a `long` slot. -/
def long? : Value → Option Int64
  | long l => some l
  | _ => none

/-- The reference in a slot; null is none. -/
def ref? : Value → Option Ref
  | ref r => some r
  | _ => none

/-- Equality as the guest sees it: floating-point numbers are compared as numbers, references by
identity, and values of two kinds never agree. -/
def agrees : Value → Value → Bool
  | float x, float y => x.sameNumber y
  | double x, double y => x.sameNumber y
  | v, w => v = w

/-- A value for diagnostics; `showRef` writes a reference. -/
def describe (showRef : Ref → String) : Value → String
  | null => "null"
  | int i => "int(" ++ toString i.toInt ++ ")"
  | long l => "long(" ++ toString l.toInt ++ ")"
  | float x => "float(" ++ x.text ++ ")"
  | double x => "double(" ++ x.text ++ ")"
  | ref r => showRef r

end Value

/-- What a variable of the type holds before anything is stored in it: zero, or null. -/
def GuestType.initialValue : GuestType → Value
  | boolean | byte | char | short | int => .int 0
  | long => .long 0
  | float => .float .zero
  | double => .double .zero
  | void | object _ | array _ => .null

end HostMethods
