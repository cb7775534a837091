import HostMethods.CallError
import HostMethods.Text.Utf16

/-!
# Arguments

A caller pushes the receiver of a call, then the arguments from left to right. A method takes them
in reverse: the last argument first, the receiver last. Each slot is read as an argument of a
declared kind as soon as it is taken, so a slot that does not fit ends the call with the slots
below it still in place.

The kinds are data (`ArgKind`), each with the type of what it carries, so that a list of kinds
determines the type of a whole argument list (`Args`).
-/

namespace HostMethods

open Number (Binary32 Binary64)

/-- The ways in which a method can ask for an argument. -/
inductive ArgKind
  /-- Any value as it is. -/
  | any
  | int
  | long
  | float
  | double
  /-- An `int` slot as a truth value. -/
  | boolean
  /-- An `int` slot as a character. -/
  | char
  /-- A reference that is not null. -/
  | reference
  /-- A reference or null. -/
  | nullable
  deriving DecidableEq

namespace ArgKind

/-- What an argument of the kind carries. -/
abbrev Carrier : ArgKind → Type
  | any => Value
  | int => Int32
  | long => Int64
  | float => Binary32
  | double => Binary64
  | boolean => Bool
  | char => Char
  | reference => Ref
  | nullable => Option Ref

/-- The character in an `int` slot: the low sixteen bits as one UTF-16 code unit. -/
def charOfSlot (i : Int32) : Char :=
  Text.charOfUnit i.toUInt32.toUInt16

/-- The name of the kind in messages. -/
def name : ArgKind → String
  | any => "value"
  | int => "int"
  | long => "long"
  | float => "float"
  | double => "double"
  | boolean => "boolean"
  | char => "char"
  | reference | nullable => "reference"

/-- The complaint about a value that does not fit the kind. -/
def mismatch (k : ArgKind) (v : Value) : Exception :=
  .wrongType k.name v.kind.name

/-- Reads a slot as an argument of the kind. -/
def read : (k : ArgKind) → Value → Except Exception k.Carrier
  | any, v => .ok v
  | int, .int i => .ok i
  | long, .long l => .ok l
  | float, .float x => .ok x
  | double, .double x => .ok x
  | boolean, .int i => .ok (i ≠ 0)
  | char, .int i => .ok (charOfSlot i)
  | reference, .ref r => .ok r
  | reference, .null => .error (.nullUse "expected a non-null reference")
  | nullable, .ref r => .ok (some r)
  | nullable, .null => .ok none
  | k, v => .error (k.mismatch v)

/-- The slot that an argument of the kind is written to. -/
def write : (k : ArgKind) → k.Carrier → Value
  | any, v => v
  | int, i => .int i
  | long, l => .long l
  | float, x => .float x
  | double, x => .double x
  | boolean, b => .int (if b then 1 else 0)
  | char, c => .int (Int32.ofNat c.toNat)
  | reference, r => .ref r
  | nullable, none => .null
  | nullable, some r => .ref r

end ArgKind

/-- The arguments of a call, in declaration order. -/
inductive Args : List ArgKind → Type
  | nil : Args []
  | cons {k : ArgKind} {ks : List ArgKind} (a : k.Carrier) (rest : Args ks) : Args (k :: ks)

namespace Args

/-- The slots that the arguments are written to, in declaration order. -/
def values : {ks : List ArgKind} → Args ks → List Value
  | [], nil => []
  | k :: _, cons a rest => k.write a :: rest.values

end Args

namespace OperandStack

/-- Takes the arguments of a call, the last one first. -/
def takeArgs : (ks : List ArgKind) → OperandStack → Except CallError (Args ks) × OperandStack
  | [], s => (.ok .nil, s)
  | k :: ks, s =>
    match takeArgs ks s with
    | (.error e, s) => (.error e, s)
    | (.ok rest, s) =>
      match s.pop with
      | .error fault => (.error (.stack fault), s)
      | .ok (v, s) =>
        match k.read v with
        | .error e => (.error (.raised e), s)
        | .ok a => (.ok (.cons a rest), s)

/-- Takes the arguments of a call and then its receiver, which must not be null. -/
def takeCall (ks : List ArgKind) (s : OperandStack) :
    Except CallError (Ref × Args ks) × OperandStack :=
  match takeArgs ks s with
  | (.error e, s) => (.error e, s)
  | (.ok args, s) =>
    match s.popRef with
    | (.error fault, s) => (.error (.stack fault), s)
    | (.ok none, s) => (.error (.raised (.nullUse "method invoked on null receiver")), s)
    | (.ok (some r), s) => (.ok (r, args), s)

/-- Pushes the result of a call. -/
def deliver (v : Value) (s : OperandStack) : Except CallError Unit × OperandStack :=
  match s.push v with
  | .error fault => (.error (.stack fault), s)
  | .ok s => (.ok (), s)

/-- Pushes values in order, up to the first that does not fit. -/
def deliverAll : List Value → OperandStack → Except CallError Unit × OperandStack
  | [], s => (.ok (), s)
  | v :: vs, s =>
    match s.deliver v with
    | (.error e, s) => (.error e, s)
    | (.ok (), s) => deliverAll vs s

end OperandStack

end HostMethods
