import HostMethods.Descriptor.GuestType
import HostMethods.Text.Utf8

/-!
# Reading type descriptors

A reader walks the characters of a descriptor from left to right and keeps the byte offset of the
next one, since faults are reported by byte offset. Each reader returns the `Cursor` behind what
it has read; `readType_lt` says that it has read something, which is what makes loops over readers
end.

Two rules depend on where a type stands and not on the type: `void` is refused as the element of
an array here, and as a parameter or the type of a field by the callers, each as soon as it is
read and before anything that follows it is looked at.
-/

namespace HostMethods

/-- What is wrong with a descriptor. -/
inductive DescriptorFault
  /-- The text ends inside a type. -/
  | endsEarly
  /-- No type goes on with the character at this byte offset. -/
  | badCharacter (found : Char) (offset : Nat)
  /-- `void` stands where a value is needed. -/
  | voidValue
  /-- A complete descriptor is followed by more text. -/
  | leftover
  /-- A method descriptor does not open with its parameter list. -/
  | noParameters
  deriving DecidableEq

/-- A text that is no descriptor, and why. -/
structure DescriptorError where
  /-- The reason. -/
  fault : DescriptorFault
  /-- The whole text. -/
  descriptor : String
  deriving DecidableEq

/-- The error as a sentence. -/
def DescriptorError.message (e : DescriptorError) : String :=
  let d := e.descriptor
  match e.fault with
  | .endsEarly => s!"Unexpected end of descriptor '{d}'"
  | .badCharacter c o =>
    let found := String.singleton c
    s!"Invalid type character '{found}' at offset {o} in '{d}'"
  | .voidValue => s!"void is only valid as a return type in '{d}'"
  | .leftover => s!"Trailing characters in descriptor '{d}'"
  | .noParameters => s!"Method descriptor '{d}' must start with '('"

namespace Descriptor

open Text (utf8Length)

/-- A place in a descriptor: the characters still to be read and the byte offset of the first. -/
structure Cursor where
  /-- Bytes before the place. -/
  offset : Nat
  /-- Characters from the place on. -/
  rest : List Char
  deriving DecidableEq

/-- The place before the first character of a text. -/
def Cursor.start (s : String) : Cursor := ⟨0, s.toList⟩

/-- Reads a class name up to the semicolon that ends it; a name has at least one character. -/
def readName (offset : Nat) (cs : List Char) : Except DescriptorFault (String × Cursor) :=
  match cs.takeWhile (· ≠ ';'), cs.dropWhile (· ≠ ';') with
  | _, [] => .error .endsEarly
  | [], _ :: _ => .error (.badCharacter ';' offset)
  | name, _ :: after => .ok (String.ofList name, ⟨offset + utf8Length name + 1, after⟩)

/-- Reads one type, `void` included unless it is the element of an array. -/
def readType (offset : Nat) : List Char → Except DescriptorFault (GuestType × Cursor)
  | [] => .error .endsEarly
  | 'L' :: cs => (readName (offset + 1) cs).map fun (name, after) ↦ (.object name, after)
  | '[' :: cs =>
    match readType (offset + 1) cs with
    | .error fault => .error fault
    | .ok (.void, _) => .error .voidValue
    | .ok (element, after) => .ok (.array element, after)
  | c :: cs =>
    match GuestType.ofLetter? c with
    | some t => .ok (t, ⟨offset + 1, cs⟩)
    | none => .error (.badCharacter c offset)

/-- What follows a class name is shorter than the text it was read from. -/
theorem readName_lt {offset : Nat} {cs : List Char} {name : String} {after : Cursor}
    (h : readName offset cs = .ok (name, after)) : after.rest.length < cs.length := by
  have hlen := congrArg List.length (List.takeWhile_append_dropWhile (p := (· ≠ ';')) (l := cs))
  unfold readName at h
  split at h
  · cases h
  · cases h
  next hdrop _ =>
    cases h
    simp only [hdrop, List.length_append, List.length_cons] at hlen
    simp only
    omega

/-- What follows a type is shorter than the text it was read from. -/
theorem readType_lt {offset : Nat} {cs : List Char} {t : GuestType} {after : Cursor}
    (h : readType offset cs = .ok (t, after)) : after.rest.length < cs.length := by
  fun_induction readType offset cs generalizing t after with
  | case1 => cases h
  | case2 offset cs =>
    cases hname : readName (offset + 1) cs with
    | error fault => simp [hname, Except.map] at h
    | ok p =>
      obtain ⟨name, place⟩ := p
      simp only [hname, Except.map, Except.ok.injEq, Prod.mk.injEq] at h
      obtain ⟨-, rfl⟩ := h
      have := readName_lt hname
      simp only [List.length_cons]
      omega
  | case3 => cases h
  | case4 => cases h
  | case5 offset cs element place _ hread ih =>
    cases h
    have := ih hread
    simp only [List.length_cons]
    omega
  | case6 =>
    cases h
    simp
  | case7 => cases h

end Descriptor

open Descriptor in
/-- Reads a field's type: one type that is not `void`, and nothing behind it. -/
def GuestType.parse (s : String) : Except DescriptorError GuestType :=
  match readType 0 s.toList with
  | .error fault => .error ⟨fault, s⟩
  | .ok (.void, _) => .error ⟨.voidValue, s⟩
  | .ok (t, ⟨_, []⟩) => .ok t
  | .ok (_, ⟨_, _ :: _⟩) => .error ⟨.leftover, s⟩

end HostMethods
