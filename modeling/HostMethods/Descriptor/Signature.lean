import HostMethods.Descriptor.Reader

/-!
# Method signatures

A signature is the list of a method's parameter types and its return type. Its text puts the
parameters between parentheses with nothing between them, so they can be told apart only because
no type's text goes on inside another's.
-/

namespace HostMethods

/-- The types of a method's parameters and of its result; `void` as the result says that there is
none. -/
structure Signature where
  /-- Parameter types, in declaration order. -/
  params : List GuestType
  /-- The type of the result. -/
  result : GuestType
  deriving DecidableEq, Inhabited

namespace Signature

open Descriptor

/-- The characters of a signature's text. -/
def chars (s : Signature) : List Char :=
  '(' :: (s.params.flatMap GuestType.chars ++ ')' :: s.result.chars)

/-- The text of a signature. -/
def text (s : Signature) : String :=
  String.ofList s.chars

/-- Whether a call leaves a result. -/
def hasResult (s : Signature) : Bool :=
  s.result ≠ .void

/-- A signature that a text can denote: parameters are well formed, and so is the result unless it
is `void`. -/
def WellFormed (s : Signature) : Prop :=
  (∀ t ∈ s.params, t.WellFormed) ∧ (s.result = .void ∨ s.result.WellFormed)

/-- Reads parameter types up to the closing parenthesis. -/
def readParams (offset : Nat) (cs : List Char) :
    Except DescriptorFault (List GuestType × Cursor) :=
  match cs with
  | ')' :: rest => .ok ([], ⟨offset + 1, rest⟩)
  | cs =>
    match _hread : readType offset cs with
    | .error fault => .error fault
    | .ok (.void, _) => .error .voidValue
    | .ok (t, after) =>
      (readParams after.offset after.rest).map fun (ts, place) ↦ (t :: ts, place)
  termination_by cs.length
  decreasing_by exact readType_lt _hread

/-- Reads a method's signature: the parameter list, the return type, and nothing behind it. -/
def parse (s : String) : Except DescriptorError Signature :=
  match s.toList with
  | '(' :: cs =>
    match readParams 1 cs with
    | .error fault => .error ⟨fault, s⟩
    | .ok (params, place) =>
      match readType place.offset place.rest with
      | .error fault => .error ⟨fault, s⟩
      | .ok (result, ⟨_, []⟩) => .ok ⟨params, result⟩
      | .ok (_, ⟨_, _ :: _⟩) => .error ⟨.leftover, s⟩
  | _ => .error ⟨.noParameters, s⟩

end Signature

end HostMethods
