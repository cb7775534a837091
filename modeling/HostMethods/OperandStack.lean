import HostMethods.Text.Quoted
import HostMethods.Value

/-!
# Operand stacks

A thread hands values to methods, and gets results back, on a bounded stack. The stack keeps its
slots and its free room; the limit is the sum of both. So the bound needs no check of its own (a
stack deeper than its limit is not a value of the type), and pushing and popping only move one
unit between the two parts, which leaves the limit alone by construction.
-/

namespace HostMethods

/-- How a stack operation fails. -/
inductive StackFault
  /-- There is no room for another value. -/
  | overflow (limit : Nat)
  /-- There is no value to take. -/
  | underflow
  /-- The value taken is not a reference. -/
  | primitive (found : ValueKind)
  deriving DecidableEq

/-- The fault as a sentence. -/
def StackFault.message : StackFault → String
  | overflow limit => s!"Stack overflow (max {limit} slots)"
  | underflow => "Stack underflow"
  | primitive found => "Expected reference on stack, found " ++ found.name

/-- A bounded stack of values. -/
structure OperandStack where
  /-- The values, the top one first. -/
  slots : List Value
  /-- How many more values fit. -/
  room : Nat
  deriving DecidableEq

namespace OperandStack

/-- The limit of a thread's stack unless it is given another one. -/
def defaultLimit : Nat := 65536

/-- The empty stack with a limit. -/
def empty (limit : Nat) : OperandStack := ⟨[], limit⟩

/-- The number of values on the stack. -/
def depth (s : OperandStack) : Nat :=
  s.slots.length

/-- The greatest number of values that the stack can hold. -/
def limit (s : OperandStack) : Nat :=
  s.depth + s.room

/-- Whether the stack holds nothing. -/
def isEmpty (s : OperandStack) : Bool :=
  s.slots.isEmpty

/-- Puts a value on top, if there is room. -/
def push (s : OperandStack) (v : Value) : Except StackFault OperandStack :=
  match s.room with
  | 0 => .error (.overflow s.limit)
  | room + 1 => .ok ⟨v :: s.slots, room⟩

/-- Takes the top value. -/
def pop (s : OperandStack) : Except StackFault (Value × OperandStack) :=
  match s.slots with
  | [] => .error .underflow
  | v :: rest => .ok (v, ⟨rest, s.room + 1⟩)

/-- Takes the top value as a reference, null being none. A value that is no reference is taken as
well, and refused afterwards. -/
def popRef (s : OperandStack) : Except StackFault (Option Ref) × OperandStack :=
  match s.pop with
  | .error fault => (.error fault, s)
  | .ok (.null, rest) => (.ok none, rest)
  | .ok (.ref r, rest) => (.ok (some r), rest)
  | .ok (v, rest) => (.error (.primitive v.kind), rest)

/-- Reads the value under `n` others without taking it. -/
def peekAt (s : OperandStack) (n : Nat) : Except StackFault Value :=
  match s.slots[n]? with
  | none => .error .underflow
  | some v => .ok v

/-- Reads the top value without taking it. -/
def peek (s : OperandStack) : Except StackFault Value :=
  s.peekAt 0

/-- Puts a value on top `n` times. When the room runs out before, the values that fitted stay, and
the fault comes with their number. -/
def pushMany (s : OperandStack) (v : Value) (n : Nat) :
    Except (StackFault × Nat) Unit × OperandStack :=
  go s 0 n
where
  /-- Pushes the remaining values after `pushed` others. -/
  go (s : OperandStack) (pushed : Nat) : Nat → Except (StackFault × Nat) Unit × OperandStack
    | 0 => (.ok (), s)
    | n + 1 =>
      match s.push v with
      | .error fault => (.error (fault, pushed), s)
      | .ok s => go s (pushed + 1) n

/-- The stack for diagnostics, the deepest value first. -/
def describe (showRef : Ref → String) (s : OperandStack) : String :=
  Text.record "Stack"
    [("slots", Text.bracketed (s.slots.reverse.map (Value.describe showRef))),
      ("max_size", toString s.limit)]

/-! ### One equation per operation -/

@[simp]
theorem depth_empty (limit : Nat) : (empty limit).depth = 0 := rfl

@[simp]
theorem limit_empty (l : Nat) : (empty l).limit = l := by
  simp [limit, empty, depth]

/-- A push succeeds exactly when there is room, and then puts its value on top. -/
theorem push_eq_ok_iff {s t : OperandStack} {v : Value} :
    s.push v = .ok t ↔ 0 < s.room ∧ t = ⟨v :: s.slots, s.room - 1⟩ := by
  obtain ⟨slots, room⟩ := s
  cases room <;> simp [push, eq_comm]

/-- A push fails exactly when the depth has reached the limit. -/
theorem push_eq_error_iff {s : OperandStack} {v : Value} {fault : StackFault} :
    s.push v = .error fault ↔ s.depth = s.limit ∧ fault = .overflow s.limit := by
  obtain ⟨slots, room⟩ := s
  cases room <;> simp [push, limit, depth, eq_comm]

/-- Pushing leaves the limit alone. -/
theorem limit_of_push {s t : OperandStack} {v : Value} (h : s.push v = .ok t) :
    t.limit = s.limit := by
  obtain ⟨hroom, rfl⟩ := push_eq_ok_iff.1 h
  simp only [limit, depth, List.length_cons]
  omega

/-- A pop returns what the last push put on top, and undoes it. -/
theorem pop_of_push {s t : OperandStack} {v : Value} (h : s.push v = .ok t) :
    t.pop = .ok (v, s) := by
  obtain ⟨hroom, rfl⟩ := push_eq_ok_iff.1 h
  obtain ⟨slots, room⟩ := s
  simp only [pop, Except.ok.injEq, Prod.mk.injEq, OperandStack.mk.injEq, true_and]
  simp only at hroom
  omega

/-- Popping leaves the limit alone. -/
theorem limit_of_pop {s t : OperandStack} {v : Value} (h : s.pop = .ok (v, t)) :
    t.limit = s.limit := by
  obtain ⟨slots, room⟩ := s
  cases slots with
  | nil => cases h
  | cons w rest =>
    cases h
    simp only [limit, depth, List.length_cons]
    omega

end OperandStack

end HostMethods
