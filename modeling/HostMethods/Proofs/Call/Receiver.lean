import HostMethods.Call.State
import HostMethods.Proofs.Stack.Taking

/-!
# How a call with a receiver can go

All methods with a receiver run through `CallState.onReceiver`. `Received` lists the ways in which
such a run can go, and `onReceiver_received` says that there is no other: the stack did not hold
what the method asked for, the method itself gave up, or it went through.

The list has no case for a result that finds no room. A method takes its receiver before it gives
a result, so by then at least one slot is free, whatever the limit of the stack is. This is why a
failure can never come after the store has changed, and it is the one place where the room of a
stack matters.
-/

namespace HostMethods

namespace CallState

/-- What a method with a receiver does once it has its arguments: from the store, the receiver and
the arguments, the result, if there is one, and the new store. -/
abbrev Effect (kinds : List ArgKind) : Type :=
  Store → Ref → Args kinds → Except CallError (Option Value × Store)

variable {c c' : CallState} {kinds : List ArgKind} {effect : Effect kinds}

/-- The ways in which a call with a receiver can go, from a state to an outcome and the state
after it. -/
inductive Received (c : CallState) (kinds : List ArgKind) (effect : Effect kinds) :
    Except CallError Unit → CallState → Prop
  /-- The stack did not hold what the method asked for. -/
  | refused {e : CallError} {stack : OperandStack}
      (htake : c.stack.takeCall kinds = (.error e, stack)) :
      Received c kinds effect (.error e) { c with stack }
  /-- The method had its arguments and gave up. -/
  | failed {receiver : Ref} {args : Args kinds} {e : CallError}
      (hdepth : kinds.length + 1 ≤ c.stack.depth)
      (htake : c.stack.takeCall kinds = (.ok (receiver, args), c.stack.dropTop (kinds.length + 1)))
      (heffect : effect c.store receiver args = .error e) :
      Received c kinds effect (.error e) { c with stack := c.stack.dropTop (kinds.length + 1) }
  /-- The method went through. Its result, if there is one, lies where its arguments were. -/
  | done {receiver : Ref} {args : Args kinds} {result : Option Value} {store : Store}
      {stack : OperandStack} (hdepth : kinds.length + 1 ≤ c.stack.depth)
      (htake : c.stack.takeCall kinds = (.ok (receiver, args), c.stack.dropTop (kinds.length + 1)))
      (heffect : effect c.store receiver args = .ok (result, store))
      (hslots : stack.slots = result.toList ++ c.stack.slots.drop (kinds.length + 1))
      (hlimit : stack.limit = c.stack.limit) :
      Received c kinds effect (.ok ()) ⟨stack, store⟩

/-- There is no other way than those listed. -/
theorem onReceiver_received (c : CallState) (kinds : List ArgKind) (effect : Effect kinds) :
    Received c kinds effect (c.onReceiver kinds effect).1 (c.onReceiver kinds effect).2 := by
  have htaken := OperandStack.takeCall_taken kinds c.stack
  rw [onReceiver]
  cases htake : c.stack.takeCall kinds with
  | mk outcome stack =>
    rw [htake] at htaken
    cases outcome with
    | error e => exact .refused htake
    | ok call =>
      obtain ⟨receiver, args⟩ := call
      obtain ⟨hdepth, hstack⟩ := htaken.of_ok
      simp only at hstack
      subst hstack
      cases heffect : effect c.store receiver args with
      | error e =>
        simp only [heffect]
        exact .failed hdepth htake heffect
      | ok answer =>
        obtain ⟨result, store⟩ := answer
        cases result with
        | none =>
          simp only [heffect]
          exact .done hdepth htake heffect rfl (OperandStack.limit_dropTop _ _)
        | some v =>
          -- the receiver's slot is free, so the push has room
          have hroom : 0 < (c.stack.dropTop (kinds.length + 1)).room := by
            rw [OperandStack.room_dropTop]
            omega
          have hpush : (c.stack.dropTop (kinds.length + 1)).push v = .ok ⟨v :: _, _⟩ :=
            OperandStack.push_eq_ok_iff.2 ⟨hroom, rfl⟩
          simp only [heffect, OperandStack.deliver, hpush]
          refine .done hdepth htake heffect rfl ?_
          rw [OperandStack.limit_of_push hpush, OperandStack.limit_dropTop]

/-- What a refused call left of the stack. -/
theorem taken_of_takeCall_eq {s t : OperandStack} {outcome : Except CallError (Ref × Args kinds)}
    (h : s.takeCall kinds = (outcome, t)) : s.Taken (kinds.length + 1) outcome t := by
  have htaken := OperandStack.takeCall_taken kinds s
  rwa [h] at htaken

/-- **A failure has touched the stack alone**, and there only the slots that the method asked for.
-/
theorem Received.error_frame {e : CallError} (h : Received c kinds effect (.error e) c') :
    c'.store = c.store ∧ c'.stack.slots <:+ c.stack.slots ∧
      c.stack.depth ≤ c'.stack.depth + (kinds.length + 1) ∧
      c'.stack.limit = c.stack.limit := by
  cases h with
  | refused htake => exact ⟨rfl, (taken_of_takeCall_eq htake).suffix⟩
  | failed hdepth htake heffect => exact ⟨rfl, (taken_of_takeCall_eq htake).suffix⟩

/-- **The size of the stack is to blame only for an underflow**, and then the stack held less than
the method asked for, provided that the method itself never blames it. -/
theorem Received.underflow_of_hitsLimit {e : CallError}
    (heffect : ∀ {s r args e}, effect s r args = .error e → e.hitsLimit = false)
    (h : Received c kinds effect (.error e) c') (he : e.hitsLimit = true) :
    e = .stack .underflow ∧ c.stack.depth < kinds.length + 1 := by
  cases h with
  | refused htake => exact (taken_of_takeCall_eq htake).underflow_of_hitsLimit he
  | failed hdepth htake hfail => exact absurd ((heffect hfail).symm.trans he) (by decide)

/-- A call that went through had all its slots. -/
theorem Received.depth_of_ok (h : Received c kinds effect (.ok ()) c') :
    kinds.length + 1 ≤ c.stack.depth := by
  cases h with
  | done hdepth htake heffect hslots hlimit => exact hdepth

section Frames

variable {outcome : Except CallError Unit} {frame base : List Value}

/-- **The base is safe**: what lies below the slots of a call is the bottom of the stack after it,
whatever has come of the call. -/
theorem Received.base_suffix (h : Received c kinds effect outcome c')
    (hframe : c.stack.slots = frame ++ base) (hlength : frame.length = kinds.length + 1) :
    base <:+ c'.stack.slots := by
  cases outcome with
  | error e =>
    obtain ⟨-, hsuffix, hdepth, -⟩ := h.error_frame
    have hbase : base <:+ c.stack.slots := hframe ▸ List.suffix_append frame base
    refine List.suffix_of_suffix_length_le hbase hsuffix ?_
    rw [OperandStack.depth, hframe, List.length_append] at hdepth
    show base.length ≤ c'.stack.depth
    omega
  | ok u =>
    cases h with
    | done hdepth htake heffect hslots hlimit =>
      rw [hslots, hframe, List.drop_left' hlength]
      exact List.suffix_append _ _

/-- **The result takes the place of the frame**, and is what the method can answer with. -/
theorem Received.exists_result {IsAnswer : Option Value → Prop}
    (heffect : ∀ {s r args result s'}, effect s r args = .ok (result, s') → IsAnswer result)
    (h : Received c kinds effect (.ok ()) c') (hframe : c.stack.slots = frame ++ base)
    (hlength : frame.length = kinds.length + 1) :
    ∃ result, IsAnswer result ∧ c'.stack.slots = result.toList ++ base := by
  cases h with
  | done hdepth htake hdone hslots hlimit =>
    rw [hframe, List.drop_left' hlength] at hslots
    exact ⟨_, heffect hdone, hslots⟩

end Frames

end CallState

end HostMethods
