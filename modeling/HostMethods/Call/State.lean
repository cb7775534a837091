import HostMethods.Store.Basic

/-!
# Calls in progress

A host method sees the stack of the calling thread and the store, and nothing else: no other
thread's stack can be reached from here. All methods with a receiver run in one way
(`onReceiver`). They take their arguments and the receiver from the stack, then decide on the
outcome and the new store without touching either, and only then take effect. A method that fails
has therefore changed nothing but the stack, and a result always finds the room that the receiver
has left.
-/

namespace HostMethods

/-- What a host method works on. -/
structure CallState where
  /-- The stack of the calling thread. -/
  stack : OperandStack
  /-- The store. -/
  store : Store

namespace CallState

/-- Runs a step that works on the stack alone. -/
def onStack (c : CallState) (step : OperandStack → Except CallError Unit × OperandStack) :
    Except CallError Unit × CallState :=
  let (outcome, stack) := step c.stack
  (outcome, { c with stack })

/-- Runs a method with a receiver. `effect` gives the result, if there is one, and the new store.
-/
def onReceiver (c : CallState) (kinds : List ArgKind)
    (effect : Store → Ref → Args kinds → Except CallError (Option Value × Store)) :
    Except CallError Unit × CallState :=
  match c.stack.takeCall kinds with
  | (.error e, stack) => (.error e, { c with stack })
  | (.ok (receiver, args), stack) =>
    match effect c.store receiver args with
    | .error e => (.error e, { c with stack })
    | .ok (none, store) => (.ok (), ⟨stack, store⟩)
    | .ok (some v, store) =>
      let (outcome, stack) := stack.deliver v
      (outcome, ⟨stack, store⟩)

end CallState

end HostMethods
