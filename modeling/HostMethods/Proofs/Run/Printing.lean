import HostMethods.Proofs.Call.Dispatch
import HostMethods.Proofs.Run.Failures
import HostMethods.Proofs.Stack.Marshalling

/-!
# Calls that print

A caller pushes a stream and the arguments of a method, and calls it. If the method prints, it takes
just these slots and hands its text to the sink of the stream. Where the sink does not fail, this is
all that has happened: the machine after such a call is the one before it with one sink exchanged
(`Machine.CanPrintTo.appends`). Calls that print can therefore be put one after the other, and
what they print adds up (`Machine.Appends.append`).
-/

namespace HostMethods

/-- A call whose method prints takes its slots, and its text goes to the stream. -/
theorem StreamMethod.call_eq_of_print {s : Store} {stack : OperandStack} {method : StreamMethod}
    {args : Args method.arguments} {vs below : List Value} {r : Ref} {i : Instance}
    {stream : Stream} {text : String} (hread : args.ReadFrom vs)
    (haction : action s method args = .ok (.print text))
    (hstate : s.stateOf r ClassName.printStream .stream = .ok (i, stream))
    (hslots : stack.slots = vs.reverse ++ .ref r :: below) :
    method.declared.call ⟨stack, s⟩ =
      (.ok (), ⟨⟨below, stack.room + (vs.length + 1)⟩,
        s.callStream r i stream (.write text.toUTF8)⟩) := by
  have htake : stack.takeCall method.arguments =
      (.ok (r, args), ⟨below, stack.room + (vs.length + 1)⟩) := by
    refine OperandStack.takeCall_eq_ok_iff.2 ⟨vs, hread, hslots, ?_⟩
    show below.length + (stack.room + (vs.length + 1)) = stack.slots.length + stack.room
    rw [hslots, List.length_append, List.length_reverse, List.length_cons]
    omega
  have heffect : method.effect s r args =
      .ok (none, s.callStream r i stream (.write text.toUTF8)) := by
    simp only [effect, hstate, haction]
    rfl
  rw [method.declared_runsAs.call_eq]
  simp only [CallState.onReceiver, htake, heffect]

/-- A sink that does not fail now notes the call, and nothing else happens. -/
theorem Store.callStream_of_failure_eq_none {s : Store} {r : Ref} {i : Instance} {stream : Stream}
    {k : Sink} {call : SinkCall} (hk : s.sinks[stream.sink]? = some k)
    (hfailure : k.failure k.history call = none) :
    s.callStream r i stream call =
      { s with sinks := s.sinks.setIfInBounds stream.sink (k.perform call).2 } := by
  have hfst : (k.perform call).1 = .ok () := by rw [k.perform_fst, hfailure]
  simp only [callStream, callSink, hk, hfst]

namespace Machine

variable {m : Machine} {vs : List Value}

/-! ### Pushing -/

theorem stack_setStack (h : m.current < m.threads.size) (s : OperandStack) :
    (m.setStack s).stack = s :=
  stack_resume h ⟨s, m.store⟩

theorem setStack_setStack (m : Machine) (s t : OperandStack) :
    (m.setStack s).setStack t = m.setStack t := by
  simp only [setStack, Array.setIfInBounds_setIfInBounds]

/-- A stack with room belongs to a thread. -/
theorem current_lt_of_room_pos (h : 0 < m.stack.room) : m.current < m.threads.size := by
  rcases Nat.lt_or_ge m.current m.threads.size with hlt | hge
  · exact hlt
  · rw [(stack_resume_of_size_le hge ⟨m.stack, m.store⟩).1] at h
    exact absurd h (Nat.lt_irrefl 0)

theorem step_push (hroom : 0 < m.stack.room) (v : Value) :
    m.step (.push v 1) = (m.setStack ⟨v :: m.stack.slots, m.stack.room - 1⟩, .done) := by
  have hpush : m.stack.pushMany v 1 = (.ok (), ⟨v :: m.stack.slots, m.stack.room - 1⟩) := by
    rw [OperandStack.pushMany, OperandStack.pushMany.go,
      OperandStack.push_eq_ok_iff.2 ⟨hroom, rfl⟩]
    rfl
  rw [step, hpush]

/-- Values for which there is room are pushed one after the other. -/
theorem run_pushes (hroom : vs.length ≤ m.stack.room) :
    m.run (vs.map (.push · 1)) =
      (m.setStack ⟨vs.reverse ++ m.stack.slots, m.stack.room - vs.length⟩,
        (vs.map (Command.push · 1)).map fun _ ↦ .done) := by
  induction vs generalizing m with
  | nil =>
    show (m, []) = (m.setStack m.stack, [])
    rw [setStack_stack]
  | cons v vs ih =>
    rw [List.length_cons] at hroom
    have hlt := current_lt_of_room_pos (show 0 < m.stack.room by omega)
    have hstack := stack_setStack hlt ⟨v :: m.stack.slots, m.stack.room - 1⟩
    rw [List.map_cons, run_cons, step_push (by omega), ih, setStack_setStack, hstack]
    · rw [List.reverse_cons, List.append_assoc, List.singleton_append, List.length_cons,
        Nat.sub_sub, Nat.add_comm 1]
      rfl
    · rw [hstack]
      show vs.length ≤ m.stack.room - 1
      omega

/-! ### One call -/

/-- The machine with another sink in the place of one of its own. -/
def exchangeSink (m : Machine) (n : Nat) (k : Sink) : Machine :=
  m.withSinks (m.store.sinks.setIfInBounds n k)

theorem exchangeSink_exchangeSink (m : Machine) (n : Nat) (k k' : Sink) :
    (m.exchangeSink n k).exchangeSink n k' = m.exchangeSink n k' := by
  simp only [exchangeSink, withSinks, Array.setIfInBounds_setIfInBounds]

/-- A method is found by its class alone, or in the registry. -/
theorem callee?_congr {m' : Machine} (h : m'.registry = m.registry) (cmd : Command) :
    m'.callee? cmd = m.callee? cmd := by
  cases cmd with
  | invoke className s =>
    show m'.registry.resolve? className s = m.registry.resolve? className s
    rw [h]
  | _ => rfl

/-- The machine can print to this sink through the stream behind a reference, calling methods in
some way: the methods are found, the sink never fails, and the selected thread has room for what a
call takes. -/
structure CanPrintTo (m : Machine) (how : StreamMethod → Command) (r : Ref) (n : Nat) (k : Sink) :
    Prop where
  /-- Every method of streams is found. -/
  callee : ∀ method, m.callee? (how method) = some method.declared
  /-- The reference leads to a stream that writes to the sink. -/
  stateOf_stream : ∃ i stream,
    m.store.stateOf r ClassName.printStream .stream = .ok (i, stream) ∧ stream.sink = n
  /-- It is this sink. -/
  sink_eq : m.store.sinks[n]? = some k
  /-- The sink never fails. -/
  failure_eq : ∀ earlier call, k.failure earlier call = none
  /-- There is room for the stream and an argument. -/
  room : 2 ≤ m.stack.room

/-- Calls a method of streams. -/
def callMethod (method : StreamMethod) : Command :=
  .call streamClass (.of method.name method.signature)

/-- What a caller does to call a method on a stream: everything that the method takes is pushed
first. -/
def callCommands (how : StreamMethod → Command) (r : Ref) (method : StreamMethod)
    (vs : List Value) : List Command :=
  (.ref r :: vs).map (.push · 1) ++ [how method]

/-- The commands append these bytes to the sink, and do nothing else. -/
structure Appends (m : Machine) (n : Nat) (k : Sink) (cmds : List Command) (bytes : ByteArray)
    (k' : Sink) : Prop where
  /-- All commands are done, and nothing but the sink has changed. -/
  run_eq : m.run cmds = (m.exchangeSink n k', cmds.map fun _ ↦ .done)
  /-- The sink fails as it did before. -/
  failure_eq : k'.failure = k.failure
  /-- It keeps the bytes behind those that it has kept before. -/
  kept_eq : k'.kept = k.kept ++ bytes

section Calls

variable {how : StreamMethod → Command} {r : Ref} {n : Nat} {k k' : Sink}

/-- A sink that never fails can be exchanged for another one. -/
theorem CanPrintTo.exchangeSink (h : m.CanPrintTo how r n k) (hfailure : k'.failure = k.failure) :
    (m.exchangeSink n k').CanPrintTo how r n k' where
  callee method := (callee?_congr rfl _).trans (h.callee method)
  stateOf_stream := h.stateOf_stream
  sink_eq := Array.getElem?_setIfInBounds_self_of_lt (Array.getElem?_eq_some_iff.1 h.sink_eq).1
  failure_eq := hfailure ▸ h.failure_eq
  room := h.room

/-- With its slots on top, a call that prints is done, and its slots are gone. -/
theorem CanPrintTo.step_eq (h : m.CanPrintTo how r n k) {method : StreamMethod}
    {args : Args method.arguments} {text : String} {below : List Value} {room : Nat}
    (hread : args.ReadFrom vs)
    (haction : StreamMethod.action m.store method args = .ok (.print text)) :
    (m.setStack ⟨vs.reverse ++ .ref r :: below, room⟩).step (how method) =
      ((m.setStack ⟨below, room + (vs.length + 1)⟩).exchangeSink n
        (k.perform (.write text.toUTF8)).2, .done) := by
  obtain ⟨i, stream, hstate, rfl⟩ := h.stateOf_stream
  have hlt := current_lt_of_room_pos (Nat.lt_of_lt_of_le Nat.two_pos h.room)
  have hcallee : (m.setStack ⟨vs.reverse ++ .ref r :: below, room⟩).callee? (how method) =
      some method.declared := (callee?_congr rfl _).trans (h.callee method)
  have hcall : method.declared.call ⟨⟨vs.reverse ++ .ref r :: below, room⟩, m.store⟩ = _ :=
    StreamMethod.call_eq_of_print hread haction hstate rfl
  rw [Store.callStream_of_failure_eq_none h.sink_eq (h.failure_eq _ _)] at hcall
  rw [step_of_callee? hcallee, Machine.call, stack_setStack hlt]
  show (Machine.resume _ (method.declared.call ⟨_, m.store⟩).2,
    Reply.ofCall (method.declared.call ⟨_, m.store⟩).1) = _
  rw [hcall]
  simp only [resume, setStack_setStack]
  rfl

/-- **A call that prints appends its text**, and gives the slots back that it was given. -/
theorem CanPrintTo.appends (h : m.CanPrintTo how r n k) {method : StreamMethod}
    {args : Args method.arguments} {text : String} (hread : args.ReadFrom vs)
    (haction : StreamMethod.action m.store method args = .ok (.print text)) :
    m.Appends n k (callCommands how r method vs) text.toUTF8
      (k.perform (.write text.toUTF8)).2 where
  run_eq := by
    have hlength : vs.length ≤ 1 := by
      rw [hread.length_eq]
      cases method <;> decide
    have hroom : (Value.ref r :: vs).length ≤ m.stack.room :=
      Nat.le_trans (Nat.succ_le_succ hlength) h.room
    have hrest : m.stack.room - (vs.length + 1) + (vs.length + 1) = m.stack.room :=
      Nat.sub_add_cancel hroom
    rw [callCommands, run_append, run_pushes hroom, List.reverse_cons, List.append_assoc,
      List.singleton_append, List.length_cons, run_cons, h.step_eq hread haction, hrest,
      setStack_stack, List.map_append]
    rfl
  failure_eq := k.failure_perform _
  kept_eq := k.kept_perform _ (h.failure_eq _ _)

/-- Appending goes on where it has left off. -/
theorem Appends.append {k'' : Sink} {before after : List Command} {bytes bytes' : ByteArray}
    (h : m.Appends n k before bytes k')
    (h' : (m.exchangeSink n k').Appends n k' after bytes' k'') :
    m.Appends n k (before ++ after) (bytes ++ bytes') k'' where
  run_eq := by
    rw [run_append, h.run_eq, h'.run_eq, exchangeSink_exchangeSink, List.map_append]
  failure_eq := h'.failure_eq.trans h.failure_eq
  kept_eq := by rw [h'.kept_eq, h.kept_eq, ByteArray.append_assoc]

end Calls

end Machine

end HostMethods
