import HostMethods.Machine
import HostMethods.Proofs.Call.Builtin

/-!
# What a call of a built-in method leaves alone

Two rules hold for every built-in method, on any machine: whatever the objects are, whatever the
threads' stacks hold and however small they are.

* `Machine.call_error_atomic`: **a failed call has changed nothing** but the stack of the thread
  that made it, and has taken only slots there that the method's declaration asks for. It rests on
  the order of a call, in which the store is exchanged last, and on the receiver's slot, which
  leaves room for the result.
* `Machine.call_stack_discipline`: **a call works on the slots that its method declares**. What
  lies below them stays as it is, a successful call leaves one value of the declared type or none
  in their place, and the size of the stack can only be the reason of a failure if the slots were
  not there.

Neither rule looks at a single method. What is used of the methods is `Method.RunsAs`.
-/

namespace HostMethods

namespace Machine

/-! ### Calls on the selected thread -/

/-- The machine after a call that has left this state behind. -/
def resume (m : Machine) (c : CallState) : Machine :=
  { m.setStack c.stack with store := c.store }

/-- What runs with a receiver goes one of the ways that such calls can go. -/
theorem exists_received {kinds : List ArgKind} {effect : CallState.Effect kinds}
    {run : CallState → Except CallError Unit × CallState}
    (hrun : ∀ c, run c = c.onReceiver kinds effect) (m : Machine) :
    ∃ outcome c, CallState.Received ⟨m.stack, m.store⟩ kinds effect outcome c ∧
      m.call run = (outcome, m.resume c) := by
  refine ⟨_, _, CallState.onReceiver_received ⟨m.stack, m.store⟩ kinds effect, ?_⟩
  rw [call, hrun]
  rfl

/-- A call of a method that runs with a receiver goes one of the ways that such calls can go. -/
theorem exists_received_of_call {m m' : Machine} {method : Method} {kinds : List ArgKind}
    {effect : CallState.Effect kinds} {outcome : Except CallError Unit}
    (hruns : method.RunsAs kinds effect) (h : m.call method.call = (outcome, m')) :
    ∃ c, CallState.Received ⟨m.stack, m.store⟩ kinds effect outcome c ∧ m' = m.resume c := by
  obtain ⟨outcome', c, hreceived, hcall⟩ := exists_received hruns.call_eq m
  cases h.symm.trans hcall
  exact ⟨c, hreceived, rfl⟩

/-- No thread but the selected one notices a call. -/
theorem threads_resume_of_ne (m : Machine) (c : CallState) {thread : Nat}
    (h : thread ≠ m.current) : (m.resume c).threads[thread]? = m.threads[thread]? :=
  Array.getElem?_setIfInBounds_ne (Ne.symm h)

/-- The selected thread has the stack that the call has left, if there is such a thread. -/
theorem stack_resume {m : Machine} (h : m.current < m.threads.size) (c : CallState) :
    (m.resume c).stack = c.stack := by
  show ((m.threads.setIfInBounds m.current c.stack)[m.current]?).getD (.empty 0) = c.stack
  rw [Array.getElem?_setIfInBounds_self_of_lt h]
  rfl

/-- Without a selected thread there is no stack at all, before the call and after it. -/
theorem stack_resume_of_size_le {m : Machine} (h : m.threads.size ≤ m.current) (c : CallState) :
    m.stack = .empty 0 ∧ (m.resume c).stack = .empty 0 := by
  constructor
  · rw [stack, Array.getElem?_eq_none h]
    rfl
  · show ((m.threads.setIfInBounds m.current c.stack)[m.current]?).getD (.empty 0) = .empty 0
    rw [Array.getElem?_eq_none (by rwa [Array.size_setIfInBounds])]
    rfl

/-- A stack with a value on it belongs to a thread. -/
theorem current_lt_of_depth_pos {m : Machine} (h : 0 < m.stack.depth) :
    m.current < m.threads.size := by
  rcases Nat.lt_or_ge m.current m.threads.size with hlt | hge
  · exact hlt
  · rw [(stack_resume_of_size_le hge ⟨m.stack, m.store⟩).1] at h
    exact absurd h (Nat.lt_irrefl 0)

/-! ### Failed calls -/

/-- The two machines agree in everything but the stack of the selected thread and the clock: in
every object with its fields, its slot and the state in it, in every static field, in every sink
with the bytes it kept and the calls it has seen, and in all other threads. -/
structure SameButStack (m m' : Machine) : Prop where
  objects_eq : m'.store.objects = m.store.objects
  statics_eq : m'.store.statics = m.store.statics
  sinks_eq : m'.store.sinks = m.store.sinks
  registry_eq : m'.registry = m.registry
  catalog_eq : m'.catalog = m.catalog
  current_eq : m'.current = m.current
  size_eq : m'.threads.size = m.threads.size
  others_eq : ∀ thread, thread ≠ m.current → m'.threads[thread]? = m.threads[thread]?

/-- A call that has kept the store keeps the rest of the machine. -/
theorem sameButStack_resume {m : Machine} {c : CallState} (h : c.store = m.store) :
    m.SameButStack (m.resume c) where
  objects_eq := congrArg Store.objects h
  statics_eq := congrArg Store.statics h
  sinks_eq := congrArg Store.sinks h
  registry_eq := rfl
  catalog_eq := rfl
  current_eq := rfl
  size_eq := Array.size_setIfInBounds
  others_eq _ hne := m.threads_resume_of_ne c hne

/-- **Failed calls are atomic.** A built-in method that fails, in whatever way and on whatever
machine, has changed nothing but the stack of the thread that called it. Of that stack the bottom
part is left, without at most as many values as the method has slots for its receiver and its
arguments. -/
theorem call_error_atomic {m m' : Machine} {method : Method} {e : CallError}
    (hbuiltin : method.IsBuiltin) (h : m.call method.call = (.error e, m')) :
    m.SameButStack m' ∧ m'.stack.slots <:+ m.stack.slots ∧
      m.stack.depth ≤ m'.stack.depth + method.slotCount ∧ m'.stack.limit = m.stack.limit := by
  obtain ⟨kinds, effect, hruns⟩ := hbuiltin.exists_runsAs
  obtain ⟨c, hreceived, rfl⟩ := exists_received_of_call hruns h
  obtain ⟨hstore, hsuffix, hdepth, hlimit⟩ := hreceived.error_frame
  rw [← hruns.slotCount_eq] at hdepth
  refine ⟨sameButStack_resume hstore, ?_⟩
  rcases Nat.lt_or_ge m.current m.threads.size with hlt | hge
  · rw [stack_resume hlt]
    exact ⟨hsuffix, hdepth, hlimit⟩
  · -- nobody's stack: the empty one is read before the call and after it
    obtain ⟨hbefore, hafter⟩ := stack_resume_of_size_le hge c
    rw [hbefore, hafter]
    exact ⟨List.suffix_rfl, Nat.le_add_right _ _, rfl⟩

/-- A machine with one thread, whose stack is full, and with two objects: a generator under the
address 0 and a stream that has not failed yet under the address 1. -/
def withFullStack (slots : List Value) : Machine where
  store :=
    { objects :=
        #[.inst ⟨⟨0, .empty ClassName.random⟩, [], some ⟨.generator, .ofSeed 7⟩⟩,
          .inst ⟨⟨1, .empty ClassName.printStream⟩, [], some ⟨.stream, .to 0⟩⟩]
      statics := #[[], []]
      sinks := #[.capture]
      clock := 0 }
  registry := .empty
  catalog := .new ⟨0, none⟩
  threads := #[⟨slots, 0⟩]
  current := 0

/-- A bound that leaves no number is refused after the receiver was taken, and the generator has
not moved. -/
theorem call_error_atomic_emptyRange :
    ∃ e m', RandomMethod.nextIntBelow.declared.IsBuiltin ∧
      (withFullStack [.int 0, .ref ⟨0⟩, .long 5]).call RandomMethod.nextIntBelow.declared.call =
        (.error e, m') ∧
      m'.stack.slots = [.long 5] ∧ (withFullStack [.int 0, .ref ⟨0⟩, .long 5]).SameButStack m' := by
  have hbuiltin : RandomMethod.nextIntBelow.declared.IsBuiltin :=
    .random (Class.build_randomMembers none) (List.mem_map_of_mem (by decide))
  exact ⟨_, _, hbuiltin, rfl, rfl, (call_error_atomic hbuiltin rfl).1⟩

/-! ### The declared slots -/

/-- **Calls keep to the declared slots.** Let a built-in method be called on a stack that holds a
frame of exactly its slots on top of a base. Whatever comes of it, the base is the bottom of the
stack afterwards, and the size of the stack is not what the call complains about. If the call
succeeds, then the frame is gone, and a method with a result has put one value of the declared
type in its place. With fewer values than its slots no call succeeds, and only then is there an
underflow. The stacks of other threads stay as they are. -/
theorem call_stack_discipline {m m' : Machine} {method : Method} {outcome : Except CallError Unit}
    (hbuiltin : method.IsBuiltin) (h : m.call method.call = (outcome, m')) :
    (∀ frame base, m.stack.slots = frame ++ base → frame.length = method.slotCount →
      base <:+ m'.stack.slots ∧
      (outcome = .ok () →
        if method.signature.result = .void then m'.stack.slots = base
        else ∃ v, method.signature.result.Holds v ∧ m'.stack.slots = v :: base) ∧
      (∀ limit, outcome ≠ .error (.stack (.overflow limit))) ∧
      outcome ≠ .error (.stack .underflow)) ∧
    (m.stack.depth < method.slotCount → outcome ≠ .ok ()) ∧
    (outcome = .error (.stack .underflow) → m.stack.depth < method.slotCount) ∧
    ∀ thread, thread ≠ m.current → m'.threads[thread]? = m.threads[thread]? := by
  obtain ⟨kinds, effect, hruns⟩ := hbuiltin.exists_runsAs
  obtain ⟨c, hreceived, rfl⟩ := exists_received_of_call hruns h
  have hslots := hruns.slotCount_eq
  have hunderflow : outcome = .error (.stack .underflow) → m.stack.depth < method.slotCount := by
    rintro rfl
    rw [hslots]
    exact (hreceived.underflow_of_hitsLimit hruns.hitsLimit_of_error rfl).2
  refine ⟨fun frame base hframe hlength ↦ ?_, fun hshort hok ↦ ?_, hunderflow,
    fun thread hne ↦ m.threads_resume_of_ne c hne⟩
  · have hdepth : m.stack.depth = method.slotCount + base.length := by
      rw [OperandStack.depth, hframe, List.length_append, hlength]
    -- the frame holds at least the receiver, so a thread is selected
    have hcurrent : m.current < m.threads.size := current_lt_of_depth_pos (by omega)
    rw [stack_resume hcurrent]
    refine ⟨?_, ?_, ?_, fun hempty ↦ absurd (hunderflow hempty) (by omega)⟩
    · exact hreceived.base_suffix hframe (hlength.trans hslots)
    · rintro rfl
      obtain ⟨result, hanswers, hafter⟩ :=
        hreceived.exists_result hruns.answers_of_ok hframe (hlength.trans hslots)
      cases result with
      | none =>
        have hvoid : method.signature.result = .void := hanswers
        rwa [if_pos hvoid]
      | some v =>
        rw [if_neg hanswers.ne_void]
        exact ⟨v, hanswers, hafter⟩
    · rintro limit rfl
      have := (hreceived.underflow_of_hitsLimit hruns.hitsLimit_of_error rfl).1
      cases this
  · subst hok
    have hdepth : kinds.length + 1 ≤ m.stack.depth := hreceived.depth_of_ok
    omega

/-- A truth value goes to a full stack, into the slot that the receiver has left. -/
theorem call_stack_discipline_fullStack :
    ∃ m', StreamMethod.checkError.declared.IsBuiltin ∧
      (withFullStack [.ref ⟨1⟩, .long 5]).call StreamMethod.checkError.declared.call =
        (.ok (), m') ∧
      ∃ v, GuestType.boolean.Holds v ∧ m'.stack.slots = [v, .long 5] := by
  have hbuiltin : StreamMethod.checkError.declared.IsBuiltin :=
    .stream Class.build_streamMembers (List.mem_map_of_mem (by decide))
  have hcall : (withFullStack [.ref ⟨1⟩, .long 5]).call StreamMethod.checkError.declared.call =
      (.ok (), _) := rfl
  obtain ⟨-, hresult, -⟩ :=
    (call_stack_discipline hbuiltin hcall).1 [.ref ⟨1⟩] [.long 5] rfl (by decide)
  exact ⟨_, hbuiltin, hcall, hresult rfl⟩

end Machine

end HostMethods
