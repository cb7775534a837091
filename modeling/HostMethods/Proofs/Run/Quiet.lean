import HostMethods.Proofs.Run.Streams

/-!
# What a step brings in, and what becomes of a sink

A command that asks nothing through a stream, and does not work on sinks directly, leaves every sink
alone. All that it adds to the store is listed by `Command.Adds`, and all state that it puts behind
objects by `Machine.Fills` (`Machine.step_quietly`); both lists are short, and most commands are on
neither. An invariant of all filled slots is checked against these lists (`Machine.slots_step`).

A sink is therefore changed by exactly two things: by what a command asks of it
(`Machine.asked?`), and by being emptied (`Machine.getElem?_sinks_step`). Both the calls that it has
seen and the bytes that it keeps are read off this one law.
-/

namespace HostMethods

/-! ### What is brought in -/

/-- The objects that a command can add. -/
def Command.Adds : Command → Object → Prop
  | newText text, o => o = .text text
  | newInstance c state, o => o = .inst { Instance.fresh c with state }
  | openStream _ _, o | buildSystem _ _, o | builtin _, o | builtins, o | registerBuiltins, o =>
    o.IsNewStream
  | _, _ => False

/-- An object with state behind it is a stream that has just been opened, unless the host gives the
state itself. -/
theorem Command.Adds.state_cases {cmd : Command} {i : Instance} {state : HostState}
    (h : cmd.Adds (.inst i)) (hstate : i.state = some state) :
    (∃ sink, state = ⟨.stream, .to sink⟩) ∨ ∃ c, cmd = .newInstance c (some state) := by
  have hnew : (Object.inst i).IsNewStream → ∃ sink, state = ⟨.stream, .to sink⟩ := by
    rintro ⟨c, sink, heq⟩
    cases heq
    exact ⟨sink, (Option.some.inj hstate).symm⟩
  cases cmd with
  | newInstance c given =>
    cases h
    obtain rfl : given = some state := hstate
    exact .inr ⟨c, rfl⟩
  | newText text => cases h
  | openStream | buildSystem | builtin | builtins | registerBuiltins => exact .inl (hnew h)
  | _ => exact h.elim

/-- The command works on sinks without a stream. -/
def Command.onSinks : Command → Bool
  | newSink _ | callSink _ _ | takeSink _ => true
  | _ => false

/-- The command empties the sink. -/
def Command.empties (n : Nat) : Command → Bool
  | takeSink sink => sink = n
  | _ => false

/-- What becomes of a sink when it is asked something, or nothing. -/
def Sink.after (k : Sink) : Option SinkCall → Sink
  | none => k
  | some call => (k.perform call).2

@[simp]
theorem Sink.failure_after (k : Sink) (call : Option SinkCall) :
    (k.after call).failure = k.failure := by
  cases call with
  | none => rfl
  | some call => exact k.failure_perform call

/-- What an entry point can put behind an object of a class, on this stack: state of its own kind,
behind its receiver. Streams are opened by the host, so their methods put nothing there. -/
def Entry.Fills (stack : OperandStack) : Entry → Ref → LoadedClass → HostState → Prop
  | random m, r, c, state =>
    stack.Receives m.arguments r ∧ c.name = ClassName.random ∧ state.kind = .generator
  | host (.cell className kind m), r, c, state =>
    stack.Receives m.arguments r ∧ c.name = className ∧ state.kind = .custom kind
  | _, _, _, _ => False

/-- What a command can put behind an object of a class, if it asks nothing of a sink. -/
def Machine.Fills (m : Machine) (cmd : Command) (r : Ref) (c : LoadedClass) (state : HostState) :
    Prop :=
  (∃ method entry, m.callee? cmd = some method ∧ method.body = .native entry ∧
    entry.Fills m.stack r c state) ∨
  cmd = .initState r state

section Calls

variable {adds : Object → Prop} {s s' : Store} {r : Ref} {result : Option Value}

theorem GeneratorAction.quietly_of_perform {a : GeneratorAction}
    (h : a.perform s r = .ok (result, s')) {stack : OperandStack} {method : RandomMethod}
    (hreceives : stack.Receives method.arguments r) :
    s.Quietly adds ((Entry.random method).Fills stack) s' := by
  cases a with
  | start seed =>
    obtain ⟨_, hstart, heq⟩ := Except.exists_of_map_eq_ok h
    cases heq
    exact .single (Store.quiet_initState hstart fun c hc ↦ ⟨hreceives, hc, rfl⟩)
  | startFromClock =>
    obtain ⟨t, hstart, heq⟩ := Except.exists_of_map_eq_ok h
    cases heq
    refine .tail (.single ?_) (.other t t.statics _)
    exact Store.quiet_initState hstart fun c hc ↦ ⟨hreceives, hc, rfl⟩
  | answer request =>
    rw [perform, RandomMethod.answer] at h
    split at h
    · cases h
    next hstate =>
      split at h <;> cases h
      exact .single (Store.quiet_putState hstate fun c hc ↦ ⟨hreceives, hc, rfl⟩)
  | restart seed =>
    obtain ⟨_, hrestart, heq⟩ := Except.exists_of_map_eq_ok h
    cases heq
    rw [RandomMethod.restart] at hrestart
    split at hrestart <;> cases hrestart
    next hstate => exact .single (Store.quiet_putState hstate fun c hc ↦ ⟨hreceives, hc, rfl⟩)

theorem CellMethod.quietly_of_effect {className kind : String} {m : CellMethod}
    {args : Args m.arguments} (h : m.effect className kind s r args = .ok (result, s'))
    {stack : OperandStack} (hreceives : stack.Receives m.arguments r) :
    s.Quietly adds ((Entry.host (.cell className kind m)).Fills stack) s' := by
  cases m with
  | start =>
    obtain ⟨_, hstart, heq⟩ := Except.exists_of_map_eq_ok h
    cases heq
    exact .single (Store.quiet_initState hstart fun c hc ↦ ⟨hreceives, hc, rfl⟩)
  | add =>
    cases args
    obtain ⟨_, hstate, heq⟩ := Except.exists_of_map_eq_ok h
    cases heq
    exact .single (Store.quiet_putState hstate fun c hc ↦ ⟨hreceives, hc, rfl⟩)
  | read =>
    obtain ⟨_, -, heq⟩ := Except.exists_of_map_eq_ok h
    cases heq
    exact .refl

/-- A call with a receiver leaves the store, or leaves it to the method. -/
theorem CallState.store_onReceiver_cases (c : CallState) {kinds : List ArgKind}
    (effect : Effect kinds) :
    (c.onReceiver kinds effect).2.store = c.store ∨
    ∃ r args result, c.stack.Receives kinds r ∧
      effect c.store r args = .ok (result, (c.onReceiver kinds effect).2.store) := by
  have hreceived := onReceiver_received c kinds effect
  generalize c.onReceiver kinds effect = after at hreceived
  obtain ⟨outcome, c'⟩ := after
  cases hreceived with
  | refused htake => exact .inl rfl
  | failed hdepth htake hfail => exact .inl rfl
  | done hdepth htake hdone hslots hlimit => exact .inr ⟨_, _, _, ⟨_, _, htake⟩, hdone⟩

/-- **An entry point brings in only what it says**, unless it is one of a stream. -/
theorem Entry.quietly_run {entry : Entry} (h : ∀ method, entry ≠ .stream method) (c : CallState) :
    c.store.Quietly adds (entry.Fills c.stack) (entry.run c).2.store := by
  cases entry with
  | random m =>
    show c.store.Quietly adds _ (c.onReceiver m.arguments m.effect).2.store
    rcases c.store_onReceiver_cases m.effect with hsame | ⟨r, args, result, hreceives, hdone⟩
    · rw [hsame]
    · rw [RandomMethod.effect_eq_perform] at hdone
      exact GeneratorAction.quietly_of_perform hdone hreceives
  | stream m => exact absurd rfl (h m)
  | host a =>
    cases a with
    | noop => exact .refl
    | fail e => exact .refl
    | push v => exact c.store_onStack (·.deliver v) ▸ .refl
    | echo receiver kinds =>
      cases receiver
      · exact .refl
      · exact .refl
    | cell className kind m =>
      show c.store.Quietly adds _ (c.onReceiver m.arguments (m.effect className kind)).2.store
      rcases c.store_onReceiver_cases (m.effect className kind) with
        hsame | ⟨r, args, result, hreceives, hdone⟩
      · rw [hsame]
      · exact CellMethod.quietly_of_effect hdone hreceives

/-- A stream that has its sink called has one more failure to remember, or nothing has changed. -/
theorem Store.Slots.callStream {holds : Ref → LoadedClass → HostState → Prop} {i : Instance}
    {stream : Stream} {call : SinkCall} (hs : s.Slots holds) (hobject : s.object r = .inst i)
    (hfails : ∀ text, s.sinkFailure? stream.sink call = some text →
      holds r i.cls ⟨.stream, { stream with lastError := some text }⟩) :
    (s.callStream r i stream call).Slots holds := by
  intro q j state hq hj
  rw [object_callStream hobject] at hq
  cases hfailure : s.sinkFailure? stream.sink call with
  | none =>
    rw [hfailure] at hq
    exact hs q j state hq hj
  | some text =>
    rw [hfailure] at hq
    simp only at hq
    split at hq
    next heq =>
      cases hq
      cases hj
      exact heq ▸ hfails text hfailure
    · exact hs q j state hq hj

end Calls

/-! ### Steps -/

namespace Machine

variable {m : Machine} {cmd : Command} {r : Ref} {call : SinkCall} {n : Nat} {k : Sink}

/-- A call of a stream's method that asks nothing of a sink leaves the store. -/
theorem store_of_through?_eq_none {callee : Method} {method : StreamMethod}
    (hcallee : m.callee? cmd = some callee) (hbody : callee.body = .native (.stream method))
    (h : m.through? cmd = none) : (m.step cmd).1.store = m.store := by
  rcases streamCall?_cases hcallee hbody with
    ⟨e, -, hstore⟩ | ⟨q, i, stream, a, -, -, hshown, hstore⟩
  · exact hstore
  · rw [through?_of_callee? hcallee, hshown] at h
    cases a with
    | print | flush => cases h
    | report => exact hstore

theorem quietly_of_callee? {adds : Object → Prop} {callee : Method}
    (hcallee : m.callee? cmd = some callee) (h : m.through? cmd = none) :
    m.store.Quietly adds (m.Fills cmd) (m.step cmd).1.store := by
  cases hbody : callee.body with
  | bytecode code =>
    have hcall : (callee.call ⟨m.stack, m.store⟩).2.store = m.store := by rw [Method.call, hbody]
    rw [step_of_callee? hcallee]
    show m.store.Quietly adds _ (callee.call ⟨m.stack, m.store⟩).2.store
    rw [hcall]
  | native entry =>
    by_cases hstream : ∃ method, entry = .stream method
    · obtain ⟨method, rfl⟩ := hstream
      rw [store_of_through?_eq_none hcallee hbody h]
    · have hrun : m.store.Quietly adds (entry.Fills m.stack)
          (entry.run ⟨m.stack, m.store⟩).2.store :=
        Entry.quietly_run (not_exists.1 hstream) ⟨m.stack, m.store⟩
      have hcall : (callee.call ⟨m.stack, m.store⟩).2.store =
          (entry.run ⟨m.stack, m.store⟩).2.store := by rw [Method.call, hbody]
      rw [step_of_callee? hcallee]
      show m.store.Quietly adds _ (callee.call ⟨m.stack, m.store⟩).2.store
      rw [hcall]
      refine Store.Quietly.mono (fun r c state hfills ↦ ?_) hrun
      exact .inl ⟨callee, entry, hcallee, hbody, hfills⟩

/-- A class that was made, on a store that may have changed before, or none. -/
theorem quietly_make {adds : Object → Prop} {fills : Ref → LoadedClass → HostState → Prop}
    {outcome : Except Clash (LoadedClass × Store)}
    (h : ∀ {c s}, outcome = .ok (c, s) → m.store.Quietly adds fills s) :
    m.store.Quietly adds fills (m.make outcome).1.store := by
  cases outcome with
  | error e => exact .refl
  | ok made => exact h rfl

/-- **A step that asks nothing of a sink brings in only what its command says.** -/
theorem step_quietly (hdirect : cmd.onSinks = false) (hthrough : m.through? cmd = none) :
    m.store.Quietly cmd.Adds (m.Fills cmd) (m.step cmd).1.store := by
  cases hcallee : m.callee? cmd with
  | some callee => exact quietly_of_callee? hcallee hthrough
  | none =>
    cases cmd with
    | newSink | callSink | takeSink => cases hdirect
    | push | pop | popRef | takeArgs | takeCall | deliver | register =>
      rw [step]
      split <;> exact .refl
    | newThread | registerMany => exact .refl
    | select thread =>
      rw [step, select]
      split <;> exact .refl
    | newText text => exact .single (.allocate m.store rfl)
    | newInstance c state => exact .single (.allocate m.store rfl)
    | openStream c sink => exact .single (.allocate m.store ⟨c, sink, rfl⟩)
    | setField r name v =>
      rw [step]
      split
      · exact .refl
      next i hobject =>
        split
        · exact .refl
        next hset => exact .single (Store.quiet_setField (Store.object_eq_inst_iff.2 hobject) hset)
    | initState r state =>
      rw [step]
      split
      · exact .refl
      next i hobject =>
        split
        · exact .refl
        next i' hinit =>
          obtain ⟨-, rfl⟩ := Instance.initState_eq_ok_iff.1 hinit
          exact .single (Store.quiet_putInstance (Store.object_eq_inst_iff.2 hobject) (.inr rfl))
    | setStatic c name v =>
      rw [step]
      split
      · exact .refl
      next hset => exact .single (Store.quiet_setStatic hset)
    | define name members => exact .single (m.store.quiet_load _)
    | buildPrintStream => exact quietly_make fun h ↦ .single (Store.quiet_of_map_load h)
    | buildRandom seed => exact quietly_make fun h ↦ .single (Store.quiet_of_map_load h)
    | buildSystem streams sink =>
      exact quietly_make fun h ↦ Store.quietly_loadSystem (fun o ho ↦ ho) h
    | builtin b => exact (m.catalog.making_get m.store b).quietly fun o ho ↦ ho
    | builtins =>
      rw [step_builtins]
      exact (m.catalog.making_classes m.store).quietly fun o ho ↦ ho
    | registerBuiltins =>
      exact (m.catalog.making_publish m.store m.registry).quietly fun o ho ↦ ho
    | call c s =>
      have habsent : c.info.method? s = none := hcallee
      simp only [step, habsent]
      exact .refl
    | invoke className s => exact store_call_of_none hcallee ▸ .refl
    | callStream r call =>
      -- without a stream there is nothing to be asked
      have habsent : m.store.stream? r = none := Option.map_eq_none_iff.1 hthrough
      rw [step]
      split
      · exact .refl
      next i hobject =>
        split
        · exact .refl
        next stream hstate =>
          have hstream : m.store.stream? r = some stream := Store.stream?_eq_some_iff.2
            ⟨i, Store.object_eq_inst_iff.2 hobject, Instance.stateAs_eq_ok_iff.1 hstate⟩
          cases habsent.symm.trans hstream

/-- Work on sinks alone leaves the objects. -/
theorem objects_of_onSinks (hdirect : cmd.onSinks = true) :
    (m.step cmd).1.store.objects = m.store.objects := by
  cases cmd with
  | newSink k => rfl
  | callSink sink call =>
    obtain ⟨sinks, hsinks⟩ := m.store.exists_callSink_eq sink call
    show (m.store.callSink sink call).2.objects = _
    rw [hsinks]
  | takeSink sink =>
    obtain ⟨sinks, hsinks⟩ := m.store.exists_takeSink_eq sink
    show (m.store.takeSink sink).2.objects = _
    rw [hsinks]
  | _ => cases hdirect

/-- **What is true of every filled slot stays true in a step**, if it is true of all that the
command brings in and of every stream that has one more failure to remember. -/
theorem slots_step {holds : Ref → LoadedClass → HostState → Prop} (hs : m.store.Slots holds)
    (hadds : ∀ r i state, cmd.Adds (.inst i) → i.state = some state → holds r i.cls state)
    (hfills : ∀ r c state, m.Fills cmd r c state → holds r c state)
    (hfails : ∀ r c stream call text, m.store.sinkFailure? stream.sink call = some text →
      holds r c ⟨.stream, stream⟩ → holds r c ⟨.stream, { stream with lastError := some text }⟩) :
    (m.step cmd).1.store.Slots holds := by
  cases hdirect : cmd.onSinks with
  | true =>
    have hobjects : (m.step cmd).1.store.objects = m.store.objects := objects_of_onSinks hdirect
    intro q j state hq hstate
    rw [Store.object, hobjects] at hq
    exact hs q j state hq hstate
  | false =>
    cases hthrough : m.through? cmd with
    | none => exact (step_quietly hdirect hthrough).slots hadds hfills hs
    | some asked =>
      obtain ⟨i, stream, hobject, hstate, hstore⟩ := exists_store_of_through? hthrough
      rw [hstore]
      exact hs.callStream hobject fun text hfailure ↦
        hfails _ _ _ _ _ hfailure (hs _ i _ hobject hstate)

/-! ### One sink -/

/-- What a command asks of one sink. -/
def asked? (m : Machine) (n : Nat) (cmd : Command) : Option SinkCall :=
  (m.sinkCall? cmd).bind fun (sink, call) ↦ if sink = n then some call else none

/-- What is asked through a stream is asked of its sink. -/
theorem asked?_of_through? {stream : Stream} (h : m.through? cmd = some (r, call))
    (hstream : m.store.stream? r = some stream) :
    m.asked? n cmd = if stream.sink = n then some call else none := by
  have hcall : m.sinkCall? cmd = some (stream.sink, call) := by
    cases cmd with
    | callSink sink call' => cases h
    | _ => simp only [sinkCall?, h, Option.bind_some, hstream, Option.map_some]
  rw [asked?, hcall]
  rfl

theorem asked?_of_through?_eq_none (hdirect : cmd.onSinks = false) (h : m.through? cmd = none) :
    m.asked? n cmd = none := by
  have hcall : m.sinkCall? cmd = none := by
    cases cmd with
    | callSink sink call => cases hdirect
    | _ => simp only [sinkCall?, h, Option.bind_none]
  rw [asked?, hcall]
  rfl

/-- A command that calls a method asks nothing of sinks directly. -/
theorem onSinks_of_callee? {callee : Method} (h : m.callee? cmd = some callee) :
    cmd.onSinks = false := by
  cases cmd with
  | call | invoke => rfl
  | _ => cases h

/-- A call asks the sink of its stream what it shows. -/
theorem asked?_of_streamCall? {event : StreamEvent} {stream : Stream}
    (h : m.streamCall? cmd = some (r, event)) (hstream : m.store.stream? r = some stream) :
    m.asked? n cmd = if stream.sink = n then event.sinkCall? else none := by
  obtain ⟨callee, method, hcallee, -, -⟩ := exists_callee_of_streamCall? h
  have hthrough : m.through? cmd = event.sinkCall?.map (r, ·) := by
    rw [through?_of_callee? hcallee, h]
    rfl
  cases hevent : event.sinkCall? with
  | none =>
    rw [hevent] at hthrough
    rw [asked?_of_through?_eq_none (onSinks_of_callee? hcallee) hthrough, ite_self]
  | some call =>
    rw [hevent] at hthrough
    exact asked?_of_through? hthrough hstream

theorem asked?_callSink (m : Machine) (n sink : Nat) (call : SinkCall) :
    m.asked? n (.callSink sink call) = if sink = n then some call else none :=
  rfl

theorem asked?_takeSink (m : Machine) (n sink : Nat) : m.asked? n (.takeSink sink) = none :=
  rfl

/-- What a sink becomes through a command that works on sinks directly. -/
theorem getElem?_sinks_of_onSinks (hk : m.store.sinks[n]? = some k) (hdirect : cmd.onSinks = true) :
    (m.step cmd).1.store.sinks[n]? =
      some (if cmd.empties n then k.take.2 else k.after (m.asked? n cmd)) := by
  cases cmd with
  | newSink k' =>
    have hn : n < m.store.sinks.size := (Array.getElem?_eq_some_iff.1 hk).1
    show (m.store.sinks.push k')[n]? = _
    rw [Array.getElem?_push_lt hn, ← Array.getElem?_eq_getElem hn, hk]
    rfl
  | callSink sink call =>
    have hempties : (Command.callSink sink call).empties n = false := rfl
    show (m.store.callSink sink call).2.sinks[n]? = _
    rw [Store.getElem?_sinks_callSink, hk, hempties, asked?_callSink]
    by_cases hsink : n = sink
    · rw [if_pos hsink, if_pos hsink.symm]
      rfl
    · rw [if_neg hsink, if_neg (Ne.symm hsink)]
      rfl
  | takeSink sink =>
    have hempties : (Command.takeSink sink).empties n = decide (sink = n) := rfl
    show (m.store.takeSink sink).2.sinks[n]? = _
    rw [Store.getElem?_sinks_takeSink, hk, hempties, asked?_takeSink]
    by_cases hsink : n = sink
    · rw [if_pos hsink, decide_eq_true hsink.symm]
      rfl
    · rw [if_neg hsink, decide_eq_false (Ne.symm hsink)]
      rfl
  | _ => cases hdirect

theorem empties_of_onSinks_eq_false (hdirect : cmd.onSinks = false) : cmd.empties n = false := by
  cases cmd with
  | takeSink sink => cases hdirect
  | _ => rfl

/-- **A sink is changed by what it is asked and by being emptied**, and by nothing else. -/
theorem getElem?_sinks_step (hk : m.store.sinks[n]? = some k) :
    (m.step cmd).1.store.sinks[n]? =
      some (if cmd.empties n then k.take.2 else k.after (m.asked? n cmd)) := by
  cases hdirect : cmd.onSinks with
  | true => exact getElem?_sinks_of_onSinks hk hdirect
  | false =>
    rw [empties_of_onSinks_eq_false hdirect]
    cases hthrough : m.through? cmd with
    | none =>
      rw [(step_quietly hdirect hthrough).sinks_eq, asked?_of_through?_eq_none hdirect hthrough, hk]
      rfl
    | some asked =>
      obtain ⟨r, call⟩ := asked
      obtain ⟨i, stream, hobject, hstate, hstore⟩ := exists_store_of_through? hthrough
      have hstream : m.store.stream? r = some stream :=
        Store.stream?_eq_some_iff.2 ⟨i, hobject, hstate⟩
      -- what is asked through a stream is asked of its own sink, whichever stream it is
      rw [hstore, Store.sinks_callStream, Store.getElem?_sinks_callSink,
        asked?_of_through? hthrough hstream, hk]
      by_cases hsink : n = stream.sink
      · rw [if_pos hsink, if_pos hsink.symm]
        rfl
      · rw [if_neg hsink, if_neg (Ne.symm hsink)]
        rfl

/-- A step does not change how a sink fails. -/
theorem failure_step (m : Machine) (cmd : Command) (n : Nat) (k : Sink) :
    (if cmd.empties n then k.take.2 else k.after (m.asked? n cmd)).failure = k.failure := by
  split
  · rfl
  · exact k.failure_after _

end Machine

end HostMethods
