import HostMethods.Proofs.Call.Discipline
import HostMethods.Proofs.Run.Frame
import HostMethods.Proofs.Store.Quiet
import HostMethods.Proofs.Store.Streams
import HostMethods.Proofs.Text.Units

/-!
# What a step asks of the sinks

A call of a method of streams shows what it does by what lies on the stack before it and after it
(`Machine.streamCall?`): it printed a text, it flushed, or it reported. A successful call does what
it shows, and a failed one does nothing (`Machine.streamCall?_cases`).

So it can be said of every command what it asks of which sink through which stream
(`Machine.through?`), be it a call from the guest or the host's own. A command that asks nothing
changes no sink, and brings into the store only what it says (`Machine.step_quietly`); one that asks
something does nothing else (`Machine.exists_store_of_through?`).
-/

namespace HostMethods

/-! ### Events -/

/-- What a successful call of a method of a stream shows. -/
inductive StreamEvent
  /-- A text was printed. -/
  | printed (text : String)
  | flushed
  /-- The answer to the question whether anything has failed. -/
  | reported (v : Value)
  deriving DecidableEq

namespace StreamEvent

/-- What the sink is asked when the event occurs: a text is one write of all its bytes, a flush is
one flush, and a report needs no sink. -/
def sinkCall? : StreamEvent → Option SinkCall
  | printed text => some (.write text.toUTF8)
  | flushed => some .flush
  | reported _ => none

/-- The event of an action that goes through on a stream. -/
def ofAction (stream : Stream) : StreamAction → StreamEvent
  | .print text => printed text
  | .flush => flushed
  | .report => reported (ArgKind.boolean.write stream.hasFailed)

end StreamEvent

/-- The text that is printed for a string argument. -/
def Store.printedText? (s : Store) : Value → Option String
  | .null => some "null"
  | .ref r => (s.object r).text?
  | _ => none

/-- What a successful call shows: the receiver and the argument are on the stack before it, and the
result is on top of the stack after it. The texts are said without the code that prints them: the
number for a character means one by itself (`ArgKind.decodedChar`). -/
def StreamMethod.event? (s : Store) :
    StreamMethod → List Value → List Value → Option (Ref × StreamEvent)
  | printChar, .int i :: .ref r :: _, _ =>
    some (r, .printed (String.singleton (ArgKind.decodedChar i)))
  | printString, v :: .ref r :: _, _ =>
    (s.printedText? v).map fun text ↦ (r, .printed text)
  | printlnString, v :: .ref r :: _, _ =>
    (s.printedText? v).map fun text ↦ (r, .printed (text ++ "\n"))
  | printlnInt, .int i :: .ref r :: _, _ => some (r, .printed (toString i.toInt ++ "\n"))
  | println, .ref r :: _, _ => some (r, .printed "\n")
  | flush, .ref r :: _, _ => some (r, .flushed)
  | checkError, .ref r :: _, v :: _ => some (r, .reported v)
  | _, _, _ => none

namespace Machine

/-- What a command shows of a stream, and of which: it has to call a method of streams, by whatever
class and name, and the call has to succeed. -/
def streamCall? (m : Machine) (cmd : Command) : Option (Ref × StreamEvent) :=
  match (m.callee? cmd).map Method.body, (m.step cmd).2 with
  | some (.native (.stream method)), .done =>
    method.event? m.store m.stack.slots (m.step cmd).1.stack.slots
  | _, _ => none

/-- What a command asks through a stream, and through which. The host may use a stream's sink
without a call. -/
def through? (m : Machine) : Command → Option (Ref × SinkCall)
  | .callStream r call => (m.store.stream? r).map fun _ ↦ (r, call)
  | cmd => (m.streamCall? cmd).bind fun (r, event) ↦ event.sinkCall?.map (r, ·)

/-- What a command asks of a sink, and of which. -/
def sinkCall? (m : Machine) : Command → Option (Nat × SinkCall)
  | .callSink sink call => some (sink, call)
  | cmd => (m.through? cmd).bind fun (r, call) ↦ (m.store.stream? r).map fun st ↦ (st.sink, call)

end Machine

/-! ### What a call shows -/

theorem ArgKind.eq_of_read_char {v : Value} {c : Char} (h : ArgKind.char.read v = .ok c) :
    ∃ i, v = .int i ∧ c = decodedChar i := by
  cases v <;> cases h
  exact ⟨_, rfl, charOfSlot_eq_decodedChar _⟩

/-- A string argument prints as the text that belongs to its slot. -/
theorem Store.printedText?_of_textOf {s : Store} {v : Value} {arg : Option Ref} {text : String}
    (hread : ArgKind.nullable.read v = .ok arg) (htext : StreamMethod.textOf s arg = .ok text) :
    s.printedText? v = some text := by
  cases v <;> cases hread
  case null =>
    cases htext
    rfl
  case ref r =>
    have hstring : s.stringAt r = .ok text := htext
    rw [stringAt] at hstring
    rw [printedText?]
    split at hstring <;> cases hstring
    next hobject =>
      rw [hobject]
      rfl

namespace StreamMethod

/-- The stack shows what the action does. -/
theorem event?_eq {s : Store} {m : StreamMethod} {args : Args m.arguments} {vs : List Value}
    {a : StreamAction} (hread : args.ReadFrom vs) (haction : action s m args = .ok a) (r : Ref)
    (rest : List Value) (i : Instance) (stream : Stream) :
    m.event? s (vs.reverse ++ .ref r :: rest) ((a.perform s r i stream).1.toList ++ rest) =
      some (r, .ofAction stream a) := by
  cases m with
  | println | flush | checkError =>
    cases args
    obtain rfl : vs = [] := hread
    cases haction
    rfl
  | printChar =>
    obtain _ | ⟨c, later⟩ := args
    cases later
    obtain ⟨v, _, rfl, hc, rfl⟩ := hread
    obtain ⟨i, rfl, rfl⟩ := ArgKind.eq_of_read_char hc
    cases haction
    rfl
  | printlnInt =>
    obtain _ | ⟨n, later⟩ := args
    cases later
    obtain ⟨v, _, rfl, hn, rfl⟩ := hread
    cases v <;> cases hn
    cases haction
    rfl
  | printString | printlnString =>
    obtain _ | ⟨arg, later⟩ := args
    cases later
    obtain ⟨v, _, rfl, harg, rfl⟩ := hread
    obtain ⟨text, htext, rfl⟩ := Except.exists_of_map_eq_ok haction
    have hprinted := Store.printedText?_of_textOf harg htext
    show (s.printedText? v).map _ = _
    rw [hprinted]
    rfl

/-- A successful call is an action on the stream behind its receiver. -/
theorem exists_action_of_effect {s s' : Store} {r : Ref} {m : StreamMethod}
    {args : Args m.arguments} {result : Option Value} (h : m.effect s r args = .ok (result, s')) :
    ∃ i stream a, s.stateOf r ClassName.printStream .stream = .ok (i, stream) ∧
      action s m args = .ok a ∧ a.perform s r i stream = (result, s') := by
  rw [effect] at h
  split at h
  · cases h
  next i stream hstate =>
    split at h
    · cases h
    next a haction => exact ⟨i, stream, a, hstate, haction, Except.ok.inj h⟩

end StreamMethod

/-- What an entry point of streams runs. -/
theorem Method.call_of_stream {callee : Method} {method : StreamMethod}
    (hbody : callee.body = .native (.stream method)) (c : CallState) :
    callee.call c = c.onReceiver method.arguments method.effect := by
  rw [call, hbody]
  rfl

namespace Machine

variable {m : Machine} {cmd : Command} {r : Ref} {call : SinkCall}

/-- A step that calls a method with a receiver goes one of the ways that such calls can go. -/
theorem exists_received_of_callee? {callee : Method} {kinds : List ArgKind}
    {effect : CallState.Effect kinds} (hcallee : m.callee? cmd = some callee)
    (hrun : ∀ c, callee.call c = c.onReceiver kinds effect) :
    ∃ outcome c, CallState.Received ⟨m.stack, m.store⟩ kinds effect outcome c ∧
      m.step cmd = (m.resume c, .ofCall outcome) := by
  obtain ⟨outcome, c, hreceived, hcall⟩ := exists_received hrun m
  refine ⟨outcome, c, hreceived, ?_⟩
  rw [step_of_callee? hcallee, hcall]

/-- **A call of a method of streams either fails and leaves the store, or is an action on the stream
behind its receiver, and shows which.** -/
theorem streamCall?_cases {callee : Method} {method : StreamMethod}
    (hcallee : m.callee? cmd = some callee) (hbody : callee.body = .native (.stream method)) :
    (∃ e, (m.step cmd).2 = .callError e ∧ (m.step cmd).1.store = m.store) ∨
    ∃ q i stream a, (m.step cmd).2 = .done ∧
      m.store.stateOf q ClassName.printStream .stream = .ok (i, stream) ∧
      m.streamCall? cmd = some (q, .ofAction stream a) ∧
      (m.step cmd).1.store = (a.perform m.store q i stream).2 := by
  obtain ⟨outcome, c, hreceived, hstep⟩ :=
    exists_received_of_callee? hcallee (Method.call_of_stream hbody)
  cases hreceived with
  | @refused e stack htake =>
    refine .inl ⟨e, ?_⟩
    rw [hstep]
    exact ⟨rfl, rfl⟩
  | @failed q args e hdepth htake hfail =>
    refine .inl ⟨e, ?_⟩
    rw [hstep]
    exact ⟨rfl, rfl⟩
  | @done q args result store stack hdepth htake hdone hslots hlimit =>
    obtain ⟨i, stream, a, hstate, haction, hperform⟩ := StreamMethod.exists_action_of_effect hdone
    have hcurrent : m.current < m.threads.size :=
      current_lt_of_depth_pos (Nat.lt_of_lt_of_le (Nat.succ_pos _) hdepth)
    refine .inr ⟨q, i, stream, a, ?_, hstate, ?_, ?_⟩
    · rw [hstep]
      rfl
    · obtain ⟨vs, hread, hbefore⟩ := OperandStack.slots_of_takeCall htake
      simp only [streamCall?, hcallee, hbody, hstep, Option.map_some, Reply.ofCall]
      rw [stack_resume hcurrent, hbefore, hslots]
      have hresult : result = (a.perform m.store q i stream).1 := by rw [hperform]
      rw [hresult]
      exact StreamMethod.event?_eq hread haction q _ i stream
    · rw [hstep, hperform]
      rfl

/-- Only a call of a method of streams shows something of a stream. -/
theorem exists_callee_of_streamCall? {event : StreamEvent}
    (h : m.streamCall? cmd = some (r, event)) :
    ∃ callee method, m.callee? cmd = some callee ∧ callee.body = .native (.stream method) ∧
      (m.step cmd).2 = .done := by
  rw [streamCall?] at h
  split at h
  next method hbody hdone =>
    obtain ⟨callee, hcallee, hbody⟩ := Option.map_eq_some_iff.1 hbody
    exact ⟨callee, method, hcallee, hbody, hdone⟩
  · cases h

/-- **A call does what it shows.** -/
theorem exists_action_of_streamCall? {event : StreamEvent}
    (h : m.streamCall? cmd = some (r, event)) :
    ∃ i stream a, m.store.stateOf r ClassName.printStream .stream = .ok (i, stream) ∧
      event = .ofAction stream a ∧ (m.step cmd).1.store = (a.perform m.store r i stream).2 := by
  obtain ⟨callee, method, hcallee, hbody, hdone⟩ := exists_callee_of_streamCall? h
  rcases streamCall?_cases hcallee hbody with
    ⟨e, hfailed, -⟩ | ⟨q, i, stream, a, -, hstate, hshown, hstore⟩
  · cases hdone.symm.trans hfailed
  · cases h.symm.trans hshown
    exact ⟨i, stream, a, hstate, rfl, hstore⟩

/-- Every call that succeeds shows something. -/
theorem isSome_streamCall?_of_done {callee : Method} {method : StreamMethod}
    (hcallee : m.callee? cmd = some callee) (hbody : callee.body = .native (.stream method))
    (hdone : (m.step cmd).2 = .done) : (m.streamCall? cmd).isSome := by
  rcases streamCall?_cases hcallee hbody with ⟨e, hfailed, -⟩ | ⟨q, i, stream, a, -, -, hshown, -⟩
  · cases hdone.symm.trans hfailed
  · rw [hshown]
    rfl

/-- What is called is no command of the host's own. -/
theorem through?_of_callee? {callee : Method} (h : m.callee? cmd = some callee) :
    m.through? cmd = (m.streamCall? cmd).bind fun (r, event) ↦ event.sinkCall?.map (r, ·) := by
  cases cmd with
  | call | invoke => rfl
  | _ => cases h

/-- **A command that asks something through a stream does this and nothing else.** -/
theorem exists_store_of_through? (h : m.through? cmd = some (r, call)) :
    ∃ i stream, m.store.object r = .inst i ∧ i.state = some ⟨.stream, stream⟩ ∧
      (m.step cmd).1.store = m.store.callStream r i stream call := by
  cases hcallee : m.callee? cmd with
  | some callee =>
    rw [through?_of_callee? hcallee, Option.bind_eq_some_iff] at h
    obtain ⟨⟨q, event⟩, hshown, hcall⟩ := h
    obtain ⟨call', hevent, heq⟩ := Option.map_eq_some_iff.1 hcall
    cases heq
    obtain ⟨i, stream, a, hstate, rfl, hstore⟩ := exists_action_of_streamCall? hshown
    obtain ⟨hobject, -, hcontent⟩ := Store.stateOf_eq_ok_iff.1 hstate
    refine ⟨i, stream, hobject, hcontent, hstore.trans ?_⟩
    cases a <;> cases hevent <;> rfl
  | none =>
    have hshown : m.streamCall? cmd = none := by
      rw [streamCall?, hcallee]
      rfl
    cases cmd with
    | callStream q call' =>
      obtain ⟨stream, hstream, heq⟩ := Option.map_eq_some_iff.1 h
      cases heq
      obtain ⟨i, hobject, hstate⟩ := Store.stream?_eq_some_iff.1 hstream
      refine ⟨i, stream, hobject, hstate, ?_⟩
      have hinstance := Store.object_eq_inst_iff.1 hobject
      have hcontent := Instance.stateAs_eq_ok_iff.2 hstate
      simp only [step, hinstance, hcontent]
    | _ => simp only [through?, hshown, Option.bind_none, reduceCtorEq] at h

end Machine

end HostMethods
