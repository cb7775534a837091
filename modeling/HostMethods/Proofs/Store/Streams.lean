import HostMethods.Proofs.Store.Evolution

/-!
# Sinks and the streams that write to them

A sink answers a call by its behaviour and its history, so what becomes of a call is known before it
is made (`Store.sinkFailure?`). The call itself lengthens the history of the one sink, keeps bytes
if it is a write that succeeds (`Sink.kept_perform`), and leaves every other sink alone
(`Store.getElem?_sinks_callSink`).

A stream that has its sink called remembers a failure in place of any earlier one
(`Store.stream?_callStream`); that is all that a call of a sink can change among the objects.
-/

namespace HostMethods

/-! ### Calls of one sink -/

/-- The bytes that a call leaves behind in a sink that does not fail. -/
def SinkCall.bytes : SinkCall → ByteArray
  | write bytes => bytes
  | flush => ByteArray.empty

namespace Sink

variable (k : Sink) (call : SinkCall)

@[simp]
theorem failure_perform : (k.perform call).2.failure = k.failure := by
  unfold perform
  split
  · rfl
  · split <;> rfl

theorem perform_fst :
    (k.perform call).1 =
      match k.failure k.history call with
      | none => .ok ()
      | some text => .error text := by
  unfold perform
  cases k.failure k.history call with
  | some text => rfl
  | none => cases call <;> rfl

/-- **A call that succeeds leaves its bytes behind the others.** -/
theorem kept_perform (h : k.failure k.history call = none) :
    (k.perform call).2.kept = k.kept ++ call.bytes := by
  unfold perform
  rw [h]
  cases call with
  | write bytes => rfl
  | flush => exact ByteArray.append_empty.symm

end Sink

namespace Store

variable {s : Store} {r q : Ref} {i : Instance} {stream : Stream} {call : SinkCall} {n m : Nat}

/-- How a sink is going to fail, if it is asked this now. -/
def sinkFailure? (s : Store) (sink : Nat) (call : SinkCall) : Option String :=
  s.sinks[sink]?.bind fun k ↦ k.failure k.history call

theorem callSink_fst (s : Store) (n : Nat) (call : SinkCall) :
    (s.callSink n call).1 =
      match s.sinkFailure? n call with
      | none => .ok ()
      | some text => .error text := by
  rw [callSink, sinkFailure?]
  cases s.sinks[n]? with
  | none => rfl
  | some k => exact k.perform_fst call

theorem getElem?_exchange {sinks : Array Sink} {k : Sink} (hk : sinks[n]? = some k)
    (f : Sink → Sink) (m : Nat) :
    (sinks.setIfInBounds n (f k))[m]? = if m = n then sinks[m]?.map f else sinks[m]? := by
  have hn : n < sinks.size := (Array.getElem?_eq_some_iff.1 hk).1
  split
  next heq => rw [heq, Array.getElem?_setIfInBounds_self_of_lt hn, hk, Option.map_some]
  next hne => rw [Array.getElem?_setIfInBounds_ne (Ne.symm hne)]

theorem getElem?_of_absent {sinks : Array Sink} (hk : sinks[n]? = none) (f : Sink → Sink)
    (m : Nat) :
    sinks[m]? = if m = n then sinks[m]?.map f else sinks[m]? := by
  split
  next heq => rw [heq, hk, Option.map_none]
  · rfl

/-- **A call changes the sink that it is for, and no other.** -/
theorem getElem?_sinks_callSink (s : Store) (n m : Nat) (call : SinkCall) :
    (s.callSink n call).2.sinks[m]? =
      if m = n then s.sinks[m]?.map fun k ↦ (k.perform call).2 else s.sinks[m]? := by
  rw [callSink]
  cases hk : s.sinks[n]? with
  | none => exact getElem?_of_absent hk _ m
  | some k => exact getElem?_exchange hk (fun k ↦ (k.perform call).2) m

/-- Taking the bytes of a sink changes this sink, and no other. -/
theorem getElem?_sinks_takeSink (s : Store) (n m : Nat) :
    (s.takeSink n).2.sinks[m]? =
      if m = n then s.sinks[m]?.map fun k ↦ k.take.2 else s.sinks[m]? := by
  rw [takeSink]
  cases hk : s.sinks[n]? with
  | none => exact getElem?_of_absent hk _ m
  | some k => exact getElem?_exchange hk (·.take.2) m

/-! ### The stream behind an object -/

/-- The stream behind a reference, if there is one. -/
def stream? (s : Store) (r : Ref) : Option Stream :=
  (s.instance? r).bind fun i ↦ i.state.bind (·.as? .stream)

theorem stream?_eq_some_iff :
    s.stream? r = some stream ↔
      ∃ i, s.object r = .inst i ∧ i.state = some ⟨.stream, stream⟩ := by
  rw [stream?, Option.bind_eq_some_iff]
  refine exists_congr fun i ↦ ?_
  rw [object_eq_inst_iff, Option.bind_eq_some_iff]
  refine and_congr_right fun _ ↦ ?_
  constructor
  · rintro ⟨state, hstate, hcontent⟩
    rw [hstate, HostState.as?_eq_some_iff.1 hcontent]
  · intro hstate
    exact ⟨_, hstate, HostState.as?_mk _ _⟩

theorem stream?_of_stateOf {className : String}
    (h : s.stateOf r className .stream = .ok (i, stream)) : s.stream? r = some stream := by
  obtain ⟨hobject, -, hstate⟩ := stateOf_eq_ok_iff.1 h
  exact stream?_eq_some_iff.2 ⟨i, hobject, hstate⟩

/-- What a stream asks of its sink is asked of the sink alone. -/
theorem sinks_callStream (s : Store) (r : Ref) (i : Instance) (stream : Stream) (call : SinkCall) :
    (s.callStream r i stream call).sinks = (s.callSink stream.sink call).2.sinks := by
  rw [callStream]
  split
  next heq => rw [heq]
  next heq =>
    rw [heq]
    rfl

/-- A failure is put into the stream, and nothing else is put anywhere. -/
theorem object_callStream (hobject : s.object r = .inst i) (q : Ref) :
    (s.callStream r i stream call).object q =
      match s.sinkFailure? stream.sink call with
      | none => s.object q
      | some text =>
        if q = r then
          .inst { i with state := some ⟨.stream, { stream with lastError := some text }⟩ }
        else s.object q := by
  have hfst := s.callSink_fst stream.sink call
  obtain ⟨sinks, hsinks⟩ := s.exists_callSink_eq stream.sink call
  rw [callStream]
  cases hcall : s.callSink stream.sink call with
  | mk outcome t =>
    rw [hcall] at hfst hsinks
    cases hfailure : s.sinkFailure? stream.sink call with
    | none =>
      rw [hfailure] at hfst
      simp only at hfst hsinks
      subst hfst hsinks
      rfl
    | some text =>
      rw [hfailure] at hfst
      simp only at hfst hsinks
      subst hfst hsinks
      have hobject' : Store.object { s with sinks } r = .inst i := hobject
      exact object_putInstance hobject' _

end Store

end HostMethods
