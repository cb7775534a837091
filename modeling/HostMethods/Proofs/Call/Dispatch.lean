import HostMethods.Machine
import HostMethods.Proofs.Call.Builtin
import HostMethods.Proofs.Class.Contents
import HostMethods.Proofs.Descriptor.Unambiguous
import HostMethods.Proofs.Registry.History
import Mathlib.Data.List.Find

/-!
# Which method a call reaches

A call names a class, a method and a descriptor text. `Registry.dispatch_exact` says which method
that is: the descriptor is read, and the method is the one that the first class of the name accepted
with the name and the signature that was read. Classes and calls meet in the text of the signature
alone, so it rests on different signatures having different texts, and on both tables, of classes
and of a class's methods, keeping the first entry.

The call itself then goes one of three ways, and dispatch reports two errors of its own
(`CallError.isRefusal`). Only a method that a host makes in order to fail can report the same
(`Entry.eq_fail_of_isRefusal`), so otherwise these errors say that nothing has been called.
-/

namespace HostMethods

/-! ### Errors of dispatch -/

/-- Whether an error says that there was no host method to be called. -/
def CallError.isRefusal : CallError → Bool
  | violated (.unknownMethod _ _) | violated (.noEntryPoint _) => true
  | _ => false

/-- An error that a method finds by itself does not say that there is no method. -/
theorem CallError.isRefusal_of_isOwn {e : CallError} (h : e.isOwn = true) :
    e.isRefusal = false := by
  unfold isOwn at h
  split at h <;> trivial

/-- Neither does an error that comes from taking arguments. -/
theorem CallError.isRefusal_of_isOfTaking {e : CallError} (h : e.isOfTaking = true) :
    e.isRefusal = false := by
  unfold isOfTaking at h
  split at h <;> trivial

namespace OperandStack

variable {s t : OperandStack} {e : CallError}

theorem isRefusal_of_takeArgs {ks : List ArgKind} (h : s.takeArgs ks = (.error e, t)) :
    e.isRefusal = false :=
  CallError.isRefusal_of_isOfTaking (isOfTaking_of_takeArgs h)

theorem isRefusal_of_takeCall {ks : List ArgKind} (h : s.takeCall ks = (.error e, t)) :
    e.isRefusal = false :=
  CallError.isRefusal_of_isOfTaking (isOfTaking_of_takeCall h)

theorem isRefusal_of_deliver {v : Value} (h : s.deliver v = (.error e, t)) :
    e.isRefusal = false := by
  rw [deliver] at h
  split at h <;> cases h
  rfl

theorem isRefusal_of_deliverAll {vs : List Value} (h : s.deliverAll vs = (.error e, t)) :
    e.isRefusal = false := by
  induction vs generalizing s with
  | nil => cases h
  | cons v vs ih =>
    rw [deliverAll] at h
    split at h
    next hdeliver =>
      cases h
      exact isRefusal_of_deliver hdeliver
    · exact ih h

end OperandStack

namespace CallState

variable {c c' : CallState} {e : CallError}

/-- A method with a receiver reports what taking its arguments reports, or an error of its own. -/
theorem isRefusal_of_onReceiver {kinds : List ArgKind} {effect : Effect kinds}
    (heffect : ∀ {s r args e}, effect s r args = .error e → e.isOwn = true)
    (h : c.onReceiver kinds effect = (.error e, c')) : e.isRefusal = false := by
  have hreceived := onReceiver_received c kinds effect
  rw [h] at hreceived
  cases hreceived with
  | refused htake => exact OperandStack.isRefusal_of_takeCall htake
  | failed hdepth htake hfail => exact CallError.isRefusal_of_isOwn (heffect hfail)

/-- A step on the stack alone reports what it reports on the stack. -/
theorem exists_of_onStack {step : OperandStack → Except CallError Unit × OperandStack}
    (h : c.onStack step = (.error e, c')) : ∃ t, step c.stack = (.error e, t) := by
  cases hstep : step c.stack with
  | mk outcome t =>
    rw [onStack, hstep] at h
    cases h
    exact ⟨t, rfl⟩

end CallState

theorem CellMethod.isOwn_of_effect_error {className kind : String} {m : CellMethod} {s : Store}
    {r : Ref} {args : Args m.arguments} {e : CallError}
    (h : m.effect className kind s r args = .error e) : e.isOwn = true := by
  cases m with
  | start => exact Store.isOwn_of_initState_error (Except.eq_error_of_map h)
  | add =>
    cases args
    exact Store.isOwn_of_stateOf_error (Except.eq_error_of_map h)
  | read => exact Store.isOwn_of_stateOf_error (Except.eq_error_of_map h)

/-- An action that takes arguments and pushes them back reports what the stack reports. -/
theorem HostAction.isRefusal_of_echo {receiver : Bool} {kinds : List ArgKind} {c c' : CallState}
    {e : CallError} (h : (echo receiver kinds).run c = (.error e, c')) : e.isRefusal = false := by
  cases receiver with
  | false =>
    rw [run] at h
    obtain ⟨t, hstep⟩ := CallState.exists_of_onStack h
    split at hstep
    next htake =>
      cases hstep
      exact OperandStack.isRefusal_of_takeArgs htake
    · exact OperandStack.isRefusal_of_deliverAll hstep
  | true =>
    rw [run] at h
    obtain ⟨t, hstep⟩ := CallState.exists_of_onStack h
    split at hstep
    next htake =>
      cases hstep
      exact OperandStack.isRefusal_of_takeCall htake
    · exact OperandStack.isRefusal_of_deliverAll hstep

/-- **Only dispatch says that there is no method to be called**, apart from methods that a host
makes in order to fail with this very error. -/
theorem Entry.eq_fail_of_isRefusal {entry : Entry} {c c' : CallState} {e : CallError}
    (h : entry.run c = (.error e, c')) (he : e.isRefusal = true) : entry = .host (.fail e) := by
  have hcontra : e.isRefusal ≠ false := by
    rw [he]
    exact Bool.noConfusion
  cases entry with
  | random m =>
    have hrun : c.onReceiver m.arguments m.effect = (.error e, c') := h
    refine absurd (CallState.isRefusal_of_onReceiver (fun hfail ↦ ?_) hrun) hcontra
    rw [RandomMethod.effect_eq_perform] at hfail
    exact GeneratorAction.isOwn_of_perform_error hfail
  | stream m =>
    have hrun : c.onReceiver m.arguments m.effect = (.error e, c') := h
    exact absurd (CallState.isRefusal_of_onReceiver StreamMethod.isOwn_of_effect_error hrun)
      hcontra
  | host a =>
    cases a with
    | noop => cases h
    | push v =>
      have hrun : c.onStack (·.deliver v) = (.error e, c') := h
      obtain ⟨t, hstep⟩ := CallState.exists_of_onStack hrun
      exact absurd (OperandStack.isRefusal_of_deliver hstep) hcontra
    | fail e' =>
      cases h
      rfl
    | echo receiver kinds => exact absurd (HostAction.isRefusal_of_echo h) hcontra
    | cell className kind m =>
      have hrun : c.onReceiver m.arguments (m.effect className kind) = (.error e, c') := h
      exact absurd (CallState.isRefusal_of_onReceiver CellMethod.isOwn_of_effect_error hrun)
        hcontra

/-! ### The three ways of a call -/

namespace Machine

/-- Putting the stack of the selected thread back changes nothing. -/
theorem setStack_stack (m : Machine) : m.setStack m.stack = m := by
  have hthreads : m.threads.setIfInBounds m.current m.stack = m.threads := by
    apply Array.ext_getElem?
    intro thread
    rcases Nat.lt_or_ge m.current m.threads.size with hlt | hge
    · have hstack : m.stack = m.threads[m.current] := by
        rw [stack, Array.getElem?_eq_getElem hlt, Option.getD_some]
      by_cases hthread : m.current = thread
      · rw [← hthread, Array.getElem?_setIfInBounds_self_of_lt hlt, hstack,
          Array.getElem?_eq_getElem hlt]
      · rw [Array.getElem?_setIfInBounds_ne hthread]
    · rw [Array.setIfInBounds_eq_of_size_le hge]
  rw [setStack, hthreads]

/-- A call that leaves the stack and the store leaves the machine. -/
theorem call_of_unchanged {m : Machine} {outcome : Except CallError Unit}
    {run : CallState → Except CallError Unit × CallState}
    (h : run ⟨m.stack, m.store⟩ = (outcome, ⟨m.stack, m.store⟩)) :
    m.call run = (outcome, m) := by
  rw [call, h]
  exact congrArg (fun m' ↦ (outcome, { m' with store := m.store })) m.setStack_stack

end Machine

namespace Registry

variable {r : Registry} {className : String} {s : Selector}

/-- How a call through the registry goes on a machine. Without a method, or with one that the host
does not implement, it fails and the machine is as before. Otherwise it is a call of the method's
entry point. The two errors of dispatch come from nowhere else, except from a method that fails with
one of them on purpose. -/
structure CallLaw (r : Registry) (className : String) (s : Selector) (m : Machine) : Prop where
  of_none : r.resolve? className s = none →
    m.call (r.call className s) = (.error (.violated (.unknownMethod className s)), m)
  of_bytecode : ∀ method code, r.resolve? className s = some method →
    method.body = .bytecode code →
    m.call (r.call className s) = (.error (.violated (.noEntryPoint s)), m)
  of_native : ∀ method entry, r.resolve? className s = some method →
    method.body = .native entry → m.call (r.call className s) = m.call entry.run
  unknownMethod_iff : ∀ className' s',
    (m.call (r.call className s)).1 = .error (.violated (.unknownMethod className' s')) ↔
      (r.resolve? className s = none ∧ className' = className ∧ s' = s) ∨
      ∃ method, r.resolve? className s = some method ∧
        method.body = .native (.host (.fail (.violated (.unknownMethod className' s'))))
  noEntryPoint_iff : ∀ s',
    (m.call (r.call className s)).1 = .error (.violated (.noEntryPoint s')) ↔
      (∃ method code, r.resolve? className s = some method ∧ method.body = .bytecode code ∧
        s' = s) ∨
      ∃ method, r.resolve? className s = some method ∧
        method.body = .native (.host (.fail (.violated (.noEntryPoint s'))))

/-- A method that is found has the selector that it was looked up by. -/
theorem selector_of_resolve? {method : Method} (h : r.resolve? className s = some method) :
    method.selector = s := by
  obtain ⟨c, -, hmethod⟩ := Option.bind_eq_some_iff.1 h
  have hfound := List.find?_some hmethod
  exact of_decide_eq_true hfound

/-- An entry point reports an error of dispatch exactly if it is there to do so. -/
theorem call_eq_refusal_iff {m : Machine} {entry : Entry} {e : CallError}
    (he : e.isRefusal = true) :
    (m.call entry.run).1 = .error e ↔ entry = .host (.fail e) := by
  constructor
  · intro h
    exact Entry.eq_fail_of_isRefusal (Prod.ext h rfl) he
  · rintro rfl
    rfl

theorem call_of_resolve?_eq_none (h : r.resolve? className s = none) (m : Machine) :
    m.call (r.call className s) = (.error (.violated (.unknownMethod className s)), m) :=
  Machine.call_of_unchanged (by rw [call, h])

theorem call_of_bytecode {method : Method} {code : Bytecode}
    (h : r.resolve? className s = some method) (hbody : method.body = .bytecode code)
    (m : Machine) : m.call (r.call className s) = (.error (.violated (.noEntryPoint s)), m) := by
  have hselector := selector_of_resolve? h
  refine Machine.call_of_unchanged ?_
  simp only [call, h, Method.call, hbody, hselector]

theorem call_of_native {method : Method} {entry : Entry}
    (h : r.resolve? className s = some method) (hbody : method.body = .native entry)
    (m : Machine) : m.call (r.call className s) = m.call entry.run := by
  have hrun : r.call className s = entry.run := by
    funext c
    simp only [call, h, Method.call, hbody]
  rw [hrun]

/-- **Every call goes one of three ways.** -/
theorem callLaw (r : Registry) (className : String) (s : Selector) (m : Machine) :
    r.CallLaw className s m where
  of_none h := call_of_resolve?_eq_none h m
  of_bytecode _ _ h hbody := call_of_bytecode h hbody m
  of_native _ _ h hbody := call_of_native h hbody m
  unknownMethod_iff className' s' := by
    cases hresolve : r.resolve? className s with
    | none =>
      rw [call_of_resolve?_eq_none hresolve]
      simp [eq_comm]
    | some method =>
      cases hbody : method.body with
      | bytecode code =>
        rw [call_of_bytecode hresolve hbody]
        simp [hbody]
      | native entry =>
        rw [call_of_native hresolve hbody, call_eq_refusal_iff rfl]
        simp [hbody]
  noEntryPoint_iff s' := by
    cases hresolve : r.resolve? className s with
    | none =>
      rw [call_of_resolve?_eq_none hresolve]
      simp
    | some method =>
      cases hbody : method.body with
      | bytecode code =>
        rw [call_of_bytecode hresolve hbody]
        simp [hbody, eq_comm]
      | native entry =>
        rw [call_of_native hresolve hbody, call_eq_refusal_iff rfl]
        simp [hbody]

end Registry

/-! ### From a descriptor text to a method -/

/-- No object name in the signature that the member declares holds a semicolon. -/
def Member.SemicolonFree : Member → Prop
  | .native _ _ signature _ => signature.SemicolonFree
  | .method m => m.signature.SemicolonFree
  | _ => True

theorem Member.SemicolonFree.of_method? {m : Member} {className : String} {method : Method}
    (h : m.SemicolonFree) (hmethod : m.method? className = some method) :
    method.signature.SemicolonFree := by
  cases m <;> cases hmethod <;> exact h

namespace Class

/-- The methods that are accepted when a class of the name given is assembled. -/
def acceptedMethods (name : String) (ms : List Member) : List Method :=
  (accepted name ms).filterMap (Member.method? name)

/-- What is accepted was declared. -/
theorem mem_of_mem_accepted {name : String} {ms : List Member} {m : Member}
    (h : m ∈ accepted name ms) : m ∈ ms := by
  obtain ⟨⟨m', answer⟩, hmem, rfl⟩ := List.mem_map.1 h
  exact (List.of_mem_zip (List.mem_filter.1 hmem).1).1

/-- **A text leads to the method of its signature**: in a class whose signatures can be told apart,
the selector of a signature finds what was accepted with that signature. -/
theorem method?_assemble {name : String} {ms : List Member} (hms : ∀ m ∈ ms, m.SemicolonFree)
    (methodName : String) {d : Signature} (hd : d.SemicolonFree) :
    ((empty name).assemble ms).1.method? (.of methodName d) =
      (acceptedMethods name ms).find? fun m ↦ m.name = methodName ∧ m.signature = d := by
  rw [assemble_eq_ofMembers, method?_ofMembers]
  refine List.find?_congr fun method hmethod ↦ ?_
  obtain ⟨m, hm, hdeclared⟩ := List.mem_filterMap.1 hmethod
  have hfree := (hms m (mem_of_mem_accepted hm)).of_method? hdeclared
  rw [decide_eq_decide, Method.selector, Selector.of_inj hfree hd]

end Class

namespace Registry

/-- **Dispatch by name and descriptor text is exact.** Let a registry be filled by any requests with
classes that were assembled from any members, `members c` for the class `c`, where no object name
holds a semicolon. A text that is no signature makes no selector. For the signature `d` of a text,
the selector leads to a method exactly if the first class registered under the name accepted it as
its first method with this name and with `d` as signature; the method then takes a slot for each
parameter of the text, and one for a receiver unless it is static. Every call by that selector goes
as `CallLaw` says. -/
theorem dispatch_exact (requests : List Registration) (members : LoadedClass → List Member)
    (hassembled : ∀ request ∈ requests, ∀ c ∈ request.classes,
      c.info = ((Class.empty c.name).assemble (members c)).1 ∧ ∀ m ∈ members c, m.SemicolonFree)
    (className methodName text : String) :
    (∀ e, Signature.parse text = .error e → Selector.parse methodName text = .error e) ∧
    ∀ d, Signature.parse text = .ok d →
      Selector.parse methodName text = .ok (.of methodName d) ∧
      (∀ method, (filled requests).resolve? className (.of methodName d) = some method ↔
        ∃ c, (filled requests).FirstNamed className c ∧
          (Class.acceptedMethods c.name (members c)).find?
            (fun m ↦ m.name = methodName ∧ m.signature = d) = some method) ∧
      (∀ method, (filled requests).resolve? className (.of methodName d) = some method →
        method.slotCount = d.params.length + if method.isStatic then 0 else 1) ∧
      ∀ m, (filled requests).CallLaw className (.of methodName d) m := by
  refine ⟨fun e he ↦ ?_, fun d hd ↦ ?_⟩
  · rw [Selector.parse, he]
    rfl
  · have hfree : d.SemicolonFree := (Signature.of_parse_eq_ok hd).1.semicolonFree
    have hresolve : ∀ method, (filled requests).resolve? className (.of methodName d) =
        some method ↔ ∃ c, (filled requests).FirstNamed className c ∧
          (Class.acceptedMethods c.name (members c)).find?
            (fun m ↦ m.name = methodName ∧ m.signature = d) = some method := by
      intro method
      rw [resolve?, Option.bind_eq_some_iff]
      refine exists_congr fun c ↦ ?_
      rw [byName?_eq_some_iff]
      refine and_congr_right fun hfirst ↦ ?_
      obtain ⟨before, after, hclasses, -, -⟩ := hfirst
      obtain ⟨request, hrequest, hc⟩ := exists_mem_of_filled
        (hclasses ▸ List.mem_append_right before List.mem_cons_self)
      obtain ⟨hinfo, hmembers⟩ := hassembled request hrequest c hc
      rw [hinfo, Class.method?_assemble hmembers methodName hfree]
    refine ⟨?_, hresolve, fun method hmethod ↦ ?_, callLaw _ _ _⟩
    · rw [Selector.parse, hd]
      rfl
    · obtain ⟨c, -, hfind⟩ := (hresolve method).1 hmethod
      have hfound := List.find?_some hfind
      obtain ⟨-, hsignature⟩ := of_decide_eq_true hfound
      rw [Method.slotCount, hsignature]

/-- The members of a class of counters: two methods with one name, one of which the guest
implements, and a third that is refused. -/
def counterMembers : List Member :=
  [.native "add" .publicFlag ⟨[.long], .void⟩ (.host (.cell "test/Counter" "Counter" .add)),
    .method (.bytecode "test/Counter" "add" .publicFlag ⟨[.int], .void⟩ ⟨[0xb1], 2, 0⟩),
    .native "add" .staticFlag ⟨[.long], .void⟩ (.host .noop)]

/-- A class of counters. -/
def counterClass (id : Nat) : LoadedClass :=
  ⟨id, ((Class.empty "test/Counter").assemble counterMembers).1⟩

/-- Of two classes with one name only the first is found, and of two methods with one selector the
first. -/
theorem dispatch_exact_counter :
    (∀ request ∈ [Registration.many [counterClass 0, counterClass 1]], ∀ c ∈ request.classes,
      c.info = ((Class.empty c.name).assemble counterMembers).1 ∧
        ∀ m ∈ counterMembers, m.SemicolonFree) ∧
    ∃ method, (filled [.many [counterClass 0, counterClass 1]]).resolve? "test/Counter"
        (.of "add" ⟨[.long], .void⟩) = some method ∧
      method.body = .native (.host (.cell "test/Counter" "Counter" .add)) ∧
      method.slotCount = 2 := by
  have hassembled : ∀ request ∈ [Registration.many [counterClass 0, counterClass 1]],
      ∀ c ∈ request.classes, c.info = ((Class.empty c.name).assemble counterMembers).1 ∧
        ∀ m ∈ counterMembers, m.SemicolonFree := by
    have hfree : ∀ m ∈ counterMembers, m.SemicolonFree := by
      simp [counterMembers, Member.SemicolonFree, Signature.SemicolonFree,
        GuestType.SemicolonFree, Method.bytecode]
    rintro request hrequest c hc
    obtain rfl := List.mem_singleton.1 hrequest
    have hid : c = counterClass 0 ∨ c = counterClass 1 := by
      simpa [Registration.classes] using hc
    rcases hid with rfl | rfl
    · exact ⟨rfl, hfree⟩
    · exact ⟨rfl, hfree⟩
  have hparse : Signature.parse "(J)V" = .ok ⟨[.long], .void⟩ := by cbv
  obtain ⟨-, hresolve, hslots, -⟩ :=
    (dispatch_exact _ (fun _ ↦ counterMembers) hassembled "test/Counter" "add" "(J)V").2 _ hparse
  have hfirst : (filled [.many [counterClass 0, counterClass 1]]).FirstNamed "test/Counter"
      (counterClass 0) := ⟨[], [], by decide, rfl, fun _ hmem ↦ absurd hmem List.not_mem_nil⟩
  have hmethod := (hresolve _).2 ⟨counterClass 0, hfirst, by rfl⟩
  exact ⟨hassembled, _, hmethod, rfl, hslots _ hmethod⟩

end Registry

end HostMethods
