import HostMethods.Proofs.Call.Builtin
import HostMethods.Proofs.Store.Making
import HostMethods.Session

/-!
# What a step leaves alone

A command reaches the state behind an object in two ways only: it calls a host method and hands it
the object as receiver, or the host itself asks something of the object's stream. `Machine.Touches`
says this, command by command, and `Machine.step_evolves` proves it, for every machine and every
command: calls that fail, classes and objects that are made, fields that are written, and calls of
methods on other objects leave the state behind an object as it is. The fields of an object are
written by commands that name the object to do so (`Command.Writes`), and by nothing else: no host
method writes fields.
-/

namespace HostMethods

/-! ### The receiver of a call -/

namespace OperandStack

/-- A method that asks for arguments of these kinds gets this object as its receiver. -/
def Receives (s : OperandStack) (kinds : List ArgKind) (r : Ref) : Prop :=
  ∃ args t, s.takeCall kinds = (.ok (r, args), t)

/-- A call has one receiver. -/
theorem Receives.unique {s : OperandStack} {kinds : List ArgKind} {r r' : Ref}
    (h : s.Receives kinds r) (h' : s.Receives kinds r') : r = r' := by
  obtain ⟨args, t, htake⟩ := h
  obtain ⟨args', t', htake'⟩ := h'
  cases htake.symm.trans htake'
  rfl

end OperandStack

/-- What an entry point can exchange on this stack: the state that its method works on, behind the
receiver. -/
def Entry.Touches (stack : OperandStack) (r : Ref) (k : StateKind) : Entry → Prop
  | random m => k = .generator ∧ stack.Receives m.arguments r
  | stream m => k = .stream ∧ stack.Receives m.arguments r
  | host (.cell _ kind m) => k = .custom kind ∧ stack.Receives m.arguments r
  | host _ => False

/-! ### Calls -/

section Calls

variable {touched : Ref → StateKind → Prop} {written : Ref → Prop} {s s' : Store} {r : Ref}
  {result : Option Value}

/-- An object that has state of a kind, with the state exchanged. -/
theorem Store.evolves_putState {className : String} {k : StateKind} {i : Instance}
    {old : k.Content} (h : s.stateOf r className k = .ok (i, old)) (htouched : touched r k)
    (new : k.Content) : s.Evolves touched written (s.putState r i k new) := by
  obtain ⟨hobject, -, hstate⟩ := Store.stateOf_eq_ok_iff.1 h
  exact .single (.putState hobject (Instance.stateAs_eq_ok_iff.2 hstate) htouched new)

theorem GeneratorAction.evolves_of_perform {a : GeneratorAction}
    (h : a.perform s r = .ok (result, s')) (htouched : touched r .generator) :
    s.Evolves touched written s' := by
  cases a with
  | start seed =>
    obtain ⟨_, hstart, heq⟩ := Except.exists_of_map_eq_ok h
    cases heq
    exact Store.evolves_initState hstart
  | startFromClock =>
    obtain ⟨t, hstart, heq⟩ := Except.exists_of_map_eq_ok h
    cases heq
    exact (Store.evolves_initState hstart).tail (.clock t _)
  | answer request =>
    rw [perform, RandomMethod.answer] at h
    split at h
    · cases h
    next hstate =>
      split at h <;> cases h
      exact Store.evolves_putState hstate htouched _
  | restart seed =>
    obtain ⟨_, hrestart, heq⟩ := Except.exists_of_map_eq_ok h
    cases heq
    rw [RandomMethod.restart] at hrestart
    split at hrestart <;> cases hrestart
    next hstate => exact Store.evolves_putState hstate htouched _

theorem StreamMethod.evolves_of_effect {m : StreamMethod} {args : Args m.arguments}
    (h : m.effect s r args = .ok (result, s')) (htouched : touched r .stream) :
    s.Evolves touched written s' := by
  rw [effect] at h
  split at h
  · cases h
  next i stream hstate =>
    obtain ⟨hobject, -, hcontent⟩ := Store.stateOf_eq_ok_iff.1 hstate
    split at h
    · cases h
    next a haction =>
      cases a with
      | print text =>
        cases h
        exact Store.evolves_callStream hobject (Instance.stateAs_eq_ok_iff.2 hcontent) htouched _
      | flush =>
        cases h
        exact Store.evolves_callStream hobject (Instance.stateAs_eq_ok_iff.2 hcontent) htouched _
      | report =>
        cases h
        exact .refl

theorem CellMethod.evolves_of_effect {className kind : String} {m : CellMethod}
    {args : Args m.arguments} (h : m.effect className kind s r args = .ok (result, s'))
    (htouched : touched r (.custom kind)) : s.Evolves touched written s' := by
  cases m with
  | start =>
    obtain ⟨_, hstart, heq⟩ := Except.exists_of_map_eq_ok h
    cases heq
    exact Store.evolves_initState hstart
  | add =>
    cases args
    obtain ⟨_, hstate, heq⟩ := Except.exists_of_map_eq_ok h
    cases heq
    exact Store.evolves_putState hstate htouched _
  | read =>
    obtain ⟨_, -, heq⟩ := Except.exists_of_map_eq_ok h
    cases heq
    exact .refl

/-- A call with a receiver changes the store as the method does, if the method succeeds, and not at
all otherwise. -/
theorem CallState.evolves_onReceiver (c : CallState) {kinds : List ArgKind} {effect : Effect kinds}
    (heffect : ∀ {r args result s'}, c.stack.Receives kinds r →
      effect c.store r args = .ok (result, s') → c.store.Evolves touched written s') :
    c.store.Evolves touched written (c.onReceiver kinds effect).2.store := by
  have hreceived := onReceiver_received c kinds effect
  generalize c.onReceiver kinds effect = after at hreceived
  obtain ⟨outcome, c'⟩ := after
  cases hreceived with
  | refused htake => exact .refl
  | failed hdepth htake hfail => exact .refl
  | done hdepth htake hdone hslots hlimit => exact heffect ⟨_, _, htake⟩ hdone

/-- A step on the stack alone leaves the store. -/
theorem CallState.store_onStack (c : CallState)
    (step : OperandStack → Except CallError Unit × OperandStack) :
    (c.onStack step).2.store = c.store :=
  rfl

/-- **An entry point works on the state behind its receiver**, and only on state of its own kind. -/
theorem Entry.evolves_run (entry : Entry) (c : CallState) :
    c.store.Evolves (fun r k ↦ entry.Touches c.stack r k) written (entry.run c).2.store := by
  cases entry with
  | random m =>
    refine c.evolves_onReceiver fun hreceives hdone ↦ ?_
    rw [RandomMethod.effect_eq_perform] at hdone
    exact GeneratorAction.evolves_of_perform hdone ⟨rfl, hreceives⟩
  | stream m =>
    exact c.evolves_onReceiver fun hreceives hdone ↦
      StreamMethod.evolves_of_effect hdone ⟨rfl, hreceives⟩
  | host a =>
    cases a with
    | noop => exact .refl
    | fail e => exact .refl
    | push v => exact c.store_onStack (·.deliver v) ▸ .refl
    | echo receiver kinds =>
      cases receiver
      · exact .refl
      · exact .refl
    | cell className kind m =>
      exact c.evolves_onReceiver fun hreceives hdone ↦
        CellMethod.evolves_of_effect hdone ⟨rfl, hreceives⟩

end Calls

/-! ### Steps -/

/-- A command writes fields of an object if it names the object to do so. -/
def Command.Writes (cmd : Command) (r : Ref) : Prop :=
  ∃ name v, cmd = .setField r name v

namespace Machine

variable {written : Ref → Prop}

/-- The method that a command calls, if it calls one. -/
def callee? (m : Machine) : Command → Option Method
  | .call c s => c.info.method? s
  | .invoke className s => m.registry.resolve? className s
  | _ => none

/-- What a command can exchange: what the method that it calls can exchange, or the state of the
stream that it names. -/
def Touches (m : Machine) (cmd : Command) (r : Ref) (k : StateKind) : Prop :=
  (∃ method entry, m.callee? cmd = some method ∧ method.body = .native entry ∧
    entry.Touches m.stack r k) ∨
  (k = .stream ∧ ∃ call, cmd = .callStream r call)

/-- Both kinds of calls end in a call of the method that is found. -/
theorem step_of_callee? {m : Machine} {cmd : Command} {method : Method}
    (h : m.callee? cmd = some method) :
    m.step cmd = ((m.call method.call).2, .ofCall (m.call method.call).1) := by
  cases cmd with
  | call c s =>
    have hmethod : c.info.method? s = some method := h
    simp only [step, hmethod]
  | invoke className s =>
    have hrun : m.registry.call className s = method.call := by
      funext c
      rw [Registry.call, show m.registry.resolve? className s = some method from h]
    simp only [step, hrun]
  | _ => cases h

/-- A command that finds no method to call leaves the store. -/
theorem store_call_of_none {m : Machine} {className : String} {s : Selector}
    (h : m.registry.resolve? className s = none) :
    (m.step (.invoke className s)).1.store = m.store := by
  simp only [step, call, Registry.call, h]

/-- A call of a method changes the store as the method's entry point does. -/
theorem evolves_call (m : Machine) (method : Method) :
    m.store.Evolves (fun r k ↦ ∃ entry, method.body = .native entry ∧ entry.Touches m.stack r k)
      written (m.call method.call).2.store := by
  show m.store.Evolves _ _ (method.call ⟨m.stack, m.store⟩).2.store
  rw [Method.call]
  split
  next entry hbody =>
    exact (entry.evolves_run ⟨m.stack, m.store⟩).mono (fun r k h ↦ ⟨entry, hbody, h⟩) fun _ ↦ id
  · exact .refl

theorem evolves_of_callee? {m : Machine} {cmd : Command} {method : Method}
    (h : m.callee? cmd = some method) :
    m.store.Evolves (m.Touches cmd) written (m.step cmd).1.store := by
  rw [step_of_callee? h]
  refine (m.evolves_call method).mono (fun r k ⟨entry, hbody, htouches⟩ ↦ ?_) fun _ ↦ id
  exact .inl ⟨method, entry, h, hbody, htouches⟩

/-- A class that was made, on a store that may have changed before, or none. -/
theorem evolves_make {m : Machine} {touched : Ref → StateKind → Prop}
    {outcome : Except Clash (LoadedClass × Store)}
    (h : ∀ {c s}, outcome = .ok (c, s) → m.store.Evolves touched written s) :
    m.store.Evolves touched written (m.make outcome).1.store := by
  cases outcome with
  | error e => exact .refl
  | ok made => exact h rfl

/-- Whether the classes could be made or not, the machine is as the catalog has left it. -/
theorem step_builtins (m : Machine) :
    (m.step .builtins).1 = (m.askCatalog Catalog.classes).2 := by
  rw [step]
  split
  next heq => rw [heq]
  next heq => rw [heq]

/-- **A step exchanges nothing but what its command touches, and writes fields of no object but the
one that its command names.** -/
theorem step_evolves (m : Machine) (cmd : Command) :
    m.store.Evolves (m.Touches cmd) cmd.Writes (m.step cmd).1.store := by
  cases hcallee : m.callee? cmd with
  | some method => exact evolves_of_callee? hcallee
  | none =>
    cases cmd with
    | push | pop | popRef | takeArgs | takeCall =>
      rw [step]
      split <;> exact .refl
    | deliver kind v =>
      rw [step]
      split <;> exact .refl
    | newThread limit => exact .refl
    | select thread =>
      rw [step, select]
      split <;> exact .refl
    | newText text => exact .single (.allocate m.store _)
    | newInstance c state => exact .single (.allocate m.store _)
    | openStream c sink => exact .single (.allocate m.store _)
    | setField r name v =>
      rw [step]
      split
      · exact .refl
      next i hobject =>
        split
        · exact .refl
        next hset =>
          exact .single (.setField (Store.object_eq_inst_iff.2 hobject) hset ⟨name, v, rfl⟩)
    | initState r state =>
      rw [step]
      split
      · exact .refl
      next i hobject =>
        split
        · exact .refl
        next hinit => exact .single (.initState (Store.object_eq_inst_iff.2 hobject) hinit)
    | setStatic c name v =>
      rw [step]
      split
      · exact .refl
      next hset => exact .single (.setStatic hset)
    | define name members => exact .single (.load m.store _)
    | buildPrintStream => exact evolves_make fun h ↦ Store.evolves_of_map_load h
    | buildRandom seed => exact evolves_make fun h ↦ Store.evolves_of_map_load h
    | buildSystem streams sink => exact evolves_make fun h ↦ Store.evolves_loadSystem h
    | builtin b => exact (m.catalog.making_get m.store b).evolves
    | builtins =>
      rw [step_builtins]
      exact (m.catalog.making_classes m.store).evolves
    | registerBuiltins => exact (m.catalog.making_publish m.store m.registry).evolves
    | register c =>
      rw [step]
      split <;> exact .refl
    | registerMany cs => exact .refl
    | call c s =>
      have habsent : c.info.method? s = none := hcallee
      simp only [step, habsent]
      exact .refl
    | invoke className s => exact store_call_of_none hcallee ▸ .refl
    | newSink k => exact .single (.sinks m.store _)
    | callSink sink call =>
      obtain ⟨sinks, hsinks⟩ := m.store.exists_callSink_eq sink call
      show m.store.Evolves _ _ (m.store.callSink sink call).2
      exact hsinks ▸ .single (.sinks m.store sinks)
    | takeSink sink =>
      obtain ⟨sinks, hsinks⟩ := m.store.exists_takeSink_eq sink
      show m.store.Evolves _ _ (m.store.takeSink sink).2
      exact hsinks ▸ .single (.sinks m.store sinks)
    | callStream r call =>
      rw [step]
      split
      · exact .refl
      next i hobject =>
        split
        · exact .refl
        next stream hstate =>
          exact Store.evolves_callStream (Store.object_eq_inst_iff.2 hobject) hstate
            (.inr ⟨rfl, call, rfl⟩) call

/-- What every step preserves holds after a run. -/
theorem run_induction {holds : Machine → Prop} (hstep : ∀ m cmd, holds m → holds (m.step cmd).1)
    {m : Machine} (h : holds m) (cmds : List Command) : holds (m.run cmds).1 := by
  induction cmds generalizing m with
  | nil => exact h
  | cons cmd cmds ih => exact ih (hstep m cmd h)

theorem run_cons (m : Machine) (cmd : Command) (cmds : List Command) :
    m.run (cmd :: cmds) =
      (((m.step cmd).1.run cmds).1, (m.step cmd).2 :: ((m.step cmd).1.run cmds).2) :=
  rfl

/-- A run goes on with the machine that the commands so far have left. -/
theorem run_append (m : Machine) (before after : List Command) :
    m.run (before ++ after) =
      (((m.run before).1.run after).1, (m.run before).2 ++ ((m.run before).1.run after).2) := by
  induction before generalizing m with
  | nil => rfl
  | cons cmd before ih => rw [List.cons_append, run_cons, ih, run_cons, List.cons_append]

/-- Whatever is carried out, the store evolves. -/
theorem run_evolves (m : Machine) (cmds : List Command) :
    m.store.Evolves (fun _ _ ↦ True) (fun _ ↦ True) (m.run cmds).1.store := by
  have hstep : ∀ (m' : Machine) (cmd : Command),
      m.store.Evolves (fun _ _ ↦ True) (fun _ ↦ True) m'.store →
      m.store.Evolves (fun _ _ ↦ True) (fun _ ↦ True) (m'.step cmd).1.store :=
    fun m' cmd hevolves ↦
      hevolves.trans ((m'.step_evolves cmd).mono (fun _ _ _ ↦ trivial) fun _ _ ↦ trivial)
  exact run_induction hstep .refl cmds

end Machine

end HostMethods
