import HostMethods.Proofs.Run.Builtins
import HostMethods.Proofs.Run.Construction

/-!
# What guest code can put behind objects

The slot of an object has no type of its own, any reference can be pushed as the receiver of any
method, and methods look at the name of their receiver's class only. Yet guest code cannot bring
state behind an object of the wrong class (`Machine.guest_confined`). After the built-in classes are
registered, the only filled slot is that of the standard output stream, and all that guest code can
add are generators, behind objects of the class of generators (`Store.Confined`).

Everything else is read off this invariant, which a single look at the commands shows to be kept
(`Machine.confined_step`): no method finds state of another kind, objects are constructed once, and
there is one stream that can be written to.
-/

namespace HostMethods

/-- The command is one of guest code: it works on stacks, makes strings and objects without state,
writes fields, or calls a built-in method, if it finds a method at all. -/
def Command.IsGuest (registry : Registry) : Command → Prop
  | push _ _ | pop | popRef | takeArgs _ | takeCall _ | deliver _ _ | newThread _ | select _ => True
  | newText _ | setField _ _ _ | setStatic _ _ _ => True
  | newInstance _ state => state = none
  | call c s => ∀ method, c.info.method? s = some method → method.IsBuiltin
  | invoke className s =>
    ∀ method, registry.resolve? className s = some method → method.IsBuiltin
  | _ => False

/-- Behind objects of a built-in class there is only state of this class's own kind. -/
def HostState.IsOwn (c : LoadedClass) (state : HostState) : Prop :=
  (c.name = ClassName.random → state.kind = .generator) ∧
    (c.name = ClassName.printStream → state.kind = .stream)

/-- Only objects of the class of generators have state behind them, which is a generator, and the
one stream named. -/
def Store.Confined (s : Store) (out : Ref) : Prop :=
  s.Slots fun r c state ↦
    (c.name = ClassName.random ∧ state.kind = .generator) ∨
      (r = out ∧ c.name = ClassName.printStream ∧ state.kind = .stream)

/-- Whether the error says that the state behind an object is of another kind than was asked for. -/
def CallError.isWrongState : CallError → Bool
  | violated (.wrongState _ _ _) => true
  | _ => false

/-! ### What the invariant says -/

namespace Store.Confined

variable {s : Store} {out r : Ref}

theorem slots_isOwn (h : s.Confined out) : s.Slots fun _ c state ↦ state.IsOwn c := by
  have hne : ClassName.random ≠ ClassName.printStream := by decide
  intro q i state hobject hstate
  rcases h q i state hobject hstate with ⟨hname, hkind⟩ | ⟨-, hname, hkind⟩
  · exact ⟨fun _ ↦ hkind, fun hname' ↦ absurd (hname.symm.trans hname') hne⟩
  · exact ⟨fun hname' ↦ absurd (hname'.symm.trans hname) hne, fun _ ↦ hkind⟩

/-- There is one stream. -/
theorem eq_of_stream? (h : s.Confined out) {stream : Stream} (hstream : s.stream? r = some stream) :
    r = out := by
  obtain ⟨i, hobject, hstate⟩ := Store.stream?_eq_some_iff.1 hstream
  rcases h r i _ hobject hstate with ⟨-, hkind⟩ | ⟨heq, -⟩
  · cases hkind
  · exact heq

end Store.Confined

/-! ### No method finds state of another kind -/

section Errors

variable {s : Store} {r : Ref} {e : CallError}

/-- Taking arguments looks at no state. -/
theorem CallError.isWrongState_of_isOfTaking (h : e.isOfTaking = true) :
    e.isWrongState = false := by
  unfold isOfTaking at h
  split at h <;> trivial

theorem Store.isWrongState_of_initState {className : String} {state : HostState}
    (h : s.initState r className state = .error e) : e.isWrongState = false := by
  rw [initState] at h
  split at h
  · cases h
    rfl
  · have hfull := Except.eq_error_of_map h
    rw [Instance.initState] at hfull
    split at hfull <;> cases hfull
    rfl

/-- Who asks for state of the kind that the class has does not find any other. -/
theorem Store.isWrongState_of_stateOf {className : String} {k : StateKind}
    (hslots : s.Slots fun _ c state ↦ c.name = className → state.kind = k)
    (h : s.stateOf r className k = .error e) : e.isWrongState = false := by
  rw [stateOf] at h
  split at h
  · cases h
    rfl
  next i hinstance =>
    obtain ⟨hobject, hname⟩ := instanceOf_eq_ok_iff.1 hinstance
    have hslot := Except.eq_error_of_map h
    rw [Instance.stateAs] at hslot
    split at hslot
    · cases hslot
      rfl
    next state hstate =>
      split at hslot
      · cases hslot
      next hnone =>
        exact absurd (hslots r i state hobject hstate hname) (HostState.as?_eq_none_iff.1 hnone)

variable (hown : s.Slots fun _ c state ↦ state.IsOwn c)
include hown

theorem RandomMethod.isWrongState_of_effect {m : RandomMethod} {args : Args m.arguments}
    (h : m.effect s r args = .error e) : e.isWrongState = false := by
  have hstate : ∀ {e}, s.stateOf r ClassName.random .generator = .error e →
      e.isWrongState = false :=
    Store.isWrongState_of_stateOf fun q i state hobject hi ↦ (hown q i state hobject hi).1
  rw [effect_eq_perform] at h
  cases haction : m.action args with
  | start | startFromClock =>
    rw [haction] at h
    exact Store.isWrongState_of_initState (Except.eq_error_of_map h)
  | answer request =>
    rw [haction, GeneratorAction.perform, answer] at h
    split at h
    next hfound =>
      cases h
      exact hstate hfound
    · split at h <;> cases h
      rfl
  | restart seed =>
    rw [haction] at h
    have hrestart := Except.eq_error_of_map h
    rw [restart] at hrestart
    split at hrestart <;> cases hrestart
    next hfound => exact hstate hfound

theorem StreamMethod.isWrongState_of_effect {m : StreamMethod} {args : Args m.arguments}
    (h : m.effect s r args = .error e) : e.isWrongState = false := by
  have hstate : ∀ {e}, s.stateOf r ClassName.printStream .stream = .error e →
      e.isWrongState = false :=
    Store.isWrongState_of_stateOf fun q i state hobject hi ↦ (hown q i state hobject hi).2
  rw [effect] at h
  split at h
  next hfound =>
    cases h
    exact hstate hfound
  · split at h <;> cases h
    rfl

omit hown in
theorem CallState.isWrongState_of_onReceiver {c c' : CallState} {kinds : List ArgKind}
    {effect : Effect kinds}
    (heffect : ∀ {r args e}, effect c.store r args = .error e → e.isWrongState = false)
    (h : c.onReceiver kinds effect = (.error e, c')) : e.isWrongState = false := by
  have hreceived := onReceiver_received c kinds effect
  rw [h] at hreceived
  cases hreceived with
  | refused htake =>
    exact CallError.isWrongState_of_isOfTaking (OperandStack.isOfTaking_of_takeCall htake)
  | failed hdepth htake hfail => exact heffect hfail

/-- **No built-in method finds state of another kind than its own.** -/
theorem Method.IsBuiltin.isWrongState_of_call {method : Method} (hbuiltin : method.IsBuiltin)
    {stack : OperandStack} {c : CallState} (h : method.call ⟨stack, s⟩ = (.error e, c)) :
    e.isWrongState = false := by
  rcases hbuiltin.eq_declared with ⟨m, rfl⟩ | ⟨m, rfl⟩
  · have hrun : CallState.onReceiver ⟨stack, s⟩ m.arguments m.effect = (.error e, c) := h
    exact CallState.isWrongState_of_onReceiver
      (fun hfail ↦ RandomMethod.isWrongState_of_effect hown hfail) hrun
  · have hrun : CallState.onReceiver ⟨stack, s⟩ m.arguments m.effect = (.error e, c) := h
    exact CallState.isWrongState_of_onReceiver
      (fun hfail ↦ StreamMethod.isWrongState_of_effect hown hfail) hrun

end Errors

/-! ### One step -/

namespace Command.IsGuest

variable {m : Machine} {cmd : Command}

theorem bringsNoState {registry : Registry} (h : cmd.IsGuest registry) : cmd.BringsNoState := by
  cases cmd with
  | newInstance c state =>
    obtain rfl : state = none := h
    trivial
  | initState r state => exact h.elim
  | _ => trivial

/-- Guest code calls built-in methods only. -/
theorem isBuiltin_of_callee? (h : cmd.IsGuest m.registry) {callee : Method}
    (hcallee : m.callee? cmd = some callee) : callee.IsBuiltin := by
  cases cmd with
  | call | invoke => exact h callee hcallee
  | _ => cases hcallee

/-- Guest code registers no classes. -/
theorem registry_step (h : cmd.IsGuest m.registry) : (m.step cmd).1.registry = m.registry := by
  cases cmd with
  | push | pop | popRef | takeArgs | takeCall | deliver | setStatic | call =>
    rw [Machine.step]
    split <;> rfl
  | newThread | newText | newInstance | invoke => rfl
  | select thread =>
    rw [Machine.step, Machine.select]
    split <;> rfl
  | setField r name v =>
    rw [Machine.step]
    split
    · rfl
    · split <;> rfl
  | _ => exact h.elim

end Command.IsGuest

namespace Machine

variable {m : Machine} {cmd : Command} {cmds : List Command} {out : Ref}

/-- Guest code makes no objects with state behind them. -/
theorem not_adds_of_isGuest {registry : Registry} (h : cmd.IsGuest registry) {i : Instance}
    {state : HostState} (hstate : i.state = some state) : ¬cmd.Adds (.inst i) := by
  intro hadds
  cases cmd with
  | newInstance c given =>
    obtain rfl : given = none := h
    cases hadds
    cases hstate
  | newText text => cases hadds
  | openStream | buildSystem | builtin | builtins | registerBuiltins => exact h.elim
  | _ => exact hadds.elim

/-- **Guest code cannot break out**: whatever it does, all state behind objects is where it belongs.
-/
theorem confined_step (h : m.store.Confined out) (hguest : cmd.IsGuest m.registry) :
    (m.step cmd).1.store.Confined out := by
  refine m.slots_step h (fun q i state hadds hstate ↦ ?_) (fun q c state hfills ↦ ?_)
    fun q c stream call text _ hheld ↦ ?_
  · exact absurd hadds (not_adds_of_isGuest hguest hstate)
  · rcases hfills with ⟨callee, entry, hcallee, hbody, hentry⟩ | rfl
    · rcases (hguest.isBuiltin_of_callee? hcallee).eq_declared with ⟨method, rfl⟩ | ⟨method, rfl⟩
      · cases hbody
        exact .inl hentry.2
      · cases hbody
        exact hentry.elim
    · exact hguest.elim
  · rcases hheld with ⟨-, hkind⟩ | ⟨heq, hname, -⟩
    · cases hkind
    · exact .inr ⟨heq, hname, rfl⟩

theorem confined_run (h : m.store.Confined out) (hguest : ∀ cmd ∈ cmds, cmd.IsGuest m.registry) :
    (m.run cmds).1.store.Confined out := by
  induction cmds generalizing m with
  | nil => exact h
  | cons cmd cmds ih =>
    have hcmd := hguest cmd List.mem_cons_self
    have hlater : ∀ later ∈ cmds, later.IsGuest (m.step cmd).1.registry := by
      intro later hmem
      rw [hcmd.registry_step]
      exact hguest later (List.mem_cons_of_mem _ hmem)
    exact ih (confined_step h hcmd) hlater

end Machine

/-! ### What is registered -/

/-- A fresh catalog makes its three classes, and one object, which is a new stream. -/
theorem Catalog.exists_publish_new_eq (options : Options) (s : Store) (registry : Registry) :
    ∃ (streams random : LoadedClass) (statics : Array (List Value)),
      streams.name = ClassName.printStream ∧
      ((Catalog.new options).publish s registry).2.2 =
        (⟨options, some ⟨statics.size, .systemOf ⟨s.objects.size⟩⟩, some random, some streams⟩,
          { (s.openStream streams options.stdout).2 with
            statics := (statics.push [.ref ⟨s.objects.size⟩]).push [] }) :=
  ⟨_, _, _, rfl, rfl⟩

/-- The stream is found under its name. -/
theorem Store.static?_systemOf (s : Store) (statics : Array (List Value)) (out : Ref) :
    Store.static? { s with statics := (statics.push [.ref out]).push [] }
      ⟨statics.size, .systemOf out⟩ standardOutput = some (.ref out) :=
  static?_load (static?_load_systemOf { s with statics } out) (.empty ClassName.random)

/-- There is an object with state behind it, which is a stream, and no other. -/
structure Store.HoldsOnly (s : Store) (out : Ref) : Prop where
  exists_object : ∃ i, s.object out = .inst i
  slots : s.Slots fun r c state ↦
    r = out ∧ c.name = ClassName.printStream ∧ state.kind = .stream

/-- Where no slot is filled, a stream that is opened is the only one. -/
theorem Store.holdsOnly_openStream {s : Store} (hempty : s.Slots fun _ _ _ ↦ False)
    {c : LoadedClass} (hc : c.name = ClassName.printStream) (sink : Nat) :
    (s.openStream c sink).2.HoldsOnly (s.openStream c sink).1 where
  exists_object := ⟨_, s.object_newInstance c _⟩
  slots r i state hobject hstate := by
    rw [openStream, newInstance, object_allocate] at hobject
    split at hobject
    next heq =>
      cases hobject
      cases hstate
      exact ⟨heq, hc, rfl⟩
    · exact (hempty r i state hobject hstate).elim

namespace Store.HoldsOnly

variable {s : Store} {out : Ref}

theorem confined (h : s.HoldsOnly out) : s.Confined out :=
  fun r i state hobject hstate ↦ .inr (h.slots r i state hobject hstate)

theorem not_constructed (h : s.HoldsOnly out) (r : Ref) : ¬s.Constructed r := by
  rw [Machine.not_constructed_iff]
  rintro q i state hobject hstate - - hkind
  obtain ⟨-, -, hstream⟩ := h.slots q i state hobject hstate
  cases hkind.symm.trans hstream

end Store.HoldsOnly

namespace Machine

variable {m : Machine} {out : Ref} {cmds : List Command}

/-- What holds after a run of guest code, if the standard output stream is `out`. -/
structure ConfinesRun (m : Machine) (out : Ref) (cmds : List Command) : Prop where
  /-- The state behind an object of a built-in class is of the class's own kind. -/
  isOwn : (m.run cmds).1.store.Slots fun _ c state ↦ state.IsOwn c
  /-- No built-in method finds state of another kind. -/
  ne_wrongState : ∀ method : Method, method.IsBuiltin → ∀ className expected found,
    ((m.run cmds).1.call method.call).1 ≠
      .error (.violated (.wrongState className expected found))
  /-- Of the methods of generators that were called on one object, the first one is a constructor,
  and no other one is. -/
  constructedOnce : ∀ r, RandomMethod.ConstructedOnce (m.randomMethods r cmds)
  /-- A method of streams that succeeds has the standard output stream as its receiver. -/
  receiver_eq : ∀ cmd callee method, (m.run cmds).1.callee? cmd = some callee →
    callee.body = .native (.stream method) → ((m.run cmds).1.step cmd).2 = .done →
    ∃ event, (m.run cmds).1.streamCall? cmd = some (out, event)
  /-- No object that is made is the standard output stream. -/
  created_ne : ∀ c state r, ((m.run cmds).1.step (.newInstance c state)).2 = .created r → r ≠ out

/-- **Guest code is confined to what it has made, and to one stream.** -/
theorem confinesRun (h : m.store.HoldsOnly out) (hguest : ∀ cmd ∈ cmds, cmd.IsGuest m.registry) :
    m.ConfinesRun out cmds where
  isOwn := (confined_run h.confined hguest).slots_isOwn
  ne_wrongState method hbuiltin className expected found hcall := by
    have hown := (confined_run h.confined hguest).slots_isOwn
    have hright := hbuiltin.isWrongState_of_call hown (Prod.ext hcall rfl)
    cases hright
  constructedOnce r :=
    m.constructedOnce (fun cmd hcmd ↦ (hguest cmd hcmd).bringsNoState) (h.not_constructed r)
  receiver_eq cmd callee method hcallee hbody hdone := by
    obtain ⟨⟨r, event⟩, hshown⟩ :=
      Option.isSome_iff_exists.1 (isSome_streamCall?_of_done hcallee hbody hdone)
    obtain ⟨i, stream, a, hstate, -, -⟩ := exists_action_of_streamCall? hshown
    have hstream := Store.stream?_of_stateOf hstate
    obtain rfl : r = out := (confined_run h.confined hguest).eq_of_stream? hstream
    exact ⟨event, hshown⟩
  created_ne c state r hcreated := by
    obtain ⟨i, hout⟩ := h.exists_object
    -- the stream is still there, so its address is not given out again
    obtain ⟨i', hout', -⟩ := (m.run_evolves cmds).object_eq_inst hout
    have hlt := Store.address_lt_of_object hout'
    cases hcreated
    rintro rfl
    exact absurd hlt (Nat.lt_irrefl _)

/-- **Guest code is confined to what it has made, and to the standard output.** Let a fresh catalog
be registered, on a machine with any registry, where no object has state behind it. Then there is a
stream in the field of the class that holds the standard output, and whatever guest code does from
then on, on whatever threads:

* state behind objects of built-in classes is of the class's own kind, so no built-in method ever
  finds state of another kind;
* of the methods of generators that succeed on one object, the first one is a constructor and no
  other one is, where every method that succeeds counts for some object;
* every method of streams that succeeds has the standard output stream as its receiver, and no
  object that is made later is this stream. -/
theorem guest_confined {options : Options} (hfresh : m.catalog = .new options)
    (hempty : m.store.Slots fun _ _ _ ↦ False) :
    (∃ system out, (m.step .registerBuiltins).1.catalog.system = some system ∧
      (m.step .registerBuiltins).1.store.static? system standardOutput = some (.ref out) ∧
      ∀ cmds, (∀ cmd ∈ cmds, cmd.IsGuest (m.step .registerBuiltins).1.registry) →
        (m.step .registerBuiltins).1.ConfinesRun out cmds) ∧
    ∀ (m' : Machine) (cmd : Command) (callee : Method) (method : RandomMethod),
      m'.callee? cmd = some callee → callee.body = .native (.random method) →
      (m'.step cmd).2 = .done → ∃ r, m'.randomMethod? r cmd = some method := by
  obtain ⟨streams, random, statics, hstreams, hpublish⟩ :=
    Catalog.exists_publish_new_eq options m.store m.registry
  rw [← hfresh] at hpublish
  have hcatalog : (m.step .registerBuiltins).1.catalog = _ := congrArg Prod.fst hpublish
  have hstore : (m.step .registerBuiltins).1.store = _ := congrArg Prod.snd hpublish
  refine ⟨⟨⟨statics.size, .systemOf ⟨m.store.objects.size⟩⟩, ⟨m.store.objects.size⟩, ?_, ?_,
    fun cmds hguest ↦ ?_⟩, fun m' cmd callee method hcallee hbody hdone ↦ ?_⟩
  · rw [hcatalog]
  · rw [hstore]
    exact Store.static?_systemOf _ statics _
  · refine confinesRun ?_ hguest
    obtain ⟨hobject, hslots⟩ := Store.holdsOnly_openStream hempty hstreams options.stdout
    rw [hstore]
    exact ⟨hobject, hslots⟩
  · obtain ⟨⟨r, event⟩, hshown⟩ :=
      Option.isSome_iff_exists.1 (isSome_generatorCall?_of_done hcallee hbody hdone)
    refine ⟨r, ?_⟩
    simp only [randomMethod?, hcallee, Option.map_some, hbody,
      generatorEvent?_eq_some_iff.2 hshown]

/-- Where nothing but the built-in classes is registered, whatever guest code finds is built in. -/
theorem isGuest_invoke (stdout : Sink) (seed : Option UInt64) (limit : Nat) (className : String)
    (s : Selector) :
    (Command.invoke className s).IsGuest
      ((new stdout seed limit).step .registerBuiltins).1.registry := by
  have hregistry : ∃ system random streams : LoadedClass,
      ((new stdout seed limit).step .registerBuiltins).1.registry = ⟨[system, random, streams]⟩ ∧
      system.info.methods = [] ∧
      (Class.empty ClassName.random).build (RandomMethod.members seed) = .ok random.info ∧
      (Class.empty ClassName.printStream).build StreamMethod.members = .ok streams.info :=
    ⟨_, _, _, rfl, rfl, rfl, rfl⟩
  obtain ⟨system, random, streams, hclasses, hsystem, hrandom, hstreams⟩ := hregistry
  intro method hresolve
  obtain ⟨c, hc, hmethod⟩ := Option.bind_eq_some_iff.1 hresolve
  have hmem : method ∈ c.info.methods := List.mem_of_find?_eq_some hmethod
  have hregistered : c ∈ [system, random, streams] := by
    rw [hclasses] at hc
    exact List.mem_of_find?_eq_some hc
  rcases List.mem_cons.1 hregistered with rfl | hregistered
  · rw [hsystem] at hmem
    cases hmem
  · rcases List.mem_cons.1 hregistered with rfl | hregistered
    · exact .random hrandom hmem
    · obtain rfl := List.mem_singleton.1 hregistered
      exact .stream hstreams hmem

/-- A machine with the built-in classes, and nothing else. -/
def registered : Machine :=
  ((new .capture none 8).step .registerBuiltins).1

/-- The class of generators that this machine has registered. -/
def registeredRandom : LoadedClass :=
  ⟨2, { Class.empty ClassName.random with
    methods := (RandomMethod.all none).map RandomMethod.declared }⟩

/-- A generator is used before its construction, constructed twice and used again. A method of
streams is called on it, and a constructor of generators on the standard output. -/
def confusedCalls : List Command :=
  [.newInstance registeredRandom none,
    .push (.ref ⟨1⟩) 1, .invoke ClassName.random (.of "nextInt" ⟨[], .int⟩),
    .push (.ref ⟨1⟩) 1, .push (.long 7) 1,
    .invoke ClassName.random (.of constructorName ⟨[.long], .void⟩),
    .push (.ref ⟨1⟩) 1, .invoke ClassName.random (.of constructorName ⟨[], .void⟩),
    .push (.ref ⟨1⟩) 1, .invoke ClassName.random (.of "nextInt" ⟨[], .int⟩),
    .push (.ref ⟨1⟩) 1, .invoke ClassName.printStream (.of "println" ⟨[], .void⟩),
    .push (.ref ⟨0⟩) 1, .invoke ClassName.random (.of constructorName ⟨[], .void⟩)]

/-- One construction went through, and one draw after it. -/
theorem guest_confined_confusedCalls :
    ∃ system out, registered.catalog.system = some system ∧
      registered.store.static? system standardOutput = some (.ref out) ∧
      registered.ConfinesRun out confusedCalls ∧
      registered.randomMethods ⟨1⟩ confusedCalls = [.constructSeeded, .nextInt] := by
  have hempty : (new .capture none 8).store.Slots fun _ _ _ ↦ False := by
    intro r i state hobject
    cases hobject
  have hguest : ∀ cmd ∈ confusedCalls, cmd.IsGuest registered.registry := by
    have hinvoke := isGuest_invoke .capture none 8
    simp only [confusedCalls, List.forall_mem_cons]
    exact ⟨rfl, trivial, hinvoke _ _, trivial, trivial, hinvoke _ _, trivial, hinvoke _ _, trivial,
      hinvoke _ _, trivial, hinvoke _ _, trivial, hinvoke _ _, fun _ h ↦ absurd h List.not_mem_nil⟩
  have hfresh : (new .capture none 8).catalog = .new ⟨0, none⟩ := rfl
  obtain ⟨⟨system, out, hsystem, hout, hconfines⟩, -⟩ := guest_confined hfresh hempty
  exact ⟨system, out, hsystem, hout, hconfines confusedCalls hguest, by decide +kernel⟩

end Machine

end HostMethods
