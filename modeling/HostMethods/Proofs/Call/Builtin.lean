import HostMethods.Builtins
import HostMethods.Call.Dispatch
import HostMethods.Proofs.Call.Receiver
import HostMethods.Proofs.Outcome

/-!
# The methods of the built-in classes

A method of a built-in class is declared in one place and carried out in another: its signature
stands in the class, while its entry point has argument kinds and results of its own. Nothing in
the types ties the two together. `Method.RunsAs` says that they agree, once and for all methods of
one shape, and `Method.IsBuiltin.exists_runsAs` shows it for every method that a built-in class
declares.

What is claimed of a run is then claimed of `CallState.onReceiver`, with three facts about the
method: it takes as many slots as it declares, it gives a result of the kind that it declares, and
no error of its own is about the size of a stack.
-/

namespace HostMethods

/-! ### Which methods they are -/

/-- The method as its class declares it. -/
def RandomMethod.declared (m : RandomMethod) : Method :=
  .native ClassName.random m.name .publicFlag m.signature (.random m)

/-- The method as its class declares it. -/
def StreamMethod.declared (m : StreamMethod) : Method :=
  .native ClassName.printStream m.name .publicFlag m.signature (.stream m)

/-- The class of random number generators, whatever seed it was made with. -/
theorem Class.build_randomMembers (seed : Option UInt64) :
    (empty ClassName.random).build (RandomMethod.members seed) =
      .ok { empty ClassName.random with
        methods := (RandomMethod.all seed).map RandomMethod.declared } :=
  rfl

/-- The class of output streams. -/
theorem Class.build_streamMembers :
    (empty ClassName.printStream).build StreamMethod.members =
      .ok { empty ClassName.printStream with
        methods := StreamMethod.all.map StreamMethod.declared } :=
  rfl

/-- The methods of built-in classes: those of a class of random number generators, which may have
been made with any seed or none, and those of the class of output streams. -/
inductive Method.IsBuiltin : Method → Prop
  | random {seed : Option UInt64} {c : Class} {method : Method}
      (hbuild : (Class.empty ClassName.random).build (RandomMethod.members seed) = .ok c)
      (hmem : method ∈ c.methods) : IsBuiltin method
  | stream {c : Class} {method : Method}
      (hbuild : (Class.empty ClassName.printStream).build StreamMethod.members = .ok c)
      (hmem : method ∈ c.methods) : IsBuiltin method

@[simp]
theorem Method.signature_native (className name : String) (access : Access)
    (signature : Signature) (entry : Entry) :
    (native className name access signature entry).signature = signature :=
  rfl

/-- A public method takes a slot for each parameter and one for its receiver. -/
theorem Method.slotCount_native (className name : String) (signature : Signature) (entry : Entry) :
    (native className name .publicFlag signature entry).slotCount =
      signature.params.length + 1 := by
  have hstatic : (Access.union .publicFlag .nativeFlag).isStatic = false := by decide
  simp [slotCount, isStatic, native, hstatic]

/-- A built-in method is one of the declared ones. -/
theorem Method.IsBuiltin.eq_declared {method : Method} (h : method.IsBuiltin) :
    (∃ m : RandomMethod, method = m.declared) ∨ ∃ m : StreamMethod, method = m.declared := by
  cases h with
  | @random seed _ _ hbuild hmem =>
    rw [Class.build_randomMembers] at hbuild
    cases hbuild
    obtain ⟨m, -, rfl⟩ := List.mem_map.1 hmem
    exact .inl ⟨m, rfl⟩
  | stream hbuild hmem =>
    rw [Class.build_streamMembers] at hbuild
    cases hbuild
    obtain ⟨m, -, rfl⟩ := List.mem_map.1 hmem
    exact .inr ⟨m, rfl⟩

/-! ### What they promise -/

/-- Whether a value is in the form in which values of the type are held: the small integral types
as `int`, a truth value as 0 or 1, anything with an identity as a reference or null. -/
def GuestType.Holds : GuestType → Value → Prop
  | boolean, .int i => i = 0 ∨ i = 1
  | byte, .int _ | char, .int _ | short, .int _ | int, .int _ => True
  | long, .long _ => True
  | float, .float _ => True
  | double, .double _ => True
  | object _, .null | object _, .ref _ | array _, .null | array _, .ref _ => True
  | _, _ => False

/-- Whether a method that declares the result type may give this result: none for `void`, and
otherwise one value in the form of the type. -/
def GuestType.Answers (t : GuestType) : Option Value → Prop
  | none => t = .void
  | some v => t.Holds v

/-- `void` has no values, so a value is never an answer of a method without result. -/
theorem GuestType.Holds.ne_void {t : GuestType} {v : Value} (h : t.Holds v) : t ≠ .void := by
  rintro rfl
  cases v <;> exact h

/-- Truth values are written in the form of their type. -/
theorem ArgKind.holds_write_boolean (b : Bool) :
    GuestType.boolean.Holds (ArgKind.boolean.write b) := by
  cases b
  · exact .inl rfl
  · exact .inr rfl

/-- The method takes a receiver and arguments of the given kinds, works by the given effect, and
keeps to its declaration. -/
structure Method.RunsAs (method : Method) (kinds : List ArgKind)
    (effect : CallState.Effect kinds) : Prop where
  /-- Every call of the method is a call with a receiver. -/
  call_eq : ∀ c : CallState, method.call c = c.onReceiver kinds effect
  /-- The slots that the signature declares are the slots that are taken. -/
  slotCount_eq : method.slotCount = kinds.length + 1
  /-- The method never reports that a stack is too small or too empty. -/
  hitsLimit_of_error : ∀ {s r args e}, effect s r args = .error e → e.hitsLimit = false
  /-- The result is of the declared kind. -/
  answers_of_ok : ∀ {s r args result s'}, effect s r args = .ok (result, s') →
    method.signature.result.Answers result

/-! ### That they keep to it -/

/-- Whether an error is one that a method finds by itself once it has its arguments: a mistake of
the guest, or a slot that does not hold what the method needs. -/
def CallError.isOwn : CallError → Bool
  | raised _ | violated (.wrongState _ _ _) | violated (.slotTaken _) => true
  | _ => false

/-- An error that a method finds by itself is not about the size of a stack. -/
theorem CallError.hitsLimit_of_isOwn {e : CallError} (h : e.isOwn = true) :
    e.hitsLimit = false := by
  unfold isOwn at h
  split at h <;> trivial

namespace Store

variable {s s' : Store} {r : Ref} {className : String} {e : CallError}

theorem isOwn_of_initState_error {state : HostState}
    (h : s.initState r className state = .error e) : e.isOwn = true := by
  unfold initState at h
  split at h
  · cases h
    rfl
  · have hfull := Except.eq_error_of_map h
    unfold Instance.initState at hfull
    split at hfull <;> cases hfull
    rfl

theorem isOwn_of_stateOf_error {k : StateKind}
    (h : s.stateOf r className k = .error e) : e.isOwn = true := by
  unfold stateOf at h
  split at h
  · cases h
    rfl
  · have hslot := Except.eq_error_of_map h
    unfold Instance.stateAs at hslot
    split at hslot
    · cases hslot
      rfl
    · split at hslot <;> cases hslot
      rfl

end Store

/-- The type of the answer to a request. -/
def Draw.type : Draw → GuestType
  | int | below _ => .int
  | long => .long
  | boolean => .boolean

/-- A draw gives a value in the form of its type. -/
theorem Generator.holds_of_draw {g g' : Generator} {v : Value} {request : Draw}
    (h : g.draw request = .ok (v, g')) : request.type.Holds v := by
  cases request with
  | int =>
    cases h
    trivial
  | long =>
    cases h
    trivial
  | boolean =>
    cases h
    exact ArgKind.holds_write_boolean _
  | below bound =>
    obtain ⟨⟨i, g''⟩, -, h⟩ := Except.exists_of_map_eq_ok h
    cases h
    trivial

/-- What a method of a generator comes down to. -/
inductive GeneratorAction
  /-- Fills the empty slot with the generator of a seed. -/
  | start (seed : UInt64)
  /-- Fills the empty slot with a generator that nobody gave a seed. -/
  | startFromClock
  /-- Answers a request, and moves the generator on. -/
  | answer (request : Draw)
  /-- Puts the generator of a seed in the place of the one that is there. -/
  | restart (seed : UInt64)
  deriving DecidableEq

namespace GeneratorAction

/-- The result of an action on the generator behind a reference, and the store after it. -/
def perform (s : Store) (r : Ref) : GeneratorAction → Except CallError (Option Value × Store)
  | start seed => (RandomMethod.start s r seed).map (none, ·)
  | startFromClock =>
    (RandomMethod.start s r s.clock).map fun s ↦ (none, { s with clock := s.clock + 1 })
  | answer request => RandomMethod.answer s r request
  | restart seed => (RandomMethod.restart s r seed).map (none, ·)

/-- The type of an action's result. -/
def type : GeneratorAction → GuestType
  | answer request => request.type
  | _ => .void

/-- The action fills an empty slot. -/
def starts : GeneratorAction → Bool
  | start _ | startFromClock => true
  | answer _ | restart _ => false

variable {s s' : Store} {r : Ref} {a : GeneratorAction}

theorem isOwn_of_perform_error {e : CallError} (h : a.perform s r = .error e) :
    e.isOwn = true := by
  cases a with
  | start | startFromClock =>
    exact Store.isOwn_of_initState_error (Except.eq_error_of_map h)
  | answer request =>
    rw [perform, RandomMethod.answer] at h
    split at h
    next hstate =>
      cases h
      exact Store.isOwn_of_stateOf_error hstate
    · split at h <;> cases h
      rfl
  | restart seed =>
    have hrestart := Except.eq_error_of_map h
    rw [RandomMethod.restart] at hrestart
    split at hrestart <;> cases hrestart
    next hstate => exact Store.isOwn_of_stateOf_error hstate

theorem answers_of_perform_ok {result : Option Value} (h : a.perform s r = .ok (result, s')) :
    a.type.Answers result := by
  cases a with
  | start | startFromClock | restart =>
    obtain ⟨_, -, h⟩ := Except.exists_of_map_eq_ok h
    cases h
    rfl
  | answer request =>
    rw [perform, RandomMethod.answer] at h
    split at h
    · cases h
    · split at h <;> cases h
      next hdraw => exact Generator.holds_of_draw hdraw

end GeneratorAction

namespace RandomMethod

/-- The action that a method comes down to for its arguments. -/
def action : (m : RandomMethod) → Args m.arguments → GeneratorAction
  | construct (some seed), _ => .start seed
  | construct none, _ => .startFromClock
  | constructSeeded, .cons seed _ => .start seed.toUInt64
  | nextInt, _ => .answer .int
  | nextIntBelow, .cons bound _ => .answer (.below bound)
  | nextLong, _ => .answer .long
  | nextBoolean, _ => .answer .boolean
  | setSeed, .cons seed _ => .restart seed.toUInt64

/-- A method does what its action does. -/
theorem effect_eq_perform (m : RandomMethod) (s : Store) (r : Ref) (args : Args m.arguments) :
    m.effect s r args = (m.action args).perform s r := by
  cases m with
  | construct seed => cases seed <;> rfl
  | _ =>
    cases args
    rfl

/-- A method declares the result of its action. -/
theorem type_action (m : RandomMethod) (args : Args m.arguments) :
    (m.action args).type = m.signature.result := by
  cases m with
  | construct seed => cases seed <;> rfl
  | _ =>
    cases args
    rfl

/-- The methods that start a generator are the constructors. -/
theorem starts_action (m : RandomMethod) (args : Args m.arguments) :
    (m.action args).starts = decide (m.name = constructorName) := by
  cases m with
  | construct seed => cases seed <;> rfl
  | _ =>
    cases args
    rfl

/-- **Every method of a generator keeps to its declaration.** -/
theorem declared_runsAs (m : RandomMethod) : m.declared.RunsAs m.arguments m.effect where
  call_eq _ := rfl
  slotCount_eq := by
    rw [declared, Method.slotCount_native]
    cases m <;> rfl
  hitsLimit_of_error h := by
    rw [effect_eq_perform] at h
    exact CallError.hitsLimit_of_isOwn (GeneratorAction.isOwn_of_perform_error h)
  answers_of_ok h := by
    rw [effect_eq_perform] at h
    rw [declared, Method.signature_native, ← type_action]
    exact GeneratorAction.answers_of_perform_ok h

end RandomMethod

namespace StreamMethod

variable {s s' : Store} {r : Ref} {m : StreamMethod} {args : Args m.arguments}

theorem isOwn_of_effect_error {e : CallError} (h : m.effect s r args = .error e) :
    e.isOwn = true := by
  unfold effect at h
  split at h
  next hstate =>
    cases h
    exact Store.isOwn_of_stateOf_error hstate
  · split at h <;> cases h
    rfl

/-- The type of the result of an action is the one that the method declares. -/
theorem answers_of_action {a : StreamAction} (h : action s m args = .ok a) (i : Instance)
    (stream : Stream) : m.signature.result.Answers (a.perform s r i stream).1 := by
  cases m with
  | printString | printlnString =>
    cases args
    obtain ⟨text, -, rfl⟩ := Except.exists_of_map_eq_ok h
    rfl
  | printChar | printlnInt =>
    cases args
    cases h
    rfl
  | println | flush =>
    cases args
    cases h
    rfl
  | checkError =>
    cases args
    cases h
    exact ArgKind.holds_write_boolean _

theorem answers_of_effect_ok {result : Option Value}
    (h : m.effect s r args = .ok (result, s')) : m.signature.result.Answers result := by
  unfold effect at h
  split at h
  · cases h
  · split at h
    · cases h
    next haction =>
      have hresult : _ = result := congrArg Prod.fst (Except.ok.inj h)
      exact hresult ▸ answers_of_action haction _ _

/-- **Every method of a stream keeps to its declaration.** -/
theorem declared_runsAs (m : StreamMethod) : m.declared.RunsAs m.arguments m.effect where
  call_eq _ := rfl
  slotCount_eq := by
    rw [declared, Method.slotCount_native]
    cases m <;> rfl
  hitsLimit_of_error h := CallError.hitsLimit_of_isOwn (isOwn_of_effect_error h)
  answers_of_ok := answers_of_effect_ok

end StreamMethod

/-- **Every built-in method keeps to its declaration.** -/
theorem Method.IsBuiltin.exists_runsAs {method : Method} (h : method.IsBuiltin) :
    ∃ (kinds : List ArgKind) (effect : CallState.Effect kinds), method.RunsAs kinds effect := by
  obtain ⟨m, rfl⟩ | ⟨m, rfl⟩ := h.eq_declared
  · exact ⟨m.arguments, m.effect, m.declared_runsAs⟩
  · exact ⟨m.arguments, m.effect, m.declared_runsAs⟩

end HostMethods
