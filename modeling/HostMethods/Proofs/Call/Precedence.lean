import HostMethods.Proofs.Call.Builtin
import HostMethods.Proofs.Stack.Demands
import HostMethods.Proofs.Store.Evolution

/-!
# Which defect a call reports

Several things can be wrong with one call of a built-in method, and the call reports one of them.
`Method.findings` lists the checks that matter for a call, in the order of their precedence, with
what each of them finds: first the slots from the top down, then the class of the receiver, then the
state behind it, and last the value of the argument. The list is read off the declaration of the
method, the store and the stack, and says nothing of how a method is carried out.

The outcome of a call is the first finding of this list (`Method.IsBuiltin.reports`). So an argument
with a bad value is never reported in the place of a receiver that is missing, foreign or not yet
constructed.
-/

namespace HostMethods

/-! ### Findings -/

/-- What a check of a call finds: the error that it ends the call with, or nothing. -/
abbrev Finding : Type :=
  Option CallError

/-- The outcome of a call whose checks find this. -/
def firstFailure : List Finding → Except CallError Unit
  | [] => .ok ()
  | none :: later => firstFailure later
  | some e :: _ => .error e

section Findings

variable {findings later : List Finding} {e : CallError}

theorem firstFailure_append_of_ok (h : firstFailure findings = .ok ()) :
    firstFailure (findings ++ later) = firstFailure later := by
  induction findings with
  | nil => rfl
  | cons finding findings ih =>
    rcases finding with - | e
    · exact ih h
    · exact absurd h nofun

theorem firstFailure_append_of_error (h : firstFailure findings = .error e) :
    firstFailure (findings ++ later) = .error e := by
  induction findings with
  | nil => exact absurd h nofun
  | cons finding findings ih =>
    rcases finding with - | e'
    · exact ih h
    · exact h

/-- A call succeeds if none of its checks finds anything. -/
theorem firstFailure_eq_ok_iff :
    firstFailure findings = .ok () ↔ ∀ finding ∈ findings, finding = none := by
  induction findings with
  | nil => exact iff_of_true rfl nofun
  | cons finding findings ih =>
    rw [List.forall_mem_cons, ← ih]
    rcases finding with - | e
    · exact (and_iff_right rfl).symm
    · exact iff_of_false nofun fun h ↦ absurd h.1 nofun

/-- A call fails with the first error that its checks find. -/
theorem firstFailure_eq_error_iff :
    firstFailure findings = .error e ↔
      ∃ earlier later, findings = earlier ++ some e :: later ∧
        ∀ finding ∈ earlier, finding = none := by
  constructor
  · intro h
    induction findings with
    | nil => exact absurd h nofun
    | cons finding findings ih =>
      rcases finding with - | e'
      · obtain ⟨earlier, later, rfl, hearlier⟩ := ih h
        exact ⟨none :: earlier, later, rfl, List.forall_mem_cons.2 ⟨rfl, hearlier⟩⟩
      · cases h
        exact ⟨[], findings, rfl, nofun⟩
  · rintro ⟨earlier, later, rfl, hearlier⟩
    exact firstFailure_append_of_ok (firstFailure_eq_ok_iff.2 hearlier)

end Findings

/-! ### Slots -/

/-- The kind of argument that the slot of a parameter is read as. No parameter is `void`. -/
def GuestType.argKind : GuestType → ArgKind
  | boolean => .boolean
  | char => .char
  | byte | short | int => .int
  | long => .long
  | float => .float
  | double => .double
  | object _ | array _ => .nullable
  | void => .any

/-- A slot has to be there, and to meet its demand. -/
def Demand.finding (d : Demand) : Option Value → Finding
  | none => some (.stack .underflow)
  | some v => d v

/-- The slots from the top, one for each demand. -/
def slotFindings (demands : List Demand) (slots : List Value) : List Finding :=
  demands.mapIdx fun n d ↦ d.finding slots[n]?

theorem slotFindings_cons (d : Demand) (ds : List Demand) (slots : List Value) :
    slotFindings (d :: ds) slots = d.finding slots.head? :: slotFindings ds slots.tail := by
  rw [slotFindings, List.mapIdx_cons, List.head?_eq_getElem?, slotFindings]
  simp only [List.getElem?_tail]

/-- **The first slot that is refused is the first finding.** -/
theorem firstFailure_slotFindings (ds : List Demand) (slots : List Value) :
    firstFailure (slotFindings ds slots) =
      match OperandStack.firstRefusal ds slots with
      | none => .ok ()
      | some (e, _) => .error e := by
  induction ds generalizing slots with
  | nil => rfl
  | cons d ds ih =>
    rw [slotFindings_cons]
    match slots with
    | [] => rfl
    | v :: vs =>
      show firstFailure (d v :: slotFindings ds vs) = _
      rcases hd : d v with - | e
      · rw [OperandStack.firstRefusal_cons_of_met hd]
        exact ih vs
      · rw [OperandStack.firstRefusal_cons_of_unmet hd]
        rfl

/-! ### The receiver -/

namespace Object

/-- A receiver has to be an instance of the class named. -/
def classFinding (className : String) (o : Object) : Finding :=
  if o.instance?.any (·.cls.name = className) then none
  else some (.raised (.wrongType className o.className))

/-- A constructor needs an object without state, any other method one with state of its kind. -/
def stateFinding (constructs : Bool) (k : StateKind) (o : Object) : Finding :=
  o.instance?.bind fun i ↦
    match constructs, i.state with
    | true, none => none
    | true, some _ => some (.violated (.slotTaken i.cls.name))
    | false, none =>
      some (.raised (.nullUse (i.cls.name ++ " instance used before its constructor ran")))
    | false, some state =>
      if state.kind = k then none else some (.violated (.wrongState i.cls.name k state.kind))

/-- What is given for a string has to be one. -/
def stringFinding (o : Object) : Finding :=
  if o.text?.isSome then none else some (.raised (.wrongType ClassName.string o.className))

end Object

/-- The bound of a draw has to leave a number. -/
def boundFinding (bound : Int32) : Finding :=
  if bound ≤ 0 then
    some (.raised (.badArgument ("bound must be positive, got " ++ toString bound.toInt)))
  else none

namespace Method

variable (m : Method) (s : Store) (slots : List Value)

/-- The kind of state behind the receivers of a built-in method. -/
def stateKind : StateKind :=
  if m.className = ClassName.random then .generator else .stream

/-- What the receiver's slot leads to, if there is a reference in it. -/
def receiver? : Option Object :=
  slots[m.signature.params.length]?.bind fun v ↦ v.ref?.map s.object

/-- What is asked of the value of an argument, beyond its type: the bound of a draw is a bound, and
a reference that is given for a string leads to one. -/
def valueFinding : Finding :=
  match slots with
  | .int bound :: _ =>
    if m.className = ClassName.random ∧ m.name = "nextInt" ∧ m.signature.params = [.int] then
      boundFinding bound
    else none
  | .ref q :: _ =>
    if m.signature.params = [.object ClassName.string] then (s.object q).stringFinding else none
  | _ => none

theorem valueFinding_int (bound : Int32) :
    m.valueFinding s (.int bound :: slots) =
      if m.className = ClassName.random ∧ m.name = "nextInt" ∧ m.signature.params = [.int] then
        boundFinding bound
      else none :=
  rfl

theorem valueFinding_ref (q : Ref) :
    m.valueFinding s (.ref q :: slots) =
      if m.signature.params = [.object ClassName.string] then (s.object q).stringFinding
      else none :=
  rfl

/-- What the checks of a call find, in the order of their precedence. -/
def findings : List Finding :=
  slotFindings (callDemands (m.signature.params.map GuestType.argKind)) slots ++
    [(m.receiver? s slots).bind (·.classFinding m.className),
      (m.receiver? s slots).bind (·.stateFinding (m.name = constructorName) m.stateKind),
      m.valueFinding s slots]

end Method

/-! ### What the steps of a method find -/

section Steps

variable {s : Store} {r : Ref} {className : String} {k : StateKind}

theorem Instance.map_stateAs (i : Instance) (k : StateKind) :
    (i.stateAs k).map (fun _ ↦ ()) = firstFailure [(Object.inst i).stateFinding false k] := by
  rw [stateAs, Object.stateFinding]
  rcases hstate : i.state with - | state
  · simp only [Object.instance?, Option.bind_some, hstate]
    rfl
  · simp only [Object.instance?, Option.bind_some, hstate]
    by_cases hkind : state.kind = k
    · obtain ⟨content, hcontent⟩ := Option.ne_none_iff_exists'.1
        (mt HostState.as?_eq_none_iff.1 (not_not.2 hkind))
      rw [if_pos hkind, hcontent]
      rfl
    · rw [if_neg hkind, HostState.as?_eq_none_iff.2 hkind]
      rfl

theorem Instance.map_initState (i : Instance) (state : HostState) :
    (i.initState state).map (fun _ ↦ ()) =
      firstFailure [(Object.inst i).stateFinding true k] := by
  rw [initState, Object.stateFinding]
  rcases hstate : i.state with - | filled
  · simp only [Object.instance?, Option.bind_some, hstate]
    rfl
  · simp only [Object.instance?, Option.bind_some, hstate]
    rfl

/-- What is done with an instance comes after the check of its class. -/
theorem Store.map_instanceOf {α : Type} {f : Instance → Except CallError α} {finding : Finding}
    (hf : ∀ i, s.object r = .inst i → (f i).map (fun _ ↦ ()) = firstFailure [finding]) :
    Except.map (fun _ ↦ ())
        (match s.instanceOf r className with
        | .error e => .error (.raised e)
        | .ok i => f i) =
      firstFailure [(s.object r).classFinding className, finding] := by
  rw [instanceOf, Object.classFinding]
  rcases ho : s.object r with text | i
  · rfl
  · by_cases hclass : i.cls.name = className
    · simp only [Object.instance?, Option.any_some, hclass]
      exact hf i ho
    · simp only [Object.instance?, Option.any_some, hclass]
      rfl

theorem Store.map_stateOf :
    (s.stateOf r className k).map (fun _ ↦ ()) =
      firstFailure [(s.object r).classFinding className, (s.object r).stateFinding false k] := by
  refine map_instanceOf fun i hobject ↦ ?_
  rw [hobject, ← i.map_stateAs]
  cases i.stateAs k <;> rfl

theorem Store.map_initState {state : HostState} :
    (s.initState r className state).map (fun _ ↦ ()) =
      firstFailure [(s.object r).classFinding className, (s.object r).stateFinding true k] := by
  refine map_instanceOf fun i hobject ↦ ?_
  rw [hobject, ← i.map_initState state]
  cases i.initState state <;> rfl

/-- What comes after the first step is looked at only if this step finds nothing. -/
theorem Except.map_eq_of_step {α β : Type} {step : Except CallError α} {whole : Except CallError β}
    {findings later : List Finding} (hstep : step.map (fun _ ↦ ()) = firstFailure findings)
    (herror : ∀ e, step = .error e → whole = .error e)
    (hok : ∀ a, step = .ok a → whole.map (fun _ ↦ ()) = firstFailure later) :
    whole.map (fun _ ↦ ()) = firstFailure (findings ++ later) := by
  rcases step with e | a
  · rw [herror e rfl, firstFailure_append_of_error hstep.symm]
    rfl
  · rw [firstFailure_append_of_ok hstep.symm]
    exact hok a rfl

/-- Repacking what a step gave finds nothing. -/
theorem Except.map_map_eq {α β : Type} {x : Except CallError α} {f : α → β}
    {findings : List Finding} (hx : x.map (fun _ ↦ ()) = firstFailure findings) :
    (x.map f).map (fun _ ↦ ()) = firstFailure (findings ++ [none]) := by
  rcases x with e | a
  · exact (firstFailure_append_of_error hx.symm).symm
  · rw [firstFailure_append_of_ok hx.symm]
    rfl

end Steps

/-! ### What the methods find -/

/-- What is asked of the bound of a draw. -/
def GeneratorAction.valueFinding : GeneratorAction → Finding
  | answer (.below bound) => boundFinding bound
  | _ => none

theorem Generator.map_draw (g : Generator) (request : Draw) :
    (match g.draw request with
      | .error e => .error (.raised e)
      | .ok _ => .ok ()) = firstFailure [(GeneratorAction.answer request).valueFinding] := by
  match request with
  | .int | .long | .boolean => rfl
  | .below bound =>
    rw [draw, drawBelow, GeneratorAction.valueFinding, boundFinding]
    by_cases hbound : bound ≤ 0
    · rw [if_pos hbound, if_pos hbound]
      rfl
    · rw [if_neg hbound, if_neg hbound]
      rfl

/-- A draw comes after the check of the receiver. -/
theorem RandomMethod.map_answer (s : Store) (r : Ref) (request : Draw) :
    (answer s r request).map (fun _ ↦ ()) =
      firstFailure [(s.object r).classFinding ClassName.random,
        (s.object r).stateFinding false .generator,
        (GeneratorAction.answer request).valueFinding] := by
  refine Except.map_eq_of_step Store.map_stateOf (fun e he ↦ ?_) fun found hfound ↦ ?_
  · rw [answer, he]
  · obtain ⟨i, g⟩ := found
    rw [answer, hfound, ← g.map_draw request]
    dsimp only
    cases g.draw request <;> rfl

theorem RandomMethod.map_restart (s : Store) (r : Ref) (seed : UInt64) :
    (restart s r seed).map (fun _ ↦ ()) =
      firstFailure [(s.object r).classFinding ClassName.random,
        (s.object r).stateFinding false .generator] := by
  rw [← Store.map_stateOf, restart]
  cases s.stateOf r ClassName.random .generator <;> rfl

theorem GeneratorAction.map_perform (a : GeneratorAction) (s : Store) (r : Ref) :
    (a.perform s r).map (fun _ ↦ ()) =
      firstFailure [(s.object r).classFinding ClassName.random,
        (s.object r).stateFinding a.starts .generator, a.valueFinding] := by
  cases a with
  | start seed => exact Except.map_map_eq Store.map_initState
  | startFromClock => exact Except.map_map_eq Store.map_initState
  | answer request => exact RandomMethod.map_answer s r request
  | restart seed => exact Except.map_map_eq (RandomMethod.map_restart s r seed)

/-- What is asked of the argument of a stream's method. -/
def StreamAction.valueFinding : Except Exception StreamAction → Finding
  | .error e => some (.raised e)
  | .ok _ => none

theorem StreamMethod.map_effect (m : StreamMethod) (s : Store) (r : Ref) (args : Args m.arguments) :
    (m.effect s r args).map (fun _ ↦ ()) =
      firstFailure [(s.object r).classFinding ClassName.printStream,
        (s.object r).stateFinding false .stream, StreamAction.valueFinding (action s m args)] := by
  refine Except.map_eq_of_step Store.map_stateOf (fun e he ↦ ?_) fun found hfound ↦ ?_
  · rw [effect, he]
  · rw [effect, hfound]
    cases action s m args <;> rfl

/-! ### What the declarations say about it -/

section Declared

variable {s : Store} {slots vs below : List Value} {r : Ref}

theorem RandomMethod.valueFinding_declared {m : RandomMethod} {args : Args m.arguments}
    (hread : args.ReadFrom vs) (hslots : slots = vs.reverse ++ .ref r :: below) :
    m.declared.valueFinding s slots = (m.action args).valueFinding := by
  match m, args with
  | construct seed, .nil =>
    obtain rfl : vs = [] := hread
    cases seed <;> exact hslots ▸ rfl
  | nextInt, .nil | nextLong, .nil | nextBoolean, .nil =>
    obtain rfl : vs = [] := hread
    exact hslots ▸ rfl
  | constructSeeded, .cons seed .nil | setSeed, .cons seed .nil =>
    obtain ⟨v, -, rfl, hv, rfl⟩ := hread
    cases v <;> cases hv
    exact hslots ▸ rfl
  | nextIntBelow, .cons bound .nil =>
    obtain ⟨v, -, rfl, hv, rfl⟩ := hread
    cases v <;> cases hv
    rw [hslots]
    exact (Method.valueFinding_int _ s _ bound).trans (if_pos ⟨rfl, rfl, rfl⟩)

theorem StreamMethod.valueFinding_declared {m : StreamMethod} {args : Args m.arguments}
    (hread : args.ReadFrom vs) (hslots : slots = vs.reverse ++ .ref r :: below) :
    m.declared.valueFinding s slots = StreamAction.valueFinding (action s m args) := by
  match m, args with
  | println, .nil | flush, .nil | checkError, .nil =>
    obtain rfl : vs = [] := hread
    exact hslots ▸ rfl
  | printChar, .cons c .nil =>
    obtain ⟨v, -, rfl, hv, rfl⟩ := hread
    cases v <;> cases hv
    rw [hslots]
    exact (Method.valueFinding_int _ s _ _).trans (if_neg fun h ↦ absurd h.1 (by decide))
  | printlnInt, .cons i .nil =>
    obtain ⟨v, -, rfl, hv, rfl⟩ := hread
    cases v <;> cases hv
    rw [hslots]
    exact (Method.valueFinding_int _ s _ _).trans (if_neg fun h ↦ absurd h.1 (by decide))
  | printString, .cons arg .nil | printlnString, .cons arg .nil =>
    obtain ⟨v, -, rfl, hv, rfl⟩ := hread
    rw [hslots]
    cases v <;> cases hv
    · rfl
    next q =>
      refine (Method.valueFinding_ref _ s _ q).trans ((if_pos rfl).trans ?_)
      show _ = StreamAction.valueFinding ((s.stringAt q).map _)
      rw [Object.stringFinding, Store.stringAt]
      cases s.object q <;> rfl

end Declared

/-! ### Calls -/

section Calls

variable {c : CallState} {kinds : List ArgKind} {effect : CallState.Effect kinds}

/-- The slots are looked at before anything else. -/
theorem CallState.onReceiver_eq_firstFailure {later : List Finding}
    (hlater : ∀ {r args vs below}, Args.ReadFrom args vs →
      c.stack.slots = vs.reverse ++ .ref r :: below →
      (effect c.store r args).map (fun _ ↦ ()) = firstFailure later) :
    (c.onReceiver kinds effect).1 =
      firstFailure (slotFindings (callDemands kinds) c.stack.slots ++ later) := by
  have hexamined := OperandStack.takeCall_examined kinds c.stack
  have hslots := firstFailure_slotFindings (callDemands kinds) c.stack.slots
  have hreceived := c.onReceiver_received kinds effect
  generalize c.onReceiver kinds effect = result at hreceived
  obtain ⟨outcome, c'⟩ := result
  rcases hreceived with htake | ⟨-, htake, heffect⟩ | ⟨-, htake, heffect, -, -⟩
  · rw [htake] at hexamined
    rw [hexamined.of_error.1] at hslots
    exact (firstFailure_append_of_error hslots).symm
  all_goals
    rw [htake] at hexamined
    rw [hexamined.of_ok.1] at hslots
    obtain ⟨vs, hread, htop⟩ := OperandStack.slots_of_takeCall htake
    rw [firstFailure_append_of_ok hslots, ← hlater hread htop, heffect]
    rfl

/-- The receiver is below the arguments. -/
theorem Method.receiver?_of_slots {m : Method} {s : Store} {args : Args kinds}
    {slots vs below : List Value} {r : Ref}
    (hkinds : m.signature.params.map GuestType.argKind = kinds) (hread : args.ReadFrom vs)
    (hslots : slots = vs.reverse ++ .ref r :: below) :
    m.receiver? s slots = some (s.object r) := by
  have hlength : m.signature.params.length = vs.reverse.length := by
    rw [List.length_reverse, hread.length_eq, ← hkinds, List.length_map]
  rw [receiver?, hslots, hlength, List.getElem?_append_right (Nat.le_refl _), Nat.sub_self]
  rfl

/-- The argument kinds of a method are those of its declared parameters. -/
theorem RandomMethod.map_argKind (m : RandomMethod) :
    m.declared.signature.params.map GuestType.argKind = m.arguments := by
  cases m <;> rfl

/-- The argument kinds of a method are those of its declared parameters. -/
theorem StreamMethod.map_argKind (m : StreamMethod) :
    m.declared.signature.params.map GuestType.argKind = m.arguments := by
  cases m <;> rfl

/-- No method of a stream is a constructor. -/
theorem StreamMethod.name_declared_ne (m : StreamMethod) : m.declared.name ≠ constructorName := by
  cases m <;> decide

/-- **The outcome of a call is its first finding.** -/
theorem Method.IsBuiltin.call_eq_firstFailure {method : Method} (h : method.IsBuiltin)
    (c : CallState) :
    (method.call c).1 = firstFailure (method.findings c.store c.stack.slots) := by
  obtain ⟨m, rfl⟩ | ⟨m, rfl⟩ := h.eq_declared
  · rw [findings, m.map_argKind]
    refine CallState.onReceiver_eq_firstFailure fun hread hslots ↦ ?_
    rw [m.effect_eq_perform, GeneratorAction.map_perform,
      receiver?_of_slots m.map_argKind hread hslots,
      RandomMethod.valueFinding_declared hread hslots, m.starts_action]
    rfl
  · rw [findings, m.map_argKind]
    refine CallState.onReceiver_eq_firstFailure fun hread hslots ↦ ?_
    rw [m.map_effect, receiver?_of_slots m.map_argKind hread hslots,
      StreamMethod.valueFinding_declared hread hslots, decide_eq_false m.name_declared_ne]
    rfl

end Calls

/-! ### Errors about the value of an argument -/

/-- Whether an error is about the value of an argument: it leaves no number below it, or it is no
string. -/
def CallError.isOfValue : CallError → Bool
  | raised (.badArgument _) => true
  | raised (.wrongType expected _) => expected = ClassName.string
  | _ => false

section Values

variable {s : Store} {slots : List Value} {ks : List ArgKind} {r : Ref} {o : Object}
  {className : String} {k : StateKind} {m : Method} {e : CallError}

theorem ArgKind.isOfValue_of_demand {k : ArgKind} {v : Value} (h : k.demand v = some e) :
    e.isOfValue = false := by
  rw [demand] at h
  split at h
  · exact absurd h nofun
  · obtain rfl := Option.some.inj h
    have hname : k.name ≠ ClassName.string := by cases k <;> decide
    unfold complaint
    split
    · rfl
    · exact decide_eq_false hname

/-- No slot is refused for the value of an argument. -/
theorem isOfValue_of_firstFailure_slotFindings
    (h : firstFailure (slotFindings (callDemands ks) slots) = .error e) : e.isOfValue = false := by
  rw [firstFailure_slotFindings] at h
  rcases hfirst : OperandStack.firstRefusal (callDemands ks) slots with - | ⟨e', below⟩
  · rw [hfirst] at h
    exact absurd h nofun
  · rw [hfirst] at h
    cases h
    match OperandStack.refused_iff.2 hfirst with
    | @OperandStack.Refused.unmet _ _ _ _ d _ _ v _ hdemands _ _ hunmet =>
      have hd : d ∈ callDemands ks := hdemands ▸ List.mem_append_right _ List.mem_cons_self
      rcases List.mem_append.1 hd with harg | hreceiver
      · obtain ⟨k, -, rfl⟩ := List.mem_map.1 (List.mem_reverse.1 harg)
        exact ArgKind.isOfValue_of_demand hunmet
      · obtain rfl := List.mem_singleton.1 hreceiver
        cases v <;> cases hunmet <;> rfl
    | .exhausted _ _ => rfl

theorem Object.isOfValue_of_classFinding (hclass : className ≠ ClassName.string)
    (h : o.classFinding className = some e) : e.isOfValue = false := by
  rw [classFinding] at h
  split at h <;> cases h
  exact decide_eq_false hclass

theorem Object.isOfValue_of_stateFinding {constructs : Bool}
    (h : o.stateFinding constructs k = some e) : e.isOfValue = false := by
  match o with
  | .text _ => exact absurd h nofun
  | .inst i =>
    rw [stateFinding, instance?, Option.bind_some] at h
    split at h
    · cases h
    · cases h
      rfl
    · cases h
      rfl
    · split at h <;> cases h
      rfl

/-- If no slot is refused, then there is a receiver. -/
theorem exists_receiver_of_firstFailure_slotFindings
    (h : firstFailure (slotFindings (callDemands ks) slots) = .ok ()) :
    ∃ r, slots[ks.length]? = some (.ref r) := by
  have hreceiver : OperandStack.firstRefusal [receiverDemand] (slots.drop ks.length) = none := by
    rw [firstFailure_slotFindings, callDemands, OperandStack.firstRefusal_append,
      length_argDemands] at h
    split at h
    next hnone => exact (Option.or_eq_none_iff.1 hnone).2
    · cases h
  rw [← List.head?_drop]
  generalize slots.drop ks.length = rest at hreceiver
  rcases rest with - | ⟨v, rest⟩
  · cases hreceiver
  · cases v <;> cases hreceiver
    exact ⟨_, rfl⟩

/-- A receiver in which nothing is found has been constructed. -/
theorem Store.exists_state_of_findings (hclass : (s.object r).classFinding className = none)
    (hstate : (s.object r).stateFinding false k = none) :
    ∃ i content, s.object r = .inst i ∧ i.cls.name = className ∧ i.state = some ⟨k, content⟩ := by
  have hfindings : (s.stateOf r className k).map (fun _ ↦ ()) = .ok () := by
    rw [map_stateOf, hclass, hstate]
    rfl
  obtain ⟨⟨i, content⟩, hstateOf, -⟩ := Except.exists_of_map_eq_ok hfindings
  exact ⟨i, content, stateOf_eq_ok_iff.1 hstateOf⟩

/-- The value of an argument is looked at last. -/
theorem Method.exists_state_of_isOfValue (hclass : m.className ≠ ClassName.string)
    (hvalue : m.valueFinding s slots ≠ none → m.name ≠ constructorName)
    (h : firstFailure (m.findings s slots) = .error e) (he : e.isOfValue = true) :
    ∃ r i content, slots[m.signature.params.length]? = some (.ref r) ∧ s.object r = .inst i ∧
      i.cls.name = m.className ∧ i.state = some ⟨m.stateKind, content⟩ := by
  have hne : ∀ {e' : CallError}, e'.isOfValue = false → e' ≠ e := by
    rintro _ hfalse rfl
    exact absurd (hfalse.symm.trans he) (by decide)
  rw [findings] at h
  rcases hslots : firstFailure (slotFindings (callDemands (m.signature.params.map
    GuestType.argKind)) slots) with e' | u
  · rw [firstFailure_append_of_error hslots] at h
    exact absurd (Except.error.inj h) (hne (isOfValue_of_firstFailure_slotFindings hslots))
  rw [firstFailure_append_of_ok hslots] at h
  obtain ⟨r, hr⟩ := exists_receiver_of_firstFailure_slotFindings hslots
  rw [List.length_map] at hr
  have hreceiver : m.receiver? s slots = some (s.object r) := by
    rw [receiver?, hr]
    rfl
  rw [hreceiver, Option.bind_some, Option.bind_some] at h
  rcases hfirst : (s.object r).classFinding m.className with - | e'
  · rcases hsecond : (s.object r).stateFinding (decide (m.name = constructorName)) m.stateKind
      with - | e'
    · rw [hfirst, hsecond] at h
      have hname : m.name ≠ constructorName := hvalue fun hnone ↦ by
        rw [hnone] at h
        exact absurd h nofun
      rw [decide_eq_false hname] at hsecond
      obtain ⟨i, content, hstate⟩ := Store.exists_state_of_findings hfirst hsecond
      exact ⟨r, i, content, hr, hstate⟩
    · rw [hfirst, hsecond] at h
      exact absurd (Except.error.inj h) (hne (Object.isOfValue_of_stateFinding hsecond))
  · rw [hfirst] at h
    exact absurd (Except.error.inj h) (hne (Object.isOfValue_of_classFinding hclass hfirst))

end Values

/-- A constructor asks nothing of the value of its argument. -/
theorem Method.IsBuiltin.name_ne_of_valueFinding {method : Method} (h : method.IsBuiltin)
    {s : Store} {slots : List Value} (hvalue : method.valueFinding s slots ≠ none) :
    method.name ≠ constructorName := by
  intro hname
  have hdraw : method.name ≠ "nextInt" := by
    rw [hname]
    decide
  -- the methods that take a string are not named like a constructor
  have hstring : method.signature.params ≠ [.object ClassName.string] := by
    intro hparams
    obtain ⟨m, rfl⟩ | ⟨m, rfl⟩ := h.eq_declared
    · cases m <;> cases hparams
    · exact m.name_declared_ne hname
  refine hvalue ?_
  unfold valueFinding
  split
  · exact if_neg fun hdraws ↦ hdraw hdraws.2.1
  · exact if_neg hstring
  · rfl

/-! ### The outcome -/

/-- The outcome is the first finding of a call, and a bad value is the last thing that is found. -/
structure Method.Reports (m : Method) (c : CallState) (outcome : Except CallError Unit) : Prop where
  /-- A call succeeds exactly if no check finds anything. -/
  ok_iff : outcome = .ok () ↔ ∀ finding ∈ m.findings c.store c.stack.slots, finding = none
  /-- A call fails with an error exactly if a check finds it and all earlier checks find
  nothing. -/
  error_iff : ∀ e : CallError, outcome = .error e ↔
    ∃ earlier later, m.findings c.store c.stack.slots = earlier ++ some e :: later ∧
      ∀ finding ∈ earlier, finding = none
  /-- The value of an argument is reported only to a receiver of the method's class that has been
  constructed. -/
  exists_state_of_isOfValue : ∀ e : CallError, outcome = .error e → e.isOfValue = true →
    ∃ r i content, c.stack.slots[m.signature.params.length]? = some (.ref r) ∧
      c.store.object r = .inst i ∧ i.cls.name = m.className ∧ i.state = some ⟨m.stateKind, content⟩

/-- **A call reports the first of its defects.** -/
theorem Method.IsBuiltin.call_reports {method : Method} (hbuiltin : method.IsBuiltin)
    (c : CallState) : method.Reports c (method.call c).1 where
  ok_iff := by rw [hbuiltin.call_eq_firstFailure, firstFailure_eq_ok_iff]
  error_iff e := by rw [hbuiltin.call_eq_firstFailure, firstFailure_eq_error_iff]
  exists_state_of_isOfValue e h he := by
    rw [hbuiltin.call_eq_firstFailure] at h
    have hclass : method.className ≠ ClassName.string := by
      obtain ⟨m, rfl⟩ | ⟨m, rfl⟩ := hbuiltin.eq_declared
      · show ClassName.random ≠ ClassName.string
        decide
      · show ClassName.printStream ≠ ClassName.string
        decide
    exact exists_state_of_isOfValue hclass hbuiltin.name_ne_of_valueFinding h he

/-- A generator that has not been constructed, and a bound that leaves no number. -/
def CallState.withTwoDefects : CallState where
  stack := ⟨[.int 0, .ref ⟨0⟩], 0⟩
  store :=
    { objects := #[.inst (.fresh ⟨0, .empty ClassName.random⟩)]
      statics := #[[]]
      sinks := #[]
      clock := 0 }

/-- The receiver is reported, and the bound is not. -/
theorem Method.IsBuiltin.call_reports_receiver :
    RandomMethod.nextIntBelow.declared.Reports .withTwoDefects
        (.error (.raised (.nullUse (ClassName.random ++
          " instance used before its constructor ran")))) ∧
      RandomMethod.nextIntBelow.declared.valueFinding CallState.withTwoDefects.store
        CallState.withTwoDefects.stack.slots ≠ none := by
  have hbuiltin : RandomMethod.nextIntBelow.declared.IsBuiltin :=
    .random (Class.build_randomMembers none) (List.mem_map_of_mem (by decide))
  exact ⟨hbuiltin.call_reports .withTwoDefects, nofun⟩

end HostMethods
