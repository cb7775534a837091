import HostMethods.Proofs.Run.Draws
import HostMethods.Proofs.Run.Quiet

/-!
# A generator is constructed once

A constructor needs an object whose slot is empty, and every other method of generators needs one
that has been constructed (`RandomMethod.constructed_iff_of_effect`). What has been constructed
stays so, whatever happens (`Machine.constructed_step`). So if the host brings in no generators of
its own, the successful calls on any one object are a single construction followed by other methods,
or nothing at all (`Machine.constructedOnce`).
-/

namespace HostMethods

/-- The object is a random number generator that has been constructed. -/
def Store.Constructed (s : Store) (r : Ref) : Prop :=
  ∃ g, s.Generates r g

/-- A constructor comes first, if there is anything, and no other constructor comes later. -/
def RandomMethod.ConstructedOnce : List RandomMethod → Prop
  | [] => True
  | first :: rest =>
    first.name = constructorName ∧ ∀ method ∈ rest, method.name ≠ constructorName

/-- The command puts no state behind objects by itself. -/
def Command.BringsNoState : Command → Prop
  | newInstance _ (some _) | initState _ _ => False
  | _ => True

namespace Machine

/-- The method of generators that a command calls on an object: the call has to succeed. -/
def randomMethod? (m : Machine) (r : Ref) (cmd : Command) : Option RandomMethod :=
  match (m.callee? cmd).map Method.body with
  | some (.native (.random method)) => (m.generatorEvent? r cmd).map fun _ ↦ method
  | _ => none

/-- The methods of generators that commands, carried out one after the other, call on an object. -/
def randomMethods (m : Machine) (r : Ref) : List Command → List RandomMethod
  | [] => []
  | cmd :: cmds => (m.randomMethod? r cmd).toList ++ (m.step cmd).1.randomMethods r cmds

end Machine

/-! ### What a method needs -/

section Effects

variable {s s' : Store} {r : Ref} {result : Option Value}

theorem Store.constructed_iff :
    s.Constructed r ↔ ∃ i g, s.object r = .inst i ∧ i.cls.name = ClassName.random ∧
      i.state = some ⟨.generator, g⟩ := by
  constructor
  · rintro ⟨g, i, hstate⟩
    exact ⟨i, g, stateOf_eq_ok_iff.1 hstate⟩
  · rintro ⟨i, g, hstate⟩
    exact ⟨g, i, stateOf_eq_ok_iff.2 hstate⟩

theorem Store.not_constructed_of_initState {className : String} {state : HostState}
    (h : s.initState r className state = .ok s') : ¬s.Constructed r := by
  obtain ⟨i, hobject, -, hempty, -⟩ := initState_eq_ok_iff.1 h
  intro hconstructed
  obtain ⟨j, g, hobject', -, hstate⟩ := constructed_iff.1 hconstructed
  cases hobject.symm.trans hobject'
  cases hempty.symm.trans hstate

/-- An action that starts a generator needs an empty slot, any other one needs a generator. -/
theorem GeneratorAction.constructed_iff_of_perform {a : GeneratorAction}
    (h : a.perform s r = .ok (result, s')) : s.Constructed r ↔ a.starts = false := by
  cases a with
  | start seed =>
    obtain ⟨t, hstart, -⟩ := Except.exists_of_map_eq_ok h
    exact iff_of_false (Store.not_constructed_of_initState hstart) Bool.noConfusion
  | startFromClock =>
    obtain ⟨t, hstart, -⟩ := Except.exists_of_map_eq_ok h
    exact iff_of_false (Store.not_constructed_of_initState hstart) Bool.noConfusion
  | answer request =>
    refine iff_of_true ?_ rfl
    rw [perform, RandomMethod.answer] at h
    split at h
    · cases h
    next i g hstate => exact ⟨g, i, hstate⟩
  | restart seed =>
    refine iff_of_true ?_ rfl
    obtain ⟨t, hrestart, -⟩ := Except.exists_of_map_eq_ok h
    rw [RandomMethod.restart] at hrestart
    split at hrestart
    · cases hrestart
    next i g hstate => exact ⟨g, i, hstate⟩

/-- **A method that succeeds has found a constructed object, unless it is a constructor.** -/
theorem RandomMethod.constructed_iff_of_effect {m : RandomMethod} {args : Args m.arguments}
    (h : m.effect s r args = .ok (result, s')) : s.Constructed r ↔ m.name ≠ constructorName := by
  rw [effect_eq_perform] at h
  rw [GeneratorAction.constructed_iff_of_perform h, starts_action, decide_eq_false_iff_not]

end Effects

/-! ### One step -/

namespace Machine

variable {m : Machine} {cmd : Command} {r : Ref} {method : RandomMethod}

/-- A method that a command calls is shown by an event of the object. -/
theorem exists_event_of_randomMethod? (h : m.randomMethod? r cmd = some method) :
    ∃ callee event, m.callee? cmd = some callee ∧ callee.body = .native (.random method) ∧
      m.generatorEvent? r cmd = some event := by
  rw [randomMethod?] at h
  split at h
  next method' hbody =>
    obtain ⟨callee, hcallee, hbody⟩ := Option.map_eq_some_iff.1 hbody
    obtain ⟨event, hevent, heq⟩ := Option.map_eq_some_iff.1 h
    subst heq
    exact ⟨callee, event, hcallee, hbody, hevent⟩
  · cases h

theorem generatorEvent?_of_randomMethod?_eq_none {callee : Method}
    (hcallee : m.callee? cmd = some callee) (hbody : callee.body = .native (.random method))
    (h : m.randomMethod? r cmd = none) : m.generatorEvent? r cmd = none := by
  simp only [randomMethod?, hcallee, Option.map_some, hbody] at h
  exact Option.map_eq_none_iff.1 h

/-- The effect of a method that a command calls is what the step does to the store. -/
theorem exists_effect_of_randomMethod? (h : m.randomMethod? r cmd = some method) :
    ∃ args result, method.effect m.store r args = .ok (result, (m.step cmd).1.store) := by
  obtain ⟨callee, event, hcallee, hbody, hevent⟩ := exists_event_of_randomMethod? h
  have hcall := generatorEvent?_eq_some_iff.1 hevent
  rcases generatorCall?_cases hcallee hbody with ⟨e, hfailed, -⟩ | ⟨q, event', hshown, -, hreceives⟩
  · -- a call that has failed shows no event
    simp only [generatorCall?, hfailed, hcallee, hbody, Option.map_some, reduceCtorEq] at hcall
  · cases hcall.symm.trans hshown
    have hrun : ∀ c, callee.call c = c.onReceiver method.arguments method.effect := by
      intro c
      rw [Method.call, hbody]
      rfl
    obtain ⟨outcome, c, hreceived, hstep⟩ := exists_received_of_callee? hcallee hrun
    cases hreceived with
    | @refused e stack htake =>
      obtain ⟨args, t, htake'⟩ := hreceives
      cases htake.symm.trans htake'
    | @failed q args e hdepth htake hfail =>
      have hreply : (m.step cmd).2 = .callError e := congrArg Prod.snd hstep
      simp only [generatorCall?, hreply, hcallee, hbody, Option.map_some, reduceCtorEq] at hcall
    | @done q args result store stack hdepth htake hdone hslots hlimit =>
      rw [hstep]
      have hreceives' : m.stack.Receives method.arguments q := ⟨_, _, htake⟩
      obtain rfl : q = r := hreceives'.unique hreceives
      exact ⟨args, result, hdone⟩

/-- After a successful call the object is constructed. -/
theorem constructed_of_generatorEvent? {event : GeneratorEvent}
    (h : m.generatorEvent? r cmd = some event) : (m.step cmd).1.store.Constructed r := by
  have hmoves := moves_of_generatorEvent? h
  cases event with
  | seeded seed => exact ⟨_, hmoves⟩
  | seededByClock =>
    obtain ⟨seed, hgenerates⟩ := hmoves
    exact ⟨_, hgenerates⟩
  | drew request v =>
    obtain ⟨g, g', -, -, hgenerates⟩ := hmoves
    exact ⟨g', hgenerates⟩

/-- **What has been constructed stays constructed.** -/
theorem constructed_step (cmd : Command) (h : m.store.Constructed r) :
    (m.step cmd).1.store.Constructed r := by
  cases hevent : m.generatorEvent? r cmd with
  | none =>
    obtain ⟨g, hg⟩ := h
    exact ⟨g, generates_of_generatorEvent?_eq_none hevent hg⟩
  | some event => exact constructed_of_generatorEvent? hevent

/-- There is no generator behind the object, if it is one of the class of generators. -/
theorem not_constructed_iff {s : Store} :
    ¬s.Constructed r ↔ s.Slots fun q c state ↦
      q = r → c.name = ClassName.random → state.kind ≠ .generator := by
  rw [Store.constructed_iff]
  constructor
  · rintro h q i ⟨k, content⟩ hobject hstate rfl hname hkind
    obtain rfl : k = .generator := hkind
    exact h ⟨i, content, hobject, hname, hstate⟩
  · rintro h ⟨i, g, hobject, hname, hstate⟩
    exact h r i _ hobject hstate rfl hname rfl

theorem ne_generator_of_adds {i : Instance} {state : HostState} (h : cmd.Adds (.inst i))
    (hcmd : cmd.BringsNoState) (hstate : i.state = some state) : state.kind ≠ .generator := by
  rcases h.state_cases hstate with ⟨sink, rfl⟩ | ⟨c, rfl⟩
  · exact StateKind.noConfusion
  · exact hcmd.elim

/-- **Nothing but a call of its own constructs an object.** -/
theorem not_constructed_step (hcmd : cmd.BringsNoState) (hmethod : m.randomMethod? r cmd = none)
    (h : ¬m.store.Constructed r) : ¬(m.step cmd).1.store.Constructed r := by
  rw [not_constructed_iff] at h ⊢
  by_cases hfills : ∃ c state, m.Fills cmd r c state ∧ state.kind = .generator
  · -- a method of generators was called on the object, and has failed
    obtain ⟨c, state, ⟨callee, entry, hcallee, hbody, hentry⟩ | rfl, hkind⟩ := hfills
    · cases entry with
      | random method =>
        have hevent := generatorEvent?_of_randomMethod?_eq_none hcallee hbody hmethod
        rcases generatorCall?_cases hcallee hbody with
          ⟨e, -, hstore⟩ | ⟨q, event, hshown, -, hreceives⟩
        · rwa [hstore]
        · obtain rfl := hreceives.unique hentry.1
          cases hevent.symm.trans (generatorEvent?_eq_some_iff.2 hshown)
      | stream method => exact hentry.elim
      | host action =>
        cases action with
        | cell className kind method => cases hentry.2.2.symm.trans hkind
        | _ => exact hentry.elim
    · exact hcmd.elim
  · refine m.slots_step h (fun q i state hadds hstate _ _ ↦ ne_generator_of_adds hadds hcmd hstate)
      (fun q c state hq hqr _ hkind ↦ hfills ⟨c, state, hqr ▸ hq, hkind⟩)
      fun q c stream call text _ _ _ _ ↦ StateKind.noConfusion

/-! ### Runs -/

/-- Once an object is constructed, no constructor succeeds. -/
theorem name_ne_of_constructed {cmds : List Command} (h : m.store.Constructed r) :
    ∀ method ∈ m.randomMethods r cmds, method.name ≠ constructorName := by
  induction cmds generalizing m with
  | nil => exact fun method hmethod ↦ absurd hmethod List.not_mem_nil
  | cons cmd cmds ih =>
    intro method hmethod
    rcases List.mem_append.1 hmethod with hnow | hlater
    · have hcall : m.randomMethod? r cmd = some method := Option.mem_toList.1 hnow
      obtain ⟨args, result, heffect⟩ := exists_effect_of_randomMethod? hcall
      exact (RandomMethod.constructed_iff_of_effect heffect).1 h
    · exact ih (constructed_step cmd h) method hlater

/-- **An object is constructed once, and before anything else**, if the host brings in no state of
its own. -/
theorem constructedOnce {cmds : List Command} (hcmds : ∀ cmd ∈ cmds, cmd.BringsNoState)
    (h : ¬m.store.Constructed r) : RandomMethod.ConstructedOnce (m.randomMethods r cmds) := by
  induction cmds generalizing m with
  | nil => trivial
  | cons cmd cmds ih =>
    rw [randomMethods]
    cases hmethod : m.randomMethod? r cmd with
    | none =>
      have hcmd := hcmds cmd List.mem_cons_self
      exact ih (fun later hlater ↦ hcmds later (List.mem_cons_of_mem _ hlater))
        (not_constructed_step hcmd hmethod h)
    | some method =>
      obtain ⟨callee, event, -, -, hevent⟩ := exists_event_of_randomMethod? hmethod
      obtain ⟨args, result, heffect⟩ := exists_effect_of_randomMethod? hmethod
      refine ⟨?_, name_ne_of_constructed (constructed_of_generatorEvent? hevent)⟩
      exact Decidable.byContradiction fun hname ↦
        h ((RandomMethod.constructed_iff_of_effect heffect).2 hname)

end Machine

end HostMethods
