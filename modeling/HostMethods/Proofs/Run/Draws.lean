import HostMethods.Proofs.Call.Discipline
import HostMethods.Proofs.Run.Catalog

/-!
# A generator is one sequence

Whoever draws from a generator, on whatever thread, and whatever else happens in between, the values
are those that a generator of the same seed gives to the same requests on its own. What a run shows
of a generator is read off the calls alone (`Machine.generatorEvents`): which of them succeeded,
what lay on the stack before them and what they left on top of it. `Machine.draws_replay` compares
that with `Generator.replay`, which knows no machine.

The state behind the object ties the two together. A successful call moves it as its event says
(`Machine.moves_of_generatorEvent?`), and every other step, failed calls of the same methods
included, leaves it alone (`Machine.generates_of_generatorEvent?_eq_none`).
-/

namespace HostMethods

/-- Answers requests one after the other. -/
def Generator.replay (g : Generator) : List Draw → Except Exception (List Value)
  | [] => .ok []
  | request :: requests =>
    match g.draw request with
    | .error e => .error e
    | .ok (v, g) => (g.replay requests).map (v :: ·)

/-! ### Events -/

/-- What a successful call of a method of a generator shows. -/
inductive GeneratorEvent
  /-- The generator starts over from a seed. -/
  | seeded (seed : UInt64)
  /-- The generator starts from a seed that nobody gave. -/
  | seededByClock
  /-- The request was answered with the value. -/
  | drew (request : Draw) (v : Value)
  deriving DecidableEq

/-- What a successful call shows: the receiver and the argument are on the stack before it, and the
result is on top of the stack after it. A `long` seed counts by its bits. -/
def RandomMethod.event? : RandomMethod → List Value → List Value → Option (Ref × GeneratorEvent)
  | construct (some seed), .ref r :: _, _ => some (r, .seeded seed)
  | construct none, .ref r :: _, _ => some (r, .seededByClock)
  | constructSeeded, .long seed :: .ref r :: _, _ => some (r, .seeded seed.toUInt64)
  | setSeed, .long seed :: .ref r :: _, _ => some (r, .seeded seed.toUInt64)
  | nextInt, .ref r :: _, v :: _ => some (r, .drew .int v)
  | nextIntBelow, .int bound :: .ref r :: _, v :: _ => some (r, .drew (.below bound) v)
  | nextLong, .ref r :: _, v :: _ => some (r, .drew .long v)
  | nextBoolean, .ref r :: _, v :: _ => some (r, .drew .boolean v)
  | _, _, _ => none

namespace Machine

/-- What a command shows of a generator, and of which: it has to call a method of generators, by
whatever class and name, and the call has to succeed. -/
def generatorCall? (m : Machine) (cmd : Command) : Option (Ref × GeneratorEvent) :=
  match (m.callee? cmd).map Method.body, (m.step cmd).2 with
  | some (.native (.random method)), .done =>
    method.event? m.stack.slots (m.step cmd).1.stack.slots
  | _, _ => none

/-- What a command shows of the generator behind an object. -/
def generatorEvent? (m : Machine) (r : Ref) (cmd : Command) : Option GeneratorEvent :=
  (m.generatorCall? cmd).bind fun (q, event) ↦ if q = r then some event else none

/-- What commands, carried out one after the other, show of the generator behind an object. -/
def generatorEvents (m : Machine) (r : Ref) : List Command → List GeneratorEvent
  | [] => []
  | cmd :: cmds => (m.generatorEvent? r cmd).toList ++ (m.step cmd).1.generatorEvents r cmds

end Machine

/-! ### The generator behind an object -/

/-- The object is a random number generator that has been constructed, and its generator is `g`. -/
def Store.Generates (s : Store) (r : Ref) (g : Generator) : Prop :=
  ∃ i, s.stateOf r ClassName.random .generator = .ok (i, g)

/-- What an event says about the generator before it and after it. -/
def GeneratorEvent.Moves (s s' : Store) (r : Ref) : GeneratorEvent → Prop
  | seeded seed => s'.Generates r (.ofSeed seed)
  | seededByClock => ∃ seed, s'.Generates r (.ofSeed seed)
  | drew request v =>
    ∃ g g', s.Generates r g ∧ g.draw request = .ok (v, g') ∧ s'.Generates r g'

section Generates

variable {s s' : Store} {r : Ref} {g g' : Generator} {result : Option Value}

/-- There is one generator behind an object. -/
theorem Store.Generates.unique (h : s.Generates r g) (h' : s.Generates r g') : g = g' := by
  obtain ⟨i, hstate⟩ := h
  obtain ⟨i', hstate'⟩ := h'
  cases hstate.symm.trans hstate'
  rfl

/-- A generator stays as it is unless it is touched. -/
theorem Store.Generates.of_evolves {touched : Ref → StateKind → Prop} {written : Ref → Prop}
    (h : s.Generates r g) (hevolves : s.Evolves touched written s')
    (hkeep : ¬touched r .generator) : s'.Generates r g := by
  obtain ⟨i, hstate⟩ := h
  exact hevolves.stateOf_eq_ok hkeep hstate

theorem Store.generates_putInstance {i : Instance} (hobject : s.object r = .inst i)
    (hname : i.cls.name = ClassName.random) (g : Generator) :
    (s.putInstance r { i with state := some ⟨.generator, g⟩ }).Generates r g :=
  ⟨_, Store.stateOf_eq_ok_iff.2 ⟨object_putInstance_self hobject, hname, rfl⟩⟩

theorem RandomMethod.generates_of_start {seed : UInt64} (h : start s r seed = .ok s') :
    s'.Generates r (.ofSeed seed) := by
  obtain ⟨i, hobject, hname, -, rfl⟩ := Store.initState_eq_ok_iff.1 h
  exact Store.generates_putInstance hobject hname _

theorem RandomMethod.generates_of_restart {seed : UInt64} (h : restart s r seed = .ok s') :
    s'.Generates r (.ofSeed seed) := by
  rw [restart] at h
  split at h <;> cases h
  next hstate =>
    obtain ⟨hobject, hname, -⟩ := Store.stateOf_eq_ok_iff.1 hstate
    exact Store.generates_putInstance hobject hname _

theorem RandomMethod.exists_draw_of_answer {request : Draw}
    (h : answer s r request = .ok (result, s')) :
    ∃ v, result = some v ∧ (GeneratorEvent.drew request v).Moves s s' r := by
  rw [answer] at h
  split at h
  · cases h
  next i g hstate =>
    split at h <;> cases h
    next v g' hdraw =>
      obtain ⟨hobject, hname, -⟩ := Store.stateOf_eq_ok_iff.1 hstate
      exact ⟨v, rfl, g, g', ⟨i, hstate⟩, hdraw, Store.generates_putInstance hobject hname g'⟩

/-- What an action shows when it has gone through. -/
def GeneratorAction.event? : GeneratorAction → Option Value → Option GeneratorEvent
  | start seed, _ | restart seed, _ => some (.seeded seed)
  | startFromClock, _ => some .seededByClock
  | answer request, result => result.map (.drew request)

/-- **An action moves the generator as it shows.** -/
theorem GeneratorAction.exists_moves_of_perform {a : GeneratorAction}
    (h : a.perform s r = .ok (result, s')) :
    ∃ event, a.event? result = some event ∧ event.Moves s s' r := by
  cases a with
  | start seed =>
    obtain ⟨_, hstart, heq⟩ := Except.exists_of_map_eq_ok h
    cases heq
    exact ⟨.seeded seed, rfl, RandomMethod.generates_of_start hstart⟩
  | startFromClock =>
    obtain ⟨t, hstart, heq⟩ := Except.exists_of_map_eq_ok h
    cases heq
    -- the clock that has moved on is no part of the object
    obtain ⟨i, hstate⟩ := RandomMethod.generates_of_start hstart
    exact ⟨.seededByClock, rfl, s.clock, i, hstate⟩
  | answer request =>
    obtain ⟨v, rfl, hmoves⟩ := RandomMethod.exists_draw_of_answer h
    exact ⟨.drew request v, rfl, hmoves⟩
  | restart seed =>
    obtain ⟨_, hrestart, heq⟩ := Except.exists_of_map_eq_ok h
    cases heq
    exact ⟨.seeded seed, rfl, RandomMethod.generates_of_restart hrestart⟩

end Generates

/-! ### What a call shows -/

theorem ArgKind.eq_of_read_int {v : Value} {i : Int32} (h : ArgKind.int.read v = .ok i) :
    v = .int i := by
  cases v <;> cases h
  rfl

theorem ArgKind.eq_of_read_long {v : Value} {l : Int64} (h : ArgKind.long.read v = .ok l) :
    v = .long l := by
  cases v <;> cases h
  rfl

/-- The stack shows what the action does. -/
theorem RandomMethod.event?_eq {m : RandomMethod} {args : Args m.arguments} {vs : List Value}
    (hread : args.ReadFrom vs) (r : Ref) (rest : List Value) {result : Option Value}
    {event : GeneratorEvent} (hevent : (m.action args).event? result = some event) :
    m.event? (vs.reverse ++ .ref r :: rest) (result.toList ++ rest) = some (r, event) := by
  cases m with
  | construct seed =>
    cases args
    obtain rfl : vs = [] := hread
    cases seed <;> cases hevent <;> rfl
  | nextInt | nextLong | nextBoolean =>
    cases args
    obtain rfl : vs = [] := hread
    obtain ⟨v, rfl, rfl⟩ := Option.map_eq_some_iff.1 hevent
    rfl
  | constructSeeded | setSeed =>
    obtain _ | ⟨seed, later⟩ := args
    cases later
    obtain ⟨v, _, rfl, hseed, rfl⟩ := hread
    obtain rfl := ArgKind.eq_of_read_long hseed
    cases hevent
    rfl
  | nextIntBelow =>
    obtain _ | ⟨bound, later⟩ := args
    cases later
    obtain ⟨v, _, rfl, hbound, rfl⟩ := hread
    obtain rfl := ArgKind.eq_of_read_int hbound
    obtain ⟨v, rfl, rfl⟩ := Option.map_eq_some_iff.1 hevent
    rfl

namespace Machine

variable {m : Machine} {cmd : Command} {r : Ref} {g : Generator} {event : GeneratorEvent}

/-- **A call of a method of generators either fails and leaves the store, or shows what has become
of its receiver's generator.** -/
theorem generatorCall?_cases {callee : Method} {method : RandomMethod}
    (hcallee : m.callee? cmd = some callee) (hbody : callee.body = .native (.random method)) :
    (∃ e, (m.step cmd).2 = .callError e ∧ (m.step cmd).1.store = m.store) ∨
    ∃ q event, m.generatorCall? cmd = some (q, event) ∧
      event.Moves m.store (m.step cmd).1.store q ∧ m.stack.Receives method.arguments q := by
  have hrun : ∀ c, callee.call c = c.onReceiver method.arguments method.effect := by
    intro c
    rw [Method.call, hbody]
    rfl
  obtain ⟨outcome, c, hreceived, hcall⟩ := exists_received hrun m
  have hstep : m.step cmd = (m.resume c, .ofCall outcome) := by
    rw [step_of_callee? hcallee, hcall]
  cases hreceived with
  | @refused e stack htake =>
    refine .inl ⟨e, ?_⟩
    rw [hstep]
    exact ⟨rfl, rfl⟩
  | @failed q args e hdepth htake hfail =>
    refine .inl ⟨e, ?_⟩
    rw [hstep]
    exact ⟨rfl, rfl⟩
  | @done q args result store stack hdepth htake hdone hslots hlimit =>
    rw [RandomMethod.effect_eq_perform] at hdone
    obtain ⟨event, hevent, hmoves⟩ := GeneratorAction.exists_moves_of_perform hdone
    have hcurrent : m.current < m.threads.size :=
      current_lt_of_depth_pos (Nat.lt_of_lt_of_le (Nat.succ_pos _) hdepth)
    refine .inr ⟨q, event, ?_, ?_, args, _, htake⟩
    · obtain ⟨vs, hread, hbefore⟩ := OperandStack.slots_of_takeCall htake
      simp only [generatorCall?, hcallee, hbody, hstep, Option.map_some, Reply.ofCall]
      rw [stack_resume hcurrent, hbefore, hslots]
      exact RandomMethod.event?_eq hread q _ hevent
    · rw [hstep]
      exact hmoves

/-- Only calls of methods of generators touch generators. -/
theorem Touches.exists_random (h : m.Touches cmd r .generator) :
    ∃ callee method, m.callee? cmd = some callee ∧ callee.body = .native (.random method) ∧
      m.stack.Receives method.arguments r := by
  rcases h with ⟨callee, entry, hcallee, hbody, htouches⟩ | ⟨hkind, -⟩
  · cases entry with
    | random method => exact ⟨callee, method, hcallee, hbody, htouches.2⟩
    | stream method => cases htouches.1
    | host action =>
      cases action with
      | cell => cases htouches.1
      | _ => cases htouches
  · cases hkind

theorem generatorEvent?_eq_some_iff :
    m.generatorEvent? r cmd = some event ↔ m.generatorCall? cmd = some (r, event) := by
  rw [generatorEvent?, Option.bind_eq_some_iff]
  constructor
  · rintro ⟨⟨q, event'⟩, hcall, hevent⟩
    obtain ⟨heq, hsome⟩ := Option.ite_none_right_eq_some.1 hevent
    cases hsome
    rwa [← heq]
  · exact fun hcall ↦ ⟨_, hcall, if_pos rfl⟩

/-- **A step moves a generator as it shows.** -/
theorem moves_of_generatorEvent? (h : m.generatorEvent? r cmd = some event) :
    event.Moves m.store (m.step cmd).1.store r := by
  have hcall := generatorEvent?_eq_some_iff.1 h
  have hrandom := hcall
  rw [generatorCall?] at hrandom
  split at hrandom
  next method hbody hdone =>
    obtain ⟨callee, hcallee, hbody⟩ := Option.map_eq_some_iff.1 hbody
    rcases generatorCall?_cases hcallee hbody with ⟨e, hfailed, -⟩ | ⟨q, event', hsome, hmoves, -⟩
    · cases hdone.symm.trans hfailed
    · cases hcall.symm.trans hsome
      exact hmoves
  · cases hrandom

/-- **A step that shows nothing of a generator leaves it alone.** -/
theorem generates_of_generatorEvent?_eq_none (h : m.generatorEvent? r cmd = none)
    (hg : m.store.Generates r g) : (m.step cmd).1.store.Generates r g := by
  by_cases htouches : m.Touches cmd r .generator
  · -- the call has failed, since it has shown nothing
    obtain ⟨callee, method, hcallee, hbody, hreceives⟩ := htouches.exists_random
    rcases generatorCall?_cases hcallee hbody with
      ⟨e, -, hstore⟩ | ⟨q, event, hsome, -, hreceives'⟩
    · rwa [hstore]
    · obtain rfl := hreceives'.unique hreceives
      cases h.symm.trans (generatorEvent?_eq_some_iff.2 hsome)
  · exact hg.of_evolves (m.step_evolves cmd) htouches

/-- Every call that succeeds shows something. -/
theorem isSome_generatorCall?_of_done {callee : Method} {method : RandomMethod}
    (hcallee : m.callee? cmd = some callee) (hbody : callee.body = .native (.random method))
    (hdone : (m.step cmd).2 = .done) : (m.generatorCall? cmd).isSome := by
  rcases generatorCall?_cases hcallee hbody with ⟨e, hfailed, -⟩ | ⟨q, event, hsome, -⟩
  · cases hdone.symm.trans hfailed
  · rw [hsome]
    rfl

/-! ### Runs -/

/-- Draws answer as the generator does on its own. -/
theorem replay_of_draws {cmds : List Command} {draws : List (Draw × Value)}
    (hg : m.store.Generates r g)
    (hevents : m.generatorEvents r cmds = draws.map fun d ↦ .drew d.1 d.2) :
    g.replay (draws.map Prod.fst) = .ok (draws.map Prod.snd) := by
  induction cmds generalizing m g draws with
  | nil =>
    obtain rfl : draws = [] := List.map_eq_nil_iff.1 hevents.symm
    rfl
  | cons cmd cmds ih =>
    rw [generatorEvents] at hevents
    cases hevent : m.generatorEvent? r cmd with
    | none =>
      rw [hevent] at hevents
      exact ih (generates_of_generatorEvent?_eq_none hevent hg) hevents
    | some event =>
      rw [hevent] at hevents
      cases draws with
      | nil => cases hevents
      | cons d draws =>
        obtain ⟨rfl, hlater⟩ := List.cons.inj hevents
        obtain ⟨g', g'', hg', hdraw, hg''⟩ := moves_of_generatorEvent? hevent
        obtain rfl := hg.unique hg'
        rw [List.map_cons, Generator.replay]
        simp only [hdraw, ih hg'' hlater]
        rfl

/-- From a seed on, a generator answers as one of that seed does on its own. -/
theorem replay_of_seeded {cmds : List Command} {before : List GeneratorEvent} {seed : UInt64}
    {draws : List (Draw × Value)}
    (hevents : m.generatorEvents r cmds =
      before ++ .seeded seed :: draws.map fun d ↦ .drew d.1 d.2) :
    (Generator.ofSeed seed).replay (draws.map Prod.fst) = .ok (draws.map Prod.snd) := by
  induction cmds generalizing m before with
  | nil => cases before <;> cases hevents
  | cons cmd cmds ih =>
    rw [generatorEvents] at hevents
    cases hevent : m.generatorEvent? r cmd with
    | none =>
      rw [hevent] at hevents
      exact ih hevents
    | some event =>
      rw [hevent] at hevents
      cases before with
      | nil =>
        obtain ⟨rfl, hlater⟩ := List.cons.inj hevents
        exact replay_of_draws (moves_of_generatorEvent? hevent) hlater
      | cons earlier before => exact ih (List.cons.inj hevents).2

/-- **A generator is one seeded sequence.** On any machine let any commands be carried out, and take
from what they show of the generator behind an object the last seed and what was drawn after it.
These values are, in their order, what a new generator of that seed answers to the same requests.
Nothing is left out: every call of a method of generators that succeeds shows something. And what it
shows belongs to what was called: in every run from the beginning, the names and signatures that
random number generators have lead to these methods, where a construction without a seed takes the
one that the machine was given. -/
theorem draws_replay (stdout : Sink) (fixed : Option UInt64) (limit : Nat) :
    (∀ (m : Machine) (cmds : List Command) (r : Ref) (before : List GeneratorEvent)
      (seed : UInt64) (draws : List (Draw × Value)),
      m.generatorEvents r cmds = before ++ .seeded seed :: draws.map (fun d ↦ .drew d.1 d.2) →
      (Generator.ofSeed seed).replay (draws.map Prod.fst) = .ok (draws.map Prod.snd)) ∧
    (∀ (m : Machine) (cmd : Command) (callee : Method) (method : RandomMethod),
      m.callee? cmd = some callee → callee.body = .native (.random method) →
      (m.step cmd).2 = .done → (m.generatorCall? cmd).isSome) ∧
    ∀ (cmds : List Command) (c : LoadedClass),
      ((new stdout fixed limit).run cmds).1.catalog.random = some c →
      ∀ method ∈ RandomMethod.all fixed,
        c.info.method? (.of method.name method.signature) = some method.declared := by
  refine ⟨fun m cmds r before seed draws h ↦ replay_of_seeded h,
    fun m cmd callee method hcallee hbody hdone ↦ isSome_generatorCall?_of_done hcallee hbody hdone,
    fun cmds c hc method hmethod ↦ ?_⟩
  exact (randomFrom_run stdout fixed limit cmds).method?_eq hc hmethod

/-- The first class of a machine whose generators start from 5. -/
def fiveClass : LoadedClass :=
  ⟨0, { Class.empty ClassName.random with
    methods := (RandomMethod.all (some 5)).map RandomMethod.declared }⟩

/-- Pushes values and calls a method of generators. -/
def callRandom (method : RandomMethod) (values : List Value) : List Command :=
  values.map (.push · 1) ++ [.call fiveClass (.of method.name method.signature)]

/-- Two threads draw from one generator, which is started over once, while another generator is in
use and calls fail: a bound leaves no number, and the generator is constructed a second time. -/
def sharedDraws : List Command :=
  [.builtin .random, .newInstance fiveClass none, .newInstance fiveClass none] ++
    callRandom (.construct (some 5)) [.ref ⟨0⟩] ++ callRandom .nextInt [.ref ⟨0⟩] ++
    callRandom .setSeed [.ref ⟨0⟩, .long 7] ++ callRandom .nextInt [.ref ⟨0⟩] ++
    [.newThread 8] ++ callRandom .constructSeeded [.ref ⟨1⟩, .long 7] ++
    callRandom .nextInt [.ref ⟨1⟩] ++ callRandom .constructSeeded [.ref ⟨0⟩, .long 9] ++
    callRandom .nextIntBelow [.ref ⟨0⟩, .int 0] ++ callRandom .nextLong [.ref ⟨0⟩]

/-- What was drawn after the second start is what a generator of that seed draws on its own. -/
theorem draws_replay_sharedDraws :
    ∃ u v w, (new .capture (some 5) 8).generatorEvents ⟨0⟩ sharedDraws =
        [.seeded 5, .drew .int u] ++ .seeded 7 :: [.drew .int v, .drew .long w] ∧
      (Generator.ofSeed 7).replay [.int, .long] = .ok [v, w] := by
  have hevents : ∃ u v w, (new .capture (some 5) 8).generatorEvents ⟨0⟩ sharedDraws =
      [.seeded 5, .drew .int u] ++ .seeded 7 :: [.drew .int v, .drew .long w] := ⟨_, _, _, rfl⟩
  obtain ⟨u, v, w, hevents⟩ := hevents
  exact ⟨u, v, w, hevents,
    (draws_replay .capture (some 5) 8).1 _ _ _ _ _ [(.int, v), (.long, w)] hevents⟩

end Machine

end HostMethods
