import HostMethods.Proofs.Run.Frame

/-!
# The slot behind an object is filled once

Three things can be asked of the slot behind an object: to take a state in, to hand the state out as
one of a kind, and whether it is filled (`SlotRequest`). Only the first of them ever changes the
object, and only if the slot is empty (`Instance.respond_snd`), so after any number of requests the
slot holds the state that the object was made with, or else the first state that came along
(`Instance.after_eq`), and its answers follow from that state alone (`Instance.SlotLaw`). A state is
handed out by its kind, and kinds may be named alike: a kind that an embedding host brings along is
another one than a built-in kind of the same name.

The commands of a machine can do more, since a method exchanges the content of the state that it
works on. Every exchange of an instance keeps the kind (`Instance.SameKind`), so a slot that is
filled stays filled with state of that kind whatever is carried out (`Machine.slot_filled_once`).
-/

namespace HostMethods

/-- What can be asked of the slot behind an object. -/
inductive SlotRequest
  /-- Fills the slot. -/
  | init (state : HostState)
  /-- Reads the state as one of a kind. -/
  | read (k : StateKind)
  /-- Whether the slot is filled. -/
  | test

/-- The state that a request brings along. -/
def SlotRequest.state? : SlotRequest → Option HostState
  | init state => some state
  | _ => none

/-- What the slot answers. -/
inductive SlotAnswer
  /-- The state is in the slot. -/
  | filled
  /-- The state in the slot. -/
  | held (state : HostState)
  | flag (b : Bool)
  | refused (e : CallError)

namespace Instance

/-- Answers a request. -/
def respond (i : Instance) : SlotRequest → SlotAnswer × Instance
  | .init state =>
    match i.initState state with
    | .ok i' => (.filled, i')
    | .error e => (.refused e, i)
  | .read k =>
    match i.stateAs k with
    | .ok content => (.held ⟨k, content⟩, i)
    | .error e => (.refused e, i)
  | .test => (.flag i.hasState, i)

/-- The object after requests, one after the other. -/
def after (i : Instance) (requests : List SlotRequest) : Instance :=
  requests.foldl (fun i request ↦ (i.respond request).2) i

variable {i : Instance} {state : HostState}

/-! ### One equation per request -/

theorem respond_init_of_empty (h : i.state = none) (state : HostState) :
    i.respond (.init state) = (.filled, { i with state := some state }) := by
  rw [respond, initState_eq_ok_iff.2 ⟨h, rfl⟩]

theorem respond_init_of_filled (h : i.state = some state) (other : HostState) :
    i.respond (.init other) = (.refused (.violated (.slotTaken i.cls.name)), i) := by
  rw [respond, initState, h]

theorem respond_read_of_empty (h : i.state = none) (k : StateKind) :
    i.respond (.read k) =
      (.refused (.raised (.nullUse (i.cls.name ++ " instance used before its constructor ran"))),
        i) := by
  rw [respond, stateAs, h]

theorem respond_read_self (h : i.state = some state) :
    i.respond (.read state.kind) = (.held state, i) := by
  rw [respond, stateAs_eq_ok_iff.2 h]

theorem respond_read_of_ne (h : i.state = some state) {k : StateKind} (hne : state.kind ≠ k) :
    i.respond (.read k) = (.refused (.violated (.wrongState i.cls.name k state.kind)), i) := by
  have habsent : state.as? k = none := HostState.as?_eq_none_iff.2 hne
  simp only [respond, stateAs, h, habsent]

/-- A state is handed out only as what it is. -/
theorem respond_read_eq_held_iff (h : i.state = some state) (k : StateKind) :
    (∃ content, (i.respond (.read k)).1 = .held content) ↔ k = state.kind := by
  constructor
  · rintro ⟨content, hheld⟩
    by_cases hk : k = state.kind
    · exact hk
    · rw [respond_read_of_ne h (Ne.symm hk)] at hheld
      cases hheld
  · rintro rfl
    exact ⟨state, by rw [respond_read_self h]⟩

/-! ### The state after requests -/

/-- **A request changes an object only by filling its slot.** -/
theorem respond_snd (i : Instance) (request : SlotRequest) :
    (i.respond request).2 = { i with state := i.state.or request.state? } := by
  obtain ⟨cls, fields, slot⟩ := i
  cases request with
  | init state =>
    cases slot with
    | none => rw [respond_init_of_empty rfl]; rfl
    | some held => rw [respond_init_of_filled rfl]; rfl
  | read k =>
    rw [respond]
    split <;> simp [SlotRequest.state?]
  | test => simp [respond, SlotRequest.state?]

/-- **After requests the slot holds what it held before, or else what came along first.** -/
theorem after_eq (i : Instance) (requests : List SlotRequest) :
    i.after requests =
      { i with state := i.state.or (requests.findSome? SlotRequest.state?) } := by
  induction requests generalizing i with
  | nil => simp [after]
  | cons request requests ih =>
    show ((i.respond request).2).after requests = _
    rw [ih, respond_snd, List.findSome?_cons, Option.or_assoc]
    cases request.state? <;> rfl

/-! ### The law -/

/-- How the slot of an object of a class answers while it is empty, and once there is a state that
was the first to be in it. -/
structure SlotLaw (c : LoadedClass) (first : Option HostState) (i : Instance) : Prop where
  cls_eq : i.cls = c
  state_eq : i.state = first
  test : i.respond .test = (.flag first.isSome, i)
  read_of_empty : first = none → ∀ k, i.respond (.read k) =
    (.refused (.raised (.nullUse (c.name ++ " instance used before its constructor ran"))), i)
  init_of_empty : first = none → ∀ state,
    i.respond (.init state) = (.filled, { i with state := some state })
  init_of_filled : ∀ held, first = some held → ∀ state,
    i.respond (.init state) = (.refused (.violated (.slotTaken c.name)), i)
  read_iff : ∀ held, first = some held → ∀ k,
    (∃ state, (i.respond (.read k)).1 = .held state) ↔ k = held.kind
  read_self : ∀ held, first = some held → i.respond (.read held.kind) = (.held held, i)
  read_of_ne : ∀ held, first = some held → ∀ k, held.kind ≠ k →
    i.respond (.read k) = (.refused (.violated (.wrongState c.name k held.kind)), i)

/-- A slot answers like this with whatever it holds. -/
theorem slotLaw (i : Instance) : i.SlotLaw i.cls i.state where
  cls_eq := rfl
  state_eq := rfl
  test := rfl
  read_of_empty := respond_read_of_empty
  init_of_empty := respond_init_of_empty
  init_of_filled _ := respond_init_of_filled
  read_iff _ := respond_read_eq_held_iff
  read_self _ := respond_read_self
  read_of_ne _ h _ := respond_read_of_ne h

theorem slotLaw_after (i : Instance) (requests : List SlotRequest) :
    (i.after requests).SlotLaw i.cls (i.state.or (requests.findSome? SlotRequest.state?)) := by
  rw [after_eq]
  exact slotLaw { i with state := i.state.or (requests.findSome? SlotRequest.state?) }

/-! ### Whatever else happens -/

/-- An object of the same class, with state of the same kind if there was any. -/
structure SameKind (i i' : Instance) : Prop where
  cls_eq : i'.cls = i.cls
  kind_eq : ∀ state, i.state = some state → ∃ content, i'.state = some ⟨state.kind, content⟩

/-- **No exchange of an instance empties a slot or fills it with state of another kind.** -/
theorem SameKind.respected {touched : StateKind → Prop} {written : Prop} :
    Respected touched written SameKind where
  refl i := ⟨rfl, fun state h ↦ ⟨state.content, h⟩⟩
  trans {i i' i''} h h' := by
    refine ⟨h'.cls_eq.trans h.cls_eq, fun state hstate ↦ ?_⟩
    obtain ⟨content, hcontent⟩ := h.kind_eq state hstate
    exact h'.kind_eq ⟨state.kind, content⟩ hcontent
  setField _ i i' name v hset := by
    obtain ⟨fields, -, rfl⟩ := Except.exists_of_map_eq_ok hset
    exact ⟨rfl, fun state h ↦ ⟨state.content, h⟩⟩
  initState {i i' state} hinit := by
    obtain ⟨hempty, rfl⟩ := initState_eq_ok_iff.1 hinit
    refine ⟨rfl, fun held h ↦ ?_⟩
    cases hempty.symm.trans h
  putState {i k old} _ hold new := by
    refine ⟨rfl, fun held h ↦ ?_⟩
    cases (stateAs_eq_ok_iff.1 hold).symm.trans h
    exact ⟨new, rfl⟩

end Instance

namespace Machine

/-- A slot that is filled cannot be filled by a command. -/
theorem step_initState_of_filled {m : Machine} {r : Ref} {i : Instance} {held : HostState}
    (hobject : m.store.object r = .inst i) (hstate : i.state = some held) (state : HostState) :
    m.step (.initState r state) = (m, .callError (.violated (.slotTaken i.cls.name))) := by
  simp only [step, Store.object_eq_inst_iff.1 hobject, Instance.initState, hstate]

/-- **The slot behind an object is filled once.** An object that was made with or without a state
answers, after any requests, with that state or else with the first that it was given. Whatever else
a machine carries out, an object that has state keeps state of that kind, and takes no other. -/
theorem slot_filled_once :
    (∀ (s : Store) (c : LoadedClass) (given : Option HostState) (requests : List SlotRequest),
      ∃ i, (s.newInstance c given).2.object (s.newInstance c given).1 = .inst i ∧
        (i.after requests).SlotLaw c (given.or (requests.findSome? SlotRequest.state?))) ∧
    ∀ (m : Machine) (cmds : List Command) (r : Ref) (i : Instance) (held : HostState),
      m.store.object r = .inst i → i.state = some held →
      (∃ i' content, (m.run cmds).1.store.object r = .inst i' ∧
        i'.SlotLaw i.cls (some ⟨held.kind, content⟩)) ∧
      ∀ state, (m.run cmds).1.step (.initState r state) =
        ((m.run cmds).1, .callError (.violated (.slotTaken i.cls.name))) := by
  constructor
  · intro s c given requests
    have hlaw := Instance.slotLaw_after { Instance.fresh c with state := given } requests
    exact ⟨_, s.object_newInstance c given, hlaw⟩
  · intro m cmds r i held hobject hstate
    obtain ⟨i', hobject', hsame⟩ :=
      (m.run_evolves cmds).exists_object Instance.SameKind.respected hobject
    obtain ⟨content, hcontent⟩ := hsame.kind_eq held hstate
    have hlaw := i'.slotLaw
    rw [hsame.cls_eq, hcontent] at hlaw
    refine ⟨⟨i', content, hobject', hlaw⟩, fun state ↦ ?_⟩
    rw [step_initState_of_filled hobject' hcontent, hsame.cls_eq]

/-- A class without members. -/
def plainClass : LoadedClass :=
  ⟨0, Class.empty "Plain"⟩

/-- State of a kind that is named as generators are, and is another kind. -/
def namedAlike : HostState :=
  ⟨.custom StateKind.generator.name, (3 : Int64)⟩

/-- A state of a kind is not handed out as state of another kind of the same name, and no generator
takes its place. -/
theorem slot_filled_once_namedAlike :
    (∃ i, (Store.empty.newInstance plainClass none).2.object ⟨0⟩ = .inst i ∧
      ((i.after [.test, .read .generator, .init namedAlike, .init ⟨.generator, .ofSeed 7⟩]).respond
        (.read .generator)).1 =
          .refused (.violated (.wrongState "Plain" .generator namedAlike.kind))) ∧
    (((new .capture none 8).run [.newInstance plainClass (some namedAlike)]).1.step
      (.initState ⟨0⟩ ⟨.generator, .ofSeed 7⟩)).2 =
        .callError (.violated (.slotTaken "Plain")) := by
  constructor
  · obtain ⟨i, hobject, hlaw⟩ := slot_filled_once.1 .empty plainClass none
      [.test, .read .generator, .init namedAlike, .init ⟨.generator, .ofSeed 7⟩]
    refine ⟨i, hobject, ?_⟩
    rw [hlaw.read_of_ne namedAlike rfl .generator nofun]
    rfl
  · have htaken := (slot_filled_once.2
      ((new .capture none 8).run [.newInstance plainClass (some namedAlike)]).1 [] ⟨0⟩
      { Instance.fresh plainClass with state := some namedAlike } namedAlike rfl rfl).2
    exact congrArg Prod.snd (htaken ⟨.generator, .ofSeed 7⟩)

end Machine

end HostMethods
