import HostMethods.Builtins
import HostMethods.Proofs.Outcome
import Mathlib.Logic.Relation

/-!
# How a store can change

Whatever runs, a store changes only in a few elementary ways, which `Store.Change` lists together
with what each of them asks for: a slot is filled only if it is empty, the content of a slot is
exchanged only for content of the same kind, a field is written only where its name leads. Longer
changes are sequences of them (`Store.Evolves`).

Two of them depend on who asks for them, so the relation carries a parameter for each: `touched r k`
says that content of the kind `k` behind the object `r` may be exchanged, and `written r` that
fields of the object may be written. What is neither touched nor written stays (`Instance.Keeps`),
and this is how a method is shown to leave the state behind other objects alone, without a look at
the other things that it does. Three of the changes exchange an instance, and a relation that goes
along with these three (`Instance.Respected`) is kept from any object to what becomes of it.
-/

namespace HostMethods

/-! ### One equation per operation on a slot -/

theorem HostState.as?_eq_some_iff {state : HostState} {k : StateKind} {content : k.Content} :
    state.as? k = some content ↔ state = ⟨k, content⟩ := by
  constructor
  · intro h
    rw [as?] at h
    split at h <;> cases h
    next hkind =>
      subst hkind
      rfl
  · rintro rfl
    exact as?_mk k content

namespace Instance

variable {i i' : Instance}

theorem stateAs_eq_ok_iff {k : StateKind} {content : k.Content} :
    i.stateAs k = .ok content ↔ i.state = some ⟨k, content⟩ := by
  rw [stateAs]
  cases i.state with
  | none => simp
  | some state =>
    rw [Option.some.injEq, ← HostState.as?_eq_some_iff]
    cases hcontent : state.as? k <;> simp [hcontent]

theorem initState_eq_ok_iff {state : HostState} :
    i.initState state = .ok i' ↔ i.state = none ∧ { i with state := some state } = i' := by
  rw [initState]
  cases i.state <;> simp

end Instance

/-- Writing a field leaves the number of values alone. -/
theorem Class.length_of_writeField {c : Class} {fields fields' : List Value} {name : String}
    {v : Value} (h : c.writeField fields name v = .ok fields') :
    fields'.length = fields.length := by
  rw [writeField] at h
  split at h
  · cases h
  · split at h <;> cases h
    exact List.length_set

/-- Writing a static field leaves the number of values alone. -/
theorem Class.length_of_writeStatic {c : Class} {values values' : List Value} {name : String}
    {v : Value} (h : c.writeStatic values name v = .ok values') :
    values'.length = values.length := by
  rw [writeStatic] at h
  split at h
  · cases h
  · split at h <;> cases h
    exact List.length_set

/-- What an object keeps if only state of the kinds that are touched may be exchanged, and fields
may be written only if any are. -/
structure Instance.Keeps (touched : StateKind → Prop) (written : Prop) (i i' : Instance) :
    Prop where
  cls_eq : i'.cls = i.cls
  length_fields : i'.fields.length = i.fields.length
  fields_eq : ¬written → i'.fields = i.fields
  state_eq : ∀ state, i.state = some state → ¬touched state.kind → i'.state = some state

namespace Instance.Keeps

variable {touched : StateKind → Prop} {written : Prop} {i i' i'' : Instance}

theorem refl (i : Instance) : i.Keeps touched written i :=
  ⟨rfl, rfl, fun _ ↦ rfl, fun _ hstate _ ↦ hstate⟩

theorem trans (h : i.Keeps touched written i') (h' : i'.Keeps touched written i'') :
    i.Keeps touched written i'' where
  cls_eq := h'.cls_eq.trans h.cls_eq
  length_fields := h'.length_fields.trans h.length_fields
  fields_eq hkeep := (h'.fields_eq hkeep).trans (h.fields_eq hkeep)
  state_eq state hstate hkeep := h'.state_eq state (h.state_eq state hstate hkeep) hkeep

/-- Fields that may be written are exchanged by as many. -/
theorem of_setField {name : String} {v : Value} (hwritten : written)
    (h : i.setField name v = .ok i') : i.Keeps touched written i' := by
  obtain ⟨fields, hwrite, rfl⟩ := Except.exists_of_map_eq_ok h
  exact ⟨rfl, Class.length_of_writeField hwrite, absurd hwritten, fun _ hstate _ ↦ hstate⟩

/-- The slot is filled if it holds nothing that could be kept. -/
theorem of_initState {state : HostState} (h : i.initState state = .ok i') :
    i.Keeps touched written i' := by
  obtain ⟨hempty, rfl⟩ := initState_eq_ok_iff.1 h
  refine ⟨rfl, rfl, fun _ ↦ rfl, fun _ hstate _ ↦ ?_⟩
  cases hempty.symm.trans hstate

/-- The content of the slot is exchanged if it may be. -/
theorem of_stateAs {k : StateKind} {old : k.Content} (h : i.stateAs k = .ok old)
    (htouched : touched k) (new : k.Content) :
    i.Keeps touched written { i with state := some ⟨k, new⟩ } := by
  refine ⟨rfl, rfl, fun _ ↦ rfl, fun state hstate hkeep ↦ ?_⟩
  cases (stateAs_eq_ok_iff.1 h).symm.trans hstate
  exact absurd htouched hkeep

end Instance.Keeps

/-- A relation between instances that goes along with every exchange of one for another: a field is
written, if any may be, the slot is filled, or the content of the slot is exchanged, if it may
be. -/
structure Instance.Respected (touched : StateKind → Prop) (written : Prop)
    (related : Instance → Instance → Prop) : Prop where
  refl : ∀ i, related i i
  trans : ∀ {i i' i''}, related i i' → related i' i'' → related i i''
  setField : written → ∀ {i i' name v}, i.setField name v = .ok i' → related i i'
  initState : ∀ {i i' state}, i.initState state = .ok i' → related i i'
  putState : ∀ {i k} {old : k.Content}, touched k → i.stateAs k = .ok old →
    ∀ new : k.Content, related i { i with state := some ⟨k, new⟩ }

theorem Instance.Keeps.respected {touched : StateKind → Prop} {written : Prop} :
    Instance.Respected touched written (Instance.Keeps touched written) where
  refl := .refl
  trans := .trans
  setField hwritten _ _ _ _ hset := .of_setField hwritten hset
  initState hinit := .of_initState hinit
  putState htouched hold new := .of_stateAs hold htouched new

namespace Store

/-- One elementary change of a store. -/
inductive Change (touched : Ref → StateKind → Prop) (written : Ref → Prop) : Store → Store → Prop
  /-- An object is added. -/
  | allocate (s : Store) (o : Object) : Change touched written s (s.allocate o).2
  /-- A class is added. -/
  | load (s : Store) (c : Class) : Change touched written s (s.load c).2
  /-- A static field is written. -/
  | setStatic {s s' : Store} {c : LoadedClass} {name : String} {v : Value}
      (h : s.setStatic c name v = .ok s') : Change touched written s s'
  /-- A field of an object is written. -/
  | setField {s : Store} {r : Ref} {i i' : Instance} {name : String} {v : Value}
      (hobject : s.object r = .inst i) (h : i.setField name v = .ok i') (hwritten : written r) :
      Change touched written s (s.putInstance r i')
  /-- A slot is filled. -/
  | initState {s : Store} {r : Ref} {i i' : Instance} {state : HostState}
      (hobject : s.object r = .inst i) (h : i.initState state = .ok i') :
      Change touched written s (s.putInstance r i')
  /-- The content of a slot is exchanged. -/
  | putState {s : Store} {r : Ref} {i : Instance} {k : StateKind} {old : k.Content}
      (hobject : s.object r = .inst i) (h : i.stateAs k = .ok old) (htouched : touched r k)
      (new : k.Content) : Change touched written s (s.putState r i k new)
  /-- Sinks are added, written to, or emptied. -/
  | sinks (s : Store) (sinks : Array Sink) : Change touched written s { s with sinks }
  /-- The clock moves. -/
  | clock (s : Store) (clock : UInt64) : Change touched written s { s with clock }

/-- A sequence of elementary changes. -/
abbrev Evolves (touched : Ref → StateKind → Prop) (written : Ref → Prop) : Store → Store → Prop :=
  Relation.ReflTransGen (Change touched written)

variable {touched touched' : Ref → StateKind → Prop} {written written' : Ref → Prop}
  {s s' : Store} {r : Ref} {i : Instance}

theorem Change.mono (hle : ∀ r k, touched r k → touched' r k) (hle' : ∀ r, written r → written' r)
    (h : s.Change touched written s') : s.Change touched' written' s' := by
  cases h with
  | allocate o => exact .allocate s o
  | load c => exact .load s c
  | setStatic h => exact .setStatic h
  | setField hobject h hwritten => exact .setField hobject h (hle' _ hwritten)
  | initState hobject h => exact .initState hobject h
  | putState hobject h htouched new => exact .putState hobject h (hle _ _ htouched) new
  | sinks sinks => exact .sinks s sinks
  | clock clock => exact .clock s clock

theorem Evolves.mono (hle : ∀ r k, touched r k → touched' r k) (hle' : ∀ r, written r → written' r)
    (h : s.Evolves touched written s') : s.Evolves touched' written' s' :=
  Relation.ReflTransGen.mono (fun _ _ hchange ↦ hchange.mono hle hle') _ _ h

/-! ### Objects and their state -/

theorem object_eq_inst_iff : s.object r = .inst i ↔ s.instance? r = some i := by
  rw [instance?]
  cases s.object r <;> simp [Object.instance?]

/-- A reference to an instance was given out. -/
theorem address_lt_of_object (h : s.object r = .inst i) : r.address < s.objects.size := by
  rcases Nat.lt_or_ge r.address s.objects.size with hlt | hge
  · exact hlt
  · rw [object, Array.getElem?_eq_none hge] at h
    cases h

/-- A new object is what its reference leads to. -/
theorem object_newInstance (s : Store) (c : LoadedClass) (state : Option HostState) :
    (s.newInstance c state).2.object (s.newInstance c state).1 =
      .inst { Instance.fresh c with state } := by
  rw [newInstance, object_allocate, if_pos rfl]

/-- The instance that a reference leads to after an exchange. -/
theorem object_putInstance {q : Ref} {j : Instance} (hq : s.object q = .inst j) (i : Instance) :
    (s.putInstance q i).object r = if r = q then .inst i else s.object r := by
  split
  next heq =>
    subst heq
    exact object_putInstance_self hq
  next hne => exact object_putInstance_of_ne hne

theorem instanceOf_eq_ok_iff {className : String} :
    s.instanceOf r className = .ok i ↔ s.object r = .inst i ∧ i.cls.name = className := by
  rw [instanceOf]
  cases s.object r with
  | text t => simp
  | inst j =>
    rw [Object.inst.injEq]
    constructor
    · intro h
      simp only at h
      split at h <;> cases h
      next hname => exact ⟨rfl, hname⟩
    · rintro ⟨rfl, hname⟩
      exact if_pos hname

/-- The state that a method works on is that of an object of the class named. -/
theorem stateOf_eq_ok_iff {className : String} {k : StateKind} {content : k.Content} :
    s.stateOf r className k = .ok (i, content) ↔
      s.object r = .inst i ∧ i.cls.name = className ∧ i.state = some ⟨k, content⟩ := by
  rw [← and_assoc, ← instanceOf_eq_ok_iff, ← Instance.stateAs_eq_ok_iff, stateOf]
  cases s.instanceOf r className with
  | error e => simp
  | ok j =>
    constructor
    · intro h
      obtain ⟨content', hstate, heq⟩ := Except.exists_of_map_eq_ok h
      cases heq
      exact ⟨rfl, hstate⟩
    · rintro ⟨heq, hstate⟩
      cases heq
      show (i.stateAs k).map _ = _
      rw [hstate]
      rfl

/-- A slot that is filled belongs to an object of the class named, and was empty. -/
theorem initState_eq_ok_iff {className : String} {state : HostState} :
    s.initState r className state = .ok s' ↔
      ∃ i, s.object r = .inst i ∧ i.cls.name = className ∧ i.state = none ∧
        s.putInstance r { i with state := some state } = s' := by
  rw [initState]
  cases hinstance : s.instanceOf r className with
  | error e =>
    refine iff_of_false nofun ?_
    rintro ⟨i, hobject, hname, -⟩
    cases hinstance.symm.trans (instanceOf_eq_ok_iff.2 ⟨hobject, hname⟩)
  | ok j =>
    constructor
    · intro h
      obtain ⟨j', hinit, hstore⟩ := Except.exists_of_map_eq_ok h
      obtain ⟨hempty, rfl⟩ := Instance.initState_eq_ok_iff.1 hinit
      obtain ⟨hobject, hname⟩ := instanceOf_eq_ok_iff.1 hinstance
      exact ⟨j, hobject, hname, hempty, hstore⟩
    · rintro ⟨i, hobject, hname, hempty, rfl⟩
      cases hinstance.symm.trans (instanceOf_eq_ok_iff.2 ⟨hobject, hname⟩)
      show (j.initState state).map (s.putInstance r) = _
      rw [Instance.initState_eq_ok_iff.2 ⟨hempty, rfl⟩]
      rfl

/-! ### What stays -/

/-- **What every exchange of an instance respects**, whichever of the three it is, is true of every
object before and after a change. -/
theorem Change.exists_object {related : Instance → Instance → Prop}
    (hrelated : Instance.Respected (touched r) (written r) related)
    (h : s.Change touched written s') (hobject : s.object r = .inst i) :
    ∃ i', s'.object r = .inst i' ∧ related i i' := by
  -- an instance is exchanged, and it may be the one behind `r`
  have hput {q : Ref} {j j' : Instance} (hq : s.object q = .inst j)
      (hexchange : q = r → related j j') :
      ∃ i', (s.putInstance q j').object r = .inst i' ∧ related i i' := by
    rw [object_putInstance hq]
    split
    next heq =>
      subst heq
      cases hobject.symm.trans hq
      exact ⟨j', rfl, hexchange rfl⟩
    · exact ⟨i, hobject, hrelated.refl i⟩
  cases h with
  | load | sinks | clock => exact ⟨i, hobject, hrelated.refl i⟩
  | setStatic h =>
    obtain ⟨values, -, rfl⟩ := Except.exists_of_map_eq_ok h
    exact ⟨i, hobject, hrelated.refl i⟩
  | allocate o =>
    have hlt := address_lt_of_object hobject
    have hne : r ≠ (s.allocate o).1 := by
      rintro rfl
      exact absurd hlt (Nat.lt_irrefl _)
    refine ⟨i, ?_, hrelated.refl i⟩
    rw [object_allocate, if_neg hne, hobject]
  | setField hq hset hwritten => exact hput hq fun heq ↦ hrelated.setField (heq ▸ hwritten) hset
  | initState hq hinit => exact hput hq fun _ ↦ hrelated.initState hinit
  | putState hq hold htouched new =>
    exact hput hq fun heq ↦ hrelated.putState (heq ▸ htouched) hold new

theorem Evolves.exists_object {related : Instance → Instance → Prop}
    (hrelated : Instance.Respected (touched r) (written r) related)
    (h : s.Evolves touched written s') (hobject : s.object r = .inst i) :
    ∃ i', s'.object r = .inst i' ∧ related i i' := by
  induction h with
  | refl => exact ⟨i, hobject, hrelated.refl i⟩
  | tail _ hchange ih =>
    obtain ⟨j, hj, hbefore⟩ := ih
    obtain ⟨j', hj', hafter⟩ := hchange.exists_object hrelated hj
    exact ⟨j', hj', hrelated.trans hbefore hafter⟩

/-- **Objects keep their class, fields that are not written, and state that is not touched.** -/
theorem Evolves.object_eq_inst (h : s.Evolves touched written s') (hobject : s.object r = .inst i) :
    ∃ i', s'.object r = .inst i' ∧ i.Keeps (touched r) (written r) i' :=
  h.exists_object Instance.Keeps.respected hobject

/-- **The state behind an object stays as it is unless it is touched.** -/
theorem Evolves.stateOf_eq_ok (h : s.Evolves touched written s') {className : String}
    {k : StateKind} {content : k.Content} (hkeep : ¬touched r k)
    (hstate : s.stateOf r className k = .ok (i, content)) :
    ∃ i', s'.stateOf r className k = .ok (i', content) := by
  obtain ⟨hobject, hname, hcontent⟩ := stateOf_eq_ok_iff.1 hstate
  obtain ⟨i', hobject', hkeeps⟩ := h.object_eq_inst hobject
  refine ⟨i', stateOf_eq_ok_iff.2 ⟨hobject', ?_, hkeeps.state_eq _ hcontent hkeep⟩⟩
  rw [LoadedClass.name, hkeeps.cls_eq]
  exact hname

/-- **A class keeps as many static values as it was given.** -/
theorem Change.length_staticsOf (h : s.Change touched written s') {c : LoadedClass}
    (hc : c.id < s.statics.size) :
    c.id < s'.statics.size ∧ (s'.staticsOf c).length = (s.staticsOf c).length := by
  cases h with
  | allocate | setField | initState | putState | sinks | clock => exact ⟨hc, rfl⟩
  | load c' =>
    refine ⟨?_, ?_⟩
    · simp only [Store.load, Array.size_push]
      omega
    · rw [staticsOf, Store.load, Array.getElem?_push_lt hc, staticsOf,
        Array.getElem?_eq_getElem hc]
  | @setStatic _ c' name v h =>
    obtain ⟨values, hwrite, rfl⟩ := Except.exists_of_map_eq_ok h
    refine ⟨by rwa [Array.size_setIfInBounds], ?_⟩
    by_cases hid : c'.id = c.id
    · have hlength := Class.length_of_writeStatic hwrite
      simp only [staticsOf, hid] at hlength ⊢
      rw [Array.getElem?_setIfInBounds_self_of_lt hc, Option.getD_some, hlength]
    · simp only [staticsOf]
      rw [Array.getElem?_setIfInBounds_ne hid]

theorem Evolves.length_staticsOf (h : s.Evolves touched written s') {c : LoadedClass}
    (hc : c.id < s.statics.size) :
    c.id < s'.statics.size ∧ (s'.staticsOf c).length = (s.staticsOf c).length := by
  induction h with
  | refl => exact ⟨hc, rfl⟩
  | tail _ hchange ih =>
    obtain ⟨hc', hlength⟩ := hchange.length_staticsOf ih.1
    exact ⟨hc', hlength.trans ih.2⟩

/-! ### What the operations come down to -/

theorem evolves_initState {className : String} {state : HostState}
    (h : s.initState r className state = .ok s') : s.Evolves touched written s' := by
  obtain ⟨i, hobject, -, hempty, rfl⟩ := initState_eq_ok_iff.1 h
  exact .single (.initState hobject (Instance.initState_eq_ok_iff.2 ⟨hempty, rfl⟩))

/-- What is asked of a sink changes the sinks alone. -/
theorem exists_callSink_eq (s : Store) (sink : Nat) (call : SinkCall) :
    ∃ sinks, (s.callSink sink call).2 = { s with sinks } := by
  rw [callSink]
  split
  · exact ⟨s.sinks, rfl⟩
  · exact ⟨_, rfl⟩

theorem exists_takeSink_eq (s : Store) (sink : Nat) :
    ∃ sinks, (s.takeSink sink).2 = { s with sinks } := by
  rw [takeSink]
  split
  · exact ⟨s.sinks, rfl⟩
  · exact ⟨_, rfl⟩

/-- What is asked of a stream's sink may leave a failure behind in the stream. -/
theorem evolves_callStream {stream : Stream} (hobject : s.object r = .inst i)
    (hstate : i.stateAs .stream = .ok stream) (htouched : touched r .stream) (call : SinkCall) :
    s.Evolves touched written (s.callStream r i stream call) := by
  obtain ⟨sinks, hsinks⟩ := s.exists_callSink_eq stream.sink call
  have hcall : s.Evolves touched written (s.callSink stream.sink call).2 :=
    hsinks ▸ .single (.sinks s sinks)
  rw [callStream]
  split
  next heq =>
    rw [heq] at hcall
    exact hcall
  next heq =>
    rw [heq] at hcall hsinks
    exact hcall.tail (.putState (by rw [← hobject, hsinks]; rfl) hstate htouched _)

theorem evolves_of_map_load {outcome : Except Clash Class} {c : LoadedClass}
    (h : outcome.map s.load = .ok (c, s')) : s.Evolves touched written s' := by
  obtain ⟨info, -, hload⟩ := Except.exists_of_map_eq_ok h
  have hstore : (s.load info).2 = s' := congrArg Prod.snd hload
  exact hstore ▸ .single (.load s info)

theorem evolves_loadSystem {streams : LoadedClass} {stdout : Nat} {c : LoadedClass}
    (h : s.loadSystem streams stdout = .ok (c, s')) : s.Evolves touched written s' := by
  have hopen : s.Change touched written (s.openStream streams stdout).2 := .allocate s _
  rw [loadSystem] at h
  exact .head hopen (evolves_of_map_load h)

end Store

end HostMethods
