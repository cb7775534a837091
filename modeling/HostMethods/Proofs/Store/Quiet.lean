import HostMethods.Proofs.Store.Making

/-!
# Changes that no sink notices

Most of what runs leaves every sink alone. `Store.Quiet` lists the elementary changes of this sort,
with parameters that say what they bring into the store: `adds o` that the object `o` may be added,
and `fills r c state` that the state may come into the slot of the object `r`, whose class is `c`.

What all filled slots have in common is said by `Store.Slots`. It stays true if it is true of
everything that is brought in (`Store.Quietly.slots`), so an invariant of the objects is shown by a
look at what a command brings, and not at what it does.
-/

namespace HostMethods

/-- The object is a stream that has just been opened. -/
def Object.IsNewStream (o : Object) : Prop :=
  ∃ c sink, o = .inst { Instance.fresh c with state := some ⟨.stream, .to sink⟩ }

namespace Store

/-- One elementary change that leaves the sinks alone. -/
inductive Quiet (adds : Object → Prop) (fills : Ref → LoadedClass → HostState → Prop) :
    Store → Store → Prop
  /-- An object is added. -/
  | allocate (s : Store) {o : Object} (h : adds o) : Quiet adds fills s (s.allocate o).2
  /-- An object gets other field values, or state comes into its slot. -/
  | exchange {s : Store} {r : Ref} {i i' : Instance} (hobject : s.object r = .inst i)
      (hcls : i'.cls = i.cls)
      (hstate : ∀ state, i'.state = some state → i.state = some state ∨ fills r i.cls state) :
      Quiet adds fills s (s.putInstance r i')
  /-- Classes are added, static fields are written, or the clock moves. -/
  | other (s : Store) (statics : Array (List Value)) (clock : UInt64) :
      Quiet adds fills s { s with statics, clock }

/-- A sequence of changes that leave the sinks alone. -/
abbrev Quietly (adds : Object → Prop) (fills : Ref → LoadedClass → HostState → Prop) :
    Store → Store → Prop :=
  Relation.ReflTransGen (Quiet adds fills)

/-- Whatever state is behind an object, `holds` is true of the object, its class and the state. -/
def Slots (s : Store) (holds : Ref → LoadedClass → HostState → Prop) : Prop :=
  ∀ r i state, s.object r = .inst i → i.state = some state → holds r i.cls state

section Quietly

variable {adds : Object → Prop} {fills : Ref → LoadedClass → HostState → Prop} {s s' : Store}
  {r : Ref} {i : Instance}

theorem Quietly.mono {fills' : Ref → LoadedClass → HostState → Prop}
    (hle : ∀ r c state, fills r c state → fills' r c state) (h : s.Quietly adds fills s') :
    s.Quietly adds fills' s' := by
  refine Relation.ReflTransGen.mono (fun t t' hchange ↦ ?_) _ _ h
  cases hchange with
  | allocate h => exact .allocate t h
  | other statics clock => exact .other t statics clock
  | exchange hobject hcls hstate =>
    exact .exchange hobject hcls fun state h ↦ (hstate state h).imp_right (hle _ _ state)

theorem Quietly.sinks_eq (h : s.Quietly adds fills s') : s'.sinks = s.sinks := by
  induction h with
  | refl => rfl
  | tail _ hchange ih =>
    cases hchange with
    | allocate | exchange | other => exact ih

theorem Quiet.slots {holds : Ref → LoadedClass → HostState → Prop} (h : s.Quiet adds fills s')
    (hadds : ∀ r i state, adds (.inst i) → i.state = some state → holds r i.cls state)
    (hfills : ∀ r c state, fills r c state → holds r c state) (hs : s.Slots holds) :
    s'.Slots holds := by
  intro q j state hobject hstate
  cases h with
  | other => exact hs q j state hobject hstate
  | @allocate o ho =>
    rw [object_allocate] at hobject
    split at hobject
    · subst hobject
      exact hadds q j state ho hstate
    · exact hs q j state hobject hstate
  | @exchange r i i' hr hcls hput =>
    rw [object_putInstance hr] at hobject
    split at hobject
    next heq =>
      cases hobject
      rw [hcls]
      rcases hput state hstate with hold | hnew
      · exact heq ▸ hs r i state hr hold
      · exact heq ▸ hfills r i.cls state hnew
    · exact hs q j state hobject hstate

/-- **What is true of every filled slot stays true** if it is true of all that is brought in. -/
theorem Quietly.slots {holds : Ref → LoadedClass → HostState → Prop} (h : s.Quietly adds fills s')
    (hadds : ∀ r i state, adds (.inst i) → i.state = some state → holds r i.cls state)
    (hfills : ∀ r c state, fills r c state → holds r c state) (hs : s.Slots holds) :
    s'.Slots holds := by
  induction h with
  | refl => exact hs
  | tail _ hchange ih => exact hchange.slots hadds hfills ih

/-! ### What the operations bring in -/

theorem quiet_setField {i' : Instance} {name : String} {v : Value} (hobject : s.object r = .inst i)
    (h : i.setField name v = .ok i') : s.Quiet adds fills (s.putInstance r i') := by
  obtain ⟨fields, -, rfl⟩ := Except.exists_of_map_eq_ok h
  exact .exchange hobject rfl fun state hstate ↦ .inl hstate

theorem quiet_setStatic {c : LoadedClass} {name : String} {v : Value}
    (h : s.setStatic c name v = .ok s') : s.Quiet adds fills s' := by
  obtain ⟨values, -, rfl⟩ := Except.exists_of_map_eq_ok h
  exact .other s _ s.clock

theorem quiet_putInstance {state : HostState} (hobject : s.object r = .inst i)
    (hfills : fills r i.cls state) :
    s.Quiet adds fills (s.putInstance r { i with state := some state }) := by
  refine .exchange hobject rfl fun state' hstate ↦ .inr ?_
  cases hstate
  exact hfills

theorem quiet_initState {className : String} {state : HostState}
    (h : s.initState r className state = .ok s')
    (hfills : ∀ c, c.name = className → fills r c state) : s.Quiet adds fills s' := by
  obtain ⟨i, hobject, hname, -, rfl⟩ := initState_eq_ok_iff.1 h
  exact quiet_putInstance hobject (hfills i.cls hname)

theorem quiet_putState {className : String} {k : StateKind} {old new : k.Content}
    (h : s.stateOf r className k = .ok (i, old))
    (hfills : ∀ c, c.name = className → fills r c ⟨k, new⟩) :
    s.Quiet adds fills (s.putState r i k new) := by
  obtain ⟨hobject, hname, -⟩ := stateOf_eq_ok_iff.1 h
  exact quiet_putInstance hobject (hfills i.cls hname)

theorem quiet_load (s : Store) (c : Class) : s.Quiet adds fills (s.load c).2 :=
  .other s _ s.clock

theorem quiet_of_map_load {outcome : Except Clash Class} {c : LoadedClass}
    (h : outcome.map s.load = .ok (c, s')) : s.Quiet adds fills s' := by
  obtain ⟨info, -, hload⟩ := Except.exists_of_map_eq_ok h
  have hstore : (s.load info).2 = s' := congrArg Prod.snd hload
  exact hstore ▸ s.quiet_load info

theorem quietly_loadSystem {streams : LoadedClass} {stdout : Nat} {c : LoadedClass}
    (hadds : ∀ o : Object, o.IsNewStream → adds o)
    (h : s.loadSystem streams stdout = .ok (c, s')) : s.Quietly adds fills s' := by
  have hopen : s.Quiet adds fills (s.openStream streams stdout).2 :=
    .allocate s (hadds _ ⟨streams, stdout, rfl⟩)
  rw [loadSystem] at h
  exact .head hopen (.single (quiet_of_map_load h))

end Quietly

end Store

/-- **A catalog brings in nothing but new streams.** -/
theorem Catalog.Making.quietly {adds : Object → Prop}
    {fills : Ref → LoadedClass → HostState → Prop} {before after : Catalog × Store}
    (hadds : ∀ o : Object, o.IsNewStream → adds o) (h : Catalog.Making before after) :
    before.2.Quietly adds fills after.2 := by
  induction h with
  | refl => exact .refl
  | tail _ hmakes ih =>
    cases hmakes with
    | system _ _ hload => exact ih.trans (Store.quietly_loadSystem hadds hload)
    | random _ hload => exact ih.tail (Store.quiet_of_map_load hload)
    | printStream _ hload => exact ih.tail (Store.quiet_of_map_load hload)

end HostMethods
