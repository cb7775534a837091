import HostMethods.Proofs.Class.Places
import HostMethods.Proofs.Run.Frame

/-!
# Fields of instances

Every object has values of its own for the fields that its class gives its instances. A class gives
every open field one place and every object as many values as there are places
(`Store.IsInstance`), whatever has been carried out since the object was made. So reading and
writing by name never miss, and two names never meet: `Machine.KeepsFields` says what this means for
one object, and `Machine.LawfulWrite` for everything else that a write could reach.

A field is written by nothing but a write that names its object and itself (`Machine.field?_step`).
So it reads as what was written to it last, or as what it held before (`Machine.field?_run`), and in
a new object that is the default value of its type.
-/

namespace HostMethods

/-- A default value is in the form in which values of the type are held, if the type has any. -/
theorem GuestType.HasDefault.holds {type : GuestType} {v : Value} (h : type.HasDefault v)
    (hvalues : type ≠ .void) : type.Holds v := by
  cases h with
  | void => exact absurd rfl hvalues
  | boolean => exact .inl rfl
  | _ => trivial

/-! ### Reading and writing -/

namespace Store

variable {s s' : Store} {r : Ref} {c : LoadedClass} {i : Instance}

/-- Reads a field of an object. -/
def field? (s : Store) (r : Ref) (name : String) : Option Value :=
  (s.instance? r).bind (·.field? name)

theorem field?_of_object (h : s.object r = .inst i) (n : String) :
    s.field? r n = (i.cls.info.instanceIndex? n).bind (i.fields[·]?) := by
  rw [field?, object_eq_inst_iff.1 h]
  rfl

/-- The reference leads to an object of the class, which has a value for each of its places. -/
def IsInstance (s : Store) (r : Ref) (c : LoadedClass) : Prop :=
  ∃ i, s.object r = .inst i ∧ i.cls = c ∧ i.fields.length = c.info.instanceFields.length

/-- A new object has a value for each place. -/
theorem isInstance_newInstance (s : Store) (c : LoadedClass) (state : Option HostState) :
    (s.newInstance c state).2.IsInstance (s.newInstance c state).1 c :=
  ⟨_, s.object_newInstance c state, rfl, List.length_map _⟩

/-- An object remains one of its class, and none of its places is lost. -/
theorem IsInstance.of_evolves {touched : Ref → StateKind → Prop} {written : Ref → Prop}
    (h : s.IsInstance r c) (hevolves : s.Evolves touched written s') : s'.IsInstance r c := by
  obtain ⟨i, hobject, hcls, hlength⟩ := h
  obtain ⟨i', hobject', hkeeps⟩ := hevolves.object_eq_inst hobject
  exact ⟨i', hobject', hkeeps.cls_eq.trans hcls, hkeeps.length_fields.trans hlength⟩

/-- Fields of an object that is not written stay as they are. -/
theorem IsInstance.field?_of_evolves {touched : Ref → StateKind → Prop} {written : Ref → Prop}
    (h : s.IsInstance r c) (hevolves : s.Evolves touched written s') (hkeep : ¬written r)
    (n : String) : s'.field? r n = s.field? r n := by
  obtain ⟨i, hobject, -⟩ := h
  obtain ⟨i', hobject', hkeeps⟩ := hevolves.object_eq_inst hobject
  rw [field?_of_object hobject', field?_of_object hobject, hkeeps.cls_eq, hkeeps.fields_eq hkeep]

end Store

namespace Machine

variable {m : Machine} {r : Ref} {c : LoadedClass} {i : Instance} {ms : List Member} {n : String}

/-- A write under a name that leads to no place is refused. -/
theorem step_setField_of_none (hobject : m.store.object r = .inst i)
    (hindex : i.cls.info.instanceIndex? n = none) (v : Value) :
    m.step (.setField r n v) = (m, .fieldFault (.noInstance n i.cls.info.name)) := by
  simp only [step, Store.object_eq_inst_iff.1 hobject, Instance.setField, Class.writeField, hindex]
  rfl

/-- A write under a name that leads to a place puts its value there. -/
theorem step_setField_of_lt (hobject : m.store.object r = .inst i) {j : Nat}
    (hindex : i.cls.info.instanceIndex? n = some j) (hj : j < i.fields.length) (v : Value) :
    m.step (.setField r n v) =
      ({ m with store := m.store.putInstance r { i with fields := i.fields.set j v } }, .done) := by
  simp only [step, Store.object_eq_inst_iff.1 hobject, Instance.setField, Class.writeField, hindex,
    if_pos hj]
  rfl

/-! ### The law of fields -/

/-- What a write to the field of an object may do and must do. It goes through if the field is open,
and then the value is read under the field's name. No other field and no other object notices, and
neither do the class of the object, the state behind it, nor anything besides objects. If it does
not go through it changes nothing, and the reason is not that the value is not there. -/
structure LawfulWrite (m : Machine) (r : Ref) (n : String) (v : Value) (opens : Prop)
    (after : Machine × Reply) : Prop where
  done_iff : after.2 = .done ↔ opens
  field?_self : after.2 = .done → after.1.store.field? r n = some v
  field?_of_ne : ∀ other, other ≠ n → after.1.store.field? r other = m.store.field? r other
  object_of_ne : ∀ q, q ≠ r → after.1.store.object q = m.store.object q
  cls_eq : (after.1.store.instance? r).map (·.cls) = (m.store.instance? r).map (·.cls)
  state_eq : (after.1.store.instance? r).map (·.state) = (m.store.instance? r).map (·.state)
  eq_of_objects : ∃ objects, after.1 = { m with store := { m.store with objects } }
  eq_of_not_done : after.2 ≠ .done → after.1 = m
  ne_instanceBeyond : ∀ index count, after.2 ≠ .fieldFault (.instanceBeyond index count)

/-- The object keeps its fields, which are those with the names that are open: a name reads a value
exactly if it is open, and every write is lawful. -/
structure KeepsFields (m : Machine) (r : Ref) (opens : String → Prop) : Prop where
  isSome_field?_iff : ∀ n, (m.store.field? r n).isSome ↔ opens n
  lawfulWrite : ∀ n v, m.LawfulWrite r n v (opens n) (m.step (.setField r n v))

/-- To refuse the write is lawful if the field is not open. -/
theorem lawfulWrite_refused (m : Machine) (r : Ref) (v : Value) {opens : Prop} (hclosed : ¬opens)
    (className : String) :
    m.LawfulWrite r n v opens (m, .fieldFault (.noInstance n className)) where
  done_iff := iff_of_false nofun hclosed
  field?_self := nofun
  field?_of_ne _ _ := rfl
  object_of_ne _ _ := rfl
  cls_eq := rfl
  state_eq := rfl
  eq_of_objects := ⟨m.store.objects, rfl⟩
  eq_of_not_done _ := rfl
  ne_instanceBeyond := nofun

/-- To exchange the value at the field's place is lawful if no other name leads there. -/
theorem lawfulWrite_exchanged (hobject : m.store.object r = .inst i) {j : Nat}
    (hindex : i.cls.info.instanceIndex? n = some j) (hj : j < i.fields.length)
    (hinj : ∀ other, i.cls.info.instanceIndex? other = some j → other = n) (v : Value)
    {opens : Prop} (hopens : opens) :
    m.LawfulWrite r n v opens
      ({ m with store := m.store.putInstance r { i with fields := i.fields.set j v } }, .done) := by
  have hafter := Store.object_putInstance_self (i := { i with fields := i.fields.set j v }) hobject
  exact {
    done_iff := iff_of_true rfl hopens
    field?_self := fun _ ↦ by
      rw [Store.field?_of_object hafter, hindex, Option.bind_some, List.getElem?_set_self hj]
    field?_of_ne := fun other hne ↦ by
      rw [Store.field?_of_object hafter, Store.field?_of_object hobject]
      refine Option.bind_congr fun k hk ↦ List.getElem?_set_ne fun hplace ↦ hne ?_
      subst hplace
      exact hinj other hk
    object_of_ne := fun q hne ↦ Store.object_putInstance_of_ne hne
    cls_eq := by
      rw [Store.object_eq_inst_iff.1 hafter, Store.object_eq_inst_iff.1 hobject]
      rfl
    state_eq := by
      rw [Store.object_eq_inst_iff.1 hafter, Store.object_eq_inst_iff.1 hobject]
      rfl
    eq_of_objects := ⟨_, rfl⟩
    eq_of_not_done := fun hfailed ↦ absurd rfl hfailed
    ne_instanceBeyond := nofun }

/-- **An object of a class made of members keeps the fields that they open.** -/
theorem keepsFields_of_isInstance (h : m.store.IsInstance r c) (hc : c.info.ConsistsOf ms) :
    m.KeepsFields r (Class.OpensField ms) := by
  obtain ⟨i, hobject, rfl, hlength⟩ := h
  have hlt {n j} (hindex : i.cls.info.instanceIndex? n = some j) : j < i.fields.length :=
    hlength ▸ hc.instanceIndex?_lt hindex
  constructor
  case isSome_field?_iff =>
    intro n
    rw [Store.field?_of_object hobject, ← hc.isSome_instanceIndex?_iff]
    cases hindex : i.cls.info.instanceIndex? n with
    | none => rfl
    | some j =>
      rw [Option.bind_some, List.getElem?_eq_getElem (hlt hindex)]
      rfl
  case lawfulWrite =>
    intro n v
    have hopens := hc.isSome_instanceIndex?_iff (n := n)
    cases hindex : i.cls.info.instanceIndex? n with
    | none =>
      rw [hindex] at hopens
      rw [step_setField_of_none hobject hindex]
      exact lawfulWrite_refused m r v (mt hopens.2 nofun) _
    | some j =>
      rw [hindex] at hopens
      rw [step_setField_of_lt hobject hindex (hlt hindex)]
      exact lawfulWrite_exchanged hobject hindex (hlt hindex)
        (fun other hother ↦ hc.instanceIndex?_inj hother hindex) v (hopens.1 rfl)

/-! ### What a run has written -/

/-- The value that a command writes to the field, if it is a write to that field that goes through.
-/
def fieldWrite? (m : Machine) (r : Ref) (n : String) (cmd : Command) : Option Value :=
  match cmd, (m.step cmd).2 with
  | .setField q name v, .done => if q = r ∧ name = n then some v else none
  | _, _ => none

/-- The values that commands write to the field one after the other. -/
def fieldWrites (m : Machine) (r : Ref) (n : String) : List Command → List Value
  | [] => []
  | cmd :: cmds => (m.fieldWrite? r n cmd).toList ++ (m.step cmd).1.fieldWrites r n cmds

theorem fieldWrite?_of_done {v : Value} (hdone : (m.step (.setField r n v)).2 = .done) :
    m.fieldWrite? r n (.setField r n v) = some v := by
  simp only [fieldWrite?, hdone, and_self, if_true]

theorem fieldWrite?_of_not_done {cmd : Command} (hfailed : (m.step cmd).2 ≠ .done) :
    m.fieldWrite? r n cmd = none := by
  unfold fieldWrite?
  split
  next heq => exact absurd heq hfailed
  · rfl

/-- A command that writes to the field is a write to its object under its name. -/
theorem eq_setField_of_fieldWrite? {cmd : Command} {v : Value}
    (h : m.fieldWrite? r n cmd = some v) : cmd = .setField r n v := by
  unfold fieldWrite? at h
  split at h
  · obtain ⟨⟨rfl, rfl⟩, heq⟩ := Option.ite_none_right_eq_some.1 h
    cases heq
    rfl
  · cases h

/-- **A step leaves a field as it is unless it writes to it.** -/
theorem field?_step (h : m.store.IsInstance r c) (hc : c.info.ConsistsOf ms) (n : String)
    (cmd : Command) :
    (m.step cmd).1.store.field? r n = (m.fieldWrite? r n cmd).or (m.store.field? r n) := by
  have hlawful := (keepsFields_of_isInstance h hc).lawfulWrite
  cases hwrite : m.fieldWrite? r n cmd with
  | some v =>
    obtain rfl := eq_setField_of_fieldWrite? hwrite
    rw [Option.some_or, (hlawful n v).field?_self]
    by_contra hfailed
    cases hwrite.symm.trans (fieldWrite?_of_not_done hfailed)
  | none =>
    rw [Option.none_or]
    by_cases hwrites : cmd.Writes r
    · -- a write to the object has failed or was to another field
      obtain ⟨name, v, rfl⟩ := hwrites
      by_cases hname : n = name
      · subst hname
        have hfailed : (m.step (.setField r n v)).2 ≠ .done := fun hdone ↦ by
          cases hwrite.symm.trans (fieldWrite?_of_done hdone)
        rw [(hlawful n v).eq_of_not_done hfailed]
      · exact (hlawful name v).field?_of_ne n hname
    · exact h.field?_of_evolves (m.step_evolves cmd) hwrites n

/-- **A field reads as what was written to it last**, or as it did before. -/
theorem field?_run (h : m.store.IsInstance r c) (hc : c.info.ConsistsOf ms) (n : String)
    (cmds : List Command) :
    (m.run cmds).1.store.field? r n =
      (m.fieldWrites r n cmds).getLast?.or (m.store.field? r n) := by
  induction cmds generalizing m with
  | nil => rfl
  | cons cmd cmds ih =>
    have hlater : (m.step cmd).1.store.IsInstance r c := h.of_evolves (m.step_evolves cmd)
    have hlast : (m.fieldWrite? r n cmd).toList.getLast? = m.fieldWrite? r n cmd := by
      cases m.fieldWrite? r n cmd <;> rfl
    rw [run, ih hlater, field?_step h hc, fieldWrites, List.getLast?_append, hlast,
      Option.or_assoc]

/-! ### New objects -/

/-- A new object reads default values under the names of its fields. -/
theorem exists_field?_newInstance (s : Store) (hc : c.info.ConsistsOf ms)
    (state : Option HostState) {access : Access} {type : GuestType}
    (hmem : .field n access type ∈ ms) (hopen : access.isStatic = false) :
    ∃ first, type.HasDefault first ∧
      (s.newInstance c state).2.field? (s.newInstance c state).1 n = some first := by
  obtain ⟨j, hj⟩ :=
    Option.isSome_iff_exists.1 (hc.isSome_instanceIndex?_iff.2 ⟨access, type, hmem, hopen⟩)
  obtain ⟨first, hfirst, hplace⟩ := hc.exists_initialField hmem hj
  refine ⟨first, hfirst, ?_⟩
  rw [Store.field?_of_object (s.object_newInstance c state)]
  show (c.info.instanceIndex? n).bind (c.info.initialFields[·]?) = _
  rw [hj, Option.bind_some, hplace]

/-- **Every object keeps its own fields.** Let an object be made of a class that was put together
from any members, on any machine, and let any commands follow. Then the names of the object's fields
are those that were accepted for fields of instances without the static flag, reading and writing
obey the law of fields, and every field reads as the value that was written to it last, or as the
default value of its type if none was (`GuestType.HasDefault`). -/
theorem newInstance_keepsFields {name : String} {members : List Member} {state : Option HostState}
    (hc : c.info = ((Class.empty name).assemble members).1)
    (hmade : (m.step (.newInstance c state)).2 = .created r) (cmds : List Command) :
    ((m.step (.newInstance c state)).1.run cmds).1.KeepsFields r
        (Class.OpensField (Class.accepted name members)) ∧
      ∀ n access type, .field n access type ∈ Class.accepted name members →
        access.isStatic = false →
        ∃ first, type.HasDefault first ∧
          ((m.step (.newInstance c state)).1.run cmds).1.store.field? r n =
            some (((m.step (.newInstance c state)).1.fieldWrites r n cmds).getLastD first) := by
  have hconsists : c.info.ConsistsOf (Class.accepted name members) := by
    rw [hc, Class.assemble_eq_ofMembers]
    exact Class.consistsOf_ofMembers name (Class.nodup_keys_accepted name members)
  have hr : r = (m.store.newInstance c state).1 := by
    cases hmade
    rfl
  subst hr
  have hnew : (m.step (.newInstance c state)).1.store.IsInstance
      (m.store.newInstance c state).1 c :=
    m.store.isInstance_newInstance c state
  have hlater := hnew.of_evolves ((m.step (.newInstance c state)).1.run_evolves cmds)
  refine ⟨keepsFields_of_isInstance hlater hconsists, fun n access type hmem hopen ↦ ?_⟩
  obtain ⟨first, hfirst, hfield⟩ := exists_field?_newInstance m.store hconsists state hmem hopen
  have hdefault : (m.step (.newInstance c state)).1.store.field? (m.store.newInstance c state).1 n =
      some first := hfield
  refine ⟨first, hfirst, ?_⟩
  rw [field?_run hnew hconsists, hdefault, Option.or_some, List.getLastD_eq_getLast?]

/-- The members of a class with open fields of several types, and with a field of instances that has
the static flag. -/
def halfOpenMembers : List Member :=
  [.field "x" .publicFlag .int, .field "l" .publicFlag .long, .field "f" .publicFlag .float,
    .field "d" .publicFlag .double, .field "o" .publicFlag (.object "t/A"),
    .field "y" .staticFlag .int]

/-- A class with these members. -/
def halfOpenClass : LoadedClass :=
  ⟨0, ((Class.empty "t/A").assemble halfOpenMembers).1⟩

/-- A new object reads the zero of every type and null. Of two objects, each reads what was written
to it last, and neither can be written where the name is not open. -/
theorem newInstance_keepsFields_twoObjects :
    let m := new .capture none 8
    let made := (m.step (.newInstance halfOpenClass none)).1
    let cmds : List Command := [.setField ⟨0⟩ "x" (.int 3), .newInstance halfOpenClass none,
      .setField ⟨1⟩ "x" (.int 5), .setField ⟨0⟩ "y" (.int 6), .setField ⟨0⟩ "x" (.int 7)]
    halfOpenClass.info = ((Class.empty "t/A").assemble halfOpenMembers).1 ∧
      (m.step (.newInstance halfOpenClass none)).2 = .created ⟨0⟩ ∧
      made.store.field? ⟨0⟩ "x" = some (.int 0) ∧
      made.store.field? ⟨0⟩ "l" = some (.long 0) ∧
      made.store.field? ⟨0⟩ "f" = some (.float ⟨0⟩) ∧
      made.store.field? ⟨0⟩ "d" = some (.double ⟨0⟩) ∧
      made.store.field? ⟨0⟩ "o" = some .null ∧
      (made.run cmds).1.store.field? ⟨0⟩ "x" = some (.int 7) ∧
      (made.run cmds).1.store.field? ⟨1⟩ "x" = some (.int 5) ∧
      (made.run cmds).1.store.field? ⟨0⟩ "y" = none ∧
      ∀ v, ((made.run cmds).1.step (.setField ⟨0⟩ "y" v)).2 ≠ .done := by
  intro m made cmds
  have hmade : (m.step (.newInstance halfOpenClass none)).2 = .created ⟨0⟩ := rfl
  have haccepted : Class.accepted "t/A" halfOpenMembers = halfOpenMembers := by decide
  have hclosed : ¬Class.OpensField (Class.accepted "t/A" halfOpenMembers) "y" := by
    rw [haccepted]
    rintro ⟨access, type, hmem, hopen⟩
    simp only [halfOpenMembers, List.mem_cons, Member.field.injEq, String.reduceEq, false_and,
      true_and, false_or, List.not_mem_nil, or_false] at hmem
    obtain ⟨rfl, -⟩ := hmem
    exact absurd hopen (by decide)
  obtain ⟨-, hnew⟩ := newInstance_keepsFields (c := halfOpenClass) rfl hmade []
  obtain ⟨hkeeps, hlater⟩ := newInstance_keepsFields (c := halfOpenClass) rfl hmade cmds
  rw [haccepted] at hnew hlater
  obtain ⟨_, ⟨⟩, hint⟩ := hnew "x" .publicFlag .int (by decide) rfl
  obtain ⟨_, ⟨⟩, hlong⟩ := hnew "l" .publicFlag .long (by decide) rfl
  obtain ⟨_, ⟨⟩, hfloat⟩ := hnew "f" .publicFlag .float (by decide) rfl
  obtain ⟨_, ⟨⟩, hdouble⟩ := hnew "d" .publicFlag .double (by decide) rfl
  obtain ⟨_, ⟨⟩, hobject⟩ := hnew "o" .publicFlag (.object "t/A") (by decide) rfl
  have hwrites : made.fieldWrites ⟨0⟩ "x" cmds = [.int 3, .int 7] := by decide +kernel
  have hother : (made.run cmds).1.store.field? ⟨1⟩ "x" = some (.int 5) := by decide +kernel
  obtain ⟨_, -, hlast⟩ := hlater "x" .publicFlag .int (by decide) rfl
  rw [hwrites] at hlast
  refine ⟨rfl, hmade, hint, hlong, hfloat, hdouble, hobject, hlast, hother, ?_, fun v hdone ↦ ?_⟩
  · exact Option.not_isSome_iff_eq_none.1 (mt (hkeeps.isSome_field?_iff "y").1 hclosed)
  · exact hclosed (((hkeeps.lawfulWrite "y" v).done_iff).1 hdone)

end Machine

end HostMethods
