import HostMethods.Proofs.Class.Places
import HostMethods.Proofs.Run.Frame

/-!
# Who owns the static values

A class keeps one list of static values, and a static field owns the one at its place in the order
of declaration. `Machine.OwnsStatics` says what that means for reading and writing by name: it
reaches the owner's value, nobody else's, and always one that is there.

Reading and writing do not ask in which list of the class a field stands, but whether its access
flags include the static flag. A static field is given that flag when it is declared; from a field
of instances it is not taken away. Such a field leads into the static values at its own place among
the fields of instances, which belongs to some static field or to none. So the law holds of a class
exactly if no field of instances was declared with the flag (`Machine.ownsStatics_iff`).
-/

namespace HostMethods

namespace Class

/-- The names of the static fields that are accepted when a class of the name given is assembled, in
the order of declaration. -/
def acceptedStatics (name : String) (ms : List Member) : List String :=
  ((accepted name ms).filterMap Member.staticField?).map (·.name)

variable {ms : List Member} {n : String}

/-- No static field has the name of an accepted field of instances. -/
theorem not_mem_acceptedStatics {name : String} {access : Access} {type : GuestType}
    (hmem : .field n access type ∈ accepted name ms) : n ∉ acceptedStatics name ms := by
  intro hn
  obtain ⟨f, hf, rfl⟩ := List.mem_map.1 hn
  cases Member.mem_of_mem_filterMap Member.key_of_staticField? (nodup_keys_accepted name ms) hmem hf
    rfl

end Class

namespace Machine

/-- The static fields with these names, in storage order, own the static values of the class: a name
reads and writes a value exactly if it is one of theirs, a value that was written is read under its
name, no other name and no other place notices, a write that fails changes nothing, and no write
fails because its value is not there. -/
structure OwnsStatics (m : Machine) (c : LoadedClass) (names : List String) : Prop where
  isSome_static?_iff : ∀ n, (m.store.static? c n).isSome ↔ n ∈ names
  done_iff : ∀ n v, (m.step (.setStatic c n v)).2 = .done ↔ n ∈ names
  static?_self : ∀ n v, (m.step (.setStatic c n v)).2 = .done →
    (m.step (.setStatic c n v)).1.store.static? c n = some v
  static?_of_ne : ∀ n v other, (m.step (.setStatic c n v)).2 = .done → other ≠ n →
    (m.step (.setStatic c n v)).1.store.static? c other = m.store.static? c other
  staticAt?_of_ne : ∀ n v i, (m.step (.setStatic c n v)).2 = .done → names[i]? ≠ some n →
    (m.step (.setStatic c n v)).1.store.staticAt? c i = m.store.staticAt? c i
  eq_of_not_done : ∀ n v, (m.step (.setStatic c n v)).2 ≠ .done →
    (m.step (.setStatic c n v)).1 = m
  ne_staticBeyond : ∀ n v index count,
    (m.step (.setStatic c n v)).2 ≠ .fieldFault (.staticBeyond index count)

/-! ### The three ways of a write -/

section Writes

variable {m : Machine} {c : LoadedClass} {n : String} {i : Nat}

theorem step_setStatic_of_none (h : c.info.staticIndex? n = none) (v : Value) :
    m.step (.setStatic c n v) = (m, .fieldFault (.noStatic n c.info.name)) := by
  simp only [step, Store.setStatic, Class.writeStatic, h]
  rfl

theorem step_setStatic_of_le (h : c.info.staticIndex? n = some i)
    (hi : (m.store.staticsOf c).length ≤ i) (v : Value) :
    m.step (.setStatic c n v) =
      (m, .fieldFault (.staticBeyond i (m.store.staticsOf c).length)) := by
  simp only [step, Store.setStatic, Class.writeStatic, h, if_neg (Nat.not_lt.2 hi)]
  rfl

theorem step_setStatic_of_lt (h : c.info.staticIndex? n = some i)
    (hi : i < (m.store.staticsOf c).length) (v : Value) :
    m.step (.setStatic c n v) =
      ({ m with store := { m.store with
          statics := m.store.statics.setIfInBounds c.id ((m.store.staticsOf c).set i v) } },
        .done) := by
  simp only [step, Store.setStatic, Class.writeStatic, h, if_pos hi]
  rfl

/-- **A write that goes through puts its value at the place that the name leads to.** -/
theorem exists_of_setStatic_done {v : Value} (hid : c.id < m.store.statics.size)
    (h : (m.step (.setStatic c n v)).2 = .done) :
    ∃ i, c.info.staticIndex? n = some i ∧ i < (m.store.staticsOf c).length ∧
      (m.step (.setStatic c n v)).1.store.staticsOf c = (m.store.staticsOf c).set i v := by
  cases hi : c.info.staticIndex? n with
  | none =>
    rw [step_setStatic_of_none hi] at h
    cases h
  | some i =>
    rcases Nat.lt_or_ge i (m.store.staticsOf c).length with hlt | hge
    · refine ⟨i, rfl, hlt, ?_⟩
      rw [step_setStatic_of_lt hi hlt, Store.staticsOf,
        Array.getElem?_setIfInBounds_self_of_lt hid, Option.getD_some]
    · rw [step_setStatic_of_le hi hge] at h
      cases h

/-- A write that does not go through leaves the machine. -/
theorem eq_of_setStatic_not_done {v : Value} (h : (m.step (.setStatic c n v)).2 ≠ .done) :
    (m.step (.setStatic c n v)).1 = m := by
  cases hi : c.info.staticIndex? n with
  | none => rw [step_setStatic_of_none hi]
  | some i =>
    rcases Nat.lt_or_ge i (m.store.staticsOf c).length with hlt | hge
    · rw [step_setStatic_of_lt hi hlt] at h
      exact absurd rfl h
    · rw [step_setStatic_of_le hi hge]

/-! ### Owners -/

/-- A name reads as something if there is a value at the place that it leads to. -/
theorem isSome_static?_iff_exists {s : Store} :
    (s.static? c n).isSome ↔ ∃ i, c.info.staticIndex? n = some i ∧ i < (s.staticsOf c).length := by
  rw [Store.static?, Class.readStatic, Option.isSome_iff_exists]
  simp only [Option.bind_eq_some_iff, List.getElem?_eq_some_iff]
  constructor
  · rintro ⟨v, i, hi, hlt, -⟩
    exact ⟨i, hi, hlt⟩
  · rintro ⟨i, hi, hlt⟩
    exact ⟨_, i, hi, hlt, rfl⟩

/-- **Static fields own their values if names lead to nothing else**, whatever the values are. -/
theorem ownsStatics_of_index {names : List String}
    (hindex : ∀ n i, c.info.staticIndex? n = some i ↔ names[i]? = some n)
    (hid : c.id < m.store.statics.size)
    (hlength : (m.store.staticsOf c).length = names.length) : m.OwnsStatics c names := by
  have hmem : ∀ n, n ∈ names ↔
      ∃ i, c.info.staticIndex? n = some i ∧ i < (m.store.staticsOf c).length := by
    intro n
    rw [List.mem_iff_getElem?, hlength]
    refine exists_congr fun i ↦ ?_
    rw [hindex]
    exact ⟨fun hi ↦ ⟨hi, (List.getElem?_eq_some_iff.1 hi).1⟩, And.left⟩
  constructor
  case isSome_static?_iff =>
    intro n
    rw [isSome_static?_iff_exists, hmem]
  case done_iff =>
    intro n v
    rw [hmem]
    constructor
    · intro h
      obtain ⟨i, hi, hlt, -⟩ := exists_of_setStatic_done hid h
      exact ⟨i, hi, hlt⟩
    · rintro ⟨i, hi, hlt⟩
      rw [step_setStatic_of_lt hi hlt]
  case static?_self =>
    intro n v h
    obtain ⟨i, hi, hlt, hvalues⟩ := exists_of_setStatic_done hid h
    rw [Store.static?, hvalues, Class.readStatic, hi, Option.bind_some, List.getElem?_set_self hlt]
  case static?_of_ne =>
    intro n v other h hne
    obtain ⟨i, hi, -, hvalues⟩ := exists_of_setStatic_done hid h
    rw [Store.static?, hvalues, Store.static?, Class.readStatic, Class.readStatic]
    refine Option.bind_congr fun j hj ↦ List.getElem?_set_ne fun heq ↦ hne ?_
    -- one place has one name
    subst heq
    exact Option.some.inj (((hindex other i).1 hj).symm.trans ((hindex n i).1 hi))
  case staticAt?_of_ne =>
    intro n v j h hne
    obtain ⟨i, hi, -, hvalues⟩ := exists_of_setStatic_done hid h
    rw [Store.staticAt?, hvalues, Store.staticAt?]
    refine List.getElem?_set_ne fun heq ↦ hne ?_
    subst heq
    exact (hindex n i).1 hi
  case eq_of_not_done => exact fun n v h ↦ eq_of_setStatic_not_done h
  case ne_staticBeyond =>
    intro n v index count h
    cases hi : c.info.staticIndex? n with
    | none =>
      rw [step_setStatic_of_none hi] at h
      cases h
    | some i =>
      have hplace := (hindex n i).1 hi
      have hlt : i < (m.store.staticsOf c).length :=
        hlength ▸ (List.getElem?_eq_some_iff.1 hplace).1
      rw [step_setStatic_of_lt hi hlt] at h
      cases h

/-- **A name that leads to a static value and belongs to no owner breaks the law**: either it reads
what is not its own, or a write fails because no value is there. -/
theorem not_ownsStatics_of_index {names : List String} (hi : c.info.staticIndex? n = some i)
    (hn : n ∉ names) : ¬m.OwnsStatics c names := by
  intro h
  rcases Nat.lt_or_ge i (m.store.staticsOf c).length with hlt | hge
  · refine hn ((h.done_iff n .null).1 ?_)
    rw [step_setStatic_of_lt hi hlt]
  · refine h.ne_staticBeyond n .null i (m.store.staticsOf c).length ?_
    rw [step_setStatic_of_le hi hge]

end Writes

/-! ### Classes that are made of members -/

/-- The class that the machine makes of members. -/
def defined (m : Machine) (name : String) (members : List Member) : LoadedClass :=
  ⟨m.store.statics.size, ((Class.empty name).assemble members).1⟩

/-- A class keeps a value for each of its static fields. -/
theorem length_staticsOf_defined (m : Machine) (name : String) (members : List Member)
    (cmds : List Command) :
    (m.defined name members).id <
        (((m.step (.define name members)).1).run cmds).1.store.statics.size ∧
      ((((m.step (.define name members)).1).run cmds).1.store.staticsOf
        (m.defined name members)).length = (Class.acceptedStatics name members).length := by
  have hdefine : (m.step (.define name members)).1.store =
      (m.store.load ((Class.empty name).assemble members).1).2 := rfl
  have hid : m.store.statics.size < (m.step (.define name members)).1.store.statics.size := by
    rw [hdefine, Store.load, Array.size_push]
    exact Nat.lt_succ_self _
  have hevolves := (m.step (.define name members)).1.run_evolves cmds
  obtain ⟨hid', hlength⟩ := hevolves.length_staticsOf (c := m.defined name members) hid
  have hvalues : (m.store.load ((Class.empty name).assemble members).1).2.staticsOf
      (m.defined name members) = ((Class.empty name).assemble members).1.initialStatics := by
    rw [Store.staticsOf, Store.load, defined, Array.getElem?_push_size, Option.getD_some]
  refine ⟨hid', hlength.trans ?_⟩
  rw [hdefine, hvalues, Class.assemble_eq_ofMembers, Class.acceptedStatics, List.length_map]
  exact List.length_map _

/-- **Static fields own their values exactly if no field of instances has the static flag.** Let a
class be made of any members on any machine, and let any commands follow. Whether the law holds then
is decided by the access flags of the fields of instances that were accepted, and by nothing else.
-/
theorem ownsStatics_iff (m : Machine) (name : String) (members : List Member)
    (cmds : List Command) :
    (((m.step (.define name members)).1).run cmds).1.OwnsStatics (m.defined name members)
        (Class.acceptedStatics name members) ↔
      ∀ n access type, .field n access type ∈ Class.accepted name members →
        access.isStatic = false := by
  have hconsists : (m.defined name members).info.ConsistsOf (Class.accepted name members) := by
    rw [defined, Class.assemble_eq_ofMembers]
    exact Class.consistsOf_ofMembers name (Class.nodup_keys_accepted name members)
  have hnames : (m.defined name members).info.staticFields.map (·.name) =
      Class.acceptedStatics name members := by
    rw [hconsists.staticFields_eq]
    rfl
  constructor
  · intro howns n access type hmem
    by_contra hflag
    obtain ⟨j, hj⟩ := hconsists.exists_instanceIndex hmem
    have hindex : (m.defined name members).info.staticIndex? n = some j :=
      hconsists.staticIndex?_eq_some_iff.2
        (.inr ⟨access, type, hmem, (Bool.not_eq_false _).mp hflag, hj⟩)
    exact not_ownsStatics_of_index hindex (Class.not_mem_acceptedStatics hmem) howns
  · intro hflags
    obtain ⟨hid, hlength⟩ := m.length_staticsOf_defined name members cmds
    refine ownsStatics_of_index (fun n i ↦ ?_) hid hlength
    rw [hconsists.staticIndex?_eq_some_iff, hnames, or_iff_left]
    rintro ⟨access, type, hmem, hstatic, -⟩
    exact Bool.false_ne_true ((hflags n access type hmem).symm.trans hstatic)

/-- The members of a class with one static field, and with two fields of instances that are declared
with the static flag. -/
def flaggedMembers : List Member :=
  [.static "x" .publicFlag .int (.int 5), .field "y" .staticFlag .int, .field "z" .staticFlag .int]

/-- The first field of instances reads and overwrites the value of the static field, and the second
one leads beyond the static values. -/
theorem not_ownsStatics_flaggedMembers :
    let m := ((new .capture none 8).step (.define "t/A" flaggedMembers)).1
    let c := (new .capture none 8).defined "t/A" flaggedMembers
    Class.acceptedStatics "t/A" flaggedMembers = ["x"] ∧
      m.store.static? c "y" = some (.int 5) ∧
      (m.step (.setStatic c "y" (.int 8))).2 = .done ∧
      (m.step (.setStatic c "y" (.int 8))).1.store.static? c "x" = some (.int 8) ∧
      (m.step (.setStatic c "z" (.int 8))).2 = .fieldFault (.staticBeyond 1 1) ∧
      ¬m.OwnsStatics c (Class.acceptedStatics "t/A" flaggedMembers) := by
  refine ⟨rfl, rfl, rfl, rfl, rfl, fun h ↦ ?_⟩
  exact h.ne_staticBeyond "z" (.int 8) 1 1 rfl

end Machine

end HostMethods
