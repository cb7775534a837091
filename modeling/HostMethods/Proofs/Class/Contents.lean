import HostMethods.Proofs.Class.Members

/-!
# The contents of a class

A name leads to a field, and a selector to a method, by way of the lists of a class. Which list that
is, and at which place of it the field's value is stored, follows from the member that declared it.
`Class.ConsistsOf` says this for a class and a list of members, and `Class.assemble_exact` for every
class that is assembled and the members that were accepted.
-/

namespace HostMethods

namespace Class

/-- The class contains these members and nothing else. -/
structure ConsistsOf (c : Class) (ms : List Member) : Prop where
  /-- The static fields are those declared, in their order. -/
  staticFields_eq : c.staticFields = ms.filterMap Member.staticField?
  /-- The fields of instances are those declared, in their order. -/
  instanceFields_eq : c.instanceFields = ms.filterMap Member.instanceField?
  /-- The methods are those declared, in their order. -/
  methods_eq : c.methods = ms.filterMap (Member.method? c.name)
  /-- There is a value for every static field, which is the declared one, at the same place. -/
  initialStatics_eq : c.initialStatics = (ms.filterMap Member.staticField?).map (·.initial)
  /-- A name leads to what was declared under it, and to its place among the fields of its kind. -/
  field?_eq_some_iff : ∀ n info, c.field? n = some info ↔
    (∃ access type initial, .static n access type initial ∈ ms ∧
      info.access = access.union .staticFlag ∧ info.type = type ∧
      (c.staticFields.map (·.name))[info.index]? = some n) ∨
    ∃ access type, .field n access type ∈ ms ∧ info.access = access ∧ info.type = type ∧
      (c.instanceFields.map (·.name))[info.index]? = some n
  /-- A static field is found with the flags that it was declared with and with the static flag,
  which is the bit with the number 3, and with no others. -/
  flags_of_static : ∀ n access type initial, .static n access type initial ∈ ms →
    ∃ info, c.field? n = some info ∧
      info.access.contains access ∧ info.access.contains .staticFlag ∧
      ∀ i, info.access.bits.toNat.testBit i = (access.bits.toNat.testBit i || i = 3)
  /-- The names of fields are those that were declared. -/
  hasField_iff : ∀ n, c.hasField n ↔ .field n ∈ ms.map Member.key
  /-- The selectors of methods are those that were declared. -/
  isSome_method?_iff : ∀ s, (c.method? s).isSome ↔ .method s ∈ ms.map Member.key

section Lookup

variable {name n : String} {ms : List Member} {info : FieldInfo}

theorem nodup_staticNames (h : (ms.map Member.key).Nodup) :
    (((ofMembers name ms).staticFields.map (·.toField)).map (·.name)).Nodup := by
  have hkeys : ((ms.filterMap Member.staticField?).map fun f ↦ MemberKey.field f.name).Nodup :=
    Member.nodup_map_filterMap Member.key_of_staticField? h
  rw [List.map_map]
  exact List.Nodup.of_map MemberKey.field (by rwa [List.map_map])

theorem nodup_instanceNames (h : (ms.map Member.key).Nodup) :
    ((ofMembers name ms).instanceFields.map (·.name)).Nodup := by
  have hkeys : ((ms.filterMap Member.instanceField?).map fun f ↦ MemberKey.field f.name).Nodup :=
    Member.nodup_map_filterMap Member.key_of_instanceField? h
  exact List.Nodup.of_map MemberKey.field (by rwa [List.map_map])

/-- A field that is found was declared, and lies where it was found. -/
theorem declared_of_field? (h : (ofMembers name ms).field? n = some info) :
    (∃ access type initial, .static n access type initial ∈ ms ∧
      info.access = access.union .staticFlag ∧ info.type = type ∧
      ((ofMembers name ms).staticFields.map (·.name))[info.index]? = some n) ∨
    ∃ access type, .field n access type ∈ ms ∧ info.access = access ∧ info.type = type ∧
      ((ofMembers name ms).instanceFields.map (·.name))[info.index]? = some n := by
  rcases Option.or_eq_some_iff.1 h with hstatic | ⟨-, hinstance⟩
  · obtain ⟨f, hf, rfl, haccess, htype⟩ := Field.exists_of_find?_eq_some hstatic
    rw [List.getElem?_map, Option.map_eq_some_iff] at hf
    obtain ⟨f', hf', rfl⟩ := hf
    obtain ⟨m, hm, hdeclared⟩ := List.mem_filterMap.1 (List.mem_of_getElem? hf')
    cases m <;> cases hdeclared
    refine .inl ⟨_, _, _, hm, haccess.symm, htype.symm, ?_⟩
    rw [List.getElem?_map, hf', Option.map_some]
  · obtain ⟨f, hf, rfl, haccess, htype⟩ := Field.exists_of_find?_eq_some hinstance
    obtain ⟨m, hm, hdeclared⟩ := List.mem_filterMap.1 (List.mem_of_getElem? hf)
    cases m <;> cases hdeclared
    refine .inr ⟨_, _, hm, haccess.symm, htype.symm, ?_⟩
    rw [List.getElem?_map, hf, Option.map_some]

/-- A static field that was declared is found. -/
theorem field?_of_static (h : (ms.map Member.key).Nodup) {access : Access} {type : GuestType}
    {initial : Value} (hm : .static n access type initial ∈ ms) {index : Nat}
    (hindex : ((ofMembers name ms).staticFields.map (·.name))[index]? = some n) :
    (ofMembers name ms).field? n = some ⟨access.union .staticFlag, type, index⟩ := by
  rw [List.getElem?_map, Option.map_eq_some_iff] at hindex
  obtain ⟨f, hf, hname⟩ := hindex
  have hdeclared := Member.mem_of_mem_filterMap Member.key_of_staticField? h hm
    (List.mem_of_getElem? hf) (congrArg MemberKey.field hname.symm)
  cases hdeclared
  have hplace : ((ofMembers name ms).staticFields.map (·.toField))[index]? =
      some ⟨n, access.union .staticFlag, type⟩ := by
    rw [List.getElem?_map, hf, Option.map_some]
  rw [field?, Field.find?_of_getElem? (nodup_staticNames h) hplace, Option.some_or]

/-- A field of instances that was declared is found: no static field has its name. -/
theorem field?_of_field (h : (ms.map Member.key).Nodup) {access : Access} {type : GuestType}
    (hm : .field n access type ∈ ms) {index : Nat}
    (hindex : ((ofMembers name ms).instanceFields.map (·.name))[index]? = some n) :
    (ofMembers name ms).field? n = some ⟨access, type, index⟩ := by
  have hstatic : Field.find? ((ofMembers name ms).staticFields.map (·.toField)) n = none := by
    rw [← Option.not_isSome_iff_eq_none, Field.isSome_find?_iff]
    rintro ⟨_, hmem, hname⟩
    obtain ⟨f, hf, rfl⟩ := List.mem_map.1 hmem
    cases Member.mem_of_mem_filterMap Member.key_of_staticField? h hm hf
      (congrArg MemberKey.field hname.symm)
  rw [List.getElem?_map, Option.map_eq_some_iff] at hindex
  obtain ⟨f, hf, hname⟩ := hindex
  have hdeclared := Member.mem_of_mem_filterMap Member.key_of_instanceField? h hm
    (List.mem_of_getElem? hf) (congrArg MemberKey.field hname.symm)
  cases hdeclared
  rw [field?, hstatic, Option.none_or]
  exact Field.find?_of_getElem? (nodup_instanceNames h) hf

/-- A static field that was declared has a place. -/
theorem exists_staticIndex (name : String) {access : Access} {type : GuestType} {initial : Value}
    (hm : .static n access type initial ∈ ms) :
    ∃ index : Nat, ((ofMembers name ms).staticFields.map (·.name))[index]? = some n :=
  List.mem_iff_getElem?.1 (List.mem_map.2
    ⟨⟨⟨n, _, type⟩, initial⟩, List.mem_filterMap.2 ⟨_, hm, rfl⟩, rfl⟩)

/-- A class made of members with different keys consists of them. -/
theorem consistsOf_ofMembers (name : String) (h : (ms.map Member.key).Nodup) :
    (ofMembers name ms).ConsistsOf ms where
  staticFields_eq := rfl
  instanceFields_eq := rfl
  methods_eq := rfl
  initialStatics_eq := rfl
  hasField_iff _ := hasField_ofMembers_iff
  isSome_method?_iff _ := isSome_method?_ofMembers_iff
  flags_of_static n access type initial hm := by
    obtain ⟨index, hindex⟩ := exists_staticIndex name hm
    exact ⟨_, field?_of_static h hm hindex, Access.contains_union_left _ _,
      Access.contains_union_right _ _, access.testBit_union_staticFlag⟩
  field?_eq_some_iff n info := by
    constructor
    · exact declared_of_field?
    · obtain ⟨access, type, index⟩ := info
      rintro (⟨access, type, initial, hm, rfl, rfl, hindex⟩ | ⟨access, type, hm, rfl, rfl, hindex⟩)
      · exact field?_of_static h hm hindex
      · exact field?_of_field h hm hindex

end Lookup

/-- **A class contains exactly what was accepted, and what was refused has left no trace.** Of the
members that are declared one after the other, each is refused exactly if one that was accepted
before it has its key: a field's name for fields of both kinds, a selector for methods. The class is
the one that the accepted members make on their own, it consists of them, and under a selector it
has the first method that was declared under it. -/
theorem assemble_exact (name : String) (ms : List Member) :
    (∀ before m after, ∃ later,
      ((empty name).assemble (before ++ m :: after)).2 =
        ((empty name).assemble before).2 ++
          (if m.key ∈ (accepted name before).map Member.key then .error (m.key.clash name)
            else .ok ()) :: later) ∧
      (empty name).build (accepted name ms) = .ok ((empty name).assemble ms).1 ∧
      ((empty name).assemble ms).1.ConsistsOf (accepted name ms) ∧
      ∀ s, ((empty name).assemble ms).1.method? s =
        (ms.filterMap (Member.method? name)).find? (·.selector = s) := by
  have hnodup := nodup_keys_accepted name ms
  refine ⟨exists_answers_eq name, ?_, ?_, fun s ↦ ?_⟩
  · rw [assemble_eq_ofMembers]
    exact build_ofMembers [] hnodup
  · rw [assemble_eq_ofMembers]
    exact consistsOf_ofMembers name hnodup
  · rw [assemble_eq_ofMembers]
    exact find?_methods_accepted name ms s

end Class

end HostMethods
