import HostMethods.Proofs.Class.Contents

/-!
# Where names lead

Reading and writing a field by name goes through a place: one among the static values of the class,
or one among the values of an instance. Which of the two it is, the access flags of the field
decide; which place it is, the order of declaration among the fields of its kind. For fields of
instances with the static flag the two do not fit together, so such a name leads to a place among
the static values that it has no right to, and to none among the values of an instance.
-/

namespace HostMethods

/-! ### Default values -/

/-- The value that a variable of the type has before anything is written to it. Numbers and truth
values are zero: the small ones as an `int`, the others as what they are, and of the floating-point
zeros it is the one without a bit set. Everything else is null. -/
inductive GuestType.HasDefault : GuestType → Value → Prop
  | boolean : HasDefault .boolean (.int 0)
  | byte : HasDefault .byte (.int 0)
  | char : HasDefault .char (.int 0)
  | short : HasDefault .short (.int 0)
  | int : HasDefault .int (.int 0)
  | long : HasDefault .long (.long 0)
  | float : HasDefault .float (.float ⟨0⟩)
  | double : HasDefault .double (.double ⟨0⟩)
  | void : HasDefault .void .null
  | object (name : String) : HasDefault (.object name) .null
  | array (element : GuestType) : HasDefault (.array element) .null

/-- Every type has a default value, and this is the one that variables start from. -/
theorem GuestType.hasDefault_initialValue (type : GuestType) :
    type.HasDefault type.initialValue := by
  cases type <;> constructor

namespace Class

/-! ### Open fields -/

/-- The members declare an open field of instances: one without the static flag. -/
def OpensField (ms : List Member) (n : String) : Prop :=
  ∃ access type, .field n access type ∈ ms ∧ access.isStatic = false

variable {c : Class} {ms : List Member} {n : String} {i : Nat}

/-! ### Static values -/

/-- **A name leads to a static value if it is a static field's, or if it is that of a field of
instances with the static flag**; in both cases the field's own place decides which value it is. -/
theorem ConsistsOf.staticIndex?_eq_some_iff (h : c.ConsistsOf ms) :
    c.staticIndex? n = some i ↔
      (c.staticFields.map (·.name))[i]? = some n ∨
      ∃ access type, .field n access type ∈ ms ∧ access.isStatic = true ∧
        (c.instanceFields.map (·.name))[i]? = some n := by
  rw [staticIndex?, Option.map_eq_some_iff]
  constructor
  · rintro ⟨info, hinfo, rfl⟩
    obtain ⟨hfield, hstatic⟩ := Option.filter_eq_some_iff.1 hinfo
    rcases (h.field?_eq_some_iff n info).1 hfield with
      ⟨_, _, _, -, -, -, hplace⟩ | ⟨access, type, hmem, rfl, -, hplace⟩
    · exact .inl hplace
    · exact .inr ⟨_, type, hmem, hstatic, hplace⟩
  · rintro (hplace | ⟨access, type, hmem, hstatic, hplace⟩)
    · have hname := hplace
      rw [List.getElem?_map, Option.map_eq_some_iff] at hname
      obtain ⟨f, hf, rfl⟩ := hname
      rw [h.staticFields_eq] at hf
      obtain ⟨m, hm, hdeclared⟩ := List.mem_filterMap.1 (List.mem_of_getElem? hf)
      cases m <;> cases hdeclared
      next name access type initial =>
        refine ⟨⟨access.union .staticFlag, type, i⟩, ?_, rfl⟩
        refine Option.filter_eq_some_iff.2 ⟨?_, Access.contains_union_right _ _⟩
        exact (h.field?_eq_some_iff _ _).2 (.inl ⟨access, type, initial, hm, rfl, rfl, hplace⟩)
    · refine ⟨⟨access, type, i⟩, Option.filter_eq_some_iff.2 ⟨?_, hstatic⟩, rfl⟩
      exact (h.field?_eq_some_iff _ _).2 (.inr ⟨access, type, hmem, rfl, rfl, hplace⟩)

/-! ### Values of instances -/

/-- A field of instances has a place among them. -/
theorem ConsistsOf.exists_instanceIndex (h : c.ConsistsOf ms) {access : Access} {type : GuestType}
    (hmem : .field n access type ∈ ms) :
    ∃ j : Nat, (c.instanceFields.map (·.name))[j]? = some n := by
  refine List.mem_iff_getElem?.1 (List.mem_map.2 ⟨⟨n, access, type⟩, ?_, rfl⟩)
  rw [h.instanceFields_eq]
  exact List.mem_filterMap.2 ⟨_, hmem, rfl⟩

/-- **A name leads to a value of an instance exactly if it is an open field's**, and then to the one
at the field's own place. -/
theorem ConsistsOf.instanceIndex?_eq_some_iff (h : c.ConsistsOf ms) :
    c.instanceIndex? n = some i ↔
      OpensField ms n ∧ (c.instanceFields.map (·.name))[i]? = some n := by
  rw [instanceIndex?, Option.map_eq_some_iff]
  constructor
  · rintro ⟨info, hinfo, rfl⟩
    obtain ⟨hfield, hopen⟩ := Option.filter_eq_some_iff.1 hinfo
    have hopen : info.access.isStatic = false := (Bool.not_eq_true' _).mp hopen
    rcases (h.field?_eq_some_iff n info).1 hfield with
      ⟨access, _, _, -, haccess, -⟩ | ⟨access, type, hmem, rfl, -, hplace⟩
    · -- static fields have the static flag
      rw [haccess, Access.isStatic, Access.contains_union_right] at hopen
      cases hopen
    · exact ⟨⟨_, type, hmem, hopen⟩, hplace⟩
  · rintro ⟨⟨access, type, hmem, hopen⟩, hplace⟩
    have hfilter : (!access.isStatic) = true := (Bool.not_eq_true' _).mpr hopen
    refine ⟨⟨access, type, i⟩, Option.filter_eq_some_iff.2 ⟨?_, hfilter⟩, rfl⟩
    exact (h.field?_eq_some_iff _ _).2 (.inr ⟨access, type, hmem, rfl, rfl, hplace⟩)

/-- An open field has a place that its name leads to. -/
theorem ConsistsOf.isSome_instanceIndex?_iff (h : c.ConsistsOf ms) :
    (c.instanceIndex? n).isSome ↔ OpensField ms n := by
  rw [Option.isSome_iff_exists]
  simp only [h.instanceIndex?_eq_some_iff]
  constructor
  · rintro ⟨i, hopens, -⟩
    exact hopens
  · intro hopens
    obtain ⟨access, type, hmem, -⟩ := id hopens
    obtain ⟨i, hi⟩ := h.exists_instanceIndex hmem
    exact ⟨i, hopens, hi⟩

/-- A place that a name leads to is one of those that an instance has values at. -/
theorem ConsistsOf.instanceIndex?_lt (h : c.ConsistsOf ms) (hi : c.instanceIndex? n = some i) :
    i < c.instanceFields.length := by
  obtain ⟨-, hplace⟩ := h.instanceIndex?_eq_some_iff.1 hi
  rw [← List.length_map (·.name)]
  exact (List.getElem?_eq_some_iff.1 hplace).1

/-- Names that lead to one place are one name. -/
theorem ConsistsOf.instanceIndex?_inj (h : c.ConsistsOf ms) {n' : String}
    (hi : c.instanceIndex? n = some i) (hi' : c.instanceIndex? n' = some i) : n = n' :=
  Option.some.inj ((h.instanceIndex?_eq_some_iff.1 hi).2.symm.trans
    (h.instanceIndex?_eq_some_iff.1 hi').2)

/-- **A new instance has a default value of its type at the place of a field.** -/
theorem ConsistsOf.exists_initialField (h : c.ConsistsOf ms) {access : Access} {type : GuestType}
    (hmem : .field n access type ∈ ms) (hi : c.instanceIndex? n = some i) :
    ∃ first, type.HasDefault first ∧ c.initialFields[i]? = some first := by
  obtain ⟨-, hplace⟩ := h.instanceIndex?_eq_some_iff.1 hi
  have hname := hplace
  rw [List.getElem?_map, Option.map_eq_some_iff] at hname
  obtain ⟨f, hf, rfl⟩ := hname
  have hdeclared := h.instanceFields_eq ▸ List.mem_of_getElem? hf
  obtain ⟨m, hm, heq⟩ := List.mem_filterMap.1 hdeclared
  -- the field at the place was declared under the same name, so it is the same field
  cases m <;> cases heq
  have hfield := (h.field?_eq_some_iff _ ⟨_, _, i⟩).2 (.inr ⟨_, _, hm, rfl, rfl, hplace⟩)
  have hfield' := (h.field?_eq_some_iff _ ⟨_, _, i⟩).2 (.inr ⟨_, _, hmem, rfl, rfl, hplace⟩)
  cases hfield.symm.trans hfield'
  refine ⟨_, type.hasDefault_initialValue, ?_⟩
  rw [initialFields, List.getElem?_map, hf, Option.map_some]

end Class

end HostMethods
