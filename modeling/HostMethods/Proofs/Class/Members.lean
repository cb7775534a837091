import HostMethods.Class.Assembly
import Mathlib.Data.List.Induction
import Mathlib.Data.List.Nodup

/-!
# What an assembled class is made of

Assembling a class goes through its declared members one by one, and what becomes of a member
depends on what the class holds by then. Here the class is described without that order of events:
it consists of the members that were accepted, and every list in it is read off theirs.

All members are refused for the same reason, whatever kind they are of. A member takes one
`MemberKey` for itself, a name among all fields of the class or a selector among its methods, and is
refused if the key is taken (`Class.add_ofMembers`). So the keys of the accepted members are
pairwise different (`Class.nodup_keys_accepted`), and this is all that looking a member up rests on.
-/

namespace HostMethods

/-! ### Keys -/

/-- What a member takes for itself in its class. -/
inductive MemberKey
  /-- A name among the fields of the class, static or not. -/
  | field (name : String)
  /-- A selector among the methods of the class. -/
  | method (s : Selector)
  deriving DecidableEq

/-- The clash of two members of a class over a key. -/
def MemberKey.clash (className : String) : MemberKey → Clash
  | field name => .field className name
  | method s => .method className s

namespace Member

/-- The key that a member takes. -/
def key : Member → MemberKey
  | .static name _ _ _ => .field name
  | .field name _ _ => .field name
  | .native name _ signature _ => .method (.of name signature)
  | .method m => .method m.selector

/-- The static field that a member declares. -/
def staticField? : Member → Option StaticField
  | .static name access type initial => some ⟨⟨name, access.union .staticFlag, type⟩, initial⟩
  | _ => none

/-- The field of instances that a member declares. -/
def instanceField? : Member → Option Field
  | .field name access type => some ⟨name, access, type⟩
  | _ => none

/-- The method that a member declares in a class of the name given. -/
def method? (className : String) : Member → Option Method
  | .native name access signature entry => some (.native className name access signature entry)
  | .method m => some m
  | _ => none

variable {m : Member} {className : String}

theorem key_of_staticField? {f : StaticField} (h : m.staticField? = some f) :
    m.key = .field f.name := by
  cases m <;> cases h
  rfl

theorem key_of_instanceField? {f : Field} (h : m.instanceField? = some f) :
    m.key = .field f.name := by
  cases m <;> cases h
  rfl

theorem key_of_method? {method : Method} (h : m.method? className = some method) :
    m.key = .method method.selector := by
  cases m <;> cases h <;> rfl

/-- A member declares a field, of one of the two kinds, or a method. -/
theorem exists_declared (className : String) (m : Member) :
    (∃ f, m.staticField? = some f) ∨ (∃ f, m.instanceField? = some f) ∨
      ∃ method, m.method? className = some method := by
  cases m with
  | static => exact .inl ⟨_, rfl⟩
  | field => exact .inr (.inl ⟨_, rfl⟩)
  | native | method => exact .inr (.inr ⟨_, rfl⟩)

/-- The members that were answered without a clash. -/
def answeredOk (ms : List Member) (answers : List (Except Clash Unit)) : List Member :=
  ((ms.zip answers).filter (·.2.isOk)).map Prod.fst

/-- Answers belong to the members at the same places. -/
theorem answeredOk_append {xs ys : List Member} {as bs : List (Except Clash Unit)}
    (h : xs.length = as.length) :
    answeredOk (xs ++ ys) (as ++ bs) = answeredOk xs as ++ answeredOk ys bs := by
  rw [answeredOk, List.zip_append h, List.filter_append, List.map_append, answeredOk, answeredOk]

/-! ### What members with different keys declare -/

section Declared

variable {β : Type} {ms : List Member} {declared : Member → Option β} {keyOf : β → MemberKey}

/-- Different keys are different keys of what the members declare. -/
theorem nodup_map_filterMap (hkey : ∀ {m b}, declared m = some b → m.key = keyOf b)
    (hnodup : (ms.map key).Nodup) : ((ms.filterMap declared).map keyOf).Nodup := by
  rw [List.Nodup, List.pairwise_map] at hnodup ⊢
  rw [List.pairwise_filterMap]
  refine hnodup.imp fun {m m'} hne b hb b' hb' ↦ ?_
  rwa [hkey hb, hkey hb'] at hne

/-- What a member declares under a key is declared by the member that took the key. -/
theorem mem_of_mem_filterMap (hkey : ∀ {m b}, declared m = some b → m.key = keyOf b)
    (hnodup : (ms.map key).Nodup) {m : Member} {b : β} (hm : m ∈ ms)
    (hb : b ∈ ms.filterMap declared) (heq : m.key = keyOf b) : declared m = some b := by
  obtain ⟨m', hm', hdeclared⟩ := List.mem_filterMap.1 hb
  rwa [List.inj_on_of_nodup_map hnodup hm hm' (heq.trans (hkey hdeclared).symm)]

end Declared

end Member

/-! ### Looking fields up in a list -/

namespace Field

variable {fields : List Field} {name : String} {info : FieldInfo}

/-- A field is found at its place, with what it was declared as. -/
theorem exists_of_find?_eq_some (h : find? fields name = some info) :
    ∃ f, fields[info.index]? = some f ∧ f.name = name ∧ f.access = info.access ∧
      f.type = info.type := by
  obtain ⟨i, hi, hinfo⟩ := Option.bind_eq_some_iff.1 h
  obtain ⟨hlt, hname, -⟩ := List.findIdx?_eq_some_iff_getElem.1 hi
  obtain ⟨f, hf, rfl⟩ := Option.map_eq_some_iff.1 hinfo
  refine ⟨f, hf, ?_, rfl, rfl⟩
  rw [List.getElem?_eq_getElem hlt, Option.some.injEq] at hf
  exact hf ▸ of_decide_eq_true hname

/-- Where no two fields have one name, every field is found. -/
theorem find?_of_getElem? (hnodup : (fields.map (·.name)).Nodup) {i : Nat} {f : Field}
    (h : fields[i]? = some f) : find? fields f.name = some ⟨f.access, f.type, i⟩ := by
  obtain ⟨hlt, rfl⟩ := List.getElem?_eq_some_iff.1 h
  have hfind : fields.findIdx? (·.name = fields[i].name) = some i := by
    refine List.findIdx?_eq_some_iff_getElem.2 ⟨hlt, decide_eq_true rfl, fun j hji ↦ ?_⟩
    have hne := List.pairwise_iff_getElem.1 (List.pairwise_map.1 hnodup) j i (by omega) hlt hji
    simpa using hne
  rw [find?, hfind, Option.bind_some, h, Option.map_some]

/-- A name is found exactly if some field has it. -/
theorem isSome_find?_iff : (find? fields name).isSome ↔ ∃ f ∈ fields, f.name = name := by
  constructor
  · intro h
    obtain ⟨info, hinfo⟩ := Option.isSome_iff_exists.1 h
    obtain ⟨f, hf, hname, -, -⟩ := exists_of_find?_eq_some hinfo
    exact ⟨f, List.mem_of_getElem? hf, hname⟩
  · rintro ⟨f, hmem, hname⟩
    have hsome : (fields.findIdx? (·.name = name)).isSome := by
      rw [List.findIdx?_isSome, List.any_eq_true]
      exact ⟨f, hmem, decide_eq_true hname⟩
    obtain ⟨i, hi⟩ := Option.isSome_iff_exists.1 hsome
    obtain ⟨hlt, -⟩ := List.findIdx?_eq_some_iff_getElem.1 hi
    rw [find?, hi, Option.bind_some, List.getElem?_eq_getElem hlt]
    rfl

end Field

namespace Class

/-! ### Classes made of given members -/

/-- The class that consists of the members given. -/
def ofMembers (name : String) (ms : List Member) : Class :=
  ⟨name, ms.filterMap Member.staticField?, ms.filterMap Member.instanceField?,
    ms.filterMap (Member.method? name)⟩

variable {name : String} {ms : List Member}

/-- A name is a field's exactly if some member has taken it. -/
theorem hasField_ofMembers_iff {n : String} :
    (ofMembers name ms).hasField n ↔ .field n ∈ ms.map Member.key := by
  rw [hasField, field?, Option.isSome_or, Bool.or_eq_true, Field.isSome_find?_iff,
    Field.isSome_find?_iff, List.mem_map]
  simp only [ofMembers, List.mem_map, List.mem_filterMap]
  constructor
  · rintro (⟨_, ⟨f, ⟨m, hm, hf⟩, rfl⟩, rfl⟩ | ⟨f, ⟨m, hm, hf⟩, rfl⟩)
    · exact ⟨m, hm, Member.key_of_staticField? hf⟩
    · exact ⟨m, hm, Member.key_of_instanceField? hf⟩
  · rintro ⟨m, hm, hkey⟩
    obtain ⟨f, hf⟩ | ⟨f, hf⟩ | ⟨method, hmethod⟩ := m.exists_declared name
    · have hname := MemberKey.field.inj ((Member.key_of_staticField? hf).symm.trans hkey)
      exact .inl ⟨f.toField, ⟨f, ⟨m, hm, hf⟩, rfl⟩, hname⟩
    · have hname := MemberKey.field.inj ((Member.key_of_instanceField? hf).symm.trans hkey)
      exact .inr ⟨f, ⟨m, hm, hf⟩, hname⟩
    · cases (Member.key_of_method? hmethod).symm.trans hkey

theorem method?_ofMembers (s : Selector) :
    (ofMembers name ms).method? s =
      (ms.filterMap (Member.method? name)).find? (·.selector = s) :=
  rfl

/-- A selector is a method's exactly if some member has taken it. -/
theorem isSome_method?_ofMembers_iff {s : Selector} :
    ((ofMembers name ms).method? s).isSome ↔ .method s ∈ ms.map Member.key := by
  rw [method?, List.find?_isSome, List.mem_map]
  simp only [ofMembers, List.mem_filterMap, decide_eq_true_eq]
  constructor
  · rintro ⟨method, ⟨m, hm, hmethod⟩, rfl⟩
    exact ⟨m, hm, Member.key_of_method? hmethod⟩
  · rintro ⟨m, hm, hkey⟩
    obtain ⟨f, hf⟩ | ⟨f, hf⟩ | ⟨method, hmethod⟩ := m.exists_declared name
    · cases (Member.key_of_staticField? hf).symm.trans hkey
    · cases (Member.key_of_instanceField? hf).symm.trans hkey
    · have hselector := MemberKey.method.inj ((Member.key_of_method? hmethod).symm.trans hkey)
      exact ⟨method, ⟨m, hm, hmethod⟩, hselector⟩

/-- **A member is refused exactly if its key is taken**, and otherwise joins the members that are
there. -/
theorem add_ofMembers (name : String) (ms : List Member) (m : Member) :
    (ofMembers name ms).add m =
      if m.key ∈ ms.map Member.key then .error (m.key.clash name)
      else .ok (ofMembers name (ms ++ [m])) := by
  by_cases htaken : m.key ∈ ms.map Member.key
  · rw [if_pos htaken]
    cases m with
    | static | field => exact if_pos (hasField_ofMembers_iff.2 htaken)
    | native | method => exact if_pos (isSome_method?_ofMembers_iff.2 htaken)
  · rw [if_neg htaken]
    cases m with
    | static | field =>
      refine (if_neg (mt hasField_ofMembers_iff.1 htaken)).trans ?_
      simp [ofMembers, Member.staticField?, Member.instanceField?, Member.method?]
    | native | method =>
      refine (if_neg (mt isSome_method?_ofMembers_iff.1 htaken)).trans ?_
      simp [ofMembers, Member.staticField?, Member.instanceField?, Member.method?]

/-- Members with different keys are all accepted. -/
theorem build_ofMembers (taken : List Member) (h : ((taken ++ ms).map Member.key).Nodup) :
    (ofMembers name taken).build ms = .ok (ofMembers name (taken ++ ms)) := by
  induction ms generalizing taken with
  | nil => rw [build, List.append_nil]
  | cons m ms ih =>
    have hfree : m.key ∉ taken.map Member.key := by
      rw [List.map_append, List.map_cons] at h
      exact fun hmem ↦ (List.disjoint_of_nodup_append h) hmem List.mem_cons_self
    rw [List.append_cons] at h ⊢
    rw [build, add_ofMembers, if_neg hfree]
    exact ih _ h

/-! ### Assembling -/

/-- Every member is answered. -/
theorem length_answers (c : Class) (ms : List Member) : (c.assemble ms).2.length = ms.length := by
  induction ms generalizing c with
  | nil => rfl
  | cons m ms ih =>
    rw [assemble]
    cases c.add m with
    | error clash => exact congrArg (· + 1) (ih c)
    | ok c' => exact congrArg (· + 1) (ih c')

/-- Assembling goes on with the class that the members so far have left. -/
theorem assemble_append (c : Class) (xs ys : List Member) :
    c.assemble (xs ++ ys) =
      (((c.assemble xs).1.assemble ys).1,
        (c.assemble xs).2 ++ ((c.assemble xs).1.assemble ys).2) := by
  induction xs generalizing c with
  | nil => rfl
  | cons m xs ih =>
    rw [List.cons_append, assemble, assemble]
    cases c.add m with
    | error clash => simp only [ih, List.cons_append]
    | ok c' => simp only [ih, List.cons_append]

/-- The first member is answered with what has come of adding it. -/
theorem exists_answers_cons (c : Class) (m : Member) (ms : List Member) :
    ∃ later, (c.assemble (m :: ms)).2 = (c.add m).map (fun _ ↦ ()) :: later := by
  rw [assemble]
  cases c.add m <;> exact ⟨_, rfl⟩

/-- The members that are accepted when a class of the name given is assembled. -/
def accepted (name : String) (ms : List Member) : List Member :=
  Member.answeredOk ms ((empty name).assemble ms).2

theorem assemble_singleton_of_taken {m : Member} (h : m.key ∈ ms.map Member.key) :
    (ofMembers name ms).assemble [m] = (ofMembers name ms, [.error (m.key.clash name)]) := by
  have hadd := add_ofMembers name ms m
  rw [if_pos h] at hadd
  rw [assemble, hadd]
  rfl

theorem assemble_singleton_of_free {m : Member} (h : m.key ∉ ms.map Member.key) :
    (ofMembers name ms).assemble [m] = (ofMembers name (ms ++ [m]), [.ok ()]) := by
  have hadd := add_ofMembers name ms m
  rw [if_neg h] at hadd
  rw [assemble, hadd]
  rfl

/-- A further member changes nothing if its key is taken, and is accepted otherwise. -/
theorem assemble_concat (h : ((empty name).assemble ms).1 = ofMembers name (accepted name ms))
    (m : Member) :
    (((empty name).assemble (ms ++ [m])).1, accepted name (ms ++ [m])) =
      if m.key ∈ (accepted name ms).map Member.key then
        (ofMembers name (accepted name ms), accepted name ms)
      else (ofMembers name (accepted name ms ++ [m]), accepted name ms ++ [m]) := by
  have hlength : ms.length = ((empty name).assemble ms).2.length := (length_answers _ _).symm
  have haccepted : accepted name (ms ++ [m]) = accepted name ms ++
      Member.answeredOk [m] ((ofMembers name (accepted name ms)).assemble [m]).2 := by
    rw [accepted, assemble_append, Member.answeredOk_append hlength, ← accepted, h]
  rw [haccepted, assemble_append, h]
  by_cases htaken : m.key ∈ (accepted name ms).map Member.key
  · rw [if_pos htaken, assemble_singleton_of_taken htaken]
    exact Prod.ext rfl (List.append_nil _)
  · rw [if_neg htaken, assemble_singleton_of_free htaken]
    rfl

/-- **A class consists of its accepted members.** -/
theorem assemble_eq_ofMembers (name : String) (ms : List Member) :
    ((empty name).assemble ms).1 = ofMembers name (accepted name ms) := by
  induction ms using List.reverseRecOn with
  | nil => rfl
  | append_singleton ms m ih =>
    have hconcat := assemble_concat ih m
    split at hconcat
    · exact (congrArg Prod.fst hconcat).trans
        (congrArg (ofMembers name) (congrArg Prod.snd hconcat).symm)
    · exact (congrArg Prod.fst hconcat).trans
        (congrArg (ofMembers name) (congrArg Prod.snd hconcat).symm)

/-- The members that are accepted among one more. -/
theorem accepted_concat (name : String) (ms : List Member) (m : Member) :
    accepted name (ms ++ [m]) =
      if m.key ∈ (accepted name ms).map Member.key then accepted name ms
      else accepted name ms ++ [m] := by
  have hconcat := congrArg Prod.snd (assemble_concat (assemble_eq_ofMembers name ms) m)
  rw [apply_ite Prod.snd] at hconcat
  exact hconcat

/-- **No key is given twice.** -/
theorem nodup_keys_accepted (name : String) (ms : List Member) :
    ((accepted name ms).map Member.key).Nodup := by
  induction ms using List.reverseRecOn with
  | nil => exact List.nodup_nil
  | append_singleton ms m ih =>
    rw [accepted_concat]
    split
    · exact ih
    next hfree =>
      rw [List.map_append, List.map_singleton]
      exact List.concat_eq_append ▸ List.Nodup.concat hfree ih

/-- **Every member is answered by what came before it**: by the clash over its key if a member that
was accepted before has taken it. -/
theorem exists_answers_eq (name : String) (before : List Member) (m : Member)
    (after : List Member) :
    ∃ later, ((empty name).assemble (before ++ m :: after)).2 =
      ((empty name).assemble before).2 ++
        (if m.key ∈ (accepted name before).map Member.key then .error (m.key.clash name)
          else .ok ()) :: later := by
  obtain ⟨later, hlater⟩ :=
    exists_answers_cons (ofMembers name (accepted name before)) m after
  refine ⟨later, ?_⟩
  rw [assemble_append, assemble_eq_ofMembers, hlater, add_ofMembers]
  split <;> rfl

/-- **The first method declared under a selector is the one that is found**, whatever is declared
later on. -/
theorem find?_methods_accepted (name : String) (ms : List Member) (s : Selector) :
    (ofMembers name (accepted name ms)).method? s =
      (ms.filterMap (Member.method? name)).find? (·.selector = s) := by
  induction ms using List.reverseRecOn with
  | nil => rfl
  | append_singleton ms m ih =>
    rw [List.filterMap_append, List.find?_append, ← ih, accepted_concat]
    split
    next htaken =>
      cases hfound : (ofMembers name (accepted name ms)).method? s with
      | some method => rfl
      | none =>
        -- what is refused now has been found before
        symm
        rw [Option.none_or, List.find?_eq_none]
        intro method hmem hselector
        obtain ⟨m', hm', hdeclared⟩ := List.mem_filterMap.1 hmem
        rw [List.mem_singleton.1 hm'] at hdeclared
        rw [Member.key_of_method? hdeclared, of_decide_eq_true hselector] at htaken
        have hsome : ((ofMembers name (accepted name ms)).method? s).isSome :=
          isSome_method?_ofMembers_iff.2 htaken
        rw [hfound] at hsome
        cases hsome
    · rw [method?_ofMembers, List.filterMap_append, List.find?_append, method?_ofMembers]

end Class

end HostMethods
