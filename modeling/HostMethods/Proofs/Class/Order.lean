import HostMethods.Proofs.Class.Contents
import HostMethods.Proofs.Descriptor.Selectors
import HostMethods.Store.Object
import Mathlib.Data.List.Find
import Mathlib.Data.List.Sort
import Mathlib.Data.String.Basic

/-!
# The order of declarations

A class is declared member by member, but little of the order can be seen in it. The place of a
field counts fields of its own kind, so only their order among themselves decides it. A method is
found by its selector, and wherever methods are listed they are sorted, so their order decides
nothing at all. Two classes that show no difference are `Class.Alike`, and declarations that order
the fields of each kind alike make such classes (`Class.build_alike`).

Sorting makes up for the order only because the orders used are total and tell all entries apart.
For texts this is known. For selectors it is because of the length of the name, which settles the
order of two that have one text.
-/

namespace HostMethods

/-! ### Sorted lists of selectors -/

namespace Selector

instance : Std.TransCmp compareTo :=
  inferInstanceAs (Std.TransCmp (compareLex (compareOn text) (compareOn (·.name.utf8ByteSize))))

/-- Selectors that are not told apart are one selector: they have one text and divide it at the same
place. -/
instance : Std.LawfulEqCmp compareTo where
  compare_self := Std.ReflCmp.compare_self
  eq_of_compare {a b} h := by
    obtain ⟨htext, hsize⟩ := Ordering.then_eq_eq.1 h
    refine joined_inj.1 ?_
    rw [joined, joined, Std.LawfulEqOrd.eq_of_compare htext, Std.LawfulEqOrd.eq_of_compare hsize]

theorem le_iff {a b : Selector} : a.le b = true ↔ (a.compareTo b).isLE := by
  rw [le, decide_eq_true_iff, Ordering.isLE_iff_ne_gt]

theorem le_trans {a b c : Selector} (hab : a.le b = true) (hbc : b.le c = true) :
    a.le c = true :=
  le_iff.2 (Std.TransCmp.isLE_trans (le_iff.1 hab) (le_iff.1 hbc))

theorem le_total (a b : Selector) : (a.le b || b.le a) = true := by
  have hswap : b.compareTo a = (a.compareTo b).swap := Std.OrientedCmp.eq_swap
  rw [Bool.or_eq_true, le_iff, le_iff, hswap]
  cases a.compareTo b <;> simp

theorem le_antisymm {a b : Selector} (hab : a.le b = true) (hba : b.le a = true) : a = b :=
  Std.LawfulEqCmp.eq_of_compare (Std.OrientedCmp.isLE_antisymm (le_iff.1 hab) (le_iff.1 hba))

/-- A sorted list of selectors does not show the order they were in before. -/
theorem mergeSort_eq_of_perm {ss ss' : List Selector} (h : ss.Perm ss') :
    ss.mergeSort le = ss'.mergeSort le := by
  have hsorted (ss : List Selector) : (ss.mergeSort le).Pairwise (fun a b ↦ a.le b = true) :=
    List.pairwise_mergeSort @le_trans le_total ss
  have hperm : (ss.mergeSort le).Perm (ss'.mergeSort le) :=
    (ss.mergeSort_perm le).trans (h.trans (ss'.mergeSort_perm le).symm)
  exact hperm.eq_of_pairwise (fun _ _ _ _ ↦ le_antisymm) (hsorted ss) (hsorted ss')

end Selector

/-! ### Declarations -/

namespace Member

/-- The same members, declared in orders that agree on the fields of each kind. -/
structure Reordered (ms ms' : List Member) : Prop where
  /-- The members are the same. -/
  perm : ms.Perm ms'
  /-- The static fields are in the same order. -/
  statics_eq : ms.filter (·.staticField?.isSome) = ms'.filter (·.staticField?.isSome)
  /-- The fields of instances are in the same order. -/
  instances_eq : ms.filter (·.instanceField?.isSome) = ms'.filter (·.instanceField?.isSome)

variable {ms ms' : List Member} {className : String}

/-- Only the members that declare something count for what is declared. -/
theorem filterMap_filter_isSome {β : Type} (declared : Member → Option β) (ms : List Member) :
    (ms.filter (declared · |>.isSome)).filterMap declared = ms.filterMap declared := by
  rw [List.filterMap_filter]
  refine List.filterMap_congr fun m _ ↦ ?_
  cases h : declared m <;> simp

theorem Reordered.staticFields_eq (h : Reordered ms ms') :
    ms.filterMap staticField? = ms'.filterMap staticField? := by
  rw [← filterMap_filter_isSome, h.statics_eq, filterMap_filter_isSome]

theorem Reordered.instanceFields_eq (h : Reordered ms ms') :
    ms.filterMap instanceField? = ms'.filterMap instanceField? := by
  rw [← filterMap_filter_isSome, h.instances_eq, filterMap_filter_isSome]

theorem Reordered.methods_perm (h : Reordered ms ms') :
    (ms.filterMap (method? className)).Perm (ms'.filterMap (method? className)) :=
  h.perm.filterMap _

/-- Among members with different keys a selector has at most one method, so it does not matter which
one is declared first. -/
theorem Reordered.find?_methods_eq (h : Reordered ms ms') (hkeys : (ms.map key).Nodup)
    (s : Selector) :
    (ms.filterMap (method? className)).find? (·.selector = s) =
      (ms'.filterMap (method? className)).find? (·.selector = s) := by
  refine List.find?_eq_find?_of_perm h.methods_perm ?_
  rintro m ⟨hm, hs⟩ m' ⟨hm', hs'⟩
  have hselector : m.selector = m'.selector :=
    (of_decide_eq_true hs).trans (of_decide_eq_true hs').symm
  exact List.inj_on_of_nodup_map (nodup_map_filterMap key_of_method? hkeys) hm hm'
    (congrArg MemberKey.method hselector)

end Member

/-! ### Classes and instances that show no difference -/

/-- The instances show no difference: their fields hold the same values, reading and writing by name
has the same results, and so has describing them. -/
structure Instance.Alike (i i' : Instance) : Prop where
  /-- The classes have one name. -/
  name_eq : i.cls.name = i'.cls.name
  /-- The fields hold the same values, in the same order. -/
  fields_eq : i.fields = i'.fields
  /-- The host keeps the same state behind them. -/
  state_eq : i.state = i'.state
  /-- A name reads the same value. -/
  field?_eq : ∀ n, i.field? n = i'.field? n
  /-- Writing to a name leaves the same values, or fails with the same fault. -/
  setField_eq : ∀ n v, (i.setField n v).map (·.fields) = (i'.setField n v).map (·.fields)
  /-- The descriptions for diagnostics are the same. -/
  describe_eq : ∀ showRef, i.describe showRef = i'.describe showRef

/-- What is written to an instance is written to the values of its fields. -/
theorem Instance.map_fields_setField (i : Instance) (n : String) (v : Value) :
    (i.setField n v).map (·.fields) = i.cls.info.writeField i.fields n v := by
  rw [setField]
  cases i.cls.info.writeField i.fields n v <;> rfl

namespace Class

/-- The classes show no difference: whatever is asked of one of them has the same answer for the
other. -/
structure Alike (c c' : Class) : Prop where
  /-- The names are the same. -/
  name_eq : c.name = c'.name
  /-- A selector finds the same method, or none. -/
  method?_eq : ∀ s, c.method? s = c'.method? s
  /-- There are as many methods. -/
  length_methods : c.methods.length = c'.methods.length
  /-- The methods are listed under the same selectors, in the same order. -/
  selectors_eq : c.selectors = c'.selectors
  /-- A name finds the same field, with the same place, or none. -/
  field?_eq : ∀ n, c.field? n = c'.field? n
  /-- The static fields are the same, in the same order. -/
  staticFields_eq : c.staticFields = c'.staticFields
  /-- The fields of instances are the same, in the same order. -/
  instanceFields_eq : c.instanceFields = c'.instanceFields
  /-- The static fields start from the same values. -/
  initialStatics_eq : c.initialStatics = c'.initialStatics
  /-- New instances show no difference. -/
  fresh_alike : ∀ id id', (Instance.fresh ⟨id, c⟩).Alike (Instance.fresh ⟨id', c'⟩)
  /-- The descriptions for diagnostics are the same. -/
  describe_eq : c.describe = c'.describe

variable {c c' : Class} {ms ms' : List Member}

/-- What can be said of new instances depends on the name and on the fields of the class. -/
theorem fresh_alike_of_eq (hname : c.name = c'.name) (hstatics : c.staticFields = c'.staticFields)
    (hinstances : c.instanceFields = c'.instanceFields) (id id' : Nat) :
    (Instance.fresh ⟨id, c⟩).Alike (Instance.fresh ⟨id', c'⟩) := by
  obtain ⟨name, statics, instances, methods⟩ := c
  obtain ⟨_, _, _, methods'⟩ := c'
  cases hname
  cases hstatics
  cases hinstances
  -- the classes differ in their methods, which none of the answers looks at
  refine ⟨rfl, rfl, rfl, fun n ↦ rfl, fun n v ↦ ?_, fun showRef ↦ rfl⟩
  rw [Instance.map_fields_setField, Instance.map_fields_setField]
  rfl

/-- The description lists the methods sorted, in whatever order the class has them. -/
theorem describe_eq_of_perm (hname : c.name = c'.name) (hstatics : c.staticFields = c'.staticFields)
    (hinstances : c.instanceFields = c'.instanceFields) (hmethods : c.methods.Perm c'.methods) :
    c.describe = c'.describe := by
  have hsorted : (c.methods.map (·.selector.text)).mergeSort (· ≤ ·) =
      (c'.methods.map (·.selector.text)).mergeSort (· ≤ ·) :=
    List.Perm.eq_of_sortedLE List.sortedLE_mergeSort List.sortedLE_mergeSort
      ((List.mergeSort_perm _ _).trans
        ((hmethods.map _).trans (List.mergeSort_perm _ _).symm))
  rw [describe, describe, hname, hstatics, hinstances, hsorted]
  rfl

/-- Classes made of the same members show no difference if the order among the fields of each kind
is the same. -/
theorem ofMembers_alike (name : String) (h : Member.Reordered ms ms')
    (hkeys : (ms.map Member.key).Nodup) : (ofMembers name ms).Alike (ofMembers name ms') where
  name_eq := rfl
  method?_eq := h.find?_methods_eq hkeys
  length_methods := h.methods_perm.length_eq
  selectors_eq := Selector.mergeSort_eq_of_perm (h.methods_perm.map _)
  field?_eq n := by
    rw [field?, field?, ofMembers, ofMembers, h.staticFields_eq, h.instanceFields_eq]
  staticFields_eq := h.staticFields_eq
  instanceFields_eq := h.instanceFields_eq
  initialStatics_eq := congrArg (List.map StaticField.initial) h.staticFields_eq
  fresh_alike := fresh_alike_of_eq rfl h.staticFields_eq h.instanceFields_eq
  describe_eq := describe_eq_of_perm rfl h.staticFields_eq h.instanceFields_eq h.methods_perm

/-! ### Building -/

/-- Where no member is refused, it makes no difference whether a host would go on after a
refusal. -/
theorem assemble_of_build (h : c.build ms = .ok c') :
    c.assemble ms = (c', ms.map fun _ ↦ .ok ()) := by
  induction ms generalizing c with
  | nil =>
    cases h
    rfl
  | cons m ms ih =>
    rw [build] at h
    rw [assemble]
    cases hadd : c.add m with
    | error clash =>
      rw [hadd] at h
      cases h
    | ok d =>
      rw [hadd] at h
      simp only [ih h, List.map_cons]

/-- **Only the order among the fields of one kind counts.** Two hosts declare the same members, no
two of which share a field's name or a selector, and both declare the static fields in one order and
the fields of instances in one order. Methods may come in any order, and they and the fields of the
two kinds may be mixed in any way. Then no member is refused, whether or not the host would go on
after a refusal, and the two classes show no difference. -/
theorem build_alike (name : String) {ms ms' : List Member} (h : Member.Reordered ms ms')
    (hkeys : (ms.map Member.key).Nodup) :
    ∃ c c', (empty name).build ms = .ok c ∧ (empty name).build ms' = .ok c' ∧
      (empty name).assemble ms = (c, ms.map fun _ ↦ .ok ()) ∧
      (empty name).assemble ms' = (c', ms'.map fun _ ↦ .ok ()) ∧ c.Alike c' := by
  have hkeys' : (ms'.map Member.key).Nodup := (h.perm.map Member.key).nodup_iff.1 hkeys
  have hbuild : (empty name).build ms = .ok (ofMembers name ms) := build_ofMembers [] hkeys
  have hbuild' : (empty name).build ms' = .ok (ofMembers name ms') := build_ofMembers [] hkeys'
  exact ⟨_, _, hbuild, hbuild', assemble_of_build hbuild, assemble_of_build hbuild',
    ofMembers_alike name h hkeys⟩

/-- Two fields of the class, one of its instances and two methods, declared in two orders: the
classes list their methods differently and still show no difference. -/
theorem build_alike_of_methods_swapped :
    let f : Member := .procedure "f" .int (.host .noop)
    let g : Member := .procedure "g" .long (.host .noop)
    let a : Member := .static "a" .publicFlag .int (.int 1)
    let b : Member := .static "b" .publicFlag .long (.long 2)
    let x : Member := .field "x" .publicFlag .int
    let ms := [f, a, x, g, b]
    let ms' := [x, g, a, b, f]
    Member.Reordered ms ms' ∧ (ms.map Member.key).Nodup ∧
      ∃ c c', (empty "K").build ms = .ok c ∧ (empty "K").build ms' = .ok c' ∧
        c.methods ≠ c'.methods ∧ c.Alike c' := by
  intro f g a b x ms ms'
  have h : Member.Reordered ms ms' := ⟨by decide, by decide, by decide⟩
  have hkeys : (ms.map Member.key).Nodup := by decide
  obtain ⟨c, c', hbuild, hbuild', -, -, halike⟩ := build_alike "K" h hkeys
  refine ⟨h, hkeys, c, c', hbuild, hbuild', ?_, halike⟩
  cases hbuild.symm.trans (build_ofMembers [] hkeys)
  cases hbuild'.symm.trans (build_ofMembers [] ((h.perm.map Member.key).nodup_iff.1 hkeys))
  decide

end Class

end HostMethods
