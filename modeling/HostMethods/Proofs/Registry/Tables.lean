import HostMethods.Proofs.Outcome
import HostMethods.Proofs.Registry.Consistency

/-!
# Registries in tables

A registry finds a class by its name in the list of its classes. A host can also keep the numbers
of the names in a hash table, beside the sequence of the classes (`Registry.Tables`). The number
that is entered for a name is the length that the sequence has before the class is appended, and
this is all that ties the two together.

As for the containers of a class, a request goes as it does by the list: it is answered alike and
leaves containers of the registry that it leaves (`Tables.Represents.addAll`). So the sequence and
the table stay inverse to each other in every history (`Tables.filled_inStep`).
-/

namespace HostMethods

namespace Registry

/-- A registry in containers that have to be kept in step. -/
structure Tables where
  /-- The classes, by number. -/
  classes : List LoadedClass
  /-- The numbers of the classes, by name. -/
  numbers : Std.HashMap String Nat

namespace Tables

/-- The containers of the registry without classes. -/
def empty : Tables :=
  ⟨[], ∅⟩

/-- The class with a number. -/
def byNumber? (t : Tables) (n : Nat) : Option LoadedClass :=
  t.classes[n]?

/-- The class with a name. -/
def byName? (t : Tables) (name : String) : Option LoadedClass :=
  (t.numbers[name]?).bind t.byNumber?

/-- Finds a method by the name of a registered class and a selector. -/
def resolve? (t : Tables) (className : String) (s : Selector) : Option Method :=
  (t.byName? className).bind (·.info.method? s)

/-- Registers a class, with the number that it will have when it has been appended. -/
def add (t : Tables) (c : LoadedClass) : Except Clash (Nat × Tables) :=
  if t.numbers.contains c.name then .error (.classes c.name)
  else .ok (t.classes.length, ⟨t.classes ++ [c], t.numbers.insert c.name t.classes.length⟩)

/-- Registers classes one after the other up to the first that is refused. -/
def addAll (t : Tables) : List LoadedClass → Except Clash Unit × Tables
  | [] => (.ok (), t)
  | c :: cs =>
    match t.add c with
    | .error clash => (.error clash, t)
    | .ok (_, t) => t.addAll cs

/-- Carries out a request. -/
def register (t : Tables) : Registration → Tables
  | .one c =>
    match t.add c with
    | .error _ => t
    | .ok (_, t) => t
  | .many cs => (t.addAll cs).2

/-- The containers after requests, which started without classes. -/
def filled (requests : List Registration) : Tables :=
  requests.foldl register .empty

/-- The containers are those of the registry. -/
structure Represents (t : Tables) (r : Registry) : Prop where
  classes_eq : t.classes = r.classes
  /-- A name leads to the number of the first class that has it. -/
  numbers_eq : ∀ name, t.numbers[name]? = r.classes.findIdx? (·.name = name)
  size_numbers : t.numbers.size = r.size

variable {t : Tables} {r : Registry}

theorem represents_empty : empty.Represents .empty where
  classes_eq := rfl
  numbers_eq _ := Std.HashMap.getElem?_empty
  size_numbers := Std.HashMap.size_empty

namespace Represents

/-! ### Looking up -/

theorem byNumber?_eq (h : t.Represents r) (n : Nat) : t.byNumber? n = r.byNumber? n := by
  rw [Tables.byNumber?, h.classes_eq, Registry.byNumber?]

/-- **A name leads to the same class**, by way of its number. -/
theorem byName?_eq (h : t.Represents r) (name : String) : t.byName? name = r.byName? name := by
  rw [Tables.byName?, h.numbers_eq, Registry.byName?, List.find?_eq_bind_findIdx?_getElem?]
  exact Option.bind_congr fun n _ ↦ h.byNumber?_eq n

theorem resolve?_eq (h : t.Represents r) (className : String) (s : Selector) :
    t.resolve? className s = r.resolve? className s := by
  rw [Tables.resolve?, h.byName?_eq, Registry.resolve?]

/-! ### Registering -/

theorem contains_numbers (h : t.Represents r) (name : String) :
    t.numbers.contains name = (r.byName? name).isSome := by
  rw [Std.HashMap.contains_eq_isSome_getElem?, h.numbers_eq, List.findIdx?_isSome,
    Registry.byName?, List.isSome_find?]

/-- The containers with a class more. -/
theorem concat (h : t.Represents r) {c : LoadedClass} (hfree : r.byName? c.name = none) :
    Represents ⟨t.classes ++ [c], t.numbers.insert c.name t.classes.length⟩
      ⟨r.classes ++ [c]⟩ where
  classes_eq := by rw [h.classes_eq]
  numbers_eq name := by
    have hnone : r.classes.findIdx? (·.name = c.name) = none := by
      rw [← Option.not_isSome_iff_eq_none, List.findIdx?_isSome, ← List.isSome_find?]
      exact Option.not_isSome_iff_eq_none.2 hfree
    rw [Std.HashMap.getElem?_insert, h.numbers_eq, h.classes_eq, List.findIdx?_append,
      List.findIdx?_singleton]
    by_cases hname : c.name = name
    · subst hname
      simp [hnone]
    · simp [hname]
  size_numbers := by
    have hnew : c.name ∉ t.numbers := by
      rw [Std.HashMap.mem_iff_contains, h.contains_numbers, hfree]
      exact Bool.false_ne_true
    rw [Std.HashMap.size_insert, if_neg hnew, h.size_numbers, size, size, List.length_append,
      List.length_singleton]

/-- **A class is registered in the containers as in the list**: it is refused by both, for the same
reason, or gets the same number. -/
theorem add (h : t.Represents r) (c : LoadedClass) :
    Except.Related (fun p q ↦ p.1 = q.1 ∧ p.2.Represents q.2) (t.add c) (r.add c) := by
  rw [Tables.add, Registry.add, h.contains_numbers]
  split
  · exact .error _
  next hnew =>
    refine .ok ⟨?_, h.concat (Option.not_isSome_iff_eq_none.1 hnew)⟩
    rw [h.classes_eq, size]

/-- **Several classes are registered as in the list**, with the same answer. -/
theorem addAll (h : t.Represents r) (cs : List LoadedClass) :
    (t.addAll cs).1 = (r.addAll cs).1 ∧ (t.addAll cs).2.Represents (r.addAll cs).2 := by
  induction cs generalizing t r with
  | nil => exact ⟨rfl, h⟩
  | cons c cs ih =>
    have hadd := h.add c
    rw [Tables.addAll, Registry.addAll]
    generalize t.add c = added, r.add c = added' at hadd ⊢
    cases hadd with
    | error clash => exact ⟨rfl, h⟩
    | ok hnext => exact ih hnext.2

theorem register (h : t.Represents r) (request : Registration) :
    (t.register request).Represents (r.register request) := by
  cases request with
  | many cs => exact (h.addAll cs).2
  | one c =>
    have hadd := h.add c
    rw [Tables.register, Registry.register]
    generalize t.add c = added, r.add c = added' at hadd ⊢
    cases hadd with
    | error clash => exact h
    | ok hnext => exact hnext.2

end Represents

/-! ### Containers in step -/

/-- Where every name is given once, a name is found at a number exactly if it is given there. -/
theorem findIdx?_eq_some_iff (hnodup : r.names.Nodup) {name : String} {n : Nat} :
    r.classes.findIdx? (·.name = name) = some n ↔
      (r.classes[n]?).map LoadedClass.name = some name := by
  rw [List.findIdx?_eq_some_iff_getElem]
  constructor
  · rintro ⟨hn, hname, -⟩
    rw [List.getElem?_eq_getElem hn, Option.map_some, of_decide_eq_true hname]
  · intro hname
    obtain ⟨c, hc, rfl⟩ := Option.map_eq_some_iff.1 hname
    obtain ⟨hn, rfl⟩ := List.getElem?_eq_some_iff.1 hc
    refine ⟨hn, decide_eq_true rfl, fun j hj heq ↦ ?_⟩
    exact List.pairwise_iff_getElem.1 (List.pairwise_map.1 hnodup) j n (by omega) hn hj
      (of_decide_eq_true heq)

theorem represents_filled (requests : List Registration) :
    (filled requests).Represents (Registry.filled requests) := by
  induction requests using List.reverseRecOn with
  | nil => exact represents_empty
  | append_singleton requests request ih =>
    rw [filled, List.foldl_append, Registry.filled, List.foldl_append]
    exact ih.register request

/-- The sequence and the table are inverse to each other. -/
structure InStep (t : Tables) : Prop where
  /-- A name is entered with a number exactly if it is the name of the class with the number. -/
  numbers_eq_some_iff : ∀ (name : String) (n : Nat),
    t.numbers[name]? = some n ↔ (t.byNumber? n).map LoadedClass.name = some name
  size_numbers : t.numbers.size = t.classes.length

/-- **The containers of a registry are in step in every history**, and hold what the list of the
registry does. -/
theorem filled_inStep (requests : List Registration) :
    (filled requests).InStep ∧ (filled requests).Represents (Registry.filled requests) := by
  have h := represents_filled requests
  refine ⟨⟨fun name n ↦ ?_, ?_⟩, h⟩
  · rw [h.numbers_eq, h.byNumber?_eq, findIdx?_eq_some_iff (nodup_names_filled requests)]
    rfl
  · rw [h.size_numbers, h.classes_eq, size]

end Tables

end Registry

end HostMethods
