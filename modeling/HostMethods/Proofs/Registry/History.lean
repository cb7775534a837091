import HostMethods.Registry
import Mathlib.Data.List.Induction

/-!
# How registries come about

A registry is filled by requests, each for one class or for several. A request for several stops at
the first class that is refused and leaves those before it registered, so what a registry holds is
not simply what it was asked to hold. It holds nothing else, though
(`Registry.exists_mem_of_filled`).
-/

namespace HostMethods

/-- A request to register classes. -/
inductive Registration
  /-- One class. -/
  | one (c : LoadedClass)
  /-- Several classes, up to the first that is refused. -/
  | many (cs : List LoadedClass)

/-- The classes that a request is about. -/
def Registration.classes : Registration → List LoadedClass
  | one c => [c]
  | many cs => cs

namespace Registry

/-- Carries out a request. -/
def register (r : Registry) : Registration → Registry
  | .one c =>
    match r.add c with
    | .error _ => r
    | .ok (_, r) => r
  | .many cs => (r.addAll cs).2

/-- The registry after requests, which started without classes. -/
def filled (requests : List Registration) : Registry :=
  requests.foldl register .empty

/-- The class is the first registered one that has the name. -/
def FirstNamed (r : Registry) (name : String) (c : LoadedClass) : Prop :=
  ∃ before after, r.classes = before ++ c :: after ∧ c.name = name ∧ ∀ b ∈ before, b.name ≠ name

variable {r r' : Registry} {c d : LoadedClass} {name : String} {n : Nat}

/-- A name leads to the first class that was registered with it. -/
theorem byName?_eq_some_iff : r.byName? name = some c ↔ r.FirstNamed name c := by
  rw [byName?, List.find?_eq_some_iff_append, FirstNamed]
  simp only [decide_eq_true_eq, Bool.not_eq_true', decide_eq_false_iff_not]
  constructor
  · rintro ⟨hname, before, after, hclasses, hbefore⟩
    exact ⟨before, after, hclasses, hname, hbefore⟩
  · rintro ⟨before, after, hclasses, hname, hbefore⟩
    exact ⟨hname, before, after, hclasses, hbefore⟩

/-- A class that is registered comes last. -/
theorem classes_of_add (h : r.add c = .ok (n, r')) : r'.classes = r.classes ++ [c] := by
  rw [add] at h
  split at h <;> cases h
  rfl

theorem mem_classes_addAll {cs : List LoadedClass} (h : d ∈ (r.addAll cs).2.classes) :
    d ∈ r.classes ∨ d ∈ cs := by
  induction cs generalizing r with
  | nil => exact .inl h
  | cons c cs ih =>
    rw [addAll] at h
    cases hadd : r.add c with
    | error clash =>
      rw [hadd] at h
      exact .inl h
    | ok added =>
      rw [hadd] at h
      rcases ih h with hmem | hmem
      · rw [classes_of_add hadd, List.mem_append, List.mem_singleton] at hmem
        rcases hmem with hmem | rfl
        · exact .inl hmem
        · exact .inr List.mem_cons_self
      · exact .inr (List.mem_cons_of_mem c hmem)

/-- What is registered was registered before or belongs to the request. -/
theorem mem_classes_register {request : Registration} (h : d ∈ (r.register request).classes) :
    d ∈ r.classes ∨ d ∈ request.classes := by
  cases request with
  | many cs => exact mem_classes_addAll h
  | one c =>
    rw [register] at h
    split at h
    · exact .inl h
    next hadd =>
      rw [classes_of_add hadd] at h
      exact List.mem_append.1 h

/-- **A registry holds only what it was asked to hold.** -/
theorem exists_mem_of_filled {requests : List Registration}
    (h : d ∈ (filled requests).classes) : ∃ request ∈ requests, d ∈ request.classes := by
  induction requests using List.reverseRecOn with
  | nil => cases h
  | append_singleton requests request ih =>
    rw [filled, List.foldl_append] at h
    rcases mem_classes_register h with hmem | hmem
    · obtain ⟨request', hrequest', hd⟩ := ih hmem
      exact ⟨request', List.mem_append_left _ hrequest', hd⟩
    · exact ⟨request, List.mem_append_right _ List.mem_cons_self, hmem⟩

end Registry

end HostMethods
