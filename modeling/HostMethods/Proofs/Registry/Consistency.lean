import HostMethods.Proofs.Registry.History
import Mathlib.Data.List.Nodup

/-!
# Numbers and names

A registered class can be asked for by its number and by its name. Both ways lead to the same
classes: the numbers are those below the size, every name is given once, and a class that is found
by the one is found by the other (`Registry.Lawful`).

What a request adds is decided by names alone. A class is refused if its name is given, and a
request for several classes adds those before the first one whose name is given, be it by the
registry or by an earlier class of the same request (`Registry.addAll_eq`). Since classes are
only ever added at the end, no answer that was given once becomes wrong (`Registry.Extends`).
-/

namespace HostMethods

namespace Registry

/-- The names that are given, by number. -/
def names (r : Registry) : List String :=
  r.classes.map LoadedClass.name

/-- The names of these classes can all be given: they are pairwise distinct, and the registry has
given none of them. -/
def Free (r : Registry) (cs : List LoadedClass) : Prop :=
  (cs.map LoadedClass.name).Nodup ∧ ∀ c ∈ cs, c.name ∉ r.names

/-- How the numbers, the names and the answers to requests fit together. -/
structure Lawful (r : Registry) : Prop where
  /-- A name is given once. -/
  nodup_names : r.names.Nodup
  /-- The numbers are those below the size. -/
  isSome_byNumber?_iff : ∀ n, (r.byNumber? n).isSome ↔ n < r.size
  /-- The name of a class with a number leads to this class. -/
  byName?_of_byNumber? : ∀ n c, r.byNumber? n = some c → r.byName? c.name = some c
  /-- A name leads to nothing but a class of this name that has a number. -/
  exists_byNumber?_of_byName? : ∀ name c, r.byName? name = some c →
    c.name = name ∧ ∃ n, r.byNumber? n = some c
  /-- A class whose name is given is refused for its name, and nothing changes. -/
  add_of_mem : ∀ c, c.name ∈ r.names →
    r.add c = .error (.classes c.name) ∧ r.register (.one c) = r
  /-- Any other class gets the next number. -/
  add_of_not_mem : ∀ c, c.name ∉ r.names →
    r.add c = .ok (r.size, ⟨r.classes ++ [c]⟩) ∧ r.register (.one c) = ⟨r.classes ++ [c]⟩
  /-- Of several classes those are added, in their order, that come before the first one whose name
  is given by the registry or by one of them; its name is the answer. -/
  addAll_cases : ∀ cs,
    (r.Free cs ∧ r.addAll cs = (.ok (), ⟨r.classes ++ cs⟩)) ∨
    ∃ before c after, cs = before ++ c :: after ∧ r.Free before ∧
      (c.name ∈ r.names ∨ c.name ∈ before.map LoadedClass.name) ∧
      r.addAll cs = (.error (.classes c.name), ⟨r.classes ++ before⟩)

/-- Every answer that the one registry gives to a number or a name, the other one gives, too. -/
structure Extends (r r' : Registry) : Prop where
  byNumber? : ∀ n c, r.byNumber? n = some c → r'.byNumber? n = some c
  byName? : ∀ name c, r.byName? name = some c → r'.byName? name = some c

variable {r r' : Registry} {c : LoadedClass} {cs : List LoadedClass} {name : String} {n : Nat}

/-! ### What a request adds -/

/-- A name is given exactly if it leads to a class. -/
theorem isSome_byName?_iff : (r.byName? name).isSome ↔ name ∈ r.names := by
  rw [Registry.byName?, List.find?_isSome, names, List.mem_map]
  simp only [decide_eq_true_eq]

theorem add_eq_error (h : c.name ∈ r.names) : r.add c = .error (.classes c.name) := by
  rw [add, if_pos (isSome_byName?_iff.2 h)]

theorem add_eq_ok (h : c.name ∉ r.names) : r.add c = .ok (r.size, ⟨r.classes ++ [c]⟩) := by
  rw [add, if_neg (isSome_byName?_iff.not.2 h)]

theorem names_append (r : Registry) (cs : List LoadedClass) :
    names ⟨r.classes ++ cs⟩ = r.names ++ cs.map LoadedClass.name :=
  List.map_append

/-- Names that are free after a class was added were free before, together with the class's own. -/
theorem Free.cons (hc : c.name ∉ r.names) (h : Free ⟨r.classes ++ [c]⟩ cs) : r.Free (c :: cs) := by
  obtain ⟨hnodup, hfree⟩ := h
  rw [names_append] at hfree
  have hleft : ∀ d ∈ cs, d.name ∉ r.names := fun d hd hmem ↦
    hfree d hd (List.mem_append_left _ hmem)
  have hright : ∀ d ∈ cs, d.name ≠ c.name := fun d hd heq ↦
    hfree d hd (List.mem_append_right _ (List.mem_singleton.2 heq))
  refine ⟨List.nodup_cons.2 ⟨fun hmem ↦ ?_, hnodup⟩, fun d hd ↦ ?_⟩
  · obtain ⟨d, hd, heq⟩ := List.mem_map.1 hmem
    exact hright d hd heq
  · rcases List.mem_cons.1 hd with rfl | hd
    · exact hc
    · exact hleft d hd

/-- **A request for several classes adds those before the first one whose name is taken.** -/
theorem addAll_eq (r : Registry) (cs : List LoadedClass) :
    (r.Free cs ∧ r.addAll cs = (.ok (), ⟨r.classes ++ cs⟩)) ∨
    ∃ before c after, cs = before ++ c :: after ∧ r.Free before ∧
      (c.name ∈ r.names ∨ c.name ∈ before.map LoadedClass.name) ∧
      r.addAll cs = (.error (.classes c.name), ⟨r.classes ++ before⟩) := by
  induction cs generalizing r with
  | nil =>
    refine .inl ⟨⟨List.nodup_nil, fun c hc ↦ absurd hc List.not_mem_nil⟩, ?_⟩
    rw [addAll, List.append_nil]
  | cons c cs ih =>
    by_cases hc : c.name ∈ r.names
    · refine .inr ⟨[], c, cs, rfl, ⟨List.nodup_nil, fun d hd ↦ absurd hd List.not_mem_nil⟩,
        .inl hc, ?_⟩
      rw [addAll, add_eq_error hc, List.append_nil]
    · have hadd : r.addAll (c :: cs) = addAll ⟨r.classes ++ [c]⟩ cs := by
        rw [addAll, add_eq_ok hc]
      rcases ih ⟨r.classes ++ [c]⟩ with ⟨hfree, hall⟩ | ⟨before, d, after, rfl, hfree, htaken, hall⟩
      · refine .inl ⟨hfree.cons hc, ?_⟩
        rw [hadd, hall, List.append_assoc, List.singleton_append]
      · refine .inr ⟨c :: before, d, after, rfl, hfree.cons hc, ?_, ?_⟩
        · -- the name of the class just added is one of the request's own
          rw [names_append, List.mem_append, List.map_singleton, List.mem_singleton] at htaken
          rw [List.map_cons, List.mem_cons]
          exact or_assoc.1 htaken
        · rw [hadd, hall, List.append_assoc, List.singleton_append]

/-- **A request adds classes at the end**, and their names were free. -/
theorem exists_free_of_register (r : Registry) (request : Registration) :
    ∃ added, r.Free added ∧ r.register request = ⟨r.classes ++ added⟩ := by
  cases request with
  | one c =>
    by_cases hc : c.name ∈ r.names
    · refine ⟨[], ⟨List.nodup_nil, fun d hd ↦ absurd hd List.not_mem_nil⟩, ?_⟩
      rw [register, add_eq_error hc, List.append_nil]
    · refine ⟨[c], ⟨List.nodup_singleton _, fun d hd ↦ ?_⟩, ?_⟩
      · rwa [List.mem_singleton.1 hd]
      · rw [register, add_eq_ok hc]
  | many cs =>
    rcases r.addAll_eq cs with ⟨hfree, hall⟩ | ⟨before, c, after, -, hfree, -, hall⟩
    · exact ⟨cs, hfree, by rw [register, hall]⟩
    · exact ⟨before, hfree, by rw [register, hall]⟩

/-! ### Every history -/

/-- A name is given once, whatever is requested. -/
theorem nodup_names_register (request : Registration) (h : r.names.Nodup) :
    (r.register request).names.Nodup := by
  obtain ⟨added, ⟨hnodup, hfree⟩, hregister⟩ := r.exists_free_of_register request
  rw [hregister, names_append]
  refine List.Nodup.append h hnodup fun name hname hadded ↦ ?_
  obtain ⟨c, hc, rfl⟩ := List.mem_map.1 hadded
  exact hfree c hc hname

theorem nodup_names_filled (requests : List Registration) : (filled requests).names.Nodup := by
  induction requests using List.reverseRecOn with
  | nil => exact List.nodup_nil
  | append_singleton requests request ih =>
    rw [filled, List.foldl_append]
    exact nodup_names_register request ih

/-- Nothing that is registered is ever lost or moved. -/
theorem prefix_filled_append (requests later : List Registration) :
    (filled requests).classes <+: (filled (requests ++ later)).classes := by
  induction later using List.reverseRecOn with
  | nil => exact (List.append_nil requests).symm ▸ List.prefix_rfl
  | append_singleton later request ih =>
    obtain ⟨added, -, hregister⟩ :=
      (filled (requests ++ later)).exists_free_of_register request
    have hfilled : filled (requests ++ (later ++ [request])) =
        (filled (requests ++ later)).register request := by
      rw [← List.append_assoc, filled, List.foldl_append]
      rfl
    rw [hfilled, hregister]
    exact ih.trans (List.prefix_append _ _)

/-! ### Numbers and names -/

/-- Where every name is given once, the name of a class with a number leads back to the class. -/
theorem byName?_of_getElem? (hnodup : r.names.Nodup) (h : r.classes[n]? = some c) :
    r.byName? c.name = some c := by
  obtain ⟨hn, rfl⟩ := List.getElem?_eq_some_iff.1 h
  rw [byName?_eq_some_iff]
  refine ⟨r.classes.take n, r.classes.drop (n + 1), ?_, rfl, fun b hb heq ↦ ?_⟩
  · rw [← List.drop_eq_getElem_cons hn, List.take_append_drop]
  · -- an earlier class of the same name would have the same number
    obtain ⟨i, hi, rfl⟩ := List.mem_take_iff_getElem.1 hb
    have hlt : i < n ∧ i < r.classes.length := by omega
    have hlength : i < r.names.length := by
      rw [names, List.length_map]
      exact hlt.2
    have hsame : r.names[i]? = r.names[n]? := by
      rw [names, List.getElem?_map, List.getElem?_map, List.getElem?_eq_getElem hlt.2,
        List.getElem?_eq_getElem hn, Option.map_some, Option.map_some, heq]
    have hnumber : i = n := (List.getElem?_inj hlength hnodup).1 hsame
    omega

theorem lawful_of_nodup (hnodup : r.names.Nodup) : r.Lawful where
  nodup_names := hnodup
  isSome_byNumber?_iff n := by
    rw [Registry.byNumber?, size]
    constructor
    · intro h
      obtain ⟨c, hc⟩ := Option.isSome_iff_exists.1 h
      exact (List.getElem?_eq_some_iff.1 hc).1
    · intro hn
      rw [List.getElem?_eq_getElem hn, Option.isSome_some]
  byName?_of_byNumber? n c h := byName?_of_getElem? hnodup h
  exists_byNumber?_of_byName? name c h := by
    obtain ⟨before, after, hclasses, hname, -⟩ := byName?_eq_some_iff.1 h
    refine ⟨hname, before.length, ?_⟩
    rw [byNumber?, hclasses, List.getElem?_append_right (Nat.le_refl _), Nat.sub_self]
    rfl
  add_of_mem c h := ⟨add_eq_error h, by rw [register, add_eq_error h]⟩
  add_of_not_mem c h := ⟨add_eq_ok h, by rw [register, add_eq_ok h]⟩
  addAll_cases cs := r.addAll_eq cs

/-- Classes that are added at the end leave every answer as it is. -/
theorem extends_of_prefix (h : r.classes <+: r'.classes) : r.Extends r' := by
  obtain ⟨added, hadded⟩ := h
  constructor
  · intro n c hc
    have hn : n < r.classes.length := (List.getElem?_eq_some_iff.1 hc).1
    rw [Registry.byNumber?, ← hadded, List.getElem?_append_left hn]
    exact hc
  · intro name c hc
    rw [Registry.byName?] at hc
    rw [Registry.byName?, ← hadded, List.find?_append, hc, Option.some_or]

/-- **Numbers and names agree in every history.** After any requests, for single classes or for
several, with any names, numbers and names lead to the same classes, and every further request is
answered by the names that are given. Whatever is requested later, and with whatever success, no
answer that a number or a name has given changes. -/
theorem filled_lawful (requests : List Registration) :
    (filled requests).Lawful ∧
      ∀ later, (filled requests).Extends (filled (requests ++ later)) :=
  ⟨lawful_of_nodup (nodup_names_filled requests),
    fun later ↦ extends_of_prefix (prefix_filled_append requests later)⟩

end Registry

end HostMethods
