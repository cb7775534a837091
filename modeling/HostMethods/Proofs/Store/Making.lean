import HostMethods.Proofs.Store.Evolution

/-!
# How a catalog makes classes

Whatever a catalog is asked for, it does the same few things: it makes one of its classes and keeps
it (`Catalog.Makes`). The class that holds the standard output stream comes after the class of
streams, a question for several classes is a sequence of questions, and what was made before a
failure is kept, so an answer comes with a sequence of such steps (`Catalog.Making`).
-/

namespace HostMethods

namespace Catalog

/-- One class is made that was not made before, and kept. -/
inductive Makes : Catalog × Store → Catalog × Store → Prop
  | system {k : Catalog} {s s' : Store} {streams c : LoadedClass} (hnone : k.system = none)
      (hstreams : k.printStream = some streams)
      (h : s.loadSystem streams k.options.stdout = .ok (c, s')) :
      Makes (k, s) ({ k with system := some c }, s')
  | random {k : Catalog} {s s' : Store} {c : LoadedClass} (hnone : k.random = none)
      (h : s.loadRandom k.options.seed = .ok (c, s')) :
      Makes (k, s) ({ k with random := some c }, s')
  | printStream {k : Catalog} {s s' : Store} {c : LoadedClass} (hnone : k.printStream = none)
      (h : s.loadPrintStream = .ok (c, s')) :
      Makes (k, s) ({ k with printStream := some c }, s')

/-- Classes are made one after the other. -/
abbrev Making : Catalog × Store → Catalog × Store → Prop :=
  Relation.ReflTransGen Makes

variable (k : Catalog) (s : Store)

theorem making_getPrintStream : Making (k, s) (k.getPrintStream s).2 := by
  rw [getPrintStream]
  split
  · exact .refl
  next hnone =>
    split
    · exact .refl
    next hload => exact .single (.printStream hnone hload)

theorem making_getRandom : Making (k, s) (k.getRandom s).2 := by
  rw [getRandom]
  split
  · exact .refl
  next hnone =>
    split
    · exact .refl
    next hload => exact .single (.random hnone hload)

variable {k s} in
/-- The class of streams is made for itself, and is kept. -/
theorem fields_of_getPrintStream {streams : LoadedClass} {k' : Catalog} {s' : Store}
    (h : k.getPrintStream s = (.ok streams, k', s')) :
    k'.printStream = some streams ∧ k'.system = k.system := by
  rw [getPrintStream] at h
  split at h
  next hmade =>
    cases h
    exact ⟨hmade, rfl⟩
  · split at h <;> cases h
    exact ⟨rfl, rfl⟩

theorem making_getSystem : Making (k, s) (k.getSystem s).2 := by
  have hstreams := k.making_getPrintStream s
  rw [getSystem]
  split
  · exact .refl
  next hnone =>
    split
    next heq =>
      rw [heq] at hstreams
      exact hstreams
    next heq =>
      rw [heq] at hstreams
      obtain ⟨hmade, hsystem⟩ := fields_of_getPrintStream heq
      split
      · exact hstreams
      next hload => exact hstreams.tail (.system (hsystem.trans hnone) hmade hload)

theorem making_get (b : Builtin) : Making (k, s) (k.get s b).2 := by
  cases b with
  | system => exact k.making_getSystem s
  | random => exact k.making_getRandom s
  | printStream => exact k.making_getPrintStream s

theorem making_getAll (bs : List Builtin) : Making (k, s) (k.getAll s bs).2 := by
  induction bs generalizing k s with
  | nil => exact .refl
  | cons b bs ih =>
    have hget := k.making_get s b
    rw [getAll]
    split
    next heq =>
      rw [heq] at hget
      exact hget
    next heq =>
      rw [heq] at hget
      exact hget.trans (ih _ _)

theorem making_classes : Making (k, s) (k.classes s).2 :=
  k.making_getAll s [.system, .random, .printStream]

theorem making_publish (r : Registry) : Making (k, s) (k.publish s r).2.2 := by
  have hall := k.making_classes s
  rw [publish]
  split
  next heq =>
    rw [heq] at hall
    exact hall
  next heq =>
    rw [heq] at hall
    exact hall

/-- **Making classes changes the store as any command may.** -/
theorem Making.evolves {touched : Ref → StateKind → Prop} {written : Ref → Prop}
    {before after : Catalog × Store} (h : Making before after) :
    before.2.Evolves touched written after.2 := by
  induction h with
  | refl => exact .refl
  | tail _ hmakes ih =>
    cases hmakes with
    | system _ _ hload => exact ih.trans (Store.evolves_loadSystem hload)
    | random _ hload => exact ih.trans (Store.evolves_of_map_load hload)
    | printStream _ hload => exact ih.trans (Store.evolves_of_map_load hload)

end Catalog

end HostMethods
