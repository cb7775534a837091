import HostMethods.Proofs.Call.Builtin
import HostMethods.Proofs.Run.Frame

/-!
# The class of generators in a catalog

A catalog makes its class of random number generators when it is first asked for it, with the seed
that the machine was given in the beginning. No command can exchange the one or the other, so in
every run (`Machine.randomFrom_run`) the methods that are found in that class are those declared for
that seed (`Catalog.RandomFrom.method?_eq`).
-/

namespace HostMethods

namespace Catalog

/-- The catalog makes its class of random number generators with this seed, and if it has made one,
it was so. -/
structure RandomFrom (k : Catalog) (seed : Option UInt64) : Prop where
  seed_eq : k.options.seed = seed
  build_eq : ∀ c, k.random = some c →
    (Class.empty ClassName.random).build (RandomMethod.members seed) = .ok c.info

variable {k : Catalog} {s : Store} {seed : Option UInt64}

/-- **The methods in the catalog's class are those declared.** -/
theorem RandomFrom.method?_eq (h : k.RandomFrom seed) {c : LoadedClass} (hc : k.random = some c)
    {method : RandomMethod} (hmethod : method ∈ RandomMethod.all seed) :
    c.info.method? (.of method.name method.signature) = some method.declared := by
  have hbuild := h.build_eq c hc
  rw [Class.build_randomMembers] at hbuild
  rw [← Except.ok.inj hbuild]
  -- no two of the methods share a selector, so each is the first of its own
  have hcases : method = .construct seed ∨ method = .constructSeeded ∨ method = .nextInt ∨
      method = .nextIntBelow ∨ method = .nextLong ∨ method = .nextBoolean ∨ method = .setSeed := by
    simpa [RandomMethod.all] using hmethod
  rcases hcases with rfl | rfl | rfl | rfl | rfl | rfl | rfl <;> rfl

/-- What the catalog makes, it makes with its seed. -/
theorem RandomFrom.of_making {before after : Catalog × Store} (h : before.1.RandomFrom seed)
    (hmaking : Making before after) : after.1.RandomFrom seed := by
  induction hmaking with
  | refl => exact h
  | tail _ hmakes ih =>
    cases hmakes with
    | system _ _ hload => exact ⟨ih.seed_eq, ih.build_eq⟩
    | printStream _ hload => exact ⟨ih.seed_eq, ih.build_eq⟩
    | random _ hload =>
      refine ⟨ih.seed_eq, fun c hc ↦ ?_⟩
      cases hc
      rw [ih.seed_eq] at hload
      obtain ⟨info, hbuild, hloaded⟩ := Except.exists_of_map_eq_ok hload
      cases hloaded
      exact hbuild

end Catalog

/-- The command asks the catalog for classes. -/
def Command.AsksCatalog : Command → Prop
  | builtin _ | builtins | registerBuiltins => True
  | _ => False

namespace Machine

variable {m : Machine} {seed : Option UInt64}

theorem catalog_make (m : Machine) (outcome : Except Clash (LoadedClass × Store)) :
    (m.make outcome).1.catalog = m.catalog := by
  cases outcome <;> rfl

/-- Only a command that asks the catalog can change it. -/
theorem catalog_step_of_not_asks (m : Machine) {cmd : Command} (h : ¬cmd.AsksCatalog) :
    (m.step cmd).1.catalog = m.catalog := by
  cases cmd with
  | builtin | builtins | registerBuiltins => exact absurd trivial h
  | newThread | newText | newInstance | openStream | define | registerMany | invoke | newSink
  | callSink | takeSink => rfl
  | buildPrintStream | buildRandom | buildSystem => rw [step, catalog_make]
  | push | pop | popRef | takeArgs | takeCall | deliver | setStatic | register | call =>
    rw [step]
    split <;> rfl
  | select thread =>
    rw [step, select]
    split <;> rfl
  | setField | initState | callStream =>
    rw [step]
    split
    · rfl
    · split <;> rfl

/-- **A catalog that is asked makes classes**, and the store takes them in. -/
theorem making_step_of_asks (m : Machine) {cmd : Command} (h : cmd.AsksCatalog) :
    Catalog.Making (m.catalog, m.store) ((m.step cmd).1.catalog, (m.step cmd).1.store) := by
  cases cmd with
  | builtin b => exact m.catalog.making_get m.store b
  | builtins =>
    rw [step_builtins]
    exact m.catalog.making_classes m.store
  | registerBuiltins => exact m.catalog.making_publish m.store m.registry
  | _ => exact absurd h id

/-- **In every run the catalog's class is made with the seed that the machine was given.** -/
theorem randomFrom_run (stdout : Sink) (seed : Option UInt64) (limit : Nat) (cmds : List Command) :
    ((new stdout seed limit).run cmds).1.catalog.RandomFrom seed := by
  have hnew : (new stdout seed limit).catalog.RandomFrom seed := by
    refine ⟨rfl, fun c hc ↦ ?_⟩
    cases hc
  refine run_induction (fun m cmd (h : m.catalog.RandomFrom seed) ↦ ?_) hnew cmds
  by_cases hasks : cmd.AsksCatalog
  · exact h.of_making (m.making_step_of_asks hasks)
  · rwa [m.catalog_step_of_not_asks hasks]

end Machine

end HostMethods
