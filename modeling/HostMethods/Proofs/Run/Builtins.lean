import HostMethods.Proofs.Registry.Consistency
import HostMethods.Proofs.Run.Catalog

/-!
# One set of built-in classes

A catalog can be asked for its classes one by one, for all of them at once, or to register them, in
any order and as often as one likes, on behalf of any registry. It hands out the same three classes
every time (`Catalog.handsOutOneSet`): a class that is made is kept, the class of streams is made
before the class that needs it, and no class can fail to be made.

All that happens to a catalog is a sequence of `Catalog.Makes`, of which `Catalog.Grows` says what
it keeps. The names of the three classes are distinct, so registering them comes to looking for the
first of them that is taken (`Registry.addAll_classes`).
-/

namespace HostMethods

namespace Builtin

/-- The name of a built-in class. -/
def className : Builtin → String
  | system => ClassName.system
  | random => ClassName.random
  | printStream => ClassName.printStream

/-- The built-in classes, in the order in which they are registered. -/
def all : List Builtin :=
  [system, random, printStream]

theorem mem_all (b : Builtin) : b ∈ all := by
  cases b <;> decide

theorem nodup_className : (all.map className).Nodup := by
  decide

end Builtin

/-! ### The standard output stream -/

/-- The class that holds a reference to the standard output stream. -/
def Class.systemOf (out : Ref) : Class :=
  { Class.empty ClassName.system with
    staticFields := [⟨⟨standardOutput, .publicConstant, .object ClassName.printStream⟩, .ref out⟩] }

namespace Store

variable {s s' : Store} {system streams c : LoadedClass} {name : String} {v : Value} {sink : Nat}

/-- The class holds, as the standard output stream, an instance of the class of streams that writes
to the sink and has not failed yet. -/
def HoldsOutput (s : Store) (system streams : LoadedClass) (sink : Nat) : Prop :=
  ∃ out i, s.static? system standardOutput = some (.ref out) ∧ s.object out = .inst i ∧
    i.cls = streams ∧ i.state = some ⟨.stream, .to sink⟩

/-- A class that comes later leaves static fields alone. -/
theorem static?_load (h : s.static? c name = some v) (info : Class) :
    (s.load info).2.static? c name = some v := by
  have hlt : c.id < s.statics.size := by
    by_contra hge
    rw [static?, staticsOf, Array.getElem?_eq_none (Nat.le_of_not_lt hge)] at h
    obtain ⟨index, -, hvalue⟩ := Option.bind_eq_some_iff.1 h
    cases hvalue
  rw [← h]
  show c.info.readStatic ((s.statics.push _)[c.id]?.getD []) name = _
  rw [Array.getElem?_push_lt hlt, static?, staticsOf, Array.getElem?_eq_getElem hlt]

/-- The stream is found under its name. -/
theorem static?_load_systemOf (s : Store) (out : Ref) :
    (s.load (.systemOf out)).2.static? (s.load (.systemOf out)).1 standardOutput =
      some (.ref out) := by
  have hfield : (Class.systemOf out).field? standardOutput =
      some ⟨.publicConstant, .object ClassName.printStream, 0⟩ := rfl
  have hstatic : Access.publicConstant.isStatic = true := by decide
  have hindex : (Class.systemOf out).staticIndex? standardOutput = some 0 := by
    rw [Class.staticIndex?, hfield, Option.filter_some, if_pos hstatic, Option.map_some]
  have hvalues : (s.load (.systemOf out)).2.staticsOf (s.load (.systemOf out)).1 = [.ref out] := by
    show (s.statics.push [.ref out])[s.statics.size]?.getD [] = [.ref out]
    rw [Array.getElem?_push_size]
    rfl
  rw [static?, hvalues]
  show ((Class.systemOf out).staticIndex? standardOutput).bind _ = _
  rw [hindex]
  rfl

/-- The class that holds the standard output stream can always be made, and the stream with it. -/
theorem loadSystem_eq (s : Store) (streams : LoadedClass) (sink : Nat) :
    s.loadSystem streams sink =
      .ok ((s.openStream streams sink).2.load (.systemOf (s.openStream streams sink).1)) :=
  rfl

theorem holdsOutput_of_loadSystem (h : s.loadSystem streams sink = .ok (c, s')) :
    s'.HoldsOutput c streams sink := by
  rw [loadSystem_eq] at h
  cases h
  exact ⟨_, _, static?_load_systemOf _ _, s.object_newInstance streams _, rfl, rfl⟩

/-- The class and its stream stay as they are where no state is touched. -/
theorem HoldsOutput.of_evolves (h : s.HoldsOutput system streams sink)
    (hevolves : s.Evolves (fun _ _ ↦ False) (fun _ ↦ False) s')
    (hstatic : ∀ {v}, s.static? system standardOutput = some v →
      s'.static? system standardOutput = some v) :
    s'.HoldsOutput system streams sink := by
  obtain ⟨out, i, hout, hobject, hcls, hstate⟩ := h
  obtain ⟨j, hj, hkeeps⟩ := hevolves.object_eq_inst hobject
  exact ⟨out, j, hstatic hout, hj, hkeeps.cls_eq.trans hcls, hkeeps.state_eq _ hstate id⟩

end Store

/-! ### What a catalog keeps -/

namespace Catalog

/-- The built-in class, if the catalog has made it. -/
def made? (k : Catalog) : Builtin → Option LoadedClass
  | .system => k.system
  | .random => k.random
  | .printStream => k.printStream

/-- The catalog with a built-in class. -/
def keep (k : Catalog) (b : Builtin) (c : LoadedClass) : Catalog :=
  match b with
  | .system => { k with system := some c }
  | .random => { k with random := some c }
  | .printStream => { k with printStream := some c }

theorem options_keep (k : Catalog) (b : Builtin) (c : LoadedClass) :
    (k.keep b c).options = k.options := by
  cases b <;> rfl

theorem made?_keep (k : Catalog) (b b' : Builtin) (c : LoadedClass) :
    (k.keep b c).made? b' = if b' = b then some c else k.made? b' := by
  cases b <;> cases b' <;> rfl

/-- The classes that the catalog has made are named as they should be. -/
def Named (k : Catalog) : Prop :=
  ∀ b c, k.made? b = some c → c.name = b.className

/-- What one catalog has the other one has, too. -/
structure Keeps (k k' : Catalog) : Prop where
  options_eq : k'.options = k.options
  made? : ∀ {b c}, k.made? b = some c → k'.made? b = some c
  named : k.Named → k'.Named

theorem Keeps.refl (k : Catalog) : k.Keeps k :=
  ⟨rfl, id, id⟩

theorem Keeps.trans {k k' k'' : Catalog} (h : k.Keeps k') (h' : k'.Keeps k'') : k.Keeps k'' :=
  ⟨h'.options_eq.trans h.options_eq, fun hmade ↦ h'.made? (h.made? hmade),
    fun hnamed ↦ h'.named (h.named hnamed)⟩

/-- What becomes of a catalog that is asked for classes, and of the store. -/
structure Grows (before after : Catalog × Store) : Prop extends Keeps before.1 after.1 where
  /-- A standard output stream stays as it is. -/
  holdsOutput : ∀ {system streams sink}, before.2.HoldsOutput system streams sink →
    after.2.HoldsOutput system streams sink
  /-- The class that holds the standard output stream is made for the class of streams. -/
  output : ∀ {system}, before.1.system = none → after.1.system = some system →
    ∃ streams, after.1.printStream = some streams ∧
      after.2.HoldsOutput system streams after.1.options.stdout

namespace Grows

variable {before mid after : Catalog × Store}

theorem refl (before : Catalog × Store) : Grows before before where
  toKeeps := .refl before.1
  holdsOutput := id
  output hnone hsome := absurd (hnone.symm.trans hsome) nofun

theorem trans (h : Grows before mid) (h' : Grows mid after) : Grows before after where
  toKeeps := h.toKeeps.trans h'.toKeeps
  holdsOutput hholds := h'.holdsOutput (h.holdsOutput hholds)
  output hnone hsome := by
    rcases hmid : mid.1.system with - | system
    · exact h'.output hmid hsome
    · obtain ⟨streams, hstreams, hholds⟩ := h.output hnone hmid
      obtain rfl := Option.some.inj ((h'.made? (b := .system) hmid).symm.trans hsome)
      refine ⟨streams, h'.made? (b := .printStream) hstreams, ?_⟩
      rw [h'.options_eq]
      exact h'.holdsOutput hholds

/-- A class that is made and kept changes nothing else. -/
theorem of_keep {k : Catalog} {s s' : Store} {b : Builtin} {c : LoadedClass}
    (hnone : k.made? b = none) (hname : c.name = b.className)
    (hevolves : s.Evolves (fun _ _ ↦ False) (fun _ ↦ False) s')
    (hstatic : ∀ {c name v}, s.static? c name = some v → s'.static? c name = some v)
    (houtput : b = .system → ∃ streams, k.printStream = some streams ∧
      s'.HoldsOutput c streams k.options.stdout) :
    Grows (k, s) (k.keep b c, s') where
  options_eq := k.options_keep b c
  made? {b' c'} hmade := by
    have hne : b' ≠ b := by
      rintro rfl
      exact absurd (hnone.symm.trans hmade) nofun
    rwa [made?_keep, if_neg hne]
  named hnamed b' c' hmade := by
    rw [made?_keep] at hmade
    split at hmade
    next heq =>
      cases hmade
      rw [hname, heq]
    · exact hnamed b' c' hmade
  holdsOutput hholds := hholds.of_evolves hevolves hstatic
  output {system} hsystem hsome := by
    have hmade : (k.keep b c).made? .system = some system := hsome
    rw [made?_keep] at hmade
    split at hmade
    next heq =>
      cases hmade
      subst heq
      exact houtput rfl
    · exact absurd (hsystem.symm.trans hmade) nofun

theorem of_makes (h : Makes before after) : Grows before after := by
  have hevolves : before.2.Evolves (fun _ _ ↦ False) (fun _ ↦ False) after.2 :=
    Making.evolves (.single h)
  rcases h with ⟨hnone, hstreams, hload⟩ | ⟨hnone, hload⟩ | ⟨hnone, hload⟩
  · have hholds := Store.holdsOutput_of_loadSystem hload
    rw [Store.loadSystem_eq] at hload
    cases hload
    exact of_keep (b := .system) hnone rfl hevolves (Store.static?_load · _) fun _ ↦
      ⟨_, hstreams, hholds⟩
  · obtain ⟨info, hbuild, hloaded⟩ := Except.exists_of_map_eq_ok hload
    rw [Class.build_randomMembers] at hbuild
    cases hbuild
    cases hloaded
    exact of_keep (b := .random) hnone rfl hevolves (Store.static?_load · _) nofun
  · obtain ⟨info, hbuild, hloaded⟩ := Except.exists_of_map_eq_ok hload
    rw [Class.build_streamMembers] at hbuild
    cases hbuild
    cases hloaded
    exact of_keep (b := .printStream) hnone rfl hevolves (Store.static?_load · _) nofun

theorem of_making (h : Making before after) : Grows before after := by
  induction h with
  | refl => exact refl before
  | tail _ hmakes ih => exact ih.trans (of_makes hmakes)

end Grows

/-! ### What a catalog answers -/

/-- The classes that the catalog has made are these. -/
def Agrees (k : Catalog) (classes : Builtin → LoadedClass) : Prop :=
  ∀ b c, k.made? b = some c → c = classes b

theorem exists_getPrintStream_eq (k : Catalog) (s : Store) :
    ∃ c after, k.getPrintStream s = (.ok c, after) ∧ after.1.made? .printStream = some c := by
  rw [getPrintStream]
  split
  next c hmade => exact ⟨c, (k, s), rfl, hmade⟩
  · rw [Store.loadPrintStream, Class.build_streamMembers]
    exact ⟨_, _, rfl, rfl⟩

theorem exists_getRandom_eq (k : Catalog) (s : Store) :
    ∃ c after, k.getRandom s = (.ok c, after) ∧ after.1.made? .random = some c := by
  rw [getRandom]
  split
  next c hmade => exact ⟨c, (k, s), rfl, hmade⟩
  · rw [Store.loadRandom, Class.build_randomMembers]
    exact ⟨_, _, rfl, rfl⟩

theorem exists_getSystem_eq (k : Catalog) (s : Store) :
    ∃ c after, k.getSystem s = (.ok c, after) ∧ after.1.made? .system = some c := by
  rw [getSystem]
  split
  next c hmade => exact ⟨c, (k, s), rfl, hmade⟩
  · obtain ⟨streams, ⟨k', s'⟩, hstreams, -⟩ := k.exists_getPrintStream_eq s
    simp only [hstreams, Store.loadSystem_eq]
    exact ⟨_, _, rfl, rfl⟩

/-- **No built-in class fails to be made**, and the one that is handed out is kept. -/
theorem exists_get_eq (k : Catalog) (s : Store) (b : Builtin) :
    ∃ c after, k.get s b = (.ok c, after) ∧ after.1.made? b = some c := by
  match b with
  | .system => exact k.exists_getSystem_eq s
  | .random => exact k.exists_getRandom_eq s
  | .printStream => exact k.exists_getPrintStream_eq s

/-- Of several classes that are asked for, each is the one that is kept in the end. -/
theorem exists_getAll_eq (k : Catalog) (s : Store) (bs : List Builtin) :
    ∃ cs after, k.getAll s bs = (.ok cs, after) ∧
      ∀ classes, after.1.Agrees classes → cs = bs.map classes := by
  induction bs generalizing k s with
  | nil => exact ⟨[], (k, s), rfl, fun _ _ ↦ rfl⟩
  | cons b bs ih =>
    obtain ⟨c, ⟨k', s'⟩, hget, hmade⟩ := k.exists_get_eq s b
    obtain ⟨cs, after, hall, hcs⟩ := ih k' s'
    have hgrows : Grows (k', s') (k'.getAll s' bs).2 := .of_making (k'.making_getAll s' bs)
    rw [hall] at hgrows
    refine ⟨c :: cs, after, ?_, fun classes hagrees ↦ ?_⟩
    · simp only [getAll, hget, hall]
      rfl
    · rw [List.map_cons, hcs classes hagrees, hagrees b c (hgrows.made? hmade)]

theorem exists_classes_eq (k : Catalog) (s : Store) :
    ∃ cs after, k.classes s = (.ok cs, after) ∧
      ∀ classes, after.1.Agrees classes → cs = Builtin.all.map classes :=
  k.exists_getAll_eq s Builtin.all

theorem exists_publish_eq (k : Catalog) (s : Store) (r : Registry) :
    ∃ cs after, k.publish s r = ((r.addAll cs).1, (r.addAll cs).2, after) ∧
      ∀ classes, after.1.Agrees classes → cs = Builtin.all.map classes := by
  obtain ⟨cs, ⟨k', s'⟩, hclasses, hcs⟩ := k.exists_classes_eq s
  refine ⟨cs, (k', s'), ?_, hcs⟩
  simp only [publish, hclasses]

end Catalog

/-! ### What a registry takes in -/

/-- What becomes of a registry that is asked to take in the built-in classes, and the answer. -/
structure Registry.TakesIn (r : Registry) (classes : Builtin → LoadedClass) (reply : Reply)
    (r' : Registry) : Prop where
  /-- They are taken in exactly if none of their names is given. -/
  done_iff : reply = .done ↔ ∀ b : Builtin, b.className ∉ r.names
  /-- Then they come last, in their order, and the name of the class of streams leads to it. -/
  of_done : reply = .done → r'.classes = r.classes ++ Builtin.all.map classes ∧
    r'.byNumber? r.size = some (classes .system) ∧
    r'.byNumber? (r.size + 1) = some (classes .random) ∧
    r'.byNumber? (r.size + 2) = some (classes .printStream) ∧
    r'.byName? ClassName.printStream = some (classes .printStream)
  /-- Otherwise those before the first one whose name is given come last, and this name is the
  answer. -/
  of_ne_done : reply ≠ .done → ∃ before b after, Builtin.all = before ++ b :: after ∧
    (∀ b' ∈ before, b'.className ∉ r.names) ∧ b.className ∈ r.names ∧
    reply = .clash (.classes b.className) ∧ r'.classes = r.classes ++ before.map classes
  /-- Whatever was registered stays as it was. -/
  extends_registry : r.Extends r'

section Registration

variable {r : Registry} {classes : Builtin → LoadedClass}
  (hname : ∀ b, (classes b).name = b.className)
include hname

/-- No name is taken: all classes are registered. -/
theorem Registry.takesIn_of_free (hfree : ∀ b : Builtin, b.className ∉ r.names) :
    r.TakesIn classes .done ⟨r.classes ++ Builtin.all.map classes⟩ where
  done_iff := iff_of_true rfl hfree
  of_done _ := by
    have hnumber : ∀ n, byNumber? ⟨r.classes ++ Builtin.all.map classes⟩ (r.size + n) =
        (Builtin.all.map classes)[n]? := by
      intro n
      rw [byNumber?, size, List.getElem?_append_right (Nat.le_add_right _ _),
        Nat.add_sub_cancel_left]
    refine ⟨rfl, hnumber 0, hnumber 1, hnumber 2, byName?_eq_some_iff.2
      ⟨r.classes ++ [classes .system, classes .random], [], ?_, hname .printStream, ?_⟩⟩
    · rw [List.append_assoc]
      rfl
    · intro c hc heq
      rcases List.mem_append.1 hc with hmem | hmem
      · exact hfree .printStream (List.mem_map.2 ⟨c, hmem, heq⟩)
      · rcases List.mem_pair.1 hmem with rfl | rfl
        · exact absurd ((hname .system).symm.trans heq) (by decide)
        · exact absurd ((hname .random).symm.trans heq) (by decide)
  of_ne_done hne := absurd rfl hne
  extends_registry := extends_of_prefix (List.prefix_append _ _)

/-- A name is taken: the classes before it are registered. -/
theorem Registry.takesIn_of_taken {before after : List Builtin} {b : Builtin}
    (hall : Builtin.all = before ++ b :: after) (hfree : ∀ b' ∈ before, b'.className ∉ r.names)
    (htaken : b.className ∈ r.names) :
    r.TakesIn classes (.clash (.classes (classes b).name)) ⟨r.classes ++ before.map classes⟩ where
  done_iff := iff_of_false nofun fun hall ↦ hall b htaken
  of_done := nofun
  of_ne_done _ := ⟨before, b, after, hall, hfree, htaken, by rw [hname], rfl⟩
  extends_registry := extends_of_prefix (List.prefix_append _ _)

/-- **The built-in classes before the first one whose name is taken are registered.** -/
theorem Registry.takesIn_addAll :
    r.TakesIn classes (.ofRegistration (r.addAll (Builtin.all.map classes)).1)
      (r.addAll (Builtin.all.map classes)).2 := by
  rcases r.addAll_eq (Builtin.all.map classes) with
    ⟨⟨-, hfree⟩, hadded⟩ | ⟨before, c, after, hsplit, ⟨-, hfree⟩, htaken, hadded⟩
  · rw [hadded]
    refine takesIn_of_free hname fun b ↦ ?_
    rw [← hname b]
    exact hfree _ (List.mem_map_of_mem b.mem_all)
  · obtain ⟨bs, rest, hall, rfl, hrest⟩ := List.map_eq_append_iff.1 hsplit
    obtain ⟨b, bs', rfl, rfl, rfl⟩ := List.map_eq_cons_iff.1 hrest
    rw [hadded]
    refine takesIn_of_taken hname hall (fun b' hb' ↦ ?_) ?_
    · rw [← hname b']
      exact hfree _ (List.mem_map_of_mem hb')
    · rw [← hname b]
      refine htaken.resolve_right fun hmem ↦ ?_
      -- the names of the built-in classes are distinct
      have hnodup := Builtin.nodup_className
      rw [hall, List.map_append] at hnodup
      obtain ⟨c', hc', heq⟩ := List.mem_map.1 hmem
      obtain ⟨b', hb', rfl⟩ := List.mem_map.1 hc'
      rw [hname, hname] at heq
      exact (List.disjoint_of_nodup_append hnodup) (List.mem_map_of_mem hb')
        (heq ▸ List.mem_cons_self)

end Registration

/-! ### One catalog, many uses -/

/-- The machine with another catalog. -/
def Machine.withCatalog (m : Machine) (k : Catalog) : Machine :=
  { m with catalog := k }

namespace Catalog

/-- The catalog after commands, each carried out on a machine of its own: what else the machines
hold, and what has been done with them before, may be anything. -/
def after (k : Catalog) (uses : List (Machine × Command)) : Catalog :=
  uses.foldl (fun k use ↦ ((use.1.withCatalog k).step use.2).1.catalog) k

/-- What a command has to do with the built-in classes, where the classes are these. -/
structure HandsOut (options : Options) (classes : Builtin → LoadedClass) (m : Machine)
    (cmd : Command) : Prop where
  /-- A class that is asked for is handed out. -/
  builtin : ∀ b, cmd = .builtin b → (m.step cmd).2 = .loaded (classes b)
  /-- So are all of them. -/
  builtins : cmd = .builtins → (m.step cmd).2 = .loadedAll (Builtin.all.map classes)
  /-- They are what a registry takes in. -/
  registerBuiltins : cmd = .registerBuiltins →
    m.registry.TakesIn classes (m.step cmd).2 (m.step cmd).1.registry
  /-- The class that holds the standard output stream, where it is made, holds a stream of the class
  of streams that writes to the sink of the options. -/
  output : ∀ system, m.catalog.system = none → (m.step cmd).1.catalog.system = some system →
    system = classes .system ∧
      (m.step cmd).1.store.HoldsOutput system (classes .printStream) options.stdout

theorem keeps_step (m : Machine) (cmd : Command) : m.catalog.Keeps (m.step cmd).1.catalog := by
  by_cases hasks : cmd.AsksCatalog
  · exact (Grows.of_making (m.making_step_of_asks hasks)).toKeeps
  · rw [m.catalog_step_of_not_asks hasks]
    exact .refl m.catalog

theorem keeps_after (k : Catalog) (uses : List (Machine × Command)) : k.Keeps (k.after uses) := by
  induction uses generalizing k with
  | nil => exact .refl k
  | cons use uses ih =>
    exact (keeps_step (use.1.withCatalog k) use.2).trans (ih _)

theorem named_new (options : Options) : (new options).Named := by
  intro b c hmade
  cases b <;> cases hmade

/-- A command hands out the classes that the catalog has after it. -/
theorem handsOut_of_agrees {options : Options} {classes : Builtin → LoadedClass} {m : Machine}
    {cmd : Command} (hname : ∀ b, (classes b).name = b.className)
    (hoptions : m.catalog.options = options) (hagrees : (m.step cmd).1.catalog.Agrees classes) :
    HandsOut options classes m cmd where
  builtin b hcmd := by
    subst hcmd
    obtain ⟨c, after, hget, hmade⟩ := m.catalog.exists_get_eq m.store b
    have hafter : (m.step (.builtin b)).1.catalog = after.1 :=
      congrArg (fun answer ↦ answer.2.1) hget
    rw [hafter] at hagrees
    show Reply.ofClass (m.catalog.get m.store b).1 = _
    rw [hget, ← hagrees b c hmade]
    rfl
  builtins hcmd := by
    subst hcmd
    obtain ⟨cs, after, hclasses, hcs⟩ := m.catalog.exists_classes_eq m.store
    have hstep : m.step .builtins =
        ({ m with catalog := after.1, store := after.2 }, .loadedAll cs) := by
      simp only [Machine.step, Machine.askCatalog, hclasses]
    rw [hstep] at hagrees ⊢
    rw [hcs classes hagrees]
  registerBuiltins hcmd := by
    subst hcmd
    obtain ⟨cs, after, hpublish, hcs⟩ := m.catalog.exists_publish_eq m.store m.registry
    have hstep : m.step .registerBuiltins =
        ({ m with registry := (m.registry.addAll cs).2, catalog := after.1, store := after.2 },
          .ofRegistration (m.registry.addAll cs).1) := by
      simp only [Machine.step, hpublish]
    rw [hstep] at hagrees ⊢
    rw [hcs classes hagrees]
    exact Registry.takesIn_addAll hname
  output system hnone hsome := by
    by_cases hasks : cmd.AsksCatalog
    · have hgrows := Grows.of_making (m.making_step_of_asks hasks)
      obtain ⟨streams, hstreams, hholds⟩ := hgrows.output hnone hsome
      rw [← hagrees .printStream streams hstreams, ← hoptions, ← hgrows.options_eq]
      exact ⟨hagrees .system system hsome, hholds⟩
    · rw [m.catalog_step_of_not_asks hasks] at hsome
      cases hnone.symm.trans hsome

/-- The class that the catalog has made; one that was not made may be any of the name. -/
def handed (k : Catalog) (b : Builtin) : LoadedClass :=
  (k.made? b).getD ⟨0, .empty b.className⟩

theorem agrees_handed (k : Catalog) : k.Agrees k.handed := by
  intro b c hmade
  rw [handed, hmade, Option.getD_some]

theorem name_handed {k : Catalog} (h : k.Named) (b : Builtin) :
    (k.handed b).name = b.className := by
  rw [handed]
  rcases hmade : k.made? b with - | c
  · rfl
  · exact h b c hmade

/-- **A catalog hands out one set of classes.** Let a catalog be used by commands on any machines,
whatever it is asked first, and whatever the machines have registered and done before. Then there is
one class of each name that every such command gets when it asks for it, and that a registry takes
in. The standard output stream belongs to the class of streams of this set. -/
theorem handsOutOneSet (options : Options) (uses : List (Machine × Command)) :
    ∃ classes : Builtin → LoadedClass, (∀ b, (classes b).name = b.className) ∧
      ∀ earlier m cmd, earlier ++ [(m, cmd)] <+: uses →
        HandsOut options classes (m.withCatalog ((new options).after earlier)) cmd := by
  have hname := name_handed ((keeps_after (new options) uses).named (named_new options))
  refine ⟨((new options).after uses).handed, hname, fun earlier m cmd hprefix ↦ ?_⟩
  obtain ⟨later, rfl⟩ := hprefix
  refine handsOut_of_agrees hname (keeps_after (new options) earlier).options_eq fun b c hmade ↦ ?_
  -- what the catalog has after the command it still has in the end
  have hkeeps :=
    keeps_after (((m.withCatalog ((new options).after earlier)).step cmd).1.catalog) later
  have hafter : (new options).after (earlier ++ [(m, cmd)] ++ later) =
      (((m.withCatalog ((new options).after earlier)).step cmd).1.catalog).after later := by
    rw [after, List.foldl_append, List.foldl_append]
    rfl
  exact agrees_handed _ b c (hafter ▸ hkeeps.made? hmade)

/-- The class of the standard output stream is asked for first, on one machine, and then a registry
of another machine is to take in all classes, which has given away the name of the second one. -/
theorem handsOutOneSet_systemFirst :
    ∃ (classes : Builtin → LoadedClass) (m m' : Machine),
      HandsOut ⟨0, none⟩ classes m (.builtin .system) ∧
      HandsOut ⟨0, none⟩ classes m' .registerBuiltins ∧
      (m'.step .registerBuiltins).2 = .clash (.classes ClassName.random) ∧
      (m'.step .registerBuiltins).1.registry.byName? ClassName.system = some (classes .system) := by
  let first : Machine := .new .capture none 4
  let second : Machine := { first with registry := ⟨[⟨5, .empty ClassName.random⟩]⟩ }
  obtain ⟨classes, hname, hall⟩ :=
    handsOutOneSet ⟨0, none⟩ [(first, .builtin .system), (second, .registerBuiltins)]
  have hfirst := hall [] first (.builtin .system) (List.prefix_append _ _)
  have hsecond := hall [(first, .builtin .system)] second .registerBuiltins List.prefix_rfl
  exact ⟨classes, _, _, hfirst, hsecond, rfl,
    congrArg some (Reply.loaded.inj (hfirst.builtin .system rfl))⟩

end Catalog

end HostMethods
