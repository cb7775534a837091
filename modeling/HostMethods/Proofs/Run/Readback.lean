import HostMethods.Proofs.Run.Output

/-!
# What is read back from a sink

The bytes that a sink keeps are read as text with a replacement for every sequence that is no UTF-8.
If nobody but methods of streams writes to the sink, none is ever needed. Each of these methods
writes the bytes of a whole text, and bytes of texts stay bytes of a text however many of them come
one after the other.

At any point of a run a sink holds the texts that were printed to it since somebody took its bytes
(`Machine.unread`). Every step keeps this up (`Store.HoldsTexts.step`): a text that is printed joins
them, and whoever takes the bytes takes all of them. What the sink reads as, and what is taken from
it, follows from this.
-/

namespace HostMethods

/-! ### Texts that nobody has taken -/

namespace Machine

/-- The texts that are printed to a sink by commands that are carried out one after the other, and
that none of the commands takes. Those that were there earlier stay until the first of these
commands takes them. -/
def unread (m : Machine) (n : Nat) (earlier : List String) : List Command → List String
  | [] => earlier
  | cmd :: cmds =>
    (m.step cmd).1.unread n
      (if cmd.empties n then [] else earlier ++ (m.printed? n cmd).toList) cmds

/-- Of the commands, carried out one after the other, those that write to a sink are calls of
methods of streams. -/
def OnlyPrints (m : Machine) (n : Nat) : List Command → Prop
  | [] => True
  | cmd :: cmds =>
    (∀ bytes, m.asked? n cmd = some (.write bytes) → (m.streamCall? cmd).isSome) ∧
      (m.step cmd).1.OnlyPrints n cmds

variable {m : Machine} {n : Nat} {cmds : List Command}

/-- As long as nobody takes anything, all texts are there. -/
theorem unread_eq_append_printed (m : Machine) (earlier : List String)
    (h : ∀ cmd ∈ cmds, cmd.empties n = false) :
    m.unread n earlier cmds = earlier ++ m.printed n cmds := by
  induction cmds generalizing m earlier with
  | nil => exact (List.append_nil earlier).symm
  | cons cmd cmds ih =>
    obtain ⟨hcmd, hcmds⟩ := List.forall_mem_cons.1 h
    rw [unread, ih _ _ hcmds, hcmd, if_neg Bool.false_ne_true, printed, List.append_assoc]

/-- After somebody has taken the texts, they are gathered anew. -/
theorem unread_append_takeSink (m : Machine) (n : Nat) (earlier : List String)
    (before after : List Command) :
    m.unread n earlier (before ++ .takeSink n :: after) =
      (m.run (before ++ [.takeSink n])).1.unread n [] after := by
  induction before generalizing m earlier with
  | nil =>
    have hempties : (Command.takeSink n).empties n = true := decide_eq_true rfl
    rw [List.nil_append, unread, hempties, if_pos rfl]
    rfl
  | cons cmd before ih => exact ih (m.step cmd).1 _

theorem OnlyPrints.of_append {before after : List Command} (h : m.OnlyPrints n (before ++ after)) :
    m.OnlyPrints n before := by
  induction before generalizing m with
  | nil => trivial
  | cons cmd before ih => exact ⟨h.1, ih h.2⟩

/-- Commands that leave it to methods of streams to write to the sink. -/
theorem onlyPrints_of_spares (m : Machine) (h : ∀ cmd ∈ cmds, cmd.Spares n) :
    m.OnlyPrints n cmds := by
  induction cmds generalizing m with
  | nil => trivial
  | cons cmd cmds ih =>
    obtain ⟨hcmd, hcmds⟩ := List.forall_mem_cons.1 h
    exact ⟨fun _ hasked ↦ isSome_streamCall?_of_asked? hcmd hasked, ih _ hcmds⟩

end Machine

/-! ### Sinks that hold texts -/

/-- The sink never fails, and what it keeps are the bytes of these texts. -/
structure Store.HoldsTexts (s : Store) (n : Nat) (texts : List String) (k : Sink) : Prop where
  /-- It is this sink. -/
  sink_eq : s.sinks[n]? = some k
  /-- It never fails. -/
  failure_eq : ∀ earlier call, k.failure earlier call = none
  /-- It keeps the texts, one after the other. -/
  kept_eq : k.kept = (String.join texts).toUTF8

namespace Store.HoldsTexts

variable {s : Store} {m : Machine} {n : Nat} {k : Sink} {texts : List String} {cmd : Command}
  {cmds : List Command}

/-- The bytes of texts are UTF-8. -/
theorem isValidUTF8 (h : s.HoldsTexts n texts k) : k.kept.IsValidUTF8 := by
  rw [h.kept_eq]
  exact Text.isValidUTF8_toUTF8 _

/-- They are read as these texts. -/
theorem text_eq (h : s.HoldsTexts n texts k) : k.text = String.join texts := by
  rw [Sink.text, h.kept_eq, Text.ofUtf8_toUTF8]

/-- **A step that only prints leaves a sink with the texts that nobody has taken.** -/
theorem step (h : m.store.HoldsTexts n texts k)
    (hprints : ∀ bytes, m.asked? n cmd = some (.write bytes) → (m.streamCall? cmd).isSome) :
    (m.step cmd).1.store.HoldsTexts n
      (if cmd.empties n then [] else texts ++ (m.printed? n cmd).toList)
      (if cmd.empties n then k.take.2 else k.after (m.asked? n cmd)) where
  sink_eq := Machine.getElem?_sinks_step h.sink_eq
  failure_eq earlier call := by
    rw [Machine.failure_step]
    exact h.failure_eq earlier call
  kept_eq := by
    split
    · rfl
    · rw [Machine.kept_after h.failure_eq hprints, h.kept_eq, String.join_append,
        Text.toUTF8_append]

/-- **So does a run.** -/
theorem run (h : m.store.HoldsTexts n texts k) (hprints : m.OnlyPrints n cmds) :
    ∃ k', (m.run cmds).1.store.HoldsTexts n (m.unread n texts cmds) k' := by
  induction cmds generalizing m texts k with
  | nil => exact ⟨k, h⟩
  | cons cmd cmds ih => exact ih (h.step hprints.1) hprints.2

end Store.HoldsTexts

/-! ### Reading back -/

namespace Machine

/-- What can be read back from a sink in the course of a run. -/
structure ReadsBack (m : Machine) (n : Nat) (cmds : List Command) : Prop where
  /-- At any point of the run, the bytes that the sink keeps are UTF-8, and they are read as the
  texts that nobody has taken, with nothing replaced. -/
  kept : ∀ before, before <+: cmds → ∃ k, (m.run before).1.store.sinks[n]? = some k ∧
    k.kept.IsValidUTF8 ∧ k.text = String.join (m.unread n [] before) ∧ k.text.toUTF8 = k.kept
  /-- Whenever somebody takes the bytes of the sink, the same can be said of these bytes. -/
  taken : ∀ before, before ++ [.takeSink n] <+: cmds → ∃ bytes,
    ((m.run before).1.step (.takeSink n)).2 = .bytes bytes ∧ bytes.IsValidUTF8 ∧
    Text.ofUtf8 bytes = String.join (m.unread n [] before) ∧ (Text.ofUtf8 bytes).toUTF8 = bytes

variable {m : Machine} {n : Nat} {k : Sink} {cmds : List Command}

theorem readsBack (h : m.store.HoldsTexts n [] k) (hprints : m.OnlyPrints n cmds) :
    m.ReadsBack n cmds where
  kept before hbefore := by
    obtain ⟨after, rfl⟩ := hbefore
    obtain ⟨k', hk'⟩ := h.run hprints.of_append
    exact ⟨k', hk'.sink_eq, hk'.isValidUTF8, hk'.text_eq, Text.toUTF8_ofUtf8 hk'.isValidUTF8⟩
  taken before hbefore := by
    obtain ⟨after, rfl⟩ := hbefore
    obtain ⟨k', hk'⟩ := h.run hprints.of_append.of_append
    exact ⟨k'.kept, step_takeSink hk'.sink_eq, hk'.isValidUTF8, hk'.text_eq,
      Text.toUTF8_ofUtf8 hk'.isValidUTF8⟩

/-- **What is read back from a sink is what was printed.** Let a sink never fail and keep nothing
yet, and let no command of a run write to it but by calls of methods of streams. At any point of the
run its bytes are UTF-8. As text they are the texts that were printed to it since somebody took its
bytes, one after the other, and the text has these bytes again, so nothing was replaced. The same
holds of all bytes that somebody takes.

Commands that leave the writing to methods of streams make such a run. The texts meant are all that
were printed, as long as nobody takes any, and those that were printed afterwards, if somebody
does. -/
theorem readBack_exact :
    (∀ (m : Machine) (n : Nat) (k : Sink) (cmds : List Command), m.store.sinks[n]? = some k →
      (∀ earlier call, k.failure earlier call = none) → k.kept = ByteArray.empty →
      m.OnlyPrints n cmds → m.ReadsBack n cmds) ∧
    (∀ (m : Machine) (n : Nat) (cmds : List Command), (∀ cmd ∈ cmds, cmd.Spares n) →
      m.OnlyPrints n cmds) ∧
    (∀ (m : Machine) (n : Nat) (cmds : List Command), (∀ cmd ∈ cmds, cmd.empties n = false) →
      m.unread n [] cmds = m.printed n cmds) ∧
    ∀ (m : Machine) (n : Nat) (before after : List Command),
      m.unread n [] (before ++ .takeSink n :: after) =
        (m.run (before ++ [.takeSink n])).1.unread n [] after :=
  ⟨fun _ _ _ _ hsink hfailure hkept hprints ↦ readsBack ⟨hsink, hfailure, hkept⟩ hprints,
    fun m _ _ hspares ↦ m.onlyPrints_of_spares hspares,
    fun m _ _ hnone ↦ m.unread_eq_append_printed [] hnone,
    fun m n before after ↦ m.unread_append_takeSink n [] before after⟩

/-- One half of a pair of surrogates is printed on its own and taken. Then a text is printed that
has such a pair in it, and the other half on its own. -/
def brokenPair : List Command :=
  [.openStream streamClass 0, .newText "ü😀"] ++
    callStreamMethod .printChar [.ref ⟨0⟩, .int 0xD83D] ++ [.takeSink 0] ++
    callStreamMethod .printString [.ref ⟨0⟩, .ref ⟨1⟩] ++
    callStreamMethod .printChar [.ref ⟨0⟩, .int 0xDE00]

/-- The halves were printed as replacement characters, and none was put in for anything else. -/
theorem readBack_exact_brokenPair :
    (new .capture none 8).OnlyPrints 0 brokenPair ∧
    ∃ k, ((new .capture none 8).run brokenPair).1.store.sinks[0]? = some k ∧
      k.text = "ü😀\uFFFD" ∧ k.text.toUTF8 = k.kept := by
  obtain ⟨hreads, hspares, -⟩ := readBack_exact
  have hprints : (new .capture none 8).OnlyPrints 0 brokenPair :=
    hspares _ 0 brokenPair (by simp [brokenPair, callStreamMethod, Command.Spares])
  have hunread : (new .capture none 8).unread 0 [] brokenPair = ["ü😀", "\uFFFD"] := by
    decide +kernel
  obtain ⟨k, hk, -, htext, hbytes⟩ :=
    (hreads _ 0 .capture brokenPair rfl (fun _ _ ↦ rfl) rfl hprints).kept brokenPair
      (List.prefix_refl _)
  rw [hunread] at htext
  exact ⟨hprints, k, hk, htext, hbytes⟩

end Machine

end HostMethods
