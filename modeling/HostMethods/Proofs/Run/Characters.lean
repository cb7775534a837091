import HostMethods.Proofs.Run.Printing
import HostMethods.Proofs.Text.Decoding
import HostMethods.Proofs.Text.Units

/-!
# Printing a text unit by unit

A caller that has no string at hand can still print a text, one code unit after the other, each as a
character of its own (`Machine.unitCommands`). What the sink gets is the text with two replacement
characters for every character above U+FFFF, since neither half of such a character is one. So this
way of printing gives the same bytes as printing the string exactly if there is no such character
(`Machine.printed_unitwise`).
-/

namespace HostMethods

namespace Machine

/-- What a caller does to print a text unit by unit: there is one call for every code unit. -/
def unitCommands (how : StreamMethod → Command) (r : Ref) (units : List UInt16) : List Command :=
  units.flatMap fun u ↦ callCommands how r .printChar [.int (ArgKind.slotOfUnit u)]

section Units

variable {m : Machine} {how : StreamMethod → Command} {r q : Ref} {n : Nat} {k : Sink}
  {text : String}

theorem exchangeSink_self (h : m.store.sinks[n]? = some k) : m.exchangeSink n k = m := by
  obtain ⟨hlt, rfl⟩ := Array.getElem?_eq_some_iff.1 h
  rw [exchangeSink, withSinks, Array.setIfInBounds, dif_pos hlt, Array.set_getElem_self]

theorem appends_nil (h : m.store.sinks[n]? = some k) : m.Appends n k [] ByteArray.empty k where
  run_eq := by
    rw [exchangeSink_self h]
    rfl
  failure_eq := rfl
  kept_eq := ByteArray.append_empty.symm

/-- **A slot that is printed as a character appends the one that it stands for.** -/
theorem CanPrintTo.appends_slot (h : m.CanPrintTo how r n k) (i : Int32) :
    m.Appends n k (callCommands how r .printChar [.int i])
      (String.singleton (ArgKind.charOfSlot i)).toUTF8
      (k.perform (.write (String.singleton (ArgKind.charOfSlot i)).toUTF8)).2 := by
  have hread : (Args.cons (ArgKind.charOfSlot i) .nil :
      Args StreamMethod.printChar.arguments).ReadFrom [.int i] := ⟨_, _, rfl, rfl, rfl⟩
  exact h.appends hread rfl

/-- **Code units append what each of them stands for by itself.** -/
theorem CanPrintTo.exists_appends_units (h : m.CanPrintTo how r n k) (units : List UInt16) :
    ∃ k', m.Appends n k (unitCommands how r units)
      (String.ofList (units.map Text.charOfUnit)).toUTF8 k' := by
  induction units generalizing m k with
  | nil => exact ⟨k, appends_nil h.sink_eq⟩
  | cons u units ih =>
    have hfirst := h.appends_slot (ArgKind.slotOfUnit u)
    rw [ArgKind.charOfSlot_slotOfUnit] at hfirst
    obtain ⟨k', hrest⟩ := ih (h.exchangeSink hfirst.failure_eq)
    have hbytes : (String.singleton (Text.charOfUnit u)).toUTF8 ++
        (String.ofList (units.map Text.charOfUnit)).toUTF8 =
        (String.ofList ((u :: units).map Text.charOfUnit)).toUTF8 := by
      rw [List.map_cons, String.ofList_cons, Text.toUTF8_append]
    exact ⟨k', hbytes ▸ hfirst.append hrest⟩

/-- **A text that is printed unit by unit** appends the text with replacement characters for all
characters above U+FFFF. -/
theorem CanPrintTo.exists_appends_unitwise (h : m.CanPrintTo how r n k) (text : String) :
    ∃ k', m.Appends n k (unitCommands how r (Text.units text)) (Text.unitwise text).toUTF8 k' := by
  obtain ⟨k', hk'⟩ := h.exists_appends_units (Text.units text)
  rw [Text.map_charOfUnit_units, String.ofList_toList] at hk'
  exact ⟨k', hk'⟩

/-- A string that is printed appends its text. -/
theorem CanPrintTo.appends_string (h : m.CanPrintTo how r n k)
    (hobject : m.store.object q = .text text) :
    m.Appends n k (callCommands how r .printString [.ref q]) text.toUTF8
      (k.perform (.write text.toUTF8)).2 := by
  have hread : (Args.cons (some q) .nil :
      Args StreamMethod.printString.arguments).ReadFrom [.ref q] := ⟨_, _, rfl, rfl, rfl⟩
  refine h.appends hread ?_
  show (m.store.stringAt q).map _ = _
  rw [Store.stringAt, hobject]
  rfl

/-- What was appended can be told by what the sink keeps. -/
theorem Appends.kept_inj {k₁ k₂ : Sink} {cmds₁ cmds₂ : List Command} {bytes₁ bytes₂ : ByteArray}
    (h₁ : m.Appends n k cmds₁ bytes₁ k₁) (h₂ : m.Appends n k cmds₂ bytes₂ k₂) :
    k₁.kept = k₂.kept ↔ bytes₁ = bytes₂ := by
  rw [h₁.kept_eq, h₂.kept_eq, ByteArray.append_right_inj]

end Units

/-- **Printing a text unit by unit or as a string.** Let a machine print to a sink that never fails.
A text that is printed unit by unit, each code unit as a character, appends the bytes of the text in
which two replacement characters stand for every character above U+FFFF. A string that is printed
appends the bytes of its text. So the sink is left with the same bytes exactly if there is no such
character.

Of a slot that is printed as a character, only the low half counts. It appends one to three bytes,
which are UTF-8. In all this nothing else changes on the machine. -/
theorem printed_unitwise {m : Machine} {how : StreamMethod → Command} {r : Ref} {n : Nat} {k : Sink}
    (h : m.CanPrintTo how r n k) :
    (∀ text : String, ∃ k',
      m.Appends n k (unitCommands how r (Text.units text)) (Text.unitwise text).toUTF8 k') ∧
    (∀ (text : String) (q : Ref), m.store.object q = .text text → ∃ k₁ k₂,
      m.Appends n k (unitCommands how r (Text.units text)) (Text.unitwise text).toUTF8 k₁ ∧
      m.Appends n k (callCommands how r .printString [.ref q]) text.toUTF8 k₂ ∧
      (k₁.kept = k₂.kept ↔ ∀ c ∈ text.toList, c.toNat ≤ 0xFFFF)) ∧
    ∀ i : Int32, ∃ bytes k', m.Appends n k (callCommands how r .printChar [.int i]) bytes k' ∧
      m.Appends n k (callCommands how r .printChar [.int (.ofInt (i.toInt % 65536))]) bytes k' ∧
      1 ≤ bytes.size ∧ bytes.size ≤ 3 ∧ bytes.IsValidUTF8 := by
  refine ⟨h.exists_appends_unitwise, fun text q hobject ↦ ?_, fun i ↦ ?_⟩
  · obtain ⟨k₁, h₁⟩ := h.exists_appends_unitwise text
    have h₂ := h.appends_string hobject
    refine ⟨k₁, _, h₁, h₂, ?_⟩
    rw [h₁.kept_inj h₂, Text.toUTF8_inj, Text.unitwise_eq_self_iff]
  · have hlow := h.appends_slot (.ofInt (i.toInt % 65536))
    rw [ArgKind.charOfSlot_lowHalf] at hlow
    have hsize : (String.singleton (ArgKind.charOfSlot i)).toUTF8.size =
        (ArgKind.charOfSlot i).utf8Size := by
      rw [String.toUTF8_eq_toByteArray, String.size_toByteArray, String.utf8ByteSize_singleton]
    refine ⟨_, _, h.appends_slot i, hlow, ?_, ?_, ?_⟩
    · rw [hsize]
      exact Char.utf8Size_pos _
    · rw [hsize]
      exact Text.utf8Size_le_three (Text.toNat_charOfUnit_le _)
    · exact Text.isValidUTF8_toUTF8 _

/-- A machine with a stream and a string, the last character of which is above U+FFFF. -/
def emojiPrinter : Machine :=
  ((new .capture none 2).run [.openStream streamClass 0, .newText "a😀"]).1

/-- Printed unit by unit, the string ends with two replacement characters. -/
theorem printed_unitwise_emojiPrinter :
    emojiPrinter.CanPrintTo callMethod ⟨0⟩ 0 .capture ∧ ∃ k₁ k₂,
      emojiPrinter.Appends 0 .capture (unitCommands callMethod ⟨0⟩ (Text.units "a😀"))
        "a\uFFFD\uFFFD".toUTF8 k₁ ∧
      emojiPrinter.Appends 0 .capture (callCommands callMethod ⟨0⟩ .printString [.ref ⟨1⟩])
        "a😀".toUTF8 k₂ ∧
      k₁.kept ≠ k₂.kept := by
  have h : emojiPrinter.CanPrintTo callMethod ⟨0⟩ 0 .capture :=
    ⟨fun method ↦ by cases method <;> rfl, ⟨_, .to 0, rfl, rfl⟩, rfl, fun _ _ ↦ rfl, Nat.le_refl 2⟩
  have hunitwise : Text.unitwise "a😀" = "a\uFFFD\uFFFD" := by decide
  obtain ⟨-, hstring, -⟩ := printed_unitwise h
  obtain ⟨k₁, k₂, h₁, h₂, hsame⟩ := hstring "a😀" ⟨1⟩ rfl
  rw [hunitwise] at h₁
  refine ⟨h, k₁, k₂, h₁, h₂, ?_⟩
  rw [Ne, hsame]
  exact fun hall ↦ absurd (hall '😀' (by decide)) (by decide)

end Machine

end HostMethods
