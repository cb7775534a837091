import HostMethods.Descriptor.Selector
import HostMethods.Proofs.Descriptor.Grammar
import Mathlib.Data.List.Basic

/-!
# Different signatures have different texts

A class under construction may carry types that no text denotes, such as an array of `void` or an
object type without a name, and so no reader can be used to tell their texts apart. It can be done
by the texts alone, as long as no object name holds the semicolon that would end it: then the text
of a type is never the beginning of another type's text (`GuestType.chars_append_inj`), and neither
the parameters of a signature nor the signature itself can be split in two ways
(`Signature.text_inj`).

The condition is needed: as a parameter, an object type named `a;Lb` has the text of two.
-/

namespace HostMethods

namespace GuestType

/-- No object name in the type holds a semicolon. -/
def SemicolonFree : GuestType → Prop
  | object name => ';' ∉ name.toList
  | array element => element.SemicolonFree
  | _ => True

/-- The types that a text can denote are among them. -/
theorem WellFormed.semicolonFree {t : GuestType} (h : t.WellFormed) : t.SemicolonFree := by
  induction t with
  | object name => exact h.2
  | array element ih => exact ih h
  | _ => trivial

/-- A name ends at the first semicolon. -/
theorem takeWhile_name {name : List Char} (h : ';' ∉ name) (rest : List Char) :
    (name ++ ';' :: rest).takeWhile (· ≠ ';') = name := by
  rw [List.takeWhile_append_of_pos (Descriptor.decide_ne_semicolon_of_not_mem h),
    List.takeWhile_cons_of_neg (by decide), List.append_nil]

/-- **No type's text goes on inside another's**: what follows two equal texts is equal, and so are
the types. -/
theorem chars_append_inj {t u : GuestType} (ht : t.SemicolonFree) (hu : u.SemicolonFree)
    {x y : List Char} (h : t.chars ++ x = u.chars ++ y) : t = u ∧ x = y := by
  induction t generalizing u with
  | object name =>
    cases u with
    | object name' =>
      simp only [chars, List.cons_append, List.append_assoc, List.cons.injEq, true_and,
        List.nil_append] at h
      have hname := congrArg (List.takeWhile (· ≠ ';')) h
      rw [takeWhile_name ht, takeWhile_name hu] at hname
      rw [hname, List.append_cancel_left_eq, List.cons.injEq] at h
      exact ⟨congrArg object (String.toList_inj.1 hname), h.2⟩
    | _ => simp [chars] at h
  | array element ih =>
    cases u with
    | array element' =>
      obtain ⟨rfl, hrest⟩ := ih (u := element') ht hu (List.cons.inj h).2
      exact ⟨rfl, hrest⟩
    | _ => simp [chars] at h
  | _ => cases u <;> simp_all [chars]

/-- No type's text begins with a closing parenthesis. -/
theorem chars_append_ne_close (t : GuestType) (x y : List Char) : t.chars ++ x ≠ ')' :: y := by
  cases t <;> simp [chars]

end GuestType

namespace Signature

/-- No object name in the signature holds a semicolon. -/
def SemicolonFree (s : Signature) : Prop :=
  (∀ t ∈ s.params, t.SemicolonFree) ∧ s.result.SemicolonFree

theorem WellFormed.semicolonFree {s : Signature} (h : s.WellFormed) : s.SemicolonFree := by
  refine ⟨fun t ht ↦ (h.1 t ht).semicolonFree, ?_⟩
  rcases h.2 with hvoid | hresult
  · rw [hvoid]
    trivial
  · exact hresult.semicolonFree

/-- Parameter lists can be told apart, whatever follows them. -/
theorem paramChars_append_inj {ts us : List GuestType} (hts : ∀ t ∈ ts, t.SemicolonFree)
    (hus : ∀ u ∈ us, u.SemicolonFree) {x y : List Char}
    (h : paramChars ts ++ x = paramChars us ++ y) : ts = us ∧ x = y := by
  induction ts generalizing us with
  | nil =>
    cases us with
    | nil => exact ⟨rfl, (List.cons.inj h).2⟩
    | cons u us =>
      rw [paramChars_cons, List.append_assoc] at h
      exact absurd h.symm (u.chars_append_ne_close _ _)
  | cons t ts ih =>
    rw [paramChars_cons, List.append_assoc] at h
    cases us with
    | nil => exact absurd h (t.chars_append_ne_close _ _)
    | cons u us =>
      rw [paramChars_cons, List.append_assoc] at h
      obtain ⟨ht, hts'⟩ := List.forall_mem_cons.1 hts
      obtain ⟨hu, hus'⟩ := List.forall_mem_cons.1 hus
      obtain ⟨rfl, hlater⟩ := GuestType.chars_append_inj ht hu h
      obtain ⟨rfl, hrest⟩ := ih hts' hus' hlater
      exact ⟨rfl, hrest⟩

/-- **Different signatures have different texts.** -/
theorem text_inj {s d : Signature} (hs : s.SemicolonFree) (hd : d.SemicolonFree) :
    s.text = d.text ↔ s = d := by
  refine ⟨fun h ↦ ?_, congrArg text⟩
  rw [text, text, String.ofList_inj, chars_eq, chars_eq] at h
  obtain ⟨hparams, hresult⟩ := paramChars_append_inj hs.1 hd.1 (List.cons.inj h).2
  rw [← List.append_nil s.result.chars, ← List.append_nil d.result.chars] at hresult
  obtain ⟨hresult, -⟩ := GuestType.chars_append_inj hs.2 hd.2 hresult
  cases s
  cases d
  cases hparams
  cases hresult
  rfl

end Signature

/-- Methods are called by the same selector exactly if they have the same name and the same
signature. -/
theorem Selector.of_inj {name name' : String} {s d : Signature} (hs : s.SemicolonFree)
    (hd : d.SemicolonFree) : of name s = of name' d ↔ name = name' ∧ s = d := by
  rw [of, of, Selector.mk.injEq, Signature.text_inj hs hd]

end HostMethods
