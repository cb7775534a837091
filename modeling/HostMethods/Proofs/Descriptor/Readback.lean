import HostMethods.Proofs.Descriptor.Grammar
import HostMethods.Proofs.Descriptor.Viable

/-!
# Texts of types that no text denotes

Every type has a text, also the nonsense that a class under construction may carry: an array of
`void`, an object type without a name, one whose name holds a semicolon. The texts of nonsense are
never taken for those of other types (`GuestType.parse_text_readback`); what is found wrong with
them says what the nonsense is.

A type is an array, of any number of dimensions, of a type that is none (`GuestType.arrays`,
`GuestType.innermost`), and its text is that type's behind as many brackets. So a reader comes to
the innermost type whatever there is around it, and nonsense lies there. Only a semicolon inside a
name goes unnoticed by the reader of types, which takes what comes before it for the whole name; the
rest of the name is then left over.
-/

namespace HostMethods

open Text (utf8Length)

namespace GuestType

/-! ### Dimensions -/

/-- What an array holds, or the arrays in it, and so on. -/
def innermost : GuestType → GuestType
  | array element => element.innermost
  | t => t

/-- How many arrays a type has one inside the other. -/
def dimensions : GuestType → Nat
  | array element => element.dimensions + 1
  | _ => 0

/-- An array of this many dimensions. -/
def arrays : Nat → GuestType → GuestType
  | 0, t => t
  | d + 1, t => array (arrays d t)

theorem arrays_innermost (t : GuestType) : arrays t.dimensions t.innermost = t := by
  induction t with
  | array element ih => rw [dimensions, innermost, arrays, ih]
  | _ => rfl

theorem wellFormed_arrays (d : Nat) (t : GuestType) : (arrays d t).WellFormed ↔ t.WellFormed := by
  induction d with
  | zero => rfl
  | succ d ih => exact ih

/-- The brackets that the text of an array begins with. -/
def brackets (d : Nat) : List Char :=
  List.replicate d '['

theorem brackets_succ (d : Nat) : brackets (d + 1) = '[' :: brackets d :=
  List.replicate_succ

theorem utf8Length_brackets (d : Nat) : utf8Length (brackets d) = d := by
  induction d with
  | zero => rfl
  | succ d ih =>
    rw [brackets_succ, Text.utf8Length_cons, ih, Nat.add_comm]
    rfl

theorem chars_arrays (d : Nat) (t : GuestType) : (arrays d t).chars = brackets d ++ t.chars := by
  induction d with
  | zero => rfl
  | succ d ih => rw [arrays, chars, ih, brackets_succ, List.cons_append]

/-- The text of a type is that of its innermost one behind as many brackets as it has dimensions. -/
theorem chars_eq_brackets_append (t : GuestType) :
    t.chars = brackets t.dimensions ++ t.innermost.chars := by
  rw [← chars_arrays, arrays_innermost]

/-! ### Names -/

/-- A name after which the semicolon that ends it is the first thing to be read. -/
def BlankName (name : String) : Prop :=
  name = "" ∨ name.toList.head? = some ';'

/-- A name that goes on behind a semicolon. -/
def SplitName (name : String) : Prop :=
  ';' ∈ name.toList ∧ name.toList.head? ≠ some ';'

theorem name_trichotomy (name : String) :
    (name ≠ "" ∧ ';' ∉ name.toList) ∨ BlankName name ∨ SplitName name := by
  by_cases hempty : name = ""
  · exact .inr (.inl (.inl hempty))
  by_cases hmem : ';' ∈ name.toList
  · by_cases hhead : name.toList.head? = some ';'
    · exact .inr (.inl (.inr hhead))
    · exact .inr (.inr ⟨hmem, hhead⟩)
  · exact .inl ⟨hempty, hmem⟩

theorem BlankName.chars_object {name : String} (h : BlankName name) :
    ∃ rest, (object name).chars = 'L' :: ';' :: rest := by
  rcases h with rfl | hhead
  · exact ⟨[], rfl⟩
  · obtain ⟨tail, htail⟩ := List.head?_eq_some_iff.1 hhead
    refine ⟨tail ++ [';'], ?_⟩
    rw [chars, htail, List.cons_append]

/-- The text of a name that goes on behind a semicolon begins with the text of a shorter name. -/
theorem SplitName.chars_object {name : String} (h : SplitName name) :
    ∃ short rest, (object short).WellFormed ∧ rest ≠ [] ∧
      (object name).chars = (object short).chars ++ rest := by
  obtain ⟨hmem, hhead⟩ := h
  obtain ⟨before, after, hsplit, hbefore⟩ := List.eq_append_cons_of_mem hmem
  have hne : before ≠ [] := by
    rintro rfl
    exact hhead (by rw [hsplit, List.nil_append, List.head?_cons])
  refine ⟨String.ofList before, after ++ [';'], ⟨mt String.ofList_eq_empty_iff.1 hne, ?_⟩, ?_, ?_⟩
  · rwa [String.toList_ofList]
  · exact List.append_ne_nil_of_right_ne_nil after (List.cons_ne_nil _ _)
  · rw [chars, chars, hsplit, String.toList_ofList, List.cons_append, List.append_assoc,
      List.append_assoc, List.cons_append, List.singleton_append]

/-- A type is nonsense only by what is innermost. -/
theorem wellFormed_or_nonsense (t : GuestType) :
    t.WellFormed ∨ t.innermost = .void ∨
      ∃ name, t.innermost = .object name ∧ (BlankName name ∨ SplitName name) := by
  induction t with
  | void => exact .inr (.inl rfl)
  | object name =>
    rcases name_trichotomy name with hname | hname
    · exact .inl hname
    · exact .inr (.inr ⟨name, rfl, hname⟩)
  | array element ih => exact ih
  | _ => exact .inl trivial

/-! ### What is read -/

section Reading

open Descriptor

variable {t : GuestType}

/-- A reader fails behind brackets as it does at the text there. -/
theorem readType_brackets_append {offset d : Nat} {cs : List Char} {fault : DescriptorFault}
    (h : readType (offset + d) cs = .error fault) :
    readType offset (brackets d ++ cs) = .error fault := by
  induction d generalizing offset with
  | zero => exact h
  | succ d ih =>
    rw [brackets_succ, List.cons_append, readType, ih (by rwa [Nat.add_assoc, Nat.add_comm 1])]

/-- A text at which the reader of types fails is none of a field's type. -/
theorem parse_of_readType {cs : List Char} {fault : DescriptorFault}
    (h : readType 0 cs = .error fault) :
    parse (String.ofList cs) = .error ⟨fault, String.ofList cs⟩ := by
  rw [parse, String.toList_ofList, h]

/-- The text of a type that a text can denote is read back. -/
theorem parse_text (ht : t.WellFormed) : parse t.text = .ok t := by
  have hread := parse_chars_append ht []
  rwa [List.append_nil, if_pos rfl] at hread

/-- `void` is refused at whatever depth. -/
theorem parse_text_of_void (h : t.innermost = .void) :
    parse t.text = .error ⟨.voidValue, t.text⟩ := by
  rw [text, chars_eq_brackets_append, h]
  cases t.dimensions with
  | zero => rfl
  | succ d =>
    -- the innermost array is the one that refuses its element
    have hchars : brackets (d + 1) ++ GuestType.void.chars = brackets d ++ ['[', 'V'] := by
      rw [brackets, List.replicate_succ', List.append_assoc]
      rfl
    rw [hchars]
    exact parse_of_readType (readType_brackets_append rfl)

/-- A name that a semicolon ends at once is refused there. -/
theorem parse_text_of_blankName {name : String} (h : t.innermost = .object name)
    (hname : BlankName name) :
    ∃ before after, t.text = before ++ ";" ++ after ∧ ';' ∉ before.toList ∧
      parse t.text = .error ⟨.badCharacter ';' before.utf8ByteSize, t.text⟩ := by
  obtain ⟨rest, hrest⟩ := hname.chars_object
  have hchars : t.chars = brackets t.dimensions ++ 'L' :: ';' :: rest := by
    rw [chars_eq_brackets_append, h, hrest]
  refine ⟨String.ofList (brackets t.dimensions ++ ['L']), String.ofList rest, ?_, ?_, ?_⟩
  · rw [show ";" = String.ofList [';'] from rfl, ← String.ofList_append, ← String.ofList_append,
      text, hchars, List.append_assoc, List.append_assoc, List.singleton_append,
      List.singleton_append]
  · rw [String.toList_ofList]
    intro hmem
    rcases List.mem_append.1 hmem with hmem | hmem
    · exact absurd (List.eq_of_mem_replicate hmem) (by decide)
    · exact absurd (List.mem_singleton.1 hmem) (by decide)
  · have hsize : utf8Length (brackets t.dimensions ++ ['L']) = t.dimensions + 1 := by
      rw [Text.utf8Length_append, utf8Length_brackets]
      rfl
    rw [utf8ByteSize_ofList, hsize, text, hchars]
    refine parse_of_readType (readType_brackets_append ?_)
    rw [Nat.zero_add, readType, readName_semicolon]
    rfl

/-- Of a name that goes on behind a semicolon, the rest is left over. -/
theorem parse_text_of_splitName {name : String} (h : t.innermost = .object name)
    (hname : SplitName name) : parse t.text = .error ⟨.leftover, t.text⟩ := by
  obtain ⟨short, rest, hshort, hne, hrest⟩ := hname.chars_object
  have hchars : t.chars = (arrays t.dimensions (.object short)).chars ++ rest := by
    rw [chars_arrays, List.append_assoc, ← hrest, ← h, chars_eq_brackets_append]
  rw [text, hchars, parse_chars_append ((wellFormed_arrays _ _).2 hshort), if_neg hne]

/-- What the text of a type is read as can only be that type. -/
theorem of_parse_text_eq_ok {u : GuestType} (h : parse t.text = .ok u) : t.WellFormed ∧ u = t := by
  rcases wellFormed_or_nonsense t with ht | hvoid | ⟨name, hname, hblank | hsplit⟩
  · rw [parse_text ht] at h
    cases h
    exact ⟨ht, rfl⟩
  · rw [parse_text_of_void hvoid] at h
    cases h
  · obtain ⟨_, _, -, -, herror⟩ := parse_text_of_blankName hname hblank
    rw [herror] at h
    cases h
  · rw [parse_text_of_splitName hname hsplit] at h
    cases h

/-- **The text of a type is never read as another type.** The text of a type that a text can denote
is read back. That of any other is refused: for `void`, however deep it lies; at the first
semicolon, when there is no name before it; for what is left over, when the name goes on behind it.
And whatever is read is a type that a text can denote, from its own text. -/
theorem parse_text_readback :
    (∀ t : GuestType,
      (∀ u, parse t.text = .ok u ↔ t.WellFormed ∧ u = t) ∧
      (¬t.WellFormed → ∃ fault, parse t.text = .error ⟨fault, t.text⟩) ∧
      (t.innermost = .void → parse t.text = .error ⟨.voidValue, t.text⟩) ∧
      (∀ name, t.innermost = .object name → name = "" ∨ name.toList.head? = some ';' →
        ∃ before after, t.text = before ++ ";" ++ after ∧ ';' ∉ before.toList ∧
          parse t.text = .error ⟨.badCharacter ';' before.utf8ByteSize, t.text⟩) ∧
      (∀ name, t.innermost = .object name →
        ';' ∈ name.toList ∧ name.toList.head? ≠ some ';' →
        parse t.text = .error ⟨.leftover, t.text⟩)) ∧
    ∀ s t, parse s = .ok t → t.WellFormed ∧ t.text = s := by
  refine ⟨fun t ↦ ⟨fun u ↦ ⟨of_parse_text_eq_ok, ?_⟩, fun ht ↦ ?_, parse_text_of_void,
    fun name ↦ parse_text_of_blankName, fun name ↦ parse_text_of_splitName⟩, fun s t h ↦ ?_⟩
  · rintro ⟨ht, rfl⟩
    exact parse_text ht
  · rcases wellFormed_or_nonsense t with hwf | hvoid | ⟨name, hname, hblank | hsplit⟩
    · exact absurd hwf ht
    · exact ⟨_, parse_text_of_void hvoid⟩
    · obtain ⟨_, _, -, -, herror⟩ := parse_text_of_blankName hname hblank
      exact ⟨_, herror⟩
    · exact ⟨_, parse_text_of_splitName hname hsplit⟩
  · obtain ⟨ht, hs⟩ := of_parse_eq_ok h
    exact ⟨ht, hs.symm⟩

/-- An array of `void`, an array of classes without a name, and a class whose name goes on behind a
semicolon. -/
theorem parse_text_readback_nonsense :
    (array void).innermost = void ∧ (array (object "")).innermost = object "" ∧
      (';' ∈ "a;Lb".toList ∧ "a;Lb".toList.head? ≠ some ';') ∧
      parse "[V" = .error ⟨.voidValue, "[V"⟩ ∧
      (∃ before after, "[L;" = before ++ ";" ++ after ∧ ';' ∉ before.toList ∧
        parse "[L;" = .error ⟨.badCharacter ';' before.utf8ByteSize, "[L;"⟩) ∧
      parse "La;Lb;" = .error ⟨.leftover, "La;Lb;"⟩ := by
  have hsplit : ';' ∈ "a;Lb".toList ∧ "a;Lb".toList.head? ≠ some ';' := by decide
  refine ⟨rfl, rfl, hsplit, ?_, ?_, ?_⟩
  · exact (parse_text_readback.1 (array void)).2.2.1 rfl
  · exact (parse_text_readback.1 (array (object ""))).2.2.2.1 "" rfl (.inl rfl)
  · exact (parse_text_readback.1 (object "a;Lb")).2.2.2.2 "a;Lb" rfl hsplit

end Reading

end GuestType

end HostMethods
