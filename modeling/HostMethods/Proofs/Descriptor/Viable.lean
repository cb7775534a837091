import HostMethods.Descriptor.Reader
import HostMethods.Proofs.Text.Slices

/-!
# Viable prefixes

A text that is not valid can be judged by the grammar alone, without any reader: it goes on behind
a valid text (`Overlong`), it can still be continued to one (`Viable`), or it holds a first
character with which nothing can go on. In the last case that character stands behind the longest
viable beginning of the text (`BlamesFirst`).

`Stops` says the same of a reader, in a form that can be carried from a part of a text to the whole
(`Stops.prepend`): the reader either came to the end of a text that could go on, or it stopped at a
character *and would have stopped there whatever followed*. The second half is what shows that the
character is the first one with which nothing can go on: every continuation runs into the same
fault, and a valid text runs into none.

`Recognizes.viablePrefixLaw` turns the one into the other. It uses of a parser that it accepts valid
texts and that it finds something left over behind them, and nothing else.
-/

namespace HostMethods.Descriptor

open Text (utf8Length)

/-! ### What the grammar says -/

/-- Whether some text, perhaps the empty one, makes the text valid when it is put behind it. -/
def Viable (valid : String → Prop) (s : String) : Prop :=
  ∃ rest, valid (s ++ rest)

/-- Whether a proper prefix of the text is valid. -/
def Overlong (valid : String → Prop) (s : String) : Prop :=
  ∃ p rest, valid p ∧ rest ≠ "" ∧ s = p ++ rest

theorem overlong_append_cons {valid : String → Prop} {p : String} (hp : valid p) (c : Char)
    (cs : List Char) : Overlong valid (p ++ String.ofList (c :: cs)) :=
  ⟨p, String.ofList (c :: cs), hp, mt String.ofList_eq_empty_iff.1 (List.cons_ne_nil c cs), rfl⟩

/-- The longest viable prefix of a text. -/
structure LongestViable (valid : String → Prop) (p s : String) : Prop where
  isPrefix : ∃ rest, s = p ++ rest
  viable : Viable valid p
  longest : ∀ q rest, s = q ++ rest → Viable valid q → q.length ≤ p.length

/-- The fault of a character with which nothing can go on, at a byte offset. A `V` would be `void`,
and so is refused as a type in the wrong place. -/
def blame (c : Char) (offset : Nat) : DescriptorFault :=
  if c = 'V' then .voidValue else .badCharacter c offset

/-- The fault is that of the character behind the longest viable prefix. -/
def BlamesFirst (valid : String → Prop) (s : String) (fault : DescriptorFault) : Prop :=
  ∃ p c rest, s = p ++ String.singleton c ++ rest ∧ LongestViable valid p s ∧
    fault = blame c p.utf8ByteSize

/-- **The law of viable prefixes**: what is wrong with a text that is not valid. -/
structure ViablePrefixLaw (valid : String → Prop) (s : String) (fault : DescriptorFault) :
    Prop where
  leftover_iff : fault = .leftover ↔ Overlong valid s
  endsEarly_iff : fault = .endsEarly ↔ Viable valid s
  blamesFirst : ¬Overlong valid s → ¬Viable valid s → BlamesFirst valid s fault

/-- A character is to blame for no other faults than these two. -/
theorem blame_ne (fault : DescriptorFault) (hvoid : fault ≠ .voidValue)
    (hchar : ∀ c offset, fault ≠ .badCharacter c offset) (c : Char) (offset : Nat) :
    blame c offset ≠ fault := by
  rw [blame]
  split
  · exact hvoid.symm
  · exact (hchar c offset).symm

/-! ### What a reader finds -/

variable {fails fails' : List Char → DescriptorFault → Prop} {goesOn goesOn' : List Char → Prop}
  {offset : Nat} {cs : List Char} {fault : DescriptorFault}

/-- How a reader has failed on the characters `cs`, the first of which stands at a byte offset.
`goesOn` are the texts that can go on, `fails` says on which texts the reader fails and how. -/
inductive Stops (fails : List Char → DescriptorFault → Prop) (goesOn : List Char → Prop)
    (offset : Nat) (cs : List Char) : DescriptorFault → Prop
  /-- The text was at its end, and could have gone on. -/
  | atEnd (h : goesOn cs) : Stops fails goesOn offset cs .endsEarly
  /-- What came before `c` could have gone on, but with `c` the reader fails whatever follows. -/
  | atChar (p : List Char) (c : Char) (rest : List Char) (hcs : cs = p ++ c :: rest)
      (hp : goesOn p)
      (hfails : ∀ rest, fails (p ++ c :: rest) (blame c (offset + utf8Length p))) :
      Stops fails goesOn offset cs (blame c (offset + utf8Length p))

/-- With a character other than `V` nothing at all can go on. -/
theorem Stops.badCharacter {c : Char} {rest : List Char} (hc : c ≠ 'V') (hempty : goesOn [])
    (hfails : ∀ rest, fails (c :: rest) (.badCharacter c offset)) :
    Stops fails goesOn offset (c :: rest) (.badCharacter c offset) := by
  have hblame : blame c (offset + utf8Length []) = .badCharacter c offset := if_neg hc
  rw [← hblame] at hfails ⊢
  exact .atChar [] c rest rfl hempty hfails

/-- After `p` a value has to follow, and a `V` does. -/
theorem Stops.voidValue {p rest : List Char} (hp : goesOn p)
    (hfails : ∀ rest, fails (p ++ 'V' :: rest) .voidValue) :
    Stops fails goesOn offset (p ++ 'V' :: rest) .voidValue := by
  have hblame : blame 'V' (offset + utf8Length p) = .voidValue := if_pos rfl
  rw [← hblame] at hfails ⊢
  exact .atChar p 'V' rest rfl hp hfails

/-- A reader that reads `q` first and then fails as another one does has failed in the same way.
The other reader need only be followed on texts that begin as this one does. -/
theorem Stops.prepend {q : List Char} (h : Stops fails goesOn (offset + utf8Length q) cs fault)
    (hgoesOn : ∀ x, goesOn x → goesOn' (q ++ x))
    (hfails : ∀ x f, x.head? = cs.head? → fails x f → fails' (q ++ x) f) :
    Stops fails' goesOn' offset (q ++ cs) fault := by
  cases h with
  | atEnd h => exact .atEnd (hgoesOn cs h)
  | atChar p c rest hcs hp hstop =>
    have hoffset : offset + utf8Length q + utf8Length p = offset + utf8Length (q ++ p) := by
      rw [Text.utf8Length_append, Nat.add_assoc]
    rw [hoffset] at hstop ⊢
    refine .atChar (q ++ p) c rest ?_ (hgoesOn p hp) fun rest' ↦ ?_
    · rw [hcs, List.append_assoc]
    · rw [List.append_assoc]
      refine hfails _ _ ?_ (hstop rest')
      rw [hcs]
      cases p <;> rfl

/-- Reading never finds that a text has no parameter list. -/
theorem Stops.ne_noParameters (h : Stops fails goesOn offset cs fault) :
    fault ≠ .noParameters := by
  cases h with
  | atEnd => exact DescriptorFault.noConfusion
  | atChar p c => exact blame_ne .noParameters nofun nofun c _

/-! ### From the one to the other -/

variable {α : Type} {parse : String → Except DescriptorError α} {valid : String → Prop}
  {s : String}

/-- The parser fails on some characters with a fault. -/
def ParseFails (parse : String → Except DescriptorError α) (cs : List Char)
    (fault : DescriptorFault) : Prop :=
  parse (String.ofList cs) = .error ⟨fault, String.ofList cs⟩

/-- The parser accepts the valid texts, and notices what is left over behind them. -/
structure Recognizes (parse : String → Except DescriptorError α) (valid : String → Prop) :
    Prop where
  accepts : ∀ {s}, valid s → ∃ a, parse s = .ok a
  leftover : ∀ {s rest}, valid s → rest ≠ "" →
    parse (s ++ rest) = .error ⟨.leftover, s ++ rest⟩

namespace Recognizes

/-- A parser that reads texts back, whatever follows them, recognizes them. -/
theorem of_parse_append {chars : α → List Char} {wellFormed : α → Prop}
    (h : ∀ a, wellFormed a → ∀ rest, parse (String.ofList (chars a ++ rest)) =
      if rest = [] then .ok a else .error ⟨.leftover, String.ofList (chars a ++ rest)⟩) :
    Recognizes parse fun s ↦ ∃ a, wellFormed a ∧ s = String.ofList (chars a) where
  accepts := by
    rintro _ ⟨a, ha, rfl⟩
    refine ⟨a, ?_⟩
    have hread := h a ha []
    rwa [List.append_nil, if_pos rfl] at hread
  leftover := by
    rintro _ rest ⟨a, ha, rfl⟩ hne
    have hread := h a ha rest.toList
    rwa [if_neg (mt String.toList_eq_nil_iff.1 hne), String.ofList_append,
      String.ofList_toList] at hread

/-- What is refused is not valid. -/
theorem not_valid_of_error (h : Recognizes parse valid) {e : DescriptorError}
    (hparse : parse s = .error e) : ¬valid s := by
  intro hvalid
  obtain ⟨a, ha⟩ := h.accepts hvalid
  rw [hparse] at ha
  cases ha

theorem parse_of_overlong (h : Recognizes parse valid) (hover : Overlong valid s) :
    parse s = .error ⟨.leftover, s⟩ := by
  obtain ⟨p, rest, hp, hne, rfl⟩ := hover
  exact h.leftover hp hne

/-- **No valid text goes on inside another one.** -/
theorem not_viable_of_overlong (h : Recognizes parse valid) (hover : Overlong valid s) :
    ¬Viable valid s := by
  obtain ⟨p, rest, hp, hne, rfl⟩ := hover
  rintro ⟨more, hvalid⟩
  have hne' : rest ++ more ≠ "" := fun hempty ↦ hne (String.append_eq_empty_iff.1 hempty).1
  rw [String.append_assoc] at hvalid
  exact h.not_valid_of_error (h.leftover hp hne') hvalid

/-- A text with a character at which the parser fails whatever follows is no viable one. -/
theorem not_viable_of_fails (h : Recognizes parse valid) {p : List Char} {c : Char}
    (hfails : ∀ rest, ParseFails parse (p ++ c :: rest) fault) (x : List Char) :
    ¬Viable valid (String.ofList (p ++ c :: x)) := by
  rintro ⟨more, hvalid⟩
  rw [← String.ofList_toList (s := more), ← String.ofList_append, List.append_assoc,
    List.cons_append] at hvalid
  exact h.not_valid_of_error (hfails (x ++ more.toList)) hvalid

/-- **The character at which a parser stops is the first with which nothing can go on.** -/
theorem blamesFirst_of_fails (h : Recognizes parse valid) {p : List Char} {c : Char}
    {rest : List Char} (hs : s.toList = p ++ c :: rest) (hp : Viable valid (String.ofList p))
    (hfails : ∀ rest, ParseFails parse (p ++ c :: rest) (blame c (utf8Length p))) :
    BlamesFirst valid s (blame c (utf8Length p)) := by
  have hsplit : s = String.ofList p ++ String.singleton c ++ String.ofList rest := by
    rw [String.singleton_eq_ofList, ← String.ofList_append, ← String.ofList_append,
      List.append_assoc, List.singleton_append, ← hs, String.ofList_toList]
  have hbegins : ∃ tail, s = String.ofList p ++ tail :=
    ⟨String.singleton c ++ String.ofList rest, by rw [hsplit, String.append_assoc]⟩
  refine ⟨String.ofList p, c, String.ofList rest, hsplit, ⟨hbegins, hp, ?_⟩, ?_⟩
  · intro q tail hq hviable
    rw [← String.length_toList, ← String.length_toList, String.toList_ofList]
    refine Nat.le_of_not_lt fun hlt ↦ ?_
    -- a longer prefix of `s` goes on with `c` behind `p`
    have hpcq : p ++ [c] <+: q.toList := by
      have hpc : p ++ [c] <+: s.toList := ⟨rest, by rw [hs, List.append_assoc]; rfl⟩
      have hqs : q.toList <+: s.toList := ⟨tail.toList, by rw [hq, String.toList_append]⟩
      refine List.prefix_of_prefix_length_le hpc hqs ?_
      rw [List.length_append, List.length_singleton]
      exact hlt
    obtain ⟨x, hx⟩ := hpcq
    refine h.not_viable_of_fails hfails x ?_
    rwa [← List.singleton_append, ← List.append_assoc, hx, String.ofList_toList]
  · rw [utf8ByteSize_ofList]

/-- A parser that has found something left over, or has stopped, obeys the law. -/
theorem viablePrefixLaw (h : Recognizes parse valid) (hparse : parse s = .error ⟨fault, s⟩)
    (hend : Overlong valid s ∨
      Stops (ParseFails parse) (fun cs ↦ Viable valid (String.ofList cs)) 0 s.toList fault) :
    ViablePrefixLaw valid s fault := by
  -- behind a valid text the parser looks no further, so nothing else can be wrong
  have hover : Overlong valid s → fault = .leftover := by
    intro hover
    rw [h.parse_of_overlong hover] at hparse
    cases hparse
    rfl
  rcases hend with hlong | hstops
  · obtain rfl := hover hlong
    exact {
      leftover_iff := iff_of_true rfl hlong
      endsEarly_iff := iff_of_false DescriptorFault.noConfusion (h.not_viable_of_overlong hlong)
      blamesFirst := fun hnot ↦ absurd hlong hnot }
  · generalize hcs : s.toList = cs at hstops
    cases hstops with
    | atEnd hviable =>
      rw [← hcs, String.ofList_toList] at hviable
      exact {
        leftover_iff := ⟨DescriptorFault.noConfusion, hover⟩
        endsEarly_iff := iff_of_true rfl hviable
        blamesFirst := fun _ hnot ↦ absurd hviable hnot }
    | atChar p c rest hsplit hp hfails =>
      rw [Nat.zero_add] at hfails hover ⊢
      have hnotViable : ¬Viable valid s := by
        have hnot := h.not_viable_of_fails hfails rest
        rwa [← hsplit, ← hcs, String.ofList_toList] at hnot
      exact {
        leftover_iff := ⟨fun heq ↦ absurd heq (blame_ne .leftover nofun nofun c _), hover⟩
        endsEarly_iff := iff_of_false (blame_ne .endsEarly nofun nofun c _) hnotViable
        blamesFirst := fun _ _ ↦ h.blamesFirst_of_fails (hcs.trans hsplit) hp hfails }

end Recognizes

end HostMethods.Descriptor
