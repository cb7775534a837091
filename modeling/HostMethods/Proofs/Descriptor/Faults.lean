import HostMethods.Proofs.Descriptor.Grammar
import HostMethods.Proofs.Descriptor.Viable

/-!
# Where and how reading a descriptor fails

The law of viable prefixes for the readers of types and of signatures. For every reader there is a
set of texts that can go on (`NameBegins`, `TypeBegins`, `ParamsBegin`, and `Viable` for whole
texts) and a proof that the reader stops in one of the two ways of `Stops`. The readers are built
from one another, so most of these proofs move a stop of an inner reader behind what has been read
before it (`Stops.prepend`).

A `void` that is read where a value must stand is a stop at its letter, although the reader has
already gone past it: what came before the letter could have gone on with the letter of a value,
and with a `V` there the readers fail before they look any further.
-/

namespace HostMethods

open Text (utf8Length)

/-- The texts of the types of values. -/
def GuestType.IsText (s : String) : Prop :=
  ∃ t : GuestType, t.WellFormed ∧ s = t.text

/-- The texts of the signatures that can be declared. -/
def Signature.IsText (s : String) : Prop :=
  ∃ d : Signature, d.WellFormed ∧ s = d.text

namespace Descriptor

variable {offset : Nat} {cs x : List Char} {fault : DescriptorFault}

/-! ### Texts that can go on -/

/-- Characters with which a name and its semicolon may begin. -/
def NameBegins (cs : List Char) : Prop :=
  ∃ name more, name ≠ [] ∧ ';' ∉ name ∧ name ++ [';'] = cs ++ more

/-- Characters with which the text of a value's type may begin. -/
def TypeBegins (cs : List Char) : Prop :=
  ∃ t : GuestType, ∃ more, t.WellFormed ∧ t.chars = cs ++ more

/-- Characters with which a parameter list may begin. -/
def ParamsBegin (cs : List Char) : Prop :=
  ∃ ts more, (∀ t ∈ ts, GuestType.WellFormed t) ∧ Signature.paramChars ts = cs ++ more

/-- One more character makes a name of every text without a semicolon. -/
theorem nameBegins_of_not_mem (h : ';' ∉ cs) : NameBegins cs := by
  refine ⟨cs ++ ['a'], ['a', ';'], ?_, ?_, ?_⟩
  · exact List.append_ne_nil_of_right_ne_nil cs (List.cons_ne_nil _ _)
  · intro hmem
    rcases List.mem_append.1 hmem with hmem | hmem
    · exact h hmem
    · exact absurd (List.mem_singleton.1 hmem) (by decide)
  · rw [List.append_assoc, List.singleton_append]

theorem typeBegins_nil : TypeBegins [] :=
  ⟨.int, ['I'], trivial, rfl⟩

theorem TypeBegins.bracket (h : TypeBegins x) : TypeBegins ('[' :: x) := by
  obtain ⟨t, more, ht, hchars⟩ := h
  refine ⟨.array t, more, ht, ?_⟩
  rw [GuestType.chars, hchars, List.cons_append]

theorem NameBegins.typeBegins (h : NameBegins x) : TypeBegins ('L' :: x) := by
  obtain ⟨name, more, hne, hmem, hchars⟩ := h
  refine ⟨.object (String.ofList name), more, ⟨mt String.ofList_eq_empty_iff.1 hne, ?_⟩, ?_⟩
  · rwa [String.toList_ofList]
  · rw [GuestType.chars, String.toList_ofList, hchars, List.cons_append]

theorem paramsBegin_nil : ParamsBegin [] :=
  ⟨[], [')'], nofun, rfl⟩

/-- A parameter list goes on wherever the text of a parameter does. -/
theorem TypeBegins.paramsBegin (h : TypeBegins x) : ParamsBegin x := by
  obtain ⟨t, more, ht, hchars⟩ := h
  refine ⟨[t], more ++ [')'], ?_, ?_⟩
  · intro u hu
    rw [List.mem_singleton.1 hu]
    exact ht
  · rw [Signature.paramChars_cons, Signature.paramChars_nil, hchars, List.append_assoc]

theorem ParamsBegin.cons {t : GuestType} (ht : t.WellFormed) (h : ParamsBegin x) :
    ParamsBegin (t.chars ++ x) := by
  obtain ⟨ts, more, hts, hchars⟩ := h
  refine ⟨t :: ts, more, List.forall_mem_cons.2 ⟨ht, hts⟩, ?_⟩
  rw [Signature.paramChars_cons, hchars, List.append_assoc]

/-! ### How the readers stop -/

theorem readName_stops (h : readName offset cs = .error fault) :
    Stops (fun cs fault ↦ readName offset cs = .error fault) NameBegins offset cs fault := by
  rcases name_cases cs with hmem | ⟨rest, rfl⟩ | ⟨name, rest, hne, hmem, rfl⟩
  · rw [readName_of_not_mem hmem] at h
    cases h
    exact .atEnd (nameBegins_of_not_mem hmem)
  · rw [readName_semicolon] at h
    cases h
    exact .badCharacter (by decide) (nameBegins_of_not_mem List.not_mem_nil)
      (readName_semicolon offset)
  · rw [readName_append hne hmem] at h
    cases h

/-- **A reader of types stops** at the end of a text that can go on, or at a character with which
none can. -/
theorem readType_stops (h : readType offset cs = .error fault) :
    Stops (fun cs fault ↦ readType offset cs = .error fault) TypeBegins offset cs fault := by
  fun_induction readType offset cs generalizing fault with
  | case1 =>
    cases h
    exact .atEnd typeBegins_nil
  | case2 offset cs =>
    have hname : readName (offset + utf8Length ['L']) cs = .error fault :=
      Except.eq_error_of_map h
    refine (readName_stops hname).prepend (fun _ ↦ NameBegins.typeBegins) fun x f _ hx ↦ ?_
    have hx' : readName (offset + 1) x = .error f := hx
    rw [List.singleton_append, readType, hx']
    rfl
  | case3 offset cs fault' hread ih =>
    cases h
    have hstops : Stops _ TypeBegins (offset + utf8Length ['[']) cs fault' := ih hread
    refine hstops.prepend (fun _ ↦ TypeBegins.bracket) fun x f _ hx ↦ ?_
    rw [List.singleton_append, readType, hx]
  | case4 offset cs after hread =>
    cases h
    -- the element that was read is the letter itself
    obtain ⟨-, rfl, -⟩ := of_readType_eq_ok hread
    refine .voidValue (p := ['[']) typeBegins_nil.bracket fun rest ↦ ?_
    rfl
  | case5 => cases h
  | case6 => cases h
  | case7 offset c cs hL hbracket hletter =>
    cases h
    refine .badCharacter ?_ typeBegins_nil ?_
    · rintro rfl
      cases hletter
    · exact readType_of_ofLetter?_eq_none hletter hL hbracket offset

/-- **A reader of parameter lists stops** in the same two ways. -/
theorem readParams_stops (h : Signature.readParams offset cs = .error fault) :
    Stops (fun cs fault ↦ Signature.readParams offset cs = .error fault) ParamsBegin offset cs
      fault := by
  fun_induction Signature.readParams offset cs generalizing fault with
  | case1 => cases h
  | case2 offset cs hopen fault' hread =>
    cases h
    -- the list has not ended here, so neither has it in a text that begins with the same character
    refine (readType_stops hread).prepend (q := []) (fun _ ↦ TypeBegins.paramsBegin)
      fun x f hhead hx ↦ ?_
    refine Signature.readParams_of_readType_error hx fun rest hx' ↦ ?_
    rw [List.nil_append] at hx'
    rw [hx', List.head?_cons] at hhead
    obtain ⟨tail, htail⟩ := List.head?_eq_some_iff.1 hhead.symm
    exact hopen tail htail
  | case3 offset cs hopen after hread =>
    cases h
    obtain ⟨-, rfl, -⟩ := of_readType_eq_ok hread
    refine .voidValue (p := []) paramsBegin_nil fun rest ↦ ?_
    rw [List.nil_append, Signature.readParams_of_readType (readType_of_ofLetter? rfl offset rest),
      if_pos rfl]
  | case4 offset cs hopen t after hne hread ih =>
    -- the fault is one of the rest of the list, which was read behind the text of `t`
    obtain ⟨ht, rfl, hoffset⟩ := of_readType_eq_ok hread
    have hstops := ih (Except.eq_error_of_map h)
    rw [hoffset] at hstops
    refine hstops.prepend (fun _ ↦ ParamsBegin.cons (ht.wellFormed hne)) fun x f _ hx ↦ ?_
    rw [Signature.readParams_of_readType (readType_chars_append ht offset x), if_neg hne, hx]
    rfl

end Descriptor

open Descriptor

/-! ### Fields -/

theorem GuestType.recognizes : Recognizes parse IsText :=
  .of_parse_append fun _ ht ↦ parse_chars_append ht

theorem Descriptor.TypeBegins.viable {x : List Char} (h : TypeBegins x) :
    Viable GuestType.IsText (String.ofList x) := by
  obtain ⟨t, more, ht, hchars⟩ := h
  refine ⟨String.ofList more, t, ht, ?_⟩
  rw [GuestType.text, hchars, String.ofList_append]

/-- **A field's type that is not accepted** has something left over, or its reader has stopped. -/
theorem GuestType.of_parse_eq_error {s : String} {e : DescriptorError} (h : parse s = .error e) :
    e.descriptor = s ∧ (Overlong IsText s ∨
      Stops (ParseFails parse) (fun cs ↦ Viable IsText (String.ofList cs)) 0 s.toList e.fault) := by
  rw [parse] at h
  split at h
  next fault hread =>
    cases h
    refine ⟨rfl, .inr ?_⟩
    refine (readType_stops hread).prepend (q := []) (fun _ ↦ TypeBegins.viable) fun x f _ hx ↦ ?_
    rw [List.nil_append, ParseFails, parse, String.toList_ofList, hx]
  next after hread =>
    cases h
    refine ⟨rfl, .inr ?_⟩
    obtain ⟨-, hsplit, -⟩ := of_readType_eq_ok hread
    rw [hsplit]
    refine .voidValue (p := []) typeBegins_nil.viable fun rest ↦ ?_
    rw [List.nil_append, ParseFails, parse, String.toList_ofList, readType_of_ofLetter? rfl]
  · cases h
  next t offset c cs hne hread =>
    cases h
    refine ⟨rfl, .inl ?_⟩
    obtain ⟨ht, hsplit, -⟩ := of_readType_eq_ok hread
    have hs : s = t.text ++ String.ofList (c :: cs) := by
      rw [text, ← String.ofList_append, ← hsplit, String.ofList_toList]
    rw [hs]
    exact overlong_append_cons ⟨t, ht.wellFormed hne, rfl⟩ c cs

/-! ### Methods -/

theorem Signature.recognizes : Recognizes parse IsText :=
  .of_parse_append fun _ hd ↦ parse_chars_append hd

theorem Descriptor.ParamsBegin.viable {x : List Char} (h : ParamsBegin x) :
    Viable Signature.IsText (String.ofList ('(' :: x)) := by
  obtain ⟨ts, more, hts, hchars⟩ := h
  refine ⟨String.ofList (more ++ GuestType.void.chars), ⟨ts, .void⟩, ⟨hts, .inl rfl⟩, ?_⟩
  rw [Signature.text, Signature.chars_eq, hchars, ← String.ofList_append, List.cons_append,
    List.append_assoc]

theorem Descriptor.TypeBegins.viable_result {params : List GuestType} {x : List Char}
    (hparams : ∀ t ∈ params, t.WellFormed) (h : TypeBegins x) :
    Viable Signature.IsText (String.ofList ('(' :: Signature.paramChars params ++ x)) := by
  obtain ⟨t, more, ht, hchars⟩ := h
  refine ⟨String.ofList more, ⟨params, t⟩, ⟨hparams, .inr ht⟩, ?_⟩
  rw [Signature.text, Signature.chars_eq, hchars, ← String.ofList_append, List.cons_append,
    List.cons_append, List.append_assoc]

/-- Whether a text begins with the parenthesis that opens a parameter list. -/
def Signature.OpensParams (s : String) : Prop :=
  ∃ cs, s.toList = '(' :: cs

theorem Signature.opensParams_of_overlong {s : String} (h : Overlong IsText s) :
    OpensParams s := by
  obtain ⟨p, rest, ⟨d, -, rfl⟩, -, rfl⟩ := h
  refine ⟨paramChars d.params ++ d.result.chars ++ rest.toList, ?_⟩
  rw [String.toList_append, text, String.toList_ofList, chars_eq, List.cons_append]

/-- The empty text is the only viable one that does not open its parameter list. -/
theorem Signature.opensParams_of_viable {s : String} (h : Viable IsText s) (hne : s ≠ "") :
    OpensParams s := by
  obtain ⟨more, d, -, htext⟩ := h
  have hchars := congrArg String.toList htext
  rw [String.toList_append, text, String.toList_ofList, chars_eq] at hchars
  cases hs : s.toList with
  | nil => exact absurd (String.toList_eq_nil_iff.1 hs) hne
  | cons c cs =>
    rw [hs, List.cons_append] at hchars
    obtain ⟨rfl, -⟩ := List.cons.inj hchars
    exact ⟨cs, hs⟩

/-- A fault in the parameters is a stop behind the opening parenthesis. -/
theorem Signature.stops_of_readParams {cs : List Char} {fault : DescriptorFault}
    (h : readParams 1 cs = .error fault) :
    Stops (ParseFails parse) (fun cs ↦ Viable IsText (String.ofList cs)) 0 ('(' :: cs) fault := by
  have hstops : Stops _ ParamsBegin (0 + utf8Length ['(']) cs fault := readParams_stops h
  refine hstops.prepend (fun _ ↦ ParamsBegin.viable) fun x f _ hx ↦ ?_
  have hx' : readParams 1 x = .error f := hx
  rw [List.singleton_append, ParseFails, parse_open, hx']

/-- A fault in the result is a stop behind the parameter list. -/
theorem Signature.stops_of_readType {params : List GuestType} {cs : List Char}
    {fault : DescriptorFault} (hparams : ∀ t ∈ params, t.WellFormed)
    (h : readType (1 + utf8Length (paramChars params)) cs = .error fault) :
    Stops (ParseFails parse) (fun cs ↦ Viable IsText (String.ofList cs)) 0
      ('(' :: paramChars params ++ cs) fault := by
  have hoffset : 0 + utf8Length ('(' :: paramChars params) = 1 + utf8Length (paramChars params) :=
    Nat.zero_add _
  rw [← hoffset] at h
  refine (readType_stops h).prepend (fun _ ↦ TypeBegins.viable_result hparams) fun x f _ hx ↦ ?_
  rw [hoffset] at hx
  rw [List.cons_append, ParseFails, parse_open, readParams_paramChars_append hparams]
  simp only [hx]

/-- **A method's descriptor that opens its parameter list and is not accepted** has something left
over, or one of the two readers has stopped. -/
theorem Signature.of_parse_eq_error {s : String} {e : DescriptorError} (h : parse s = .error e)
    (hopen : OpensParams s) :
    e.descriptor = s ∧ (Overlong IsText s ∨
      Stops (ParseFails parse) (fun cs ↦ Viable IsText (String.ofList cs)) 0 s.toList e.fault) := by
  obtain ⟨cs, hcs⟩ := hopen
  obtain rfl : s = String.ofList ('(' :: cs) := by rw [← hcs, String.ofList_toList]
  rw [parse_open] at h
  rw [String.toList_ofList]
  split at h
  next fault hread =>
    cases h
    exact ⟨rfl, .inr (stops_of_readParams hread)⟩
  next params place hread =>
    obtain ⟨hparams, rfl, hplace⟩ := of_readParams_eq_ok hread
    split at h
    next fault hresult =>
      cases h
      rw [hplace] at hresult
      exact ⟨rfl, .inr (stops_of_readType hparams hresult)⟩
    · cases h
    next result offset c rest hresult =>
      cases h
      refine ⟨rfl, .inl ?_⟩
      obtain ⟨hr, hsplit, -⟩ := of_readType_eq_ok hresult
      have hs : String.ofList ('(' :: (paramChars params ++ place.rest)) =
          text ⟨params, result⟩ ++ String.ofList (c :: rest) := by
        rw [hsplit, text, chars_eq, ← String.ofList_append, List.cons_append, List.append_assoc]
      rw [hs]
      exact overlong_append_cons ⟨⟨params, result⟩, ⟨hparams, hr⟩, rfl⟩ c rest

/-! ### The law -/

/-- The law of viable prefixes for signatures. A text that does not open its parameter list is set
apart, and the empty text with it. -/
structure Signature.ViablePrefixLaw (s : String) (fault : DescriptorFault) : Prop where
  leftover_iff : fault = .leftover ↔ Overlong IsText s
  endsEarly_iff : fault = .endsEarly ↔ Viable IsText s ∧ s ≠ ""
  noParameters_iff : fault = .noParameters ↔ ¬OpensParams s
  blamesFirst : ¬Overlong IsText s → ¬(Viable IsText s ∧ s ≠ "") → OpensParams s →
    BlamesFirst IsText s fault

theorem Signature.viablePrefixLaw_of_not_opensParams {s : String} (h : ¬OpensParams s) :
    ViablePrefixLaw s .noParameters where
  leftover_iff := iff_of_false DescriptorFault.noConfusion fun hlong ↦
    h (opensParams_of_overlong hlong)
  endsEarly_iff := iff_of_false DescriptorFault.noConfusion fun ⟨hviable, hne⟩ ↦
    h (opensParams_of_viable hviable hne)
  noParameters_iff := iff_of_true rfl h
  blamesFirst _ _ hopen := absurd hopen h

theorem Signature.viablePrefixLaw_of_opensParams {s : String} {fault : DescriptorFault}
    (hopen : OpensParams s) (hne : fault ≠ .noParameters)
    (hlaw : Descriptor.ViablePrefixLaw IsText s fault) : ViablePrefixLaw s fault := by
  have hs : s ≠ "" := by
    rintro rfl
    obtain ⟨cs, hcs⟩ := hopen
    cases hcs
  exact {
    leftover_iff := hlaw.leftover_iff
    endsEarly_iff := by rw [hlaw.endsEarly_iff, and_iff_left hs]
    noParameters_iff := iff_of_false hne fun hnot ↦ hnot hopen
    blamesFirst := fun hnotLong hnotViable _ ↦
      hlaw.blamesFirst hnotLong fun hviable ↦ hnotViable ⟨hviable, hs⟩ }

theorem GuestType.viablePrefixLaw_of_parse {s : String} {e : DescriptorError}
    (h : parse s = .error e) : e.descriptor = s ∧ ViablePrefixLaw IsText s e.fault := by
  obtain ⟨rfl, hend⟩ := of_parse_eq_error h
  exact ⟨rfl, recognizes.viablePrefixLaw h hend⟩

theorem Signature.viablePrefixLaw_of_parse {s : String} {e : DescriptorError}
    (h : parse s = .error e) : e.descriptor = s ∧ ViablePrefixLaw s e.fault := by
  by_cases hopen : OpensParams s
  · obtain ⟨rfl, hend⟩ := of_parse_eq_error h hopen
    have hlaw : Descriptor.ViablePrefixLaw IsText e.descriptor e.fault :=
      recognizes.viablePrefixLaw h hend
    have hne : e.fault ≠ .noParameters := by
      rcases hend with hlong | hstops
      · rw [hlaw.leftover_iff.2 hlong]
        exact DescriptorFault.noConfusion
      · exact hstops.ne_noParameters
    exact ⟨rfl, viablePrefixLaw_of_opensParams hopen hne hlaw⟩
  · rw [parse_of_not_open fun cs hcs ↦ hopen ⟨cs, hcs⟩] at h
    cases h
    exact ⟨rfl, viablePrefixLaw_of_not_opensParams hopen⟩

/-- **Descriptors are refused by the law of viable prefixes.** A text that is no type of a value,
or no signature, is refused with its own text, and what is found wrong with it is what the grammar
alone determines. -/
theorem Descriptor.refused_by_viablePrefixLaw (s : String) :
    (¬GuestType.IsText s → ∃ fault, GuestType.parse s = .error ⟨fault, s⟩ ∧
      ViablePrefixLaw GuestType.IsText s fault) ∧
    (¬Signature.IsText s → ∃ fault, Signature.parse s = .error ⟨fault, s⟩ ∧
      Signature.ViablePrefixLaw s fault) := by
  constructor
  · intro hnot
    cases hparse : GuestType.parse s with
    | ok t =>
      obtain ⟨ht, htext⟩ := GuestType.of_parse_eq_ok hparse
      exact absurd ⟨t, ht, htext⟩ hnot
    | error e =>
      obtain ⟨rfl, hlaw⟩ := GuestType.viablePrefixLaw_of_parse hparse
      exact ⟨e.fault, rfl, hlaw⟩
  · intro hnot
    cases hparse : Signature.parse s with
    | ok d =>
      obtain ⟨hd, htext⟩ := Signature.of_parse_eq_ok hparse
      exact absurd ⟨d, hd, htext⟩ hnot
    | error e =>
      obtain ⟨rfl, hlaw⟩ := Signature.viablePrefixLaw_of_parse hparse
      exact ⟨e.fault, rfl, hlaw⟩

/-- The element of an array is no `void`, and a class has a name. -/
theorem Descriptor.refused_by_viablePrefixLaw_voidElement_emptyName :
    BlamesFirst GuestType.IsText "[V" .voidValue ∧
      BlamesFirst Signature.IsText "(L;)V" (.badCharacter ';' 2) := by
  constructor
  · have hparse : GuestType.parse "[V" = .error ⟨.voidValue, "[V"⟩ := rfl
    have hnot : ¬GuestType.IsText "[V" := GuestType.recognizes.not_valid_of_error hparse
    obtain ⟨fault, hfault, hlaw⟩ := (refused_by_viablePrefixLaw "[V").1 hnot
    rw [hparse] at hfault
    cases hfault
    refine hlaw.blamesFirst ?_ ?_
    · exact fun hlong ↦ DescriptorFault.noConfusion (hlaw.leftover_iff.2 hlong)
    · exact fun hviable ↦ DescriptorFault.noConfusion (hlaw.endsEarly_iff.2 hviable)
  · have hparse : Signature.parse "(L;)V" = .error ⟨.badCharacter ';' 2, "(L;)V"⟩ := by
      have hread : readType 1 "L;)V".toList = .error (.badCharacter ';' 2) := rfl
      have hparams := Signature.readParams_of_readType_error hread nofun
      have hopen := Signature.parse_open "L;)V".toList
      rwa [hparams] at hopen
    have hnot : ¬Signature.IsText "(L;)V" := Signature.recognizes.not_valid_of_error hparse
    obtain ⟨fault, hfault, hlaw⟩ := (refused_by_viablePrefixLaw "(L;)V").2 hnot
    rw [hparse] at hfault
    cases hfault
    refine hlaw.blamesFirst ?_ ?_ ⟨"L;)V".toList, rfl⟩
    · exact fun hlong ↦ DescriptorFault.noConfusion (hlaw.leftover_iff.2 hlong)
    · exact fun hviable ↦ DescriptorFault.noConfusion (hlaw.endsEarly_iff.2 hviable)

end HostMethods
