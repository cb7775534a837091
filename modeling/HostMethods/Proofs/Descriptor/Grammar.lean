import HostMethods.Descriptor.Signature
import HostMethods.Proofs.Outcome

/-!
# Readers and the descriptor grammar

The grammar of descriptors is given by the texts of types and signatures (`GuestType.chars`,
`Signature.chars`) and by which of these are well formed. This module says that the readers accept
exactly this grammar.

Every statement is about a text that is *followed by something*. A type's text never goes on inside
another text, so a reader stops behind it whatever the rest is, and that is what lets the texts of
parameters stand next to each other. Each reader is characterized in both directions: it reads back
the texts of its kind (`readType_chars_append`, `readParams_paramChars_append`), and reads no others
(`of_readType_eq_ok`, `of_readParams_eq_ok`). For whole texts the two directions make one
equivalence, `Signature.parse_eq_ok_iff`. The offsets belong to what is said: a reader moves on by
the bytes of what it has read.

A reader of types also accepts `void` on its own. `GuestType.IsResult` are the types that it can
return; where only a value may stand, its callers refuse `void`.
-/

namespace HostMethods

open Text (utf8Length)

/-- A type that a method may declare as its result: `void`, or a type of values. -/
def GuestType.IsResult (t : GuestType) : Prop :=
  t = .void ∨ t.WellFormed

theorem GuestType.WellFormed.isResult {t : GuestType} (h : t.WellFormed) : t.IsResult :=
  .inr h

theorem GuestType.WellFormed.ne_void {t : GuestType} (h : t.WellFormed) : t ≠ .void := by
  rintro rfl
  exact h

/-- A result that is not `void` is a value. -/
theorem GuestType.IsResult.wellFormed {t : GuestType} (h : t.IsResult) (hne : t ≠ .void) :
    t.WellFormed :=
  h.resolve_left hne

/-- A letter names `void` or a type of values. -/
theorem GuestType.isResult_of_ofLetter? {c : Char} {t : GuestType} (h : ofLetter? c = some t) :
    t.IsResult := by
  unfold ofLetter? at h
  split at h <;> cases h
  case h_9 => exact .inl rfl
  all_goals exact .inr trivial

/-- The letters are ASCII characters. -/
theorem GuestType.utf8Length_of_ofLetter? {c : Char} {t : GuestType} (h : ofLetter? c = some t) :
    utf8Length t.chars = 1 := by
  unfold ofLetter? at h
  split at h <;> cases h <;> rfl

namespace Descriptor

/-! ### Names -/

/-- In a text without semicolon nothing ends a name. -/
theorem decide_ne_semicolon_of_not_mem {cs : List Char} (h : ';' ∉ cs) :
    ∀ c ∈ cs, decide (c ≠ ';') = true := by
  intro c hc
  exact decide_eq_true fun heq ↦ h (heq ▸ hc)

/-- A name goes up to the first semicolon. -/
theorem readName_append {name : List Char} (hne : name ≠ []) (hname : ';' ∉ name) (offset : Nat)
    (rest : List Char) :
    readName offset (name ++ ';' :: rest) =
      .ok (String.ofList name, ⟨offset + utf8Length name + 1, rest⟩) := by
  have hchars := decide_ne_semicolon_of_not_mem hname
  have htake : (name ++ ';' :: rest).takeWhile (· ≠ ';') = name := by
    rw [List.takeWhile_append_of_pos hchars, List.takeWhile_cons_of_neg (by decide),
      List.append_nil]
  have hdrop : (name ++ ';' :: rest).dropWhile (· ≠ ';') = ';' :: rest := by
    rw [List.dropWhile_append_of_pos hchars, List.dropWhile_cons_of_neg (by decide)]
  obtain ⟨c, cs, rfl⟩ := List.exists_cons_of_ne_nil hne
  rw [readName, htake, hdrop]

/-- A name is not empty. -/
theorem readName_semicolon (offset : Nat) (rest : List Char) :
    readName offset (';' :: rest) = .error (.badCharacter ';' offset) := by
  simp [readName]

/-- A name ends with a semicolon. -/
theorem readName_of_not_mem {cs : List Char} (h : ';' ∉ cs) (offset : Nat) :
    readName offset cs = .error .endsEarly := by
  have hdrop : cs.dropWhile (· ≠ ';') = [] := by
    rw [← List.append_nil cs, List.dropWhile_append_of_pos (decide_ne_semicolon_of_not_mem h)]
    rfl
  rw [readName, hdrop]

/-- A text either has no semicolon, or it starts with one, or a name that is not empty stands
before the first. -/
theorem name_cases (cs : List Char) :
    ';' ∉ cs ∨ (∃ rest, cs = ';' :: rest) ∨
      ∃ name rest, name ≠ [] ∧ ';' ∉ name ∧ cs = name ++ ';' :: rest := by
  by_cases hmem : ';' ∈ cs
  · obtain ⟨name, rest, rfl, hname⟩ := List.eq_append_cons_of_mem hmem
    cases name with
    | nil => exact .inr (.inl ⟨rest, rfl⟩)
    | cons c name => exact .inr (.inr ⟨c :: name, rest, List.cons_ne_nil _ _, hname, rfl⟩)
  · exact .inl hmem

/-- The names that are read are those that are neither empty nor hold a semicolon. -/
theorem readName_eq_ok_iff {offset : Nat} {cs : List Char} {name : String} {after : Cursor} :
    readName offset cs = .ok (name, after) ↔
      (name ≠ "" ∧ ';' ∉ name.toList) ∧ cs = name.toList ++ ';' :: after.rest ∧
        after.offset = offset + utf8Length name.toList + 1 := by
  constructor
  · intro h
    obtain hmem | ⟨rest, rfl⟩ | ⟨chars, rest, hne, hmem, rfl⟩ := name_cases cs
    · rw [readName_of_not_mem hmem] at h
      cases h
    · rw [readName_semicolon] at h
      cases h
    · rw [readName_append hne hmem] at h
      cases h
      rw [String.toList_ofList]
      exact ⟨⟨mt String.ofList_eq_empty_iff.1 hne, hmem⟩, rfl, rfl⟩
  · rintro ⟨⟨hne, hmem⟩, rfl, hoffset⟩
    have hnil : name.toList ≠ [] := mt String.toList_eq_nil_iff.1 hne
    rw [readName_append hnil hmem, String.ofList_toList, ← hoffset]

/-! ### Types -/

/-- A letter is a type on its own. -/
theorem readType_of_ofLetter? {c : Char} {t : GuestType} (h : GuestType.ofLetter? c = some t)
    (offset : Nat) (rest : List Char) :
    readType offset (c :: rest) = .ok (t, ⟨offset + 1, rest⟩) := by
  unfold GuestType.ofLetter? at h
  split at h <;> cases h <;> rfl

/-- Only types made of several characters begin with a character that is no letter. -/
theorem readType_of_ofLetter?_eq_none {c : Char} (h : GuestType.ofLetter? c = none)
    (hL : c ≠ 'L') (hbracket : c ≠ '[') (offset : Nat) (rest : List Char) :
    readType offset (c :: rest) = .error (.badCharacter c offset) := by
  rw [readType]
  · rw [h]
  · exact hL
  · exact hbracket

/-- **Texts of types are read back**, whatever follows them. -/
theorem readType_chars_append {t : GuestType} (ht : t.IsResult) (offset : Nat)
    (rest : List Char) :
    readType offset (t.chars ++ rest) = .ok (t, ⟨offset + utf8Length t.chars, rest⟩) := by
  induction t generalizing offset with
  | object name =>
    obtain ⟨hne, hmem⟩ := ht.wellFormed GuestType.noConfusion
    have hnil : name.toList ≠ [] := mt String.toList_eq_nil_iff.1 hne
    have hlength : utf8Length (GuestType.object name).chars = 1 + utf8Length name.toList + 1 := by
      simp only [GuestType.chars, Text.utf8Length_cons, Text.utf8Length_append,
        Text.utf8Length_nil]
      rfl
    rw [hlength, GuestType.chars, List.cons_append, List.append_assoc, List.singleton_append,
      readType, readName_append hnil hmem, String.ofList_toList]
    simp only [Except.map, Nat.add_assoc]
  | array element ih =>
    have helement : element.WellFormed := ht.wellFormed GuestType.noConfusion
    have hlength : utf8Length (GuestType.array element).chars = 1 + utf8Length element.chars := rfl
    rw [hlength, GuestType.chars, List.cons_append, readType, ih helement.isResult]
    cases element with
    | void => exact absurd rfl helement.ne_void
    | _ => simp only [Nat.add_assoc]
  | boolean | byte | char | short | int | long | float | double | void =>
    exact readType_of_ofLetter? rfl offset rest

/-- **Only texts of types are read**, and a reader stops right behind the text. -/
theorem of_readType_eq_ok {offset : Nat} {cs : List Char} {t : GuestType} {after : Cursor}
    (h : readType offset cs = .ok (t, after)) :
    t.IsResult ∧ cs = t.chars ++ after.rest ∧ after.offset = offset + utf8Length t.chars := by
  fun_induction readType offset cs generalizing t after with
  | case1 => cases h
  | case2 offset cs =>
    cases hname : readName (offset + 1) cs with
    | error fault =>
      rw [hname] at h
      cases h
    | ok p =>
      obtain ⟨name, place⟩ := p
      rw [hname] at h
      cases h
      obtain ⟨hwf, rfl, hoffset⟩ := readName_eq_ok_iff.1 hname
      refine ⟨.inr hwf, ?_, ?_⟩
      · simp [GuestType.chars]
      · rw [hoffset, GuestType.chars, Text.utf8Length_cons, Text.utf8Length_append,
          show 'L'.utf8Size = 1 from rfl, show utf8Length [';'] = 1 from rfl]
        omega
  | case3 => cases h
  | case4 => cases h
  | case5 offset cs element place hvoid hread ih =>
    cases h
    obtain ⟨helement, rfl, hoffset⟩ := ih hread
    refine ⟨.inr (helement.wellFormed hvoid), rfl, ?_⟩
    rw [hoffset, GuestType.chars, Text.utf8Length_cons, show '['.utf8Size = 1 from rfl,
      Nat.add_assoc]
  | case6 offset c cs hL hbracket t hletter =>
    cases h
    refine ⟨GuestType.isResult_of_ofLetter? hletter, ?_, ?_⟩
    · rw [GuestType.chars_of_ofLetter? hletter, List.singleton_append]
    · rw [GuestType.utf8Length_of_ofLetter? hletter]
  | case7 => cases h

/-- No type begins with a closing parenthesis. -/
theorem readType_close (offset : Nat) (rest : List Char) :
    readType offset (')' :: rest) = .error (.badCharacter ')' offset) :=
  readType_of_ofLetter?_eq_none rfl (by decide) (by decide) offset rest

end Descriptor

open Descriptor in
/-- The text of a type of values is read back; with more text behind it, that is what is wrong. -/
theorem GuestType.parse_chars_append {t : GuestType} (ht : t.WellFormed) (rest : List Char) :
    parse (String.ofList (t.chars ++ rest)) =
      if rest = [] then .ok t else .error ⟨.leftover, String.ofList (t.chars ++ rest)⟩ := by
  rw [parse, String.toList_ofList, readType_chars_append ht.isResult]
  cases t with
  | void => exact absurd rfl ht.ne_void
  | _ => cases rest <;> rfl

open Descriptor in
/-- What is read is the type of a value, and the text is its own. -/
theorem GuestType.of_parse_eq_ok {s : String} {t : GuestType} (h : parse s = .ok t) :
    t.WellFormed ∧ s = t.text := by
  rw [parse] at h
  split at h
  · cases h
  · cases h
  next hne hread =>
    cases h
    obtain ⟨ht, hsplit, -⟩ := of_readType_eq_ok hread
    refine ⟨ht.wellFormed hne, ?_⟩
    rw [text, ← String.ofList_toList (s := s), hsplit, List.append_nil]
  · cases h

namespace Signature

open Descriptor

/-! ### Parameter lists -/

/-- A closing parenthesis ends a parameter list. -/
theorem readParams_close (offset : Nat) (rest : List Char) :
    readParams offset (')' :: rest) = .ok ([], ⟨offset + 1, rest⟩) := by
  rw [readParams]

/-- A parameter that is read is the first of the list, unless it is `void`. -/
theorem readParams_of_readType {offset : Nat} {cs : List Char} {t : GuestType} {after : Cursor}
    (hread : readType offset cs = .ok (t, after)) :
    readParams offset cs =
      if t = .void then .error .voidValue
      else (readParams after.offset after.rest).map fun (ts, place) ↦ (t :: ts, place) := by
  rw [readParams.eq_def]
  split
  next rest =>
    rw [readType_close] at hread
    cases hread
  · split
    next hfault =>
      rw [hfault] at hread
      cases hread
    next hvoid =>
      rw [hvoid] at hread
      cases hread
      rw [if_pos rfl]
    next hne hother =>
      rw [hother] at hread
      cases hread
      rw [if_neg hne]

/-- Where no parameter can be read and the list is not at its end, there is no list. -/
theorem readParams_of_readType_error {offset : Nat} {cs : List Char} {fault : DescriptorFault}
    (hread : readType offset cs = .error fault) (hopen : ∀ rest, cs ≠ ')' :: rest) :
    readParams offset cs = .error fault := by
  rw [readParams.eq_def]
  split
  next rest => exact absurd rfl (hopen rest)
  · split
    next hfault =>
      rw [hfault] at hread
      cases hread
      rfl
    next hvoid =>
      rw [hvoid] at hread
      cases hread
    next hother =>
      rw [hother] at hread
      cases hread

/-- The text of a parameter list up to its closing parenthesis. -/
def paramChars (ts : List GuestType) : List Char :=
  ts.flatMap GuestType.chars ++ [')']

@[simp]
theorem paramChars_nil : paramChars [] = [')'] :=
  rfl

@[simp]
theorem paramChars_cons (t : GuestType) (ts : List GuestType) :
    paramChars (t :: ts) = t.chars ++ paramChars ts := by
  rw [paramChars, List.flatMap_cons, List.append_assoc, paramChars]

/-- **Texts of parameter lists are read back**, whatever follows them. -/
theorem readParams_paramChars_append {ts : List GuestType} (hts : ∀ t ∈ ts, t.WellFormed)
    (offset : Nat) (rest : List Char) :
    readParams offset (paramChars ts ++ rest) =
      .ok (ts, ⟨offset + utf8Length (paramChars ts), rest⟩) := by
  induction ts generalizing offset with
  | nil => exact readParams_close offset rest
  | cons t ts ih =>
    have ht : t.WellFormed := hts t List.mem_cons_self
    have htail : ∀ t ∈ ts, t.WellFormed := fun u hu ↦ hts u (List.mem_cons_of_mem t hu)
    rw [paramChars_cons, List.append_assoc,
      readParams_of_readType (readType_chars_append ht.isResult offset _), if_neg ht.ne_void,
      ih htail, Text.utf8Length_append, ← Nat.add_assoc]
    rfl

/-- **Only texts of parameter lists are read.** -/
theorem of_readParams_eq_ok {offset : Nat} {cs : List Char} {ts : List GuestType}
    {after : Cursor} (h : readParams offset cs = .ok (ts, after)) :
    (∀ t ∈ ts, t.WellFormed) ∧ cs = paramChars ts ++ after.rest ∧
      after.offset = offset + utf8Length (paramChars ts) := by
  fun_induction readParams offset cs generalizing ts after with
  | case1 offset rest =>
    cases h
    exact ⟨nofun, rfl, rfl⟩
  | case2 => cases h
  | case3 => cases h
  | case4 offset cs hopen t place hne hread ih =>
    obtain ⟨⟨us, stop⟩, hrest, hcons⟩ := Except.exists_of_map_eq_ok h
    cases hcons
    obtain ⟨ht, rfl, hplace⟩ := of_readType_eq_ok hread
    obtain ⟨hus, hplaceRest, hstop⟩ := ih hrest
    refine ⟨?_, ?_, ?_⟩
    · rintro u (_ | ⟨_, hu⟩)
      · exact ht.wellFormed hne
      · exact hus u hu
    · rw [paramChars_cons, List.append_assoc, ← hplaceRest]
    · rw [hstop, hplace, paramChars_cons, Text.utf8Length_append, Nat.add_assoc]

/-! ### Signatures -/

/-- The text of a signature is its parameter list and its result. -/
theorem chars_eq (d : Signature) : d.chars = '(' :: (paramChars d.params ++ d.result.chars) := by
  rw [chars, paramChars, List.append_assoc, List.singleton_append]

/-- A text that does not open a parameter list is no signature. -/
theorem parse_of_not_open {s : String} (h : ∀ cs, s.toList ≠ '(' :: cs) :
    parse s = .error ⟨.noParameters, s⟩ := by
  rw [parse]
  split
  next cs hopen => exact absurd hopen (h cs)
  · rfl

/-- What is behind the opening parenthesis decides about all other texts. -/
theorem parse_open (cs : List Char) :
    parse (String.ofList ('(' :: cs)) =
      match readParams 1 cs with
      | .error fault => .error ⟨fault, String.ofList ('(' :: cs)⟩
      | .ok (params, place) =>
        match readType place.offset place.rest with
        | .error fault => .error ⟨fault, String.ofList ('(' :: cs)⟩
        | .ok (result, ⟨_, []⟩) => .ok ⟨params, result⟩
        | .ok (_, ⟨_, _ :: _⟩) => .error ⟨.leftover, String.ofList ('(' :: cs)⟩ := by
  rw [parse, String.toList_ofList]
  rfl

/-- A signature's text is read back; with more text behind it, that is what is wrong. -/
theorem parse_chars_append {d : Signature} (hd : d.WellFormed) (rest : List Char) :
    parse (String.ofList (d.chars ++ rest)) =
      if rest = [] then .ok d else .error ⟨.leftover, String.ofList (d.chars ++ rest)⟩ := by
  obtain ⟨hparams, hresult⟩ := hd
  rw [chars_eq, List.cons_append, List.append_assoc, parse_open,
    readParams_paramChars_append hparams]
  simp only [readType_chars_append hresult]
  cases rest <;> rfl

/-- What is read is a well-formed signature, and the text is its own. -/
theorem of_parse_eq_ok {s : String} {d : Signature} (h : parse s = .ok d) :
    d.WellFormed ∧ s = d.text := by
  by_cases hopen : ∃ cs, s.toList = '(' :: cs
  · obtain ⟨cs, hcs⟩ := hopen
    obtain rfl : s = String.ofList ('(' :: cs) := by rw [← hcs, String.ofList_toList]
    rw [parse_open] at h
    split at h
    · cases h
    next params place hparams =>
      split at h
      · cases h
      next result offset hresult =>
        cases h
        obtain ⟨hps, rfl, hplace⟩ := of_readParams_eq_ok hparams
        obtain ⟨hr, hrest, -⟩ := of_readType_eq_ok hresult
        refine ⟨⟨hps, hr⟩, ?_⟩
        rw [text, chars_eq, hrest, List.append_nil]
      · cases h
  · rw [parse_of_not_open fun cs hcs ↦ hopen ⟨cs, hcs⟩] at h
    cases h

/-- **Parsing accepts exactly the texts of well-formed signatures**, and is the inverse of
rendering: a text is read as a signature if and only if the signature is well formed and the text
is the one it is rendered to. -/
theorem parse_eq_ok_iff (s : String) (d : Signature) :
    parse s = .ok d ↔ d.WellFormed ∧ s = d.text := by
  constructor
  · exact of_parse_eq_ok
  · rintro ⟨hd, rfl⟩
    have hread := parse_chars_append hd []
    rwa [List.append_nil, if_pos rfl] at hread

end Signature

end HostMethods
