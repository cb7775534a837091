import HostMethods.Proofs.Descriptor.Grammar
import HostMethods.Proofs.Text.Slices

/-!
# Reading descriptors in place

A reader that works in place has the whole text and a byte position, where `Descriptor.readType` has
the characters that are left. It looks at the byte at its position, cuts class names out of the
text, and cuts off the rest of the text to report a character that begins no type. A position is
only a number, so nothing says beforehand that these parts can be cut out, that a character is there
to be reported, or that a loop over positions ends. Here every one of these steps can go wrong
(`Slip`), and the loop over parameters is given a number of turns.

None of them does, from any boundary of any text. Both readers are followed through the same text,
split where the reader stands: the text in front of it has as many bytes as its position says, and
what follows is what the reader of characters reads (`Descriptor.readTypeAt_append`,
`Signature.readParamsAt_append`, `Signature.parseAt_eq`). So what is read in place is the text of a
type, and nothing else matters: wherever the bytes of that text are found, the type is read
(`Descriptor.TypeLaw`).
-/

namespace HostMethods

open Text (utf8Length)

namespace GuestType

theorem chars_ne_nil (t : GuestType) : t.chars ≠ [] := by
  cases t <;> exact List.cons_ne_nil _ _

theorem text_ne_empty (t : GuestType) : t.text ≠ "" :=
  mt String.ofList_eq_empty_iff.1 t.chars_ne_nil

/-- The letters are ASCII characters. -/
theorem toNat_lt_of_ofLetter? {c : Char} {t : GuestType} (h : ofLetter? c = some t) :
    c.toNat < 128 := by
  unfold ofLetter? at h
  split at h
  case h_10 => cases h
  all_goals decide

end GuestType

namespace Descriptor

/-! ### Readers -/

/-- How a reader of bytes can go wrong, apart from the faults that it is to find. -/
inductive Slip
  /-- A part of the text was to be cut out at a position that is no boundary. -/
  | badCut
  /-- A character was to be reported where there is none. -/
  | noCharacter
  /-- A loop was not over after as many turns as it was given. -/
  | outOfTurns
  deriving DecidableEq

/-- The number of bytes in front of the first occurrence of a character. -/
def byteIndex? (c : Char) : List Char → Option Nat
  | [] => none
  | d :: ds => if d = c then some 0 else (byteIndex? c ds).map (d.utf8Size + ·)

/-- Reads a class name from a byte position up to the semicolon that ends it. -/
def readNameAt (s : String) (pos : Nat) : Except Slip (Except DescriptorFault (String × Nat)) :=
  match cut? s pos s.utf8ByteSize with
  | none => .error .badCut
  | some rest =>
    match byteIndex? ';' rest.toList with
    | none => .ok (.error .endsEarly)
    | some 0 => .ok (.error (.badCharacter ';' pos))
    | some size =>
      match cut? rest 0 size with
      | none => .error .badCut
      | some name => .ok (.ok (name, pos + size + 1))

/-- The fault of the character at a byte position. -/
def reportAt (s : String) (pos : Nat) : Except Slip DescriptorFault :=
  match cut? s pos s.utf8ByteSize with
  | none => .error .badCut
  | some rest =>
    match rest.toList with
    | [] => .error .noCharacter
    | c :: _ => .ok (.badCharacter c pos)

/-- Reads one type from a byte position, and returns it with the position behind it. -/
def readTypeAt (s : String) (pos : Nat) : Except Slip (Except DescriptorFault (GuestType × Nat)) :=
  match _hbyte : byteAt? s pos with
  | none => .ok (.error .endsEarly)
  | some b =>
    match Char.ofUInt8 b with
    | 'L' => (readNameAt s (pos + 1)).map (·.map fun (name, stop) ↦ (.object name, stop))
    | '[' =>
      match readTypeAt s (pos + 1) with
      | .error slip => .error slip
      | .ok (.error fault) => .ok (.error fault)
      | .ok (.ok (.void, _)) => .ok (.error .voidValue)
      | .ok (.ok (element, stop)) => .ok (.ok (.array element, stop))
    | c =>
      match GuestType.ofLetter? c with
      | some t => .ok (.ok (t, pos + 1))
      | none => (reportAt s pos).map .error
  termination_by s.utf8ByteSize - pos
  decreasing_by
    have hlt := lt_of_byteAt? _hbyte
    omega

/-! ### Names -/

theorem byteIndex?_of_not_mem {c : Char} {cs : List Char} (h : c ∉ cs) :
    byteIndex? c cs = none := by
  induction cs with
  | nil => rfl
  | cons d ds ih =>
    rw [byteIndex?, if_neg (Ne.symm (List.ne_of_not_mem_cons h)),
      ih (List.not_mem_of_not_mem_cons h), Option.map_none]

theorem byteIndex?_append_cons {c : Char} {cs : List Char} (h : c ∉ cs) (rest : List Char) :
    byteIndex? c (cs ++ c :: rest) = some (utf8Length cs) := by
  induction cs with
  | nil => exact if_pos rfl
  | cons d ds ih =>
    rw [List.cons_append, byteIndex?, if_neg (Ne.symm (List.ne_of_not_mem_cons h)),
      ih (List.not_mem_of_not_mem_cons h), Option.map_some, Text.utf8Length_cons]

/-- What comes after a text is cut out as a whole. -/
theorem readNameAt_append (s : String) (cs : List Char) :
    readNameAt (s ++ String.ofList cs) s.utf8ByteSize =
      .ok ((readName s.utf8ByteSize cs).map fun (name, after) ↦ (name, after.offset)) := by
  rw [readNameAt, cut?_append_right]
  simp only [String.toList_ofList]
  obtain hmem | ⟨rest, rfl⟩ | ⟨name, rest, hne, hmem, rfl⟩ := name_cases cs
  · rw [byteIndex?_of_not_mem hmem, readName_of_not_mem hmem]
    rfl
  · rw [readName_semicolon]
    rfl
  · have hsize : utf8Length name ≠ 0 := mt utf8Length_eq_zero_iff.1 hne
    rw [byteIndex?_append_cons hmem, readName_append hne hmem]
    split
    next heq => cases heq
    next heq => exact absurd (Option.some.inj heq) hsize
    next size _ heq =>
      obtain rfl : utf8Length name = size := Option.some.inj heq
      rw [String.ofList_append, ← utf8ByteSize_ofList, cut?_append_left]
      rfl

theorem reportAt_append (s : String) (c : Char) (cs : List Char) :
    reportAt (s ++ String.ofList (c :: cs)) s.utf8ByteSize =
      .ok (.badCharacter c s.utf8ByteSize) := by
  rw [reportAt, cut?_append_right]
  simp only [String.toList_ofList]

/-! ### Types -/

/-- Where the text ends, no type begins. -/
theorem readTypeAt_of_none {s : String} {pos : Nat} (h : byteAt? s pos = none) :
    readTypeAt s pos = .ok (.error .endsEarly) := by
  rw [readTypeAt]
  split
  · rfl
  next hbyte => cases h.symm.trans hbyte

/-- What is read depends on the byte that a type begins with. -/
theorem readTypeAt_of_some {s : String} {pos : Nat} {b : UInt8} (h : byteAt? s pos = some b) :
    readTypeAt s pos =
      match Char.ofUInt8 b with
      | 'L' => (readNameAt s (pos + 1)).map (·.map fun (name, stop) ↦ (.object name, stop))
      | '[' =>
        match readTypeAt s (pos + 1) with
        | .error slip => .error slip
        | .ok (.error fault) => .ok (.error fault)
        | .ok (.ok (.void, _)) => .ok (.error .voidValue)
        | .ok (.ok (element, stop)) => .ok (.ok (.array element, stop))
      | c =>
        match GuestType.ofLetter? c with
        | some t => .ok (.ok (t, pos + 1))
        | none => (reportAt s pos).map .error := by
  rw [readTypeAt]
  split
  next hbyte => cases h.symm.trans hbyte
  next hbyte =>
    cases h.symm.trans hbyte
    rfl

/-- The character behind a text, as a part of the text. -/
theorem append_ofList_cons (s : String) (c : Char) (cs : List Char) :
    s ++ String.ofList (c :: cs) = s.push c ++ String.ofList cs := by
  rw [String.ofList_cons, ← String.append_assoc, String.append_singleton]

/-- The reader of an array's elements is one byte further on. -/
theorem readTypeAt_bracket {s : String} {cs : List Char}
    {element : Except DescriptorFault (GuestType × Nat)}
    (h : readTypeAt (s.push '[' ++ String.ofList cs) (s.utf8ByteSize + 1) = .ok element) :
    readTypeAt (s ++ String.ofList ('[' :: cs)) s.utf8ByteSize =
      .ok (match element with
        | .error fault => .error fault
        | .ok (.void, _) => .error .voidValue
        | .ok (t, stop) => .ok (.array t, stop)) := by
  obtain ⟨b, hbyte, hb⟩ := exists_byteAt?_of_lt s (c := '[') (by decide) cs
  rw [← append_ofList_cons] at h
  rw [readTypeAt_of_some hbyte, hb]
  simp only [h]
  rcases element with fault | ⟨t, stop⟩
  · rfl
  · cases t <;> rfl

/-- **A reader of bytes reads what a reader of characters does.** -/
theorem readTypeAt_append (s : String) (cs : List Char) :
    readTypeAt (s ++ String.ofList cs) s.utf8ByteSize =
      .ok ((readType s.utf8ByteSize cs).map fun (t, after) ↦ (t, after.offset)) := by
  generalize hoffset : s.utf8ByteSize = offset
  fun_induction readType offset cs generalizing s with subst hoffset
  | case1 offset =>
    rw [String.ofList_nil, String.append_empty, readTypeAt_of_none (byteAt?_utf8ByteSize s)]
    rfl
  | case2 offset cs =>
    obtain ⟨b, hbyte, hb⟩ := exists_byteAt?_of_lt s (c := 'L') (by decide) cs
    have hname := readNameAt_append (s.push 'L') cs
    rw [← append_ofList_cons, String.utf8ByteSize_push, show 'L'.utf8Size = 1 from rfl] at hname
    rw [readTypeAt_of_some hbyte, hb]
    show (readNameAt _ _).map _ = _
    rw [hname]
    cases readName (s.utf8ByteSize + 1) cs <;> rfl
  | case3 offset cs fault hread ih =>
    have hinner := ih (s.push '[') String.utf8ByteSize_push
    rw [hread] at hinner
    exact readTypeAt_bracket hinner
  | case4 offset cs place hread ih =>
    have hinner := ih (s.push '[') String.utf8ByteSize_push
    rw [hread] at hinner
    exact readTypeAt_bracket hinner
  | case5 offset cs element place hvoid hread ih =>
    have hinner := ih (s.push '[') String.utf8ByteSize_push
    rw [hread] at hinner
    rw [readTypeAt_bracket hinner]
    cases element with
    | void => exact absurd rfl hvoid
    | _ => rfl
  | case6 offset c cs hL hbracket t hletter =>
    obtain ⟨b, hbyte, hb⟩ := exists_byteAt?_of_lt s (GuestType.toNat_lt_of_ofLetter? hletter) cs
    rw [readTypeAt_of_some hbyte, hb]
    split
    · exact absurd rfl hL
    · exact absurd rfl hbracket
    · rw [hletter]
      rfl
  | case7 offset c cs hL hbracket hletter =>
    obtain ⟨b, hbyte, hb⟩ := exists_byteAt?_cons s c cs
    -- a byte of a longer character is no letter either
    have hnone : GuestType.ofLetter? (Char.ofUInt8 b) = none := by
      refine Option.eq_none_iff_forall_ne_some.2 fun t ht ↦ ?_
      have hsame : c = Char.ofUInt8 b := (hb _ (GuestType.toNat_lt_of_ofLetter? ht)).1 rfl
      rw [hsame, ht] at hletter
      cases hletter
    rw [readTypeAt_of_some hbyte]
    split
    next heq => exact absurd ((hb _ (by decide)).1 heq) hL
    next heq => exact absurd ((hb _ (by decide)).1 heq) hbracket
    next =>
      rw [hnone, reportAt_append]
      rfl

/-- The text of a type is read, whatever stands around it. -/
theorem readTypeAt_text {t : GuestType} (ht : t.IsResult) (before after : String) :
    readTypeAt (before ++ (t.text ++ after)) before.utf8ByteSize =
      .ok (.ok (t, before.utf8ByteSize + t.text.utf8ByteSize)) := by
  have hread := readTypeAt_append before (t.chars ++ after.toList)
  rw [String.ofList_append, String.ofList_toList, readType_chars_append ht,
    ← utf8ByteSize_ofList] at hread
  exact hread

/-- What is read at a boundary is the text of a type. -/
theorem exists_of_readTypeAt {s : String} {pos stop : Nat} {t : GuestType}
    (hpos : IsBoundary s pos) (h : readTypeAt s pos = .ok (.ok (t, stop))) :
    t.IsResult ∧ ∃ before after, s = before ++ (t.text ++ after) ∧ before.utf8ByteSize = pos ∧
      stop = pos + t.text.utf8ByteSize := by
  obtain ⟨before, rest, rfl, rfl⟩ := isBoundary_iff.1 hpos
  rw [← String.ofList_toList (s := rest), readTypeAt_append, Except.ok.injEq] at h
  obtain ⟨⟨u, place⟩, hread, heq⟩ := Except.exists_of_map_eq_ok h
  cases heq
  obtain ⟨ht, hrest, hoffset⟩ := of_readType_eq_ok hread
  refine ⟨ht, before, String.ofList place.rest, ?_, rfl, ?_⟩
  · rw [GuestType.text, ← String.ofList_append, ← hrest, String.ofList_toList]
  · rw [hoffset, GuestType.text, utf8ByteSize_ofList]

/-- What can be relied on where a reader of bytes starts. -/
structure TypeLaw (s : String) (pos : Nat) : Prop where
  no_slip : ∃ outcome, readTypeAt s pos = .ok outcome
  progress : ∀ t stop, readTypeAt s pos = .ok (.ok (t, stop)) → pos < stop ∧ stop ≤ s.utf8ByteSize
  isBoundary : ∀ t stop, readTypeAt s pos = .ok (.ok (t, stop)) → IsBoundary s stop
  text_eq : ∀ t stop, readTypeAt s pos = .ok (.ok (t, stop)) →
    s.toByteArray.extract pos stop = t.text.toByteArray
  elsewhere : ∀ t stop, readTypeAt s pos = .ok (.ok (t, stop)) → ∀ s' pos',
    s'.toByteArray.extract pos' (pos' + (stop - pos)) = s.toByteArray.extract pos stop →
    readTypeAt s' pos' = .ok (.ok (t, pos' + (stop - pos)))

theorem typeLaw {s : String} {pos : Nat} (hpos : IsBoundary s pos) : TypeLaw s pos where
  no_slip := by
    obtain ⟨before, after, rfl, rfl⟩ := isBoundary_iff.1 hpos
    rw [← String.ofList_toList (s := after), readTypeAt_append]
    exact ⟨_, rfl⟩
  progress t stop h := by
    obtain ⟨-, before, after, rfl, rfl, rfl⟩ := exists_of_readTypeAt hpos h
    have hsize := mt String.utf8ByteSize_eq_zero_iff.1 t.text_ne_empty
    rw [String.utf8ByteSize_append, String.utf8ByteSize_append]
    omega
  isBoundary t stop h := by
    obtain ⟨-, before, after, rfl, rfl, rfl⟩ := exists_of_readTypeAt hpos h
    rw [← String.append_assoc, ← String.utf8ByteSize_append]
    exact isBoundary_append _ _
  text_eq t stop h := by
    obtain ⟨-, before, after, rfl, rfl, rfl⟩ := exists_of_readTypeAt hpos h
    rw [extract_append_right, extract_append_left]
  elsewhere t stop h s' pos' hsame := by
    obtain ⟨ht, before, after, rfl, rfl, rfl⟩ := exists_of_readTypeAt hpos h
    rw [Nat.add_sub_cancel_left, extract_append_right, extract_append_left] at hsame
    obtain ⟨before', after', rfl, rfl⟩ := exists_append_of_extract t.text_ne_empty hsame
    rw [Nat.add_sub_cancel_left, readTypeAt_text ht]

end Descriptor

namespace Signature

open Descriptor

/-! ### Parameter lists -/

/-- Reads parameter types from a byte position up to the closing parenthesis, in as many turns as
given, and returns them behind those read before, with the position of the parenthesis. -/
def readParamsAt (s : String) :
    Nat → Nat → List GuestType → Except Slip (Except DescriptorFault (List GuestType × Nat))
  | 0, _, _ => .error .outOfTurns
  | turns + 1, pos, params =>
    match byteAt? s pos with
    | none => .ok (.error .endsEarly)
    | some b =>
      if Char.ofUInt8 b = ')' then .ok (.ok (params, pos))
      else
        match readTypeAt s pos with
        | .error slip => .error slip
        | .ok (.error fault) => .ok (.error fault)
        | .ok (.ok (.void, _)) => .ok (.error .voidValue)
        | .ok (.ok (t, stop)) => readParamsAt s turns stop (params ++ [t])

/-- A list ends nowhere but at a closing parenthesis. -/
theorem byteAt?_of_readParamsAt {s : String} {turns pos stop : Nat} {params ts : List GuestType}
    (h : readParamsAt s turns pos params = .ok (.ok (ts, stop))) :
    (byteAt? s stop).map Char.ofUInt8 = some ')' := by
  induction turns generalizing pos params with
  | zero => cases h
  | succ turns ih =>
    rw [readParamsAt] at h
    split at h
    next => cases h
    next b hbyte =>
      split at h
      next hclose =>
        cases h
        rw [hbyte, Option.map_some, hclose]
      next =>
        split at h
        · cases h
        · cases h
        · cases h
        · exact ih h

/-- One turn where the list is not at its end. -/
theorem readParamsAt_succ (s : String) {cs : List Char} (hopen : ∀ rest, cs ≠ ')' :: rest)
    (turns : Nat) (params : List GuestType) :
    readParamsAt (s ++ String.ofList cs) (turns + 1) s.utf8ByteSize params =
      match readType s.utf8ByteSize cs with
      | .error fault => .ok (.error fault)
      | .ok (.void, _) => .ok (.error .voidValue)
      | .ok (t, after) =>
        readParamsAt (s ++ String.ofList cs) turns after.offset (params ++ [t]) := by
  rw [readParamsAt]
  cases cs with
  | nil =>
    rw [String.ofList_nil, String.append_empty, byteAt?_utf8ByteSize]
    rfl
  | cons c cs =>
    obtain ⟨b, hbyte, hb⟩ := exists_byteAt?_cons s c cs
    have hne : Char.ofUInt8 b ≠ ')' := by
      intro heq
      obtain rfl := (hb _ (by decide)).1 heq
      exact hopen cs rfl
    simp only [hbyte, if_neg hne, readTypeAt_append]
    rcases readType s.utf8ByteSize (c :: cs) with fault | ⟨t, after⟩
    · rfl
    · cases t <;> rfl

/-- **The loop of a reader of bytes is over in time**, and reads what a reader of characters
does. -/
theorem readParamsAt_append (s : String) (cs : List Char) {turns : Nat}
    (hturns : utf8Length cs < turns) (params : List GuestType) :
    readParamsAt (s ++ String.ofList cs) turns s.utf8ByteSize params =
      .ok ((readParams s.utf8ByteSize cs).map fun (ts, place) ↦
        (params ++ ts, place.offset - 1)) := by
  generalize hoffset : s.utf8ByteSize = offset
  obtain ⟨turns, rfl⟩ := Nat.exists_eq_add_one_of_ne_zero (Nat.ne_zero_of_lt hturns)
  fun_induction readParams offset cs generalizing s turns params with subst hoffset
  | case1 offset rest =>
    obtain ⟨b, hbyte, hb⟩ := exists_byteAt?_of_lt s (c := ')') (by decide) rest
    simp only [readParamsAt, hbyte, if_pos hb, Except.map, List.append_nil, Nat.add_sub_cancel]
  | case2 offset cs hopen fault hread =>
    rw [readParamsAt_succ s hopen, hread]
    rfl
  | case3 offset cs hopen place hread =>
    rw [readParamsAt_succ s hopen, hread]
    rfl
  | case4 offset cs hopen t place hne hread ih =>
    have hnext : readParamsAt (s ++ String.ofList cs) (turns + 1) s.utf8ByteSize params =
        readParamsAt (s ++ String.ofList cs) turns place.offset (params ++ [t]) := by
      rw [readParamsAt_succ s hopen, hread]
      cases t with
      | void => exact absurd rfl hne
      | _ => rfl
    obtain ⟨-, rfl, hplace⟩ := of_readType_eq_ok hread
    have hstop : (s ++ t.text).utf8ByteSize = place.offset := by
      rw [hplace, String.utf8ByteSize_append, GuestType.text, utf8ByteSize_ofList]
    have hsplit : s ++ String.ofList (t.chars ++ place.rest) =
        (s ++ t.text) ++ String.ofList place.rest := by
      rw [String.ofList_append, String.append_assoc, GuestType.text]
    have hsize : utf8Length t.chars ≠ 0 := mt utf8Length_eq_zero_iff.1 t.chars_ne_nil
    rw [Text.utf8Length_append] at hturns
    obtain ⟨turns, rfl⟩ : ∃ fewer, turns = fewer + 1 :=
      Nat.exists_eq_add_one_of_ne_zero (by omega)
    rw [hnext, hsplit, ih (s ++ t.text) (params ++ [t]) hstop turns (by omega)]
    cases readParams place.offset place.rest with
    | error fault => rfl
    | ok found =>
      simp only [Except.map, List.append_assoc, List.singleton_append]

/-! ### Signatures -/

/-- Reads a method's signature on the bytes of its text. -/
def parseAt (s : String) : Except Slip (Except DescriptorError Signature) :=
  if s.toList.head? = some '(' then
    match readParamsAt s s.utf8ByteSize 1 [] with
    | .error slip => .error slip
    | .ok (.error fault) => .ok (.error ⟨fault, s⟩)
    | .ok (.ok (params, pos)) =>
      match readTypeAt s (pos + 1) with
      | .error slip => .error slip
      | .ok (.error fault) => .ok (.error ⟨fault, s⟩)
      | .ok (.ok (result, stop)) =>
        if stop = s.utf8ByteSize then .ok (.ok ⟨params, result⟩)
        else .ok (.error ⟨.leftover, s⟩)
  else .ok (.error ⟨.noParameters, s⟩)

/-- The parameter list that a text opens is read in as many turns as the text has bytes. -/
theorem readParamsAt_open {s : String} {cs : List Char} (h : s.toList = '(' :: cs) :
    readParamsAt s s.utf8ByteSize 1 [] =
      .ok ((readParams 1 cs).map fun (ts, place) ↦ (ts, place.offset - 1)) := by
  obtain rfl : s = String.ofList ('(' :: cs) := by rw [← h, String.ofList_toList]
  have hturns : utf8Length cs < (String.ofList ('(' :: cs)).utf8ByteSize := by
    rw [utf8ByteSize_ofList, Text.utf8Length_cons, show '('.utf8Size = 1 from rfl]
    omega
  have hread := readParamsAt_append (String.ofList ['(']) cs hturns []
  rw [← String.ofList_append] at hread
  exact hread

/-- A type that is read ends where the text does if nothing follows it. -/
theorem offset_eq_utf8ByteSize_iff {s : String} {cs : List Char} {t : GuestType} {after : Cursor}
    (h : readType s.utf8ByteSize cs = .ok (t, after)) :
    after.offset = (s ++ String.ofList cs).utf8ByteSize ↔ after.rest = [] := by
  obtain ⟨-, rfl, hoffset⟩ := of_readType_eq_ok h
  rw [hoffset, String.utf8ByteSize_append, utf8ByteSize_ofList, Text.utf8Length_append,
    ← utf8Length_eq_zero_iff]
  omega

/-- **A parser on bytes is the parser on characters.** -/
theorem parseAt_eq (s : String) : parseAt s = .ok (parse s) := by
  by_cases hopen : ∃ cs, s.toList = '(' :: cs
  · obtain ⟨cs, hcs⟩ := hopen
    obtain rfl : s = String.ofList ('(' :: cs) := by rw [← hcs, String.ofList_toList]
    rw [parseAt, if_pos (by rw [hcs]; rfl), readParamsAt_open hcs, parse_open]
    cases hparams : readParams 1 cs with
    | error fault => rfl
    | ok found =>
      obtain ⟨params, place⟩ := found
      obtain ⟨-, rfl, hplace⟩ := of_readParams_eq_ok hparams
      have htext : String.ofList ('(' :: (paramChars params ++ place.rest)) =
          String.ofList ('(' :: paramChars params) ++ String.ofList place.rest := by
        rw [← String.ofList_append, List.cons_append]
      have hlist : (String.ofList ('(' :: paramChars params)).utf8ByteSize = place.offset := by
        rw [hplace, utf8ByteSize_ofList]
        rfl
      rw [htext]
      generalize String.ofList ('(' :: paramChars params) = list at hlist
      have hpos : place.offset - 1 + 1 = place.offset := by omega
      have hresult := readTypeAt_append list place.rest
      rw [hlist] at hresult
      simp only [Except.map, hpos, hresult]
      cases hread : readType place.offset place.rest with
      | error fault => rfl
      | ok found =>
        obtain ⟨result, stop, rest⟩ := found
        rw [← hlist] at hread
        have hend := offset_eq_utf8ByteSize_iff hread
        cases rest with
        | nil => exact if_pos (hend.2 rfl)
        | cons c rest => exact if_neg (mt hend.1 (List.cons_ne_nil c rest))
  · rw [parse_of_not_open fun cs hcs ↦ hopen ⟨cs, hcs⟩, parseAt, if_neg]
    rw [List.head?_eq_some_iff]
    rintro ⟨cs, hcs⟩
    exact hopen ⟨cs, hcs⟩

end Signature

namespace Descriptor

/-- **A reader of bytes stays on the boundaries of its text.** From any boundary it reads what a
reader of characters reads, moves on to a later boundary, and has read the text of the type that it
returns, whatever stands around that text. The loop over the parameters of a method is over in as
many turns as the text has bytes, at a closing parenthesis or with a fault. -/
theorem reads_within_boundaries :
    (∀ (s : String) (pos : Nat), IsBoundary s pos → TypeLaw s pos) ∧
    (∀ (s : String) (cs : List Char),
      readTypeAt (s ++ String.ofList cs) s.utf8ByteSize =
        .ok ((readType s.utf8ByteSize cs).map fun (t, after) ↦ (t, after.offset))) ∧
    (∀ s : String, s.toList.head? = some '(' →
      ∃ outcome, Signature.readParamsAt s s.utf8ByteSize 1 [] = .ok outcome ∧
        ∀ ts pos, outcome = .ok (ts, pos) → (byteAt? s pos).map Char.ofUInt8 = some ')') ∧
    ∀ s : String, Signature.parseAt s = .ok (Signature.parse s) := by
  refine ⟨fun s pos ↦ typeLaw, readTypeAt_append, fun s hopen ↦ ?_, Signature.parseAt_eq⟩
  obtain ⟨cs, hcs⟩ := List.head?_eq_some_iff.1 hopen
  have hlist := Signature.readParamsAt_open hcs
  refine ⟨_, hlist, fun ts pos houtcome ↦ ?_⟩
  rw [houtcome] at hlist
  exact Signature.byteAt?_of_readParamsAt hlist

/-- A class name of two bytes, in the middle of which nothing begins, is read as a parameter and as
the element of an array in another text. -/
theorem reads_within_boundaries_accented :
    ¬IsBoundary "(Lé;[I)V" 3 ∧ IsBoundary "(Lé;[I)V" 5 ∧
      readTypeAt "(Lé;[I)V" 1 = .ok (.ok (.object "é", 5)) ∧
      readTypeAt "ü[Lé;é" 3 = .ok (.ok (.object "é", 7)) ∧
      ∃ outcome, Signature.readParamsAt "(Lé;[I)V" 9 1 [] = .ok outcome := by
  obtain ⟨hlaw, hread, hlist, -⟩ := reads_within_boundaries
  have hfirst : readTypeAt "(Lé;[I)V" 1 = .ok (.ok (.object "é", 5)) :=
    hread "(" ['L', 'é', ';', '[', 'I', ')', 'V']
  have hlaw := hlaw "(Lé;[I)V" 1 (by decide)
  obtain ⟨outcome, houtcome, -⟩ := hlist "(Lé;[I)V" (by decide)
  exact ⟨by decide, hlaw.isBoundary _ _ hfirst, hfirst,
    hlaw.elsewhere _ _ hfirst "ü[Lé;é" 3 (by decide), outcome, houtcome⟩

end Descriptor

end HostMethods
