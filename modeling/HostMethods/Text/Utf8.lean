import HostMethods.Text.Utf16

/-!
# Reading UTF-8 that may be broken

Bytes that a sink has kept need not be UTF-8. They are read by a small machine that remembers an
unfinished character (`Pending`): the value gathered so far, how many continuation bytes are still
owed, and the range in which the next one must lie. The range rules out overlong forms, surrogates
and values above U+10FFFF at the first byte that decides, so a broken sequence is given up exactly
where no character can begin with it any more. What was read of it becomes one replacement
character, and the byte that broke it starts afresh.
-/

namespace HostMethods.Text

/-- A character of which some continuation bytes are still owed. -/
structure Pending where
  /-- The value of the bits read so far. -/
  value : Nat
  /-- Continuation bytes owed after the next one. -/
  owedAfter : Nat
  /-- The least next byte. -/
  low : UInt8
  /-- The greatest next byte. -/
  high : UInt8
  deriving DecidableEq

/-- What a byte means where a character starts. -/
inductive LeadByte
  /-- It is a whole character. -/
  | whole (c : Char)
  /-- It opens a longer character. -/
  | opening (p : Pending)
  /-- No character starts with it. -/
  | invalid

/-- The first byte of a character. -/
def leadByte (b : UInt8) : LeadByte :=
  if b < 0x80 then .whole (Char.ofNat b.toNat)
  else if b < 0xC2 then .invalid
  else if b < 0xE0 then .opening ⟨b.toNat - 0xC0, 0, 0x80, 0xBF⟩
  else if b = 0xE0 then .opening ⟨0, 1, 0xA0, 0xBF⟩
  else if b = 0xED then .opening ⟨0xD, 1, 0x80, 0x9F⟩
  else if b < 0xF0 then .opening ⟨b.toNat - 0xE0, 1, 0x80, 0xBF⟩
  else if b = 0xF0 then .opening ⟨0, 2, 0x90, 0xBF⟩
  else if b < 0xF4 then .opening ⟨b.toNat - 0xF0, 2, 0x80, 0xBF⟩
  else if b = 0xF4 then .opening ⟨4, 2, 0x80, 0x8F⟩
  else .invalid

/-- Reads on from between two characters (`none`) or inside one (`some`). -/
def decodeFrom : Option Pending → List UInt8 → List Char
  | none, [] => []
  | some _, [] => [replacement]
  | none, b :: rest =>
    match leadByte b with
    | .whole c => c :: decodeFrom none rest
    | .opening p => decodeFrom (some p) rest
    | .invalid => replacement :: decodeFrom none rest
  | some p, b :: rest =>
    if p.low ≤ b ∧ b ≤ p.high then
      let value := p.value * 64 + (b.toNat - 0x80)
      match p.owedAfter with
      | 0 => Char.ofNat value :: decodeFrom none rest
      | owed + 1 => decodeFrom (some ⟨value, owed, 0x80, 0xBF⟩) rest
    else
      replacement ::
        match leadByte b with
        | .whole c => c :: decodeFrom none rest
        | .opening q => decodeFrom (some q) rest
        | .invalid => replacement :: decodeFrom none rest

/-- The text of a byte string, every broken sequence replaced. -/
def ofUtf8 (bytes : ByteArray) : String :=
  String.ofList (decodeFrom none bytes.data.toList)

/-- The number of bytes that UTF-8 needs for some characters. -/
def utf8Length : List Char → Nat
  | [] => 0
  | c :: cs => c.utf8Size + utf8Length cs

@[simp]
theorem utf8Length_nil : utf8Length [] = 0 := rfl

@[simp]
theorem utf8Length_cons (c : Char) (cs : List Char) :
    utf8Length (c :: cs) = c.utf8Size + utf8Length cs := rfl

@[simp]
theorem utf8Length_append (cs ds : List Char) :
    utf8Length (cs ++ ds) = utf8Length cs + utf8Length ds := by
  induction cs with
  | nil => simp
  | cons c cs ih => simp [ih, Nat.add_assoc]

end HostMethods.Text
