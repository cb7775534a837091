/-!
# The word stream behind a seed

Pseudorandom words come from the ChaCha stream cipher with twelve rounds, under a 256-bit key
expanded from a 64-bit seed. A block of sixteen words depends only on the key and the block's
number, so the stream is a function of the word's position: there is no hidden state between two
words, and two readers at one position see the same word.
-/

namespace HostMethods.Keystream

/-- The sixteen words of a cipher block. -/
abbrev Block := Vector UInt32 16

/-- A cipher key. -/
abbrev Key := Vector UInt32 8

/-- Rotation of a word to the left. -/
def rotateLeft (x : UInt32) (n : UInt32) : UInt32 :=
  x <<< n ||| x >>> (32 - n)

/-- Rotation of a word to the right; a rotation by nothing leaves the word alone. -/
def rotateRight (x : UInt32) (n : UInt32) : UInt32 :=
  x >>> n ||| x <<< ((32 - n) % 32)

/-- The cipher's quarter round on the words at four places of a block. -/
def quarterRound (s : Block) (i j k l : Fin 16) : Block :=
  let a := s[i] + s[j]
  let d := rotateLeft (s[l] ^^^ a) 16
  let c := s[k] + d
  let b := rotateLeft (s[j] ^^^ c) 12
  let a := a + b
  let d := rotateLeft (d ^^^ a) 8
  let c := c + d
  let b := rotateLeft (b ^^^ c) 7
  (((s.set i a).set j b).set k c).set l d

/-- Two rounds: quarter rounds on the columns of the block, then on its diagonals. -/
def doubleRound (s : Block) : Block :=
  let s := quarterRound s 0 4 8 12
  let s := quarterRound s 1 5 9 13
  let s := quarterRound s 2 6 10 14
  let s := quarterRound s 3 7 11 15
  let s := quarterRound s 0 5 10 15
  let s := quarterRound s 1 6 11 12
  let s := quarterRound s 2 7 8 13
  quarterRound s 3 4 9 14

/-- The block before the first round: the cipher's four constants, the key, and the block's number
in two words, the low one first. -/
def initialBlock (key : Key) (number : UInt64) : Block :=
  #v[0x61707865, 0x3320646e, 0x79622d32, 0x6b206574,
    key[0], key[1], key[2], key[3], key[4], key[5], key[6], key[7],
    number.toUInt32, (number >>> 32).toUInt32, 0, 0]

/-- A block of the stream: twelve rounds, and the initial block added word by word. -/
def block (key : Key) (number : UInt64) : Block :=
  let start := initialBlock key number
  let mixed := (List.range 6).foldl (fun s _ ↦ doubleRound s) start
  mixed.zipWith (· + ·) start

/-- The word of the stream at a position. -/
def word (key : Key) (position : Nat) : UInt32 :=
  (block key (position / 16).toUInt64)[position % 16]

/-! ### Keys from seeds -/

/-- One step of the congruential generator that spreads a seed over a key. -/
def spread (state : UInt64) : UInt64 :=
  state * 6364136223846793005 + 11634580027462260723

/-- The key word that a state of the spreading generator stands for: the high bits, rotated by the
highest five. -/
def keyWord (state : UInt64) : UInt32 :=
  rotateRight (((state >>> 18) ^^^ state) >>> 27).toUInt32 (state >>> 59).toUInt32

/-- The first words that the spreading generator yields from a state on. -/
def keyWords : Nat → UInt64 → List UInt32
  | 0, _ => []
  | n + 1, state => keyWord (spread state) :: keyWords n (spread state)

theorem length_keyWords (n : Nat) (state : UInt64) : (keyWords n state).length = n := by
  induction n generalizing state with
  | zero => rfl
  | succ n ih => simp [keyWords, ih]

/-- The cipher key for a seed. -/
def keyOfSeed (seed : UInt64) : Key :=
  ⟨(keyWords 8 seed).toArray, by simp [length_keyWords]⟩

end HostMethods.Keystream
