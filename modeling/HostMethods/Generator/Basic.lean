import HostMethods.Argument
import HostMethods.Generator.Keystream

/-!
# Generators

A generator is a position in an endless sequence of words. Nothing about the words is used by the
draws: a generator may hold any sequence, and `ofSeed` gives it the one that belongs to a seed.
Every draw reads on from the position and leaves the generator just after the last word it read,
so draws of all kinds share one sequence and none skips or repeats a word.

A draw below a bound rejects some words to be exactly uniform. How many it rejects has no bound
that depends on the bound alone, so neither has the search for the first word that is taken: it goes
on until it finds one. If no word is ever taken the search never ends, and nothing is known of its
answer.
-/

namespace HostMethods

/-- A place in an endless sequence of words. -/
structure Generator where
  /-- The sequence. -/
  word : Nat → UInt32
  /-- The index of the next word. -/
  position : Nat

namespace Generator

/-- The generator at the start of the sequence that belongs to a seed. -/
def ofSeed (seed : UInt64) : Generator :=
  let key := Keystream.keyOfSeed seed
  ⟨Keystream.word key, 0⟩

/-- The generator `n` words further on. -/
def skip (g : Generator) (n : Nat) : Generator :=
  { g with position := g.position + n }

/-- The word that is `n` words ahead. -/
def ahead (g : Generator) (n : Nat) : UInt32 :=
  g.word (g.position + n)

/-- A number of the whole `int` range: one word. -/
def drawInt (g : Generator) : Int32 × Generator :=
  ((g.ahead 0).toInt32, g.skip 1)

/-- A number of the whole `long` range: two words, the low one first. -/
def drawLong (g : Generator) : Int64 × Generator :=
  let low := (g.ahead 0).toUInt64
  let high := (g.ahead 1).toUInt64
  ((high <<< 32 ||| low).toInt64, g.skip 2)

/-- A truth value: the top bit of one word. -/
def drawBool (g : Generator) : Bool × Generator :=
  (0x80000000 ≤ g.ahead 0, g.skip 1)

/-! ### Draws below a bound -/

/-- The product of a word and a bound. Its high half spreads the words evenly over the numbers
below the bound, its low half decides whether the word is taken. -/
def spreadWord (bound : Nat) (w : UInt32) : Nat :=
  w.toNat * bound

/-- The low half of a product: its lowest 32 bits. -/
def lowHalf (product : Nat) : Nat :=
  product % 0x100000000

/-- The high half of a product: what is left of it above the lowest 32 bits. -/
def highHalf (product : Nat) : Nat :=
  product / 0x100000000

/-- The greatest low half that is taken: the bound, shifted up until its top bit is set, less one.
So a power of two of low halves is taken for every result, at least half of all words together. -/
def zone (bound : Nat) : Nat :=
  (bound <<< (31 - bound.log2)) - 1

/-- Whether a draw below `bound` takes a word. -/
def accepts (bound : Nat) (w : UInt32) : Bool :=
  lowHalf (spreadWord bound w) ≤ zone bound

/-- What a search looks at after the word that is `n` ahead: the next one, if this one is not taken.
-/
def GoesOn (taken : UInt32 → Bool) (g : Generator) (next n : Nat) : Prop :=
  next = n + 1 ∧ taken (g.ahead n) = false

/-- How many words come before the first that is taken, when none of the first `n` is. -/
def rejectedFrom (taken : UInt32 → Bool) (g : Generator) (n : Nat) : Nat :=
  WellFounded.partialExtrinsicFix (GoesOn taken g) (fun n search ↦
    if h : taken (g.ahead n) then n else search (n + 1) ⟨rfl, Bool.eq_false_iff.2 h⟩) n

/-- How many words come before the first that is taken. -/
def rejected (taken : UInt32 → Bool) (g : Generator) : Nat :=
  rejectedFrom taken g 0

/-- A search ends if there is a word that is taken. -/
theorem acc_goesOn {taken : UInt32 → Bool} {g : Generator} {n d : Nat}
    (h : taken (g.ahead (n + d)) = true) : Acc (GoesOn taken g) n := by
  induction d generalizing n with
  | zero =>
    refine ⟨n, fun next hnext ↦ ?_⟩
    exact absurd (h.symm.trans hnext.2) (by decide)
  | succ d ih =>
    refine ⟨n, fun next hnext ↦ ?_⟩
    rw [hnext.1]
    exact ih (by rwa [Nat.add_assoc, Nat.add_comm 1])

/-- A search that ends looks at one word and then goes on from the next. -/
theorem rejectedFrom_eq {taken : UInt32 → Bool} {g : Generator} {n : Nat}
    (h : Acc (GoesOn taken g) n) :
    rejectedFrom taken g n = if taken (g.ahead n) then n else rejectedFrom taken g (n + 1) := by
  rw [rejectedFrom, WellFounded.partialExtrinsicFix_eq_apply_of_acc h]
  split <;> rfl

/-- The words from the `n`th on are rejected up to the first that is taken. -/
theorem rejectedFrom_of_first {taken : UInt32 → Bool} {g : Generator} {n d : Nat}
    (htaken : taken (g.ahead (n + d)) = true)
    (hbefore : ∀ k < d, taken (g.ahead (n + k)) = false) :
    rejectedFrom taken g n = n + d := by
  induction d generalizing n with
  | zero => exact (rejectedFrom_eq (acc_goesOn htaken)).trans (if_pos htaken)
  | succ d ih =>
    have hn : taken (g.ahead n) = false := hbefore 0 (Nat.succ_pos d)
    rw [rejectedFrom_eq (acc_goesOn htaken), hn, if_neg Bool.false_ne_true, Nat.add_comm d,
      ← Nat.add_assoc]
    refine ih (by rwa [Nat.add_assoc, Nat.add_comm 1]) fun k hk ↦ ?_
    rw [Nat.add_assoc, Nat.add_comm 1]
    exact hbefore (k + 1) (Nat.succ_lt_succ hk)

/-- **The search finds the first word that is taken.** -/
theorem rejected_of_first {taken : UInt32 → Bool} {g : Generator} {n : Nat}
    (htaken : taken (g.ahead n) = true) (hbefore : ∀ k < n, taken (g.ahead k) = false) :
    rejected taken g = n := by
  rw [← Nat.zero_add n] at htaken
  refine (rejectedFrom_of_first htaken fun k hk ↦ ?_).trans (Nat.zero_add n)
  rw [Nat.zero_add]
  exact hbefore k hk

/-- A number below a bound: the high half of the first word that is taken. -/
def below (g : Generator) (bound : Nat) : Nat × Generator :=
  let n := rejected (accepts bound) g
  (highHalf (spreadWord bound (g.ahead n)), g.skip (n + 1))

/-- A number from 0 up to and without a bound. A bound that leaves no number is refused before
anything is drawn. -/
def drawBelow (g : Generator) (bound : Int32) : Except Exception (Int32 × Generator) :=
  if bound ≤ 0 then
    .error (.badArgument ("bound must be positive, got " ++ toString bound.toInt))
  else
    let (n, g) := g.below bound.toInt.toNat
    .ok (Int32.ofNat n, g)

end Generator

/-! ### Draws as requests -/

/-- What can be asked of a generator. -/
inductive Draw
  | int
  | long
  | boolean
  /-- A number from 0 up to and without a bound. -/
  | below (bound : Int32)
  deriving DecidableEq

/-- Answers a request with the value that a guest sees, and moves the generator past the words it
took. -/
def Generator.draw (g : Generator) : Draw → Except Exception (Value × Generator)
  | .int => let (i, g) := g.drawInt; .ok (.int i, g)
  | .long => let (l, g) := g.drawLong; .ok (.long l, g)
  | .boolean => let (b, g) := g.drawBool; .ok (ArgKind.boolean.write b, g)
  | .below bound => (g.drawBelow bound).map fun (i, g) ↦ (.int i, g)

end HostMethods
