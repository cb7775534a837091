import HostMethods.Proofs.Generator.Uniform

/-!
# Draws of all kinds read one sequence

A draw of an `int` is a single word, so the words of a generator are what draws of an `int` show of
them. Draws of every other kind read the same words (`Generator.SharesWords`). A `long` is the bits
of two of them, the low half first. A truth value is the sign of one. A number below a bound reads
words up to the first that is taken. None of them skips a word or reads one twice, so each leaves
the generator where draws of an `int` would leave it.

How many words a request reads can therefore be said on its own (`Generator.Reads`). What a history
of requests leaves behind depends on the sum of these numbers and on nothing else
(`Generator.nextAll_eq_skip`), and so does everything that is drawn afterwards.
-/

namespace HostMethods.Generator

variable {g : Generator}

/-! ### Words as draws of an `int` -/

/-- The generator that draws of an `int` leave. -/
def afterInts (g : Generator) (n : Nat) : Generator :=
  (fun g ↦ g.drawInt.2)^[n] g

theorem skip_skip (g : Generator) (n k : Nat) : (g.skip n).skip k = g.skip (n + k) := by
  rw [skip, skip, skip, Nat.add_assoc]

theorem afterInts_eq_skip (g : Generator) (n : Nat) : g.afterInts n = g.skip n := by
  induction n with
  | zero => rfl
  | succ n ih => rw [afterInts, Function.iterate_succ_apply', ← afterInts, ih, drawInt, skip_skip]

/-- **Every word ahead is what a later draw of an `int` gives.** -/
theorem toUInt32_drawInt_afterInts (g : Generator) (n : Nat) :
    (g.afterInts n).drawInt.1.toUInt32 = g.ahead n := by
  rw [afterInts_eq_skip, drawInt, ahead_skip, Nat.add_zero, UInt32.toUInt32_toInt32]

/-! ### Draws of the other kinds -/

/-- Two words make a number of twice their length, the second one its high half. -/
theorem toBitVec_drawLong (g : Generator) :
    g.drawLong.1.toBitVec = (g.ahead 1).toBitVec ++ (g.ahead 0).toBitVec := by
  rw [BitVec.append_def, BitVec.shiftLeftZeroExtend_eq, BitVec.setWidth'_eq]
  rfl

/-- The top bit of a word is the sign of the number with its bits. -/
theorem drawBool_fst_iff (g : Generator) : g.drawBool.1 = true ↔ g.drawInt.1 < 0 := by
  have hsign : (g.ahead 0).toBitVec.toInt < 0 ↔ 2 ^ 32 ≤ 2 * (g.ahead 0).toNat :=
    BitVec.toInt_neg_iff
  have hhalf : (0x80000000 : UInt32).toNat = 2 ^ 31 := rfl
  rw [Int32.lt_iff_toInt_lt, Int32.toInt_zero]
  show decide (0x80000000 ≤ g.ahead 0) = true ↔ (g.ahead 0).toBitVec.toInt < 0
  rw [decide_eq_true_iff, UInt32.le_iff_toNat_le, hsign, hhalf]
  omega

/-- Draws of all kinds read the words that draws of an `int` show, and leave the generator where
these would. -/
structure SharesWords (g : Generator) : Prop where
  /-- The two halves of a `long` are the next two numbers that draws of an `int` give. -/
  long_eq : g.drawLong.1.toBitVec = g.drawInt.2.drawInt.1.toBitVec ++ g.drawInt.1.toBitVec
  afterLong_eq : g.drawLong.2 = g.afterInts 2
  /-- A truth value is the sign of the next number. -/
  boolean_iff : g.drawBool.1 = true ↔ g.drawInt.1 < 0
  afterBoolean_eq : g.drawBool.2 = g.afterInts 1
  /-- A number below a bound takes the first of the next numbers whose bits are a word that is
  taken, and those before it are read, too. -/
  below_eq : ∀ bound k r, 0 < bound → Takes bound (g.afterInts k).drawInt.1.toUInt32 r →
    (∀ j < k, ∀ r', ¬Takes bound (g.afterInts j).drawInt.1.toUInt32 r') →
    g.drawBelow bound = .ok (r, g.afterInts (k + 1))

theorem sharesWords (g : Generator) : g.SharesWords where
  long_eq := by
    rw [toBitVec_drawLong]
    rfl
  afterLong_eq := rfl
  boolean_iff := g.drawBool_fst_iff
  afterBoolean_eq := rfl
  below_eq bound k r hbound htakes hbefore := by
    simp only [toUInt32_drawInt_afterInts] at htakes hbefore
    rw [drawBelow_of_first hbound htakes hbefore, afterInts_eq_skip]

/-! ### Histories -/

/-- The generator after a request. One that is refused leaves it where it is. -/
def next (g : Generator) (request : Draw) : Generator :=
  match g.draw request with
  | .ok (_, g) => g
  | .error _ => g

/-- The generator after requests that are made one after the other. -/
def nextAll (g : Generator) (requests : List Draw) : Generator :=
  requests.foldl next g

/-- A request reads this many words. A draw below a bound has to come upon a word that is taken, or
it never ends. -/
inductive Reads (g : Generator) : Draw → Nat → Prop
  | int : Reads g .int 1
  | long : Reads g .long 2
  | boolean : Reads g .boolean 1
  /-- A bound that leaves no number is refused before anything is drawn. -/
  | refused {bound : Int32} (h : bound ≤ 0) : Reads g (.below bound) 0
  /-- The words that are rejected are read as well. -/
  | below {bound r : Int32} {k : Nat} (h : 0 < bound) (htakes : Takes bound (g.ahead k) r)
      (hbefore : ∀ j < k, ∀ r', ¬Takes bound (g.ahead j) r') : Reads g (.below bound) (k + 1)

/-- Requests that are made one after the other read this many words together. -/
inductive ReadsAll : Generator → List Draw → Nat → Prop
  | nil (g : Generator) : ReadsAll g [] 0
  | cons {g : Generator} {request : Draw} {requests : List Draw} {n k : Nat}
      (h : g.Reads request n) (hlater : ReadsAll (g.next request) requests k) :
      ReadsAll g (request :: requests) (n + k)

/-- **A request goes on right behind the words that it reads.** -/
theorem next_eq_skip {request : Draw} {n : Nat} (h : g.Reads request n) :
    g.next request = g.skip n := by
  cases h with
  | int | long | boolean => rfl
  | refused hbound =>
    rw [next, draw, drawBelow, if_pos hbound]
    rfl
  | below hbound htakes hbefore =>
    rw [next, draw, drawBelow_of_first hbound htakes hbefore]
    rfl

/-- **Of a history, only the number of words that it has read is left.** -/
theorem nextAll_eq_skip {requests : List Draw} {n : Nat} (h : g.ReadsAll requests n) :
    g.nextAll requests = g.skip n := by
  induction h with
  | nil g => rfl
  | cons h hlater ih =>
    rw [nextAll, List.foldl_cons, ← nextAll, ih, next_eq_skip h, skip_skip]

/-- **Draws of all kinds share one sequence of words, and skip none.** This holds of every
generator, and so at every place of the sequence of every seed. Histories that have read as many
words of one sequence have left the same generator behind, whatever they were made of. -/
theorem draws_share_words :
    (∀ g : Generator, g.SharesWords) ∧
    ∀ (seed : UInt64) (past past' : List Draw) (n : Nat),
      (ofSeed seed).ReadsAll past n → (ofSeed seed).ReadsAll past' n →
      (ofSeed seed).nextAll past = (ofSeed seed).nextAll past' := by
  refine ⟨sharesWords, fun seed past past' n h h' ↦ ?_⟩
  rw [nextAll_eq_skip h, nextAll_eq_skip h']

/-- Two words are read by a `long` alone, or by a truth value, a bound that is refused, and an
`int`. Below 3, a word is rejected that has the second bit set alone. -/
theorem draws_share_words_halves :
    (ofSeed 5).nextAll [.long] = (ofSeed 5).nextAll [.boolean, .below 0, .int] ∧
      ∃ g : Generator, g.ahead 0 = 0x40000000 ∧ g.ahead 1 = 0x80000000 ∧
        g.drawBelow 3 = .ok (1, g.afterInts 2) := by
  obtain ⟨hshares, hhistories⟩ := draws_share_words
  have hlong : (ofSeed 5).ReadsAll [.long] 2 := .cons .long (.nil _)
  have hmixed : (ofSeed 5).ReadsAll [.boolean, .below 0, .int] 2 :=
    .cons .boolean (.cons (.refused (by decide)) (.cons .int (.nil _)))
  let g : Generator := ⟨fun n ↦ if n = 0 then 0x40000000 else 0x80000000, 0⟩
  refine ⟨hhistories 5 _ _ 2 hlong hmixed, g, rfl, rfl, ?_⟩
  refine (hshares g).below_eq 3 1 1 (by decide) (by decide) fun j hj r hr ↦ ?_
  obtain rfl : j = 0 := by omega
  exact absurd hr.low_le (by decide)

end HostMethods.Generator
