import HostMethods.Generator.Basic
import Mathlib.Algebra.BigOperators.Group.Finset.Basic
import Mathlib.Algebra.Order.Floor.Div
import Mathlib.Data.Set.Card
import Mathlib.Order.Interval.Finset.Nat

/-!
# Draws below a bound are uniform

The rule by which a draw below a bound takes words is given in the arithmetic of words
(`Generator.Takes`): the product of a word and the bound fills 64 bits, its low half decides whether
the word is taken, its high half is the result. `Generator.drawBelow_uniform` says that draws follow
this rule, and that the rule is fair.

A word is taken with the result `r` exactly if its product with the bound lies in the interval that
begins at the `r`th multiple of `2 ^ 32` and has the length of the bound shifted up until its top
bit is set (`Generator.takes_iff_mem_Ico`). That length is a multiple of the bound, by a power of
two, so wherever the interval begins, just so many products fall into it. This is why the limit on
the low half is what it is: an interval that is no multiple long would hold more products for some
results than for others.
-/

namespace HostMethods.Generator

/-! ### The rule -/

/-- The number of zeros above the highest bit of a bound that is set. -/
def leadingZeros (bound : Int32) : UInt32 :=
  ⟨bound.toBitVec.clz⟩

/-- The product of a word and a bound, in 64 bits. -/
def wideProduct (bound : Int32) (w : UInt32) : UInt64 :=
  w.toUInt64 * bound.toUInt32.toUInt64

/-- A draw below the bound takes the word, and its result is `r`. -/
structure Takes (bound : Int32) (w : UInt32) (r : Int32) : Prop where
  /-- The low half of the product is less than the bound shifted up until its top bit is set. -/
  low_le : (wideProduct bound w).toUInt32 ≤ bound.toUInt32 <<< leadingZeros bound - 1
  /-- The result is the high half. -/
  high_eq : r.toUInt32 = (wideProduct bound w >>> 32).toUInt32

instance (bound : Int32) (w : UInt32) (r : Int32) : Decidable (Takes bound w r) :=
  decidable_of_iff
    ((wideProduct bound w).toUInt32 ≤ bound.toUInt32 <<< leadingZeros bound - 1 ∧
      r.toUInt32 = (wideProduct bound w >>> 32).toUInt32)
    ⟨fun h ↦ ⟨h.1, h.2⟩, fun h ↦ ⟨h.low_le, h.high_eq⟩⟩

/-! ### The rule in numbers -/

section Numbers

variable {bound r : Int32} {w : UInt32}

/-- The bits of a positive bound are its value. -/
theorem toNat_toUInt32_of_pos (h : 0 < bound) : bound.toUInt32.toNat = bound.toInt.toNat := by
  rw [Int32.toNat_toUInt32_of_le (Int32.le_of_lt h), Int32.toNat_toInt]

theorem toNat_pos_of_pos (h : 0 < bound) : 0 < bound.toInt.toNat := by
  rwa [Int32.toNat_toInt, Int32.toNatClampNeg_pos_iff]

theorem toNat_lt_of_pos (bound : Int32) : bound.toInt.toNat < 2 ^ 31 := by
  rw [Int32.toNat_toInt]
  exact Int32.toNatClampNeg_lt bound

/-- A number below a bound is the value of its bits. -/
theorem toNat_toUInt32_ofNat {i : Nat} (hi : i < bound.toInt.toNat) :
    (Int32.ofNat i).toUInt32.toNat = i :=
  UInt32.toNat_ofNat_of_lt' (Nat.lt_trans hi (Nat.lt_trans (toNat_lt_of_pos bound) (by decide)))

/-- A bound has its highest bit right below its leading zeros. -/
theorem log2_add_leadingZeros (h : 0 < bound) :
    bound.toInt.toNat.log2 + (leadingZeros bound).toNat = 31 := by
  have hvalue : bound.toBitVec.toNat = bound.toInt.toNat := toNat_toUInt32_of_pos h
  have hpos := toNat_pos_of_pos h
  have hne : bound.toBitVec ≠ 0 := fun hzero ↦ by
    rw [← hvalue, hzero] at hpos
    exact Nat.lt_irrefl 0 hpos
  have hlow := BitVec.two_pow_sub_clz_le_toNat_of_ne_zero (by decide) hne
  have hhigh := BitVec.toNat_lt_two_pow_sub_clz (x := bound.toBitVec)
  have hclz : bound.toBitVec.clz.toNat < 32 :=
    BitVec.lt_def.1 (BitVec.clz_lt_iff_ne_zero.2 hne)
  rw [hvalue] at hlow hhigh
  have hlog : bound.toInt.toNat.log2 = 31 - bound.toBitVec.clz.toNat := by
    refine (Nat.log2_eq_iff hpos.ne').2 ⟨hlow, ?_⟩
    rwa [show 31 - bound.toBitVec.clz.toNat + 1 = 32 - bound.toBitVec.clz.toNat by omega]
  rw [hlog]
  show 31 - bound.toBitVec.clz.toNat + bound.toBitVec.clz.toNat = 31
  omega

/-- The number of low halves that are taken: the bound shifted up until its top bit is set. -/
def span (bound : Int32) : Nat :=
  bound.toInt.toNat * 2 ^ (leadingZeros bound).toNat

/-- With its top bit set, a bound still has no more than 32 bits. -/
theorem span_mem_Ico (h : 0 < bound) : span bound ∈ Set.Ico (2 ^ 31) (2 ^ 32) := by
  have hlog := log2_add_leadingZeros h
  have hne := (toNat_pos_of_pos h).ne'
  constructor
  · rw [← hlog, pow_add]
    exact Nat.mul_le_mul_right _ (Nat.log2_self_le hne)
  · rw [show 32 = bound.toInt.toNat.log2 + 1 + (leadingZeros bound).toNat by omega, pow_add]
    exact Nat.mul_lt_mul_of_pos_right Nat.lt_log2_self (Nat.two_pow_pos _)

theorem zone_eq (h : 0 < bound) : zone bound.toInt.toNat = span bound - 1 := by
  have hlog := log2_add_leadingZeros h
  rw [zone, Nat.shiftLeft_eq, span,
    show 31 - bound.toInt.toNat.log2 = (leadingZeros bound).toNat by omega]

/-- Shifting the bound and taking one away do not wrap around. -/
theorem toNat_shifted (h : 0 < bound) :
    (bound.toUInt32 <<< leadingZeros bound - 1).toNat = zone bound.toInt.toNat := by
  obtain ⟨hlow, hhigh⟩ := span_mem_Ico h
  have hlog := log2_add_leadingZeros h
  have hshift : (bound.toUInt32 <<< leadingZeros bound).toNat = span bound := by
    rw [UInt32.toNat_shiftLeft, Nat.mod_eq_of_lt (show (leadingZeros bound).toNat < 32 by omega),
      Nat.shiftLeft_eq, toNat_toUInt32_of_pos h]
    exact Nat.mod_eq_of_lt hhigh
  have hone : (1 : UInt32) ≤ bound.toUInt32 <<< leadingZeros bound := by
    rw [UInt32.le_iff_toNat_le, hshift]
    exact Nat.le_trans (by decide) hlow
  rw [UInt32.toNat_sub_of_le _ _ hone, hshift, zone_eq h]
  rfl

/-- The product of a word and a bound fits 64 bits. -/
theorem toNat_wideProduct (h : 0 < bound) (w : UInt32) :
    (wideProduct bound w).toNat = spreadWord bound.toInt.toNat w := by
  rw [wideProduct, UInt64.toNat_mul, UInt32.toNat_toUInt64, UInt32.toNat_toUInt64,
    toNat_toUInt32_of_pos h, spreadWord]
  refine Nat.mod_eq_of_lt ?_
  calc w.toNat * bound.toInt.toNat < 2 ^ 32 * 2 ^ 31 :=
        Nat.mul_lt_mul'' w.toNat_lt (toNat_lt_of_pos bound)
    _ ≤ 2 ^ 64 := by decide

/-- The high half of a product is less than the bound. -/
theorem highHalf_lt (h : 0 < bound) (w : UInt32) :
    highHalf (spreadWord bound.toInt.toNat w) < bound.toInt.toNat := by
  refine Nat.div_lt_of_lt_mul ?_
  exact Nat.mul_lt_mul_of_pos_right w.toNat_lt (toNat_pos_of_pos h)

/-- **Draws follow the rule.** -/
theorem takes_iff (h : 0 < bound) :
    Takes bound w r ↔ accepts bound.toInt.toNat w = true ∧
      r.toUInt32.toNat = highHalf (spreadWord bound.toInt.toNat w) := by
  have hlow : (wideProduct bound w).toUInt32.toNat = lowHalf (spreadWord bound.toInt.toNat w) := by
    rw [UInt64.toNat_toUInt32, toNat_wideProduct h]
    rfl
  have hhigh : (wideProduct bound w >>> 32).toUInt32.toNat =
      highHalf (spreadWord bound.toInt.toNat w) := by
    rw [UInt64.toNat_toUInt32, UInt64.toNat_shiftRight, toNat_wideProduct h,
      Nat.shiftRight_eq_div_pow]
    refine Nat.mod_eq_of_lt ?_
    exact Nat.lt_trans (highHalf_lt h w) (Nat.lt_trans (toNat_lt_of_pos bound) (by decide))
  rw [accepts, decide_eq_true_iff, ← hlow, ← hhigh, ← toNat_shifted h, ← UInt32.le_iff_toNat_le,
    UInt32.toNat_inj]
  exact ⟨fun ⟨hle, heq⟩ ↦ ⟨hle, heq⟩, fun ⟨hle, heq⟩ ↦ ⟨hle, heq⟩⟩

end Numbers

/-! ### Counting words -/

/-- The products that fall into an interval belong to the numbers of an interval: its length in
multiples of the factor does not depend on where it begins. -/
theorem mul_mem_Ico_iff {b : Nat} (hb : 0 < b) (a m v : Nat) :
    v * b ∈ Set.Ico a (a + b * m) ↔ v ∈ Finset.Ico (a ⌈/⌉ b) (a ⌈/⌉ b + m) := by
  have hshift : (a + b * m) ⌈/⌉ b = a ⌈/⌉ b + m := by
    rw [Nat.ceilDiv_eq_add_pred_div, Nat.ceilDiv_eq_add_pred_div,
      ← Nat.add_mul_div_left (a + b - 1) m hb, show a + b * m + b - 1 = a + b - 1 + b * m by omega]
  have hle (x : Nat) : x ≤ v * b ↔ x ⌈/⌉ b ≤ v := by rw [mul_comm, ceilDiv_le_iff_le_mul hb]
  rw [Set.mem_Ico, Finset.mem_Ico, ← hshift, ← not_le, ← not_le, hle, hle]

section Counting

variable {bound r : Int32}

/-- **A word is taken with a result exactly if its product with the bound lies in the result's
interval.** -/
theorem takes_iff_mem_Ico (h : 0 < bound) (w : UInt32) :
    Takes bound w r ↔
      w.toNat * bound.toInt.toNat ∈
        Set.Ico (2 ^ 32 * r.toUInt32.toNat) (2 ^ 32 * r.toUInt32.toNat + span bound) := by
  obtain ⟨hlow, hhigh⟩ := span_mem_Ico h
  rw [takes_iff h, accepts, decide_eq_true_iff, zone_eq h, lowHalf, highHalf, spreadWord,
    Set.mem_Ico]
  omega

/-- The words that are taken with the result `i`, as numbers. -/
def words (bound : Int32) (i : Nat) : Finset Nat :=
  Finset.Ico ((2 ^ 32 * i) ⌈/⌉ bound.toInt.toNat)
    ((2 ^ 32 * i) ⌈/⌉ bound.toInt.toNat + 2 ^ (leadingZeros bound).toNat)

theorem mem_words (h : 0 < bound) {i v : Nat} :
    v ∈ words bound i ↔
      v * bound.toInt.toNat ∈ Set.Ico (2 ^ 32 * i) (2 ^ 32 * i + span bound) :=
  (mul_mem_Ico_iff (toNat_pos_of_pos h) _ _ v).symm

theorem card_words (bound : Int32) (i : Nat) :
    (words bound i).card = 2 ^ (leadingZeros bound).toNat := by
  rw [words, Nat.card_Ico, Nat.add_sub_cancel_left]

/-- No word is taken with two results. -/
theorem eq_of_mem_words (h : 0 < bound) {i j v : Nat} (hi : v ∈ words bound i)
    (hj : v ∈ words bound j) : i = j := by
  obtain ⟨hlow, hhigh⟩ := (mem_words h).1 hi
  obtain ⟨hlow', hhigh'⟩ := (mem_words h).1 hj
  have hspan := (span_mem_Ico h).2
  omega

/-- What is taken for a result below the bound is a word. -/
theorem lt_of_mem_words (h : 0 < bound) {i v : Nat} (hi : i < bound.toInt.toNat)
    (hv : v ∈ words bound i) : v < 2 ^ 32 := by
  refine Nat.lt_of_mul_lt_mul_right (a := bound.toInt.toNat) ?_
  calc v * bound.toInt.toNat < 2 ^ 32 * i + span bound := ((mem_words h).1 hv).2
    _ ≤ 2 ^ 32 * (i + 1) := Nat.add_le_add_left (span_mem_Ico h).2.le _
    _ ≤ 2 ^ 32 * bound.toInt.toNat := Nat.mul_le_mul_left _ hi

theorem takes_iff_mem_words (h : 0 < bound) (w : UInt32) :
    Takes bound w r ↔ w.toNat ∈ words bound r.toUInt32.toNat := by
  rw [mem_words h, takes_iff_mem_Ico h]

/-- There is a word for every number that is taken for a result below the bound. -/
theorem exists_takes_of_mem_words (h : 0 < bound) (hr : r.toUInt32.toNat < bound.toInt.toNat)
    {v : Nat} (hv : v ∈ words bound r.toUInt32.toNat) : ∃ w, Takes bound w r ∧ w.toNat = v := by
  have hvalue : (UInt32.ofNat v).toNat = v := UInt32.toNat_ofNat_of_lt' (lt_of_mem_words h hr hv)
  exact ⟨UInt32.ofNat v, (takes_iff_mem_words h _).2 (hvalue.symm ▸ hv), hvalue⟩

/-- A result lies below the bound, also as a number of 32 bits. -/
theorem Takes.toNat_lt {w : UInt32} (h : 0 < bound) (hw : Takes bound w r) :
    r.toUInt32.toNat < bound.toInt.toNat :=
  ((takes_iff h).1 hw).2 ▸ highHalf_lt h w

/-- **Every result has the same number of words.** -/
theorem ncard_takes (h : 0 < bound) (hr : r.toUInt32.toNat < bound.toInt.toNat) :
    {w | Takes bound w r}.ncard = 2 ^ (leadingZeros bound).toNat := by
  have himage : UInt32.toNat '' {w | Takes bound w r} = words bound r.toUInt32.toNat := by
    ext v
    constructor
    · rintro ⟨w, hw, rfl⟩
      exact (takes_iff_mem_words h w).1 hw
    · exact exists_takes_of_mem_words h hr
  rw [← Set.ncard_image_of_injective _ fun _ _ ↦ UInt32.toNat_inj.1, himage, Set.ncard_coe_finset,
    card_words]

/-- The words that are taken at all are as many as the low halves that are. -/
theorem ncard_taken (h : 0 < bound) : {w | ∃ r, Takes bound w r}.ncard = span bound := by
  have himage : UInt32.toNat '' {w | ∃ r, Takes bound w r} =
      (Finset.range bound.toInt.toNat).biUnion (words bound) := by
    ext v
    rw [Finset.mem_coe, Finset.mem_biUnion]
    constructor
    · rintro ⟨w, ⟨r, hw⟩, rfl⟩
      exact ⟨_, Finset.mem_range.2 (hw.toNat_lt h), (takes_iff_mem_words h w).1 hw⟩
    · rintro ⟨i, hi, hv⟩
      have hvalue := toNat_toUInt32_ofNat (Finset.mem_range.1 hi)
      obtain ⟨w, hw, rfl⟩ := exists_takes_of_mem_words (r := Int32.ofNat i) h
        (hvalue.symm ▸ Finset.mem_range.1 hi) (hvalue.symm ▸ hv)
      exact ⟨w, ⟨_, hw⟩, rfl⟩
  have hdisjoint : Set.PairwiseDisjoint (Finset.range bound.toInt.toNat : Set Nat) (words bound) :=
    fun i _ j _ hij ↦ Finset.disjoint_left.2 fun v hi hj ↦ hij (eq_of_mem_words h hi hj)
  rw [← Set.ncard_image_of_injective _ fun _ _ ↦ UInt32.toNat_inj.1, himage, Set.ncard_coe_finset,
    Finset.card_biUnion hdisjoint, Finset.sum_congr rfl fun i _ ↦ card_words bound i,
    Finset.sum_const, Finset.card_range, smul_eq_mul]
  rfl

/-- A number is between 0 and the bound exactly if its bits are those of a number below it. -/
theorem mem_range_iff :
    (0 ≤ r ∧ r < bound) ↔ r.toUInt32.toNat < bound.toInt.toNat := by
  have hfew := toNat_lt_of_pos bound
  have hint := BitVec.toInt_eq_toNat_cond r.toBitVec
  rw [Int32.toInt_toBitVec, show r.toBitVec.toNat = r.toUInt32.toNat from rfl] at hint
  have hword := r.toUInt32.toNat_lt
  rw [Int32.le_iff_toInt_le, Int32.lt_iff_toInt_lt, Int32.toInt_zero]
  split at hint <;> omega

end Counting

/-! ### Draws -/

section Draws

variable {bound : Int32} {g : Generator}

/-- What lies ahead of a later place lies further ahead of this one. -/
theorem ahead_skip (g : Generator) (n k : Nat) : (g.skip n).ahead k = g.ahead (n + k) := by
  rw [ahead, ahead, skip, Nat.add_assoc]

/-- The rule leaves one result for a word. -/
theorem Takes.unique {w : UInt32} {r r' : Int32} (hr : Takes bound w r) (hr' : Takes bound w r') :
    r = r' := by
  rw [← r.toInt32_toUInt32, hr.high_eq, ← hr'.high_eq, r'.toInt32_toUInt32]

/-- A word that is taken has the high half of its product as result. -/
theorem takes_ofNat (h : 0 < bound) {w : UInt32} (haccepts : accepts bound.toInt.toNat w = true) :
    Takes bound w (Int32.ofNat (highHalf (spreadWord bound.toInt.toNat w))) :=
  (takes_iff h).2 ⟨haccepts, toNat_toUInt32_ofNat (highHalf_lt h w)⟩

/-- A draw whose search ends gives what the rule makes of the word it ends at. -/
theorem drawBelow_of_first (h : 0 < bound) {n : Nat} {r : Int32}
    (htakes : Takes bound (g.ahead n) r) (hbefore : ∀ k < n, ∀ r', ¬Takes bound (g.ahead k) r') :
    g.drawBelow bound = .ok (r, g.skip (n + 1)) := by
  have haccepts := ((takes_iff h).1 htakes).1
  have hrejects (k : Nat) (hk : k < n) : accepts bound.toInt.toNat (g.ahead k) = false :=
    Bool.eq_false_iff.2 fun haccepts ↦ hbefore k hk _ (takes_ofNat h haccepts)
  rw [drawBelow, if_neg (Int32.not_le.2 h)]
  simp only [below, rejected_of_first haccepts hrejects, (takes_ofNat h haccepts).unique htakes]

/-- **A draw below a bound is in range and exactly uniform.** A draw that comes upon a word that is
taken gives the result of the first such word, having rejected every word before, and leaves the
generator right behind it, so the words read from there are those that follow. The results are the
numbers from 0 up to the bound, each has the same number of words, and at least half of all words
are taken. -/
theorem drawBelow_uniform (hbound : 0 < bound) :
    (∀ g : Generator, (∃ k r, Takes bound (g.ahead k) r) →
      ∃ n r, g.drawBelow bound = .ok (r, g.skip (n + 1)) ∧ 0 ≤ r ∧ r < bound ∧
        Takes bound (g.ahead n) r ∧ (∀ k < n, ∀ r', ¬Takes bound (g.ahead k) r') ∧
        ∀ k, (g.skip (n + 1)).ahead k = g.ahead (n + 1 + k)) ∧
    (∀ w r, Takes bound w r → 0 ≤ r ∧ r < bound) ∧
    (∀ r, 0 ≤ r → r < bound →
      {w | Takes bound w r}.ncard = 2 ^ (leadingZeros bound).toNat) ∧
    2 ^ 31 ≤ {w | ∃ r, Takes bound w r}.ncard := by
  have hrange (w : UInt32) (r : Int32) (hw : Takes bound w r) : 0 ≤ r ∧ r < bound :=
    mem_range_iff.2 (hw.toNat_lt hbound)
  refine ⟨fun g hword ↦ ?_, hrange, fun r hr hlt ↦ ?_, ?_⟩
  · classical
    obtain ⟨r, hr⟩ := Nat.find_spec hword
    obtain ⟨hnonneg, hlt⟩ := hrange _ r hr
    have hbefore : ∀ k < Nat.find hword, ∀ r', ¬Takes bound (g.ahead k) r' :=
      fun k hk r' hr' ↦ Nat.find_min hword hk ⟨r', hr'⟩
    exact ⟨_, r, drawBelow_of_first hbound hr hbefore, hnonneg, hlt, hr, hbefore,
      g.ahead_skip _⟩
  · exact ncard_takes hbound (mem_range_iff.1 ⟨hr, hlt⟩)
  · rw [ncard_taken hbound]
    exact (span_mem_Ico hbound).1

/-- Below 3, the word with the second bit set is rejected and the word with the top bit set is taken
with the result 1. The word behind it is the next to be read. -/
theorem drawBelow_uniform_three :
    (0 : Int32) < 3 ∧
      ∃ g g' : Generator, g.ahead 0 = 0x40000000 ∧ g.ahead 1 = 0x80000000 ∧ g.ahead 2 = 7 ∧
        g.drawBelow 3 = .ok (1, g') ∧ g'.ahead 0 = 7 ∧ {w | Takes 3 w 1}.ncard = 2 ^ 30 := by
  have hpos : (0 : Int32) < 3 := by decide
  have hrejected : ∀ r, ¬Takes 3 0x40000000 r := fun r hr ↦ absurd hr.low_le (by decide)
  have htaken : Takes 3 0x80000000 1 := by decide
  obtain ⟨hdraw, -, hcount, -⟩ := drawBelow_uniform hpos
  let g : Generator := ⟨fun n ↦ if n = 0 then 0x40000000 else if n = 1 then 0x80000000 else 7, 0⟩
  obtain ⟨n, r, hg, -, -, hr, hbefore, hahead⟩ := hdraw g ⟨1, 1, htaken⟩
  have hn : n = 1 := by
    rcases Nat.lt_trichotomy n 1 with hlt | heq | hgt
    · obtain rfl : n = 0 := by omega
      exact absurd hr (hrejected r)
    · exact heq
    · exact absurd htaken (hbefore 1 hgt 1)
  subst hn
  obtain rfl : r = 1 := hr.unique htaken
  exact ⟨hpos, g, _, rfl, rfl, rfl, hg, hahead 0, hcount 1 (by decide) (by decide)⟩

end Draws

end HostMethods.Generator
