import Mathlib.Data.Nat.Bits
import Mathlib.Data.Nat.Bitwise
import Mathlib.Data.Nat.Size
import Mathlib.Order.Basic
import UserSpaceThreads.Khash

set_option relaxedAutoImplicit false
set_option autoImplicit false

/-!
# The flag bits and the sizes of `khash.h`

The macros of `khash.h` on packed flag words, in terms of the two bits of a bucket: each of them
reads or writes the bits of its own bucket and leaves the others alone. And the numbers that
`kh_resize` computes: `kroundup32` rounds up to a power of two, and the load factor leaves at
least one bucket of the table empty.

## Main results

* `UserThreads.acIsempty_acSetIsdelTrue`, … — the macros that write, seen by those that read.
* `UserThreads.kroundup32_eq` — `kroundup32` is the next power of two, or `0` on overflow.
* `UserThreads.khRoundup_eq` — `kh_resize` aims at a power of two from `4` to `2 ^ 31`.
* `UserThreads.acHashUpper_lt` — the load factor.
-/

namespace UserThreads

/-! ## Flag bits -/

/-- The position of the two bits of bucket `i` in their word. -/
lemma and_shiftLeft_eq (i : ℕ) : (i &&& 0xf) <<< 1 = 2 * (i % 16) := by
  have hand : i &&& 0xf = i % 16 := Nat.and_two_pow_sub_one_eq_mod i 4
  rw [hand, Nat.shiftLeft_eq, pow_one, Nat.mul_comm]

/-- The word of the two bits of bucket `i`. -/
lemma shiftRight_eq (i : ℕ) : i >>> 4 = i / 16 := Nat.shiftRight_eq_div_pow i 4

/-- Two buckets with the same word and the same position are the same. -/
lemma bucket_eq {i j : ℕ} (hw : j / 16 = i / 16) (hp : j % 16 = i % 16) : j = i := by omega

/-- The bits of `2`. -/
lemma getLsbD_two (p : ℕ) : (2#32).getLsbD p = decide (p = 1) := by
  rw [show 2#32 = BitVec.twoPow 32 1 from rfl, BitVec.getLsbD_twoPow]
  simp [eq_comm]

/-- The bits of `1`. -/
lemma getLsbD_one (p : ℕ) : (1#32).getLsbD p = decide (p = 0) := by
  rw [show 1#32 = BitVec.twoPow 32 0 from rfl, BitVec.getLsbD_twoPow]
  simp [eq_comm]

/-- The bits of `3`. -/
lemma getLsbD_three (p : ℕ) : (3#32).getLsbD p = decide (p = 0 ∨ p = 1) := by
  rw [show 3#32 = 1#32 ||| 2#32 from rfl, BitVec.getLsbD_or, getLsbD_one, getLsbD_two,
    Bool.decide_or]

/-- A bit of a word is set if masking the word with it leaves something. -/
lemma and_two_ne_zero (x : BitVec 32) : (x &&& 2#32 ≠ 0) ↔ x.getLsbD 1 = true := by
  rw [show 2#32 = BitVec.twoPow 32 1 from rfl, BitVec.and_twoPow]
  cases x.getLsbD 1 <;> decide

/-- The same for the bit before it. -/
lemma and_one_ne_zero (x : BitVec 32) : (x &&& 1#32 ≠ 0) ↔ x.getLsbD 0 = true := by
  rw [show 1#32 = BitVec.twoPow 32 0 from rfl, BitVec.and_twoPow]
  cases x.getLsbD 0 <;> decide

/-- `__ac_isempty` reads the upper bit of the bucket. -/
lemma acIsempty_eq (flag : Flags) (i : ℕ) :
    acIsempty flag i = (flag (i / 16)).getLsbD (2 * (i % 16) + 1) := by
  rw [Bool.eq_iff_iff, acIsempty, decide_eq_true_iff, and_two_ne_zero, acFlag, and_shiftLeft_eq,
    shiftRight_eq, BitVec.getLsbD_ushiftRight]

/-- `__ac_isdel` reads the lower bit of the bucket. -/
lemma acIsdel_eq (flag : Flags) (i : ℕ) :
    acIsdel flag i = (flag (i / 16)).getLsbD (2 * (i % 16)) := by
  rw [Bool.eq_iff_iff, acIsdel, decide_eq_true_iff, and_one_ne_zero, acFlag, and_shiftLeft_eq,
    shiftRight_eq, BitVec.getLsbD_ushiftRight, Nat.add_zero]

/-- `__ac_iseither` reads both bits of the bucket. -/
lemma acIseither_eq (flag : Flags) (i : ℕ) :
    acIseither flag i = (acIsempty flag i || acIsdel flag i) := by
  have hor : ∀ x : BitVec 32, (x &&& 3#32 ≠ 0) ↔ (x &&& 2#32 ≠ 0) ∨ (x &&& 1#32 ≠ 0) := by
    intro x
    have hzero : x &&& 3#32 = 0#32 ↔ x &&& 2#32 = 0#32 ∧ x &&& 1#32 = 0#32 := by
      rw [show 3#32 = 2#32 ||| 1#32 from rfl, BitVec.and_or_distrib_left, BitVec.or_eq_zero_iff]
    exact (not_congr hzero).trans not_and_or
  rw [Bool.eq_iff_iff, acIseither, decide_eq_true_iff, hor, Bool.or_eq_true, acIsempty, acIsdel,
    decide_eq_true_iff, decide_eq_true_iff]

/-- A bit that a macro clears. -/
lemma getLsbD_and_not_shiftLeft (w mask : BitVec 32) {s p : ℕ} (hp : p < 32) :
    (w &&& ~~~(mask <<< s)).getLsbD p =
      (w.getLsbD p && !(decide (s ≤ p) && mask.getLsbD (p - s))) := by
  rw [BitVec.getLsbD_and, BitVec.getLsbD_not, BitVec.getLsbD_shiftLeft]
  by_cases hs : p < s
  · simp [hp, hs]
  · simp [hp, hs, Nat.le_of_not_lt hs]

/-- A bit that a macro sets. -/
lemma getLsbD_or_shiftLeft (w mask : BitVec 32) {s p : ℕ} (hp : p < 32) :
    (w ||| mask <<< s).getLsbD p =
      (w.getLsbD p || (decide (s ≤ p) && mask.getLsbD (p - s))) := by
  rw [BitVec.getLsbD_or, BitVec.getLsbD_shiftLeft]
  by_cases hs : p < s
  · simp [hp, hs]
  · simp [hp, hs, Nat.le_of_not_lt hs]

/-- Reading a word of flags behind a macro that writes. -/
lemma update_word (flag : Flags) (i j : ℕ) (w : BitVec 32) :
    Function.update flag (i >>> 4) w (j / 16) = if j / 16 = i / 16 then w else flag (j / 16) := by
  rw [shiftRight_eq, Function.update_apply]

section Writes

variable (flag : Flags) (i j : ℕ)

/-- `__ac_set_isdel_true` does not change which buckets are empty. -/
@[simp] lemma acIsempty_acSetIsdelTrue :
    acIsempty (acSetIsdelTrue flag i) j = acIsempty flag j := by
  rw [acIsempty_eq, acIsempty_eq, acSetIsdelTrue, update_word]
  split_ifs with hw
  · rw [shiftRight_eq, ← hw, and_shiftLeft_eq, getLsbD_or_shiftLeft _ _ (by omega), getLsbD_one]
    have hne : 2 * (j % 16) + 1 - 2 * (i % 16) ≠ 0 ∨ ¬ 2 * (i % 16) ≤ 2 * (j % 16) + 1 := by omega
    rcases hne with hne | hne <;> simp [hne]
  · rfl

/-- `__ac_set_isdel_true` marks its bucket as deleted. -/
lemma acIsdel_acSetIsdelTrue :
    acIsdel (acSetIsdelTrue flag i) j = (decide (j = i) || acIsdel flag j) := by
  rw [acIsdel_eq, acIsdel_eq, acSetIsdelTrue, update_word]
  split_ifs with hw
  · rw [shiftRight_eq, ← hw, and_shiftLeft_eq, getLsbD_or_shiftLeft _ _ (by omega), getLsbD_one,
      Bool.or_comm, ← Bool.decide_and]
    congr 1
    rw [decide_eq_decide]
    exact ⟨fun h => bucket_eq hw (by omega), fun h => by omega⟩
  · have hne : j ≠ i := fun h => hw (by rw [h])
    simp [hne]

/-- `__ac_set_isempty_false` takes its bucket out of the empty ones. -/
lemma acIsempty_acSetIsemptyFalse :
    acIsempty (acSetIsemptyFalse flag i) j = (!decide (j = i) && acIsempty flag j) := by
  rw [acIsempty_eq, acIsempty_eq, acSetIsemptyFalse, update_word]
  split_ifs with hw
  · rw [shiftRight_eq, ← hw, and_shiftLeft_eq, getLsbD_and_not_shiftLeft _ _ (by omega),
      getLsbD_two, Bool.and_comm, ← Bool.decide_and]
    congr 2
    rw [decide_eq_decide]
    exact ⟨fun h => bucket_eq hw (by omega), fun h => by omega⟩
  · have hne : j ≠ i := fun h => hw (by rw [h])
    simp [hne]

/-- `__ac_set_isempty_false` does not change which buckets are marked as deleted. -/
@[simp] lemma acIsdel_acSetIsemptyFalse :
    acIsdel (acSetIsemptyFalse flag i) j = acIsdel flag j := by
  rw [acIsdel_eq, acIsdel_eq, acSetIsemptyFalse, update_word]
  split_ifs with hw
  · rw [shiftRight_eq, ← hw, and_shiftLeft_eq, getLsbD_and_not_shiftLeft _ _ (by omega),
      getLsbD_two]
    have hne : 2 * (j % 16) - 2 * (i % 16) ≠ 1 := by omega
    simp [hne]
  · rfl

/-- `__ac_set_isboth_false` takes its bucket out of the empty ones. -/
lemma acIsempty_acSetIsbothFalse :
    acIsempty (acSetIsbothFalse flag i) j = (!decide (j = i) && acIsempty flag j) := by
  rw [acIsempty_eq, acIsempty_eq, acSetIsbothFalse, update_word]
  split_ifs with hw
  · rw [shiftRight_eq, ← hw, and_shiftLeft_eq, getLsbD_and_not_shiftLeft _ _ (by omega),
      getLsbD_three, Bool.and_comm, ← Bool.decide_and]
    congr 2
    rw [decide_eq_decide]
    exact ⟨fun h => bucket_eq hw (by omega), fun h => by omega⟩
  · have hne : j ≠ i := fun h => hw (by rw [h])
    simp [hne]

/-- `__ac_set_isboth_false` takes its bucket out of the deleted ones. -/
lemma acIsdel_acSetIsbothFalse :
    acIsdel (acSetIsbothFalse flag i) j = (!decide (j = i) && acIsdel flag j) := by
  rw [acIsdel_eq, acIsdel_eq, acSetIsbothFalse, update_word]
  split_ifs with hw
  · rw [shiftRight_eq, ← hw, and_shiftLeft_eq, getLsbD_and_not_shiftLeft _ _ (by omega),
      getLsbD_three, Bool.and_comm, ← Bool.decide_and]
    congr 2
    rw [decide_eq_decide]
    exact ⟨fun h => bucket_eq hw (by omega), fun h => by omega⟩
  · have hne : j ≠ i := fun h => hw (by rw [h])
    simp [hne]

end Writes

/-- The word of a bucket is one of those that are allocated. -/
lemma div_lt_acFsize {i m k : ℕ} (hm : m = 2 ^ k) (hi : i < m) : i / 16 < acFsize m := by
  rw [acFsize]
  split_ifs with h
  · omega
  · have hdvd : 16 ∣ m := by
      have hk : 4 ≤ k := Nat.le_of_not_lt fun hk => h (by
        rw [hm]
        exact Nat.pow_lt_pow_right (by omega) hk)
      rw [hm]
      exact Nat.pow_dvd_pow 2 hk
    rw [shiftRight_eq]
    omega

/-- Every bucket is empty behind the `memset`. -/
lemma acIsempty_memsetFlags (flag : Flags) {i m k : ℕ} (hm : m = 2 ^ k) (hi : i < m) :
    acIsempty (memsetFlags flag (acFsize m)) i = true := by
  rw [acIsempty_eq, memsetFlags, if_pos (div_lt_acFsize hm hi)]
  have hall : ∀ p < 16, (0xaaaaaaaa#32).getLsbD (2 * p + 1) = true := by decide
  exact hall _ (Nat.mod_lt _ (by decide))

/-- No bucket is deleted behind the `memset`. -/
lemma acIsdel_memsetFlags (flag : Flags) {i m k : ℕ} (hm : m = 2 ^ k) (hi : i < m) :
    acIsdel (memsetFlags flag (acFsize m)) i = false := by
  rw [acIsdel_eq, memsetFlags, if_pos (div_lt_acFsize hm hi)]
  have hall : ∀ p < 16, (0xaaaaaaaa#32).getLsbD (2 * p) = false := by decide
  exact hall _ (Nat.mod_lt _ (by decide))

/-! ## Rounding up to a power of two -/

/-- The bits below the size of a number are those with a set bit at or above them. -/
lemma lt_size_iff {y : ℕ} (hy : y < 2 ^ 32) (i : ℕ) :
    i < y.size ↔ ∃ d < 32, y.testBit (i + d) = true := by
  rw [Nat.lt_size]
  constructor
  · intro hle
    have hne : y ≠ 0 := fun h0 => by
      have hpos := Nat.two_pow_pos i
      omega
    have hlog : i ≤ y.log2 := (Nat.le_log2 hne).mpr hle
    have hlt : y.log2 < 32 := (Nat.log2_lt hne).mpr hy
    refine ⟨y.log2 - i, by omega, ?_⟩
    rw [Nat.add_sub_cancel' hlog]
    exact Nat.testBit_log2 hne
  · rintro ⟨d, -, hbit⟩
    exact (Nat.pow_le_pow_right (by decide) (Nat.le_add_right i d)).trans
      (Nat.ge_two_pow_of_testBit hbit)

/-- One line of `kroundup32`. -/
def smear (m x : ℕ) : ℕ := x ||| x >>> m

/-- `kroundup32` line by line. -/
lemma kroundup32_eq_smear (x : ℕ) : kroundup32 x =
    (smear 16 (smear 8 (smear 4 (smear 2 (smear 1 (pred32 x))))) + 1) % 2 ^ 32 := rfl

/-- A bit is set behind a line of `kroundup32` if one of the next `2 * m` bits was set. -/
lemma testBit_smear {y w m : ℕ}
    (h : ∀ i, w.testBit i = true ↔ ∃ d < m, y.testBit (i + d) = true) (i : ℕ) :
    (smear m w).testBit i = true ↔ ∃ d < 2 * m, y.testBit (i + d) = true := by
  rw [smear, Nat.testBit_or, Nat.testBit_shiftRight, Bool.or_eq_true, h, h]
  constructor
  · rintro (⟨d, hd, hbit⟩ | ⟨d, hd, hbit⟩)
    · exact ⟨d, by omega, hbit⟩
    · exact ⟨m + d, by omega, by rwa [show i + (m + d) = m + i + d by omega]⟩
  · rintro ⟨d, hd, hbit⟩
    by_cases hlt : d < m
    · exact .inl ⟨d, hlt, hbit⟩
    · exact .inr ⟨d - m, by omega, by rwa [show m + i + (d - m) = i + d by omega]⟩

/-- `pred32` answers a number of 32 bits. -/
lemma pred32_lt (x : ℕ) : pred32 x < 2 ^ 32 := Nat.mod_lt _ (by decide)

/-- `pred32` of a number from `1` to `2 ^ 32`. -/
lemma pred32_eq {x : ℕ} (h0 : 0 < x) (hx : x ≤ 2 ^ 32) : pred32 x = x - 1 := by
  rw [pred32]
  omega

/-- **`kroundup32` rounds up to a power of two**, and overflows to `0` behind `2 ^ 31`.

**Proof sketch.** The five shifts by `1`, `2`, `4`, `8` and `16` set every bit below the highest bit
of `x - 1`: after the shift by `m` a bit is set exactly if one of the next `2 * m` bits of `x - 1`
is. What comes out is one less than a power of two, and the increment at the end makes it that
power. -/
theorem kroundup32_eq (x : ℕ) : kroundup32 x = 2 ^ (pred32 x).size % 2 ^ 32 := by
  have hy := pred32_lt x
  have h1 : ∀ i, (pred32 x).testBit i = true ↔ ∃ d < 1, (pred32 x).testBit (i + d) = true := by
    intro i
    constructor
    · exact fun hbit => ⟨0, by decide, hbit⟩
    · rintro ⟨d, hd, hbit⟩
      rwa [show i + d = i by omega] at hbit
  have h32 := testBit_smear (m := 16) (testBit_smear (m := 8) (testBit_smear (m := 4)
    (testBit_smear (m := 2) (testBit_smear (m := 1) h1))))
  rw [kroundup32_eq_smear]
  generalize smear 16 _ = w at h32 ⊢
  have hones : w = 2 ^ (pred32 x).size - 1 := by
    refine Nat.eq_of_testBit_eq fun i => ?_
    rw [Bool.eq_iff_iff, h32, Nat.testBit_two_pow_sub_one, decide_eq_true_iff, lt_size_iff hy]
  have hpos := Nat.two_pow_pos (pred32 x).size
  rw [hones, Nat.sub_add_cancel hpos]

/-- The number of buckets when the number of bits is known. -/
lemma khRoundup_of_size {x k : ℕ} (h : (pred32 x).size = k) (h2 : 2 ≤ k) (h31 : k ≤ 31) :
    khRoundup x = 2 ^ k := by
  have hlt : 2 ^ k < 2 ^ 32 := Nat.pow_lt_pow_right (by decide) (by omega)
  have hge : 2 ^ 2 ≤ 2 ^ k := Nat.pow_le_pow_right (by decide) h2
  rw [khRoundup, kroundup32_eq, h, Nat.mod_eq_of_lt hlt, if_neg (by omega)]

/-- **`kh_resize` aims at a power of two** from `4` to `2 ^ 31`.

**Proof sketch.** The exponent is the number of bits of `newNBuckets - 1`. Where this is below `2`
the code takes `4`, and where it is `32` the power has overflowed to `0`, which is also below
`4`. -/
theorem khRoundup_eq (x : ℕ) : ∃ k, 2 ≤ k ∧ k ≤ 31 ∧ khRoundup x = 2 ^ k := by
  have hsize : (pred32 x).size ≤ 32 := Nat.size_le.mpr (pred32_lt x)
  by_cases h : 2 ≤ (pred32 x).size ∧ (pred32 x).size ≤ 31
  · exact ⟨_, h.1, h.2, khRoundup_of_size rfl h.1 h.2⟩
  · refine ⟨2, le_rfl, by decide, ?_⟩
    rw [khRoundup, kroundup32_eq]
    obtain h0 | h1 | h32 :
        (pred32 x).size = 0 ∨ (pred32 x).size = 1 ∨ (pred32 x).size = 32 := by omega
    · rw [h0]
      rfl
    · rw [h1]
      rfl
    · rw [h32]
      rfl

/-- The rehash that clears deleted buckets keeps the number of buckets. -/
lemma khRoundup_pred {k : ℕ} (h2 : 2 ≤ k) (h31 : k ≤ 31) : khRoundup (pred32 (2 ^ k)) = 2 ^ k := by
  have hge : 2 ^ 2 ≤ 2 ^ k := Nat.pow_le_pow_right (by decide) h2
  have hle : 2 ^ k ≤ 2 ^ 31 := Nat.pow_le_pow_right (by decide) h31
  have hpow : 2 ^ k = 2 * 2 ^ (k - 1) := by rw [← pow_succ', Nat.sub_add_cancel (by omega)]
  have hpred : pred32 (pred32 (2 ^ k)) = 2 ^ k - 2 := by
    rw [pred32_eq (x := 2 ^ k) (by omega) (by omega), pred32_eq (by omega) (by omega)]
    omega
  refine khRoundup_of_size (Nat.le_antisymm (Nat.size_le.mpr (by omega)) ?_) h2 h31
  have hlast : k - 1 < (pred32 (pred32 (2 ^ k))).size := Nat.lt_size.mpr (by omega)
  omega

/-- The rehash that makes room doubles the number of buckets. -/
lemma khRoundup_succ {k : ℕ} (h2 : 2 ≤ k) (h30 : k ≤ 30) :
    khRoundup ((2 ^ k + 1) % 2 ^ 32) = 2 ^ (k + 1) := by
  have hle : 2 ^ k ≤ 2 ^ 30 := Nat.pow_le_pow_right (by decide) h30
  have hpos := Nat.two_pow_pos k
  have hpred : pred32 ((2 ^ k + 1) % 2 ^ 32) = 2 ^ k := by
    rw [Nat.mod_eq_of_lt (by omega), pred32_eq (by omega) (by omega), Nat.add_sub_cancel]
  exact khRoundup_of_size (by rw [hpred, Nat.size_pow]) (by omega) (by omega)

/-! ## The load factor and the steps of a search -/

/-- The load factor leaves a bucket empty. -/
lemma acHashUpper_lt {n : ℕ} (hn : 4 ≤ n) : acHashUpper n < n := by
  rw [acHashUpper]
  omega

/-- The load factor lets more than half of the buckets be used. -/
lemma lt_acHashUpper {m n : ℕ} (hn : 4 ≤ n) (hm : 2 * m ≤ n) : m < acHashUpper n := by
  rw [acHashUpper]
  omega

/-- The mask takes a number modulo the number of buckets. -/
lemma and_pred_eq {n k : ℕ} (hn : n = 2 ^ k) (x : ℕ) : x &&& (n - 1) = x % n := by
  rw [hn, Nat.and_two_pow_sub_one_eq_mod]

/-- The mask absorbs the overflow of a step. -/
lemma khStep_eq {n k : ℕ} (hn : n = 2 ^ k) (hk : k ≤ 32) (i step : ℕ) :
    khStep (n - 1) i step = (i + step) % n := by
  rw [khStep, and_pred_eq hn, hn, Nat.mod_mod_of_dvd _ (Nat.pow_dvd_pow 2 hk)]

end UserThreads
