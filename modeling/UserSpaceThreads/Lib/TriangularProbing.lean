import Mathlib.Data.Fintype.EquivFin
import Mathlib.Data.Nat.ModEq
import Mathlib.Data.Nat.Prime.Basic
import Mathlib.Tactic.Ring

set_option relaxedAutoImplicit false
set_option autoImplicit false

/-!
# Triangular probing

A search that starts at a cell of a circular array and moves on by one cell, then by two, then
by three, and so on. If the number of cells is a power of two, the first `n` probes visit every
cell once; the search is back at its start after `2 * n - 1` moves, and not before.

## Main definitions

* `TriangularProbing.offset` — the sum of the first moves.
* `TriangularProbing.probe` — the cell that a probe visits.

## Main results

* `TriangularProbing.probe_ne` — two probes that are not too late visit different cells.
* `TriangularProbing.exists_probe` — the first probes visit every cell.
* `TriangularProbing.probe_return` — the search comes back to its start.
-/

namespace TriangularProbing

/-- How far the first `t` moves have gone. -/
def offset : ℕ → ℕ
  | 0 => 0
  | t + 1 => offset t + (t + 1)

/-- Twice the triangular number. -/
lemma two_mul_offset (t : ℕ) : 2 * offset t = t * (t + 1) := by
  induction t with
  | zero => rfl
  | succ t ih =>
    rw [offset, Nat.mul_add, ih]
    ring

/-- Offsets grow. -/
lemma offset_le {a b : ℕ} (h : a ≤ b) : offset a ≤ offset b := by
  induction h with
  | refl => exact le_rfl
  | step _ ih => exact ih.trans (Nat.le_add_right _ _)

/-- The cell, of `n`, that probe `t` of a search from `start` visits. -/
def probe (n start t : ℕ) : ℕ := (start + offset t) % n

/-- Probes stay inside the array. -/
lemma probe_lt {n : ℕ} (hn : 0 < n) (start t : ℕ) : probe n start t < n := Nat.mod_lt _ hn

/-- The first probe. -/
lemma probe_zero (n start : ℕ) : probe n start 0 = start % n := rfl

/-- One move of the search. -/
lemma probe_succ (n start t : ℕ) : probe n start (t + 1) = (probe n start t + (t + 1)) % n := by
  rw [probe, probe, Nat.mod_add_mod, offset, Nat.add_assoc]

/-- The product form of the distance between two probes. -/
lemma two_mul_offset_sub {a b : ℕ} (h : a ≤ b) :
    2 * (offset b - offset a) = (b - a) * (a + b + 1) := by
  obtain ⟨d, rfl⟩ := Nat.exists_eq_add_of_le h
  have ha := two_mul_offset a
  have hb := two_mul_offset (a + d)
  have hsub : a + d - a = d := by omega
  have heq : 2 * offset (a + d) = 2 * offset a + d * (a + (a + d) + 1) := by
    rw [ha, hb]
    ring
  rw [hsub]
  omega

/-- A power of two that divides a product of an odd and an even number divides the even one. -/
lemma two_pow_dvd_of_mul {m a b : ℕ} (h : 2 ^ m ∣ a * b) (hodd : (a + b) % 2 = 1) :
    2 ^ m ∣ a ∨ 2 ^ m ∣ b := by
  rcases Nat.mod_two_eq_zero_or_one a with ha | ha
  · have hb : Nat.Coprime (2 ^ m) b :=
      Nat.Coprime.pow_left m (Nat.coprime_two_left.mpr (Nat.odd_iff.mpr (by omega)))
    exact .inl (hb.dvd_of_dvd_mul_right h)
  · have ha : Nat.Coprime (2 ^ m) a :=
      Nat.Coprime.pow_left m (Nat.coprime_two_left.mpr (Nat.odd_iff.mpr ha))
    exact .inr (ha.dvd_of_dvd_mul_left h)

/-- **Different probes visit different cells**, as long as their numbers add up to less than
`2 * n - 1`.

**Proof sketch.** Two probes at the same cell have offsets that differ by a multiple of `2 ^ k`.
Twice this difference is `(b - a) * (a + b + 1)`, a product of one odd and one even factor, so the
power `2 ^ (k + 1)` divides one of them. But both are positive and smaller than the power. -/
theorem probe_ne {k start a b : ℕ} (hab : a < b) (hsum : a + b + 1 < 2 ^ (k + 1)) :
    probe (2 ^ k) start a ≠ probe (2 ^ k) start b := by
  intro h
  have hle : offset a ≤ offset b := offset_le hab.le
  have hdvd : 2 ^ k ∣ (start + offset b) - (start + offset a) :=
    (Nat.modEq_iff_dvd' (by omega)).mp h
  have hdvd : 2 ^ (k + 1) ∣ (b - a) * (a + b + 1) := by
    rw [← two_mul_offset_sub hab.le, pow_succ']
    refine Nat.mul_dvd_mul_left 2 ?_
    rwa [Nat.add_sub_add_left] at hdvd
  -- one factor is odd, and both are too small to be a multiple of the power
  rcases two_pow_dvd_of_mul hdvd (by omega) with h' | h'
  · have := Nat.le_of_dvd (by omega) h'
    omega
  · have := Nat.le_of_dvd (by omega) h'
    omega

/-- **The first `n` probes visit every cell.**

**Proof sketch.** The first `2 ^ k` probes are a function on the `2 ^ k` cells. It is injective by
`probe_ne`, and so it is surjective. -/
theorem exists_probe {k : ℕ} (start : ℕ) {i : ℕ} (hi : i < 2 ^ k) :
    ∃ t < 2 ^ k, probe (2 ^ k) start t = i := by
  let f : Fin (2 ^ k) → Fin (2 ^ k) :=
    fun t => ⟨probe (2 ^ k) start t, probe_lt (Nat.two_pow_pos k) start t⟩
  have hinj : Function.Injective f := by
    intro a b hab
    have hval : probe (2 ^ k) start a = probe (2 ^ k) start b := congrArg Fin.val hab
    have ha := a.isLt
    have hb := b.isLt
    have hpow : 2 ^ (k + 1) = 2 * 2 ^ k := pow_succ' 2 k
    by_contra hne
    have hne : a.val ≠ b.val := fun heq => hne (Fin.ext heq)
    rcases Nat.lt_or_gt_of_ne hne with hlt | hlt
    · exact probe_ne hlt (by omega) hval
    · exact probe_ne hlt (by omega) hval.symm
  obtain ⟨t, ht⟩ := (Finite.injective_iff_surjective.mp hinj) ⟨i, hi⟩
  exact ⟨t, t.isLt, congrArg Fin.val ht⟩

/-- The search is not back at its start before move `2 * n - 1`. -/
lemma probe_ne_start {k start t : ℕ} (h0 : 0 < t) (ht : t + 1 < 2 * 2 ^ k) :
    probe (2 ^ k) start t ≠ probe (2 ^ k) start 0 :=
  (probe_ne h0 (by rw [pow_succ']; omega)).symm

/-- **The search is back at its start** after `2 * n - 1` moves. -/
lemma probe_return {n : ℕ} (hn : 0 < n) (start : ℕ) :
    probe n start (2 * n - 1) = probe n start 0 := by
  have htwo := two_mul_offset (2 * n - 1)
  have heq : offset (2 * n - 1) = (2 * n - 1) * n := by
    have hsucc : 2 * n - 1 + 1 = 2 * n := by omega
    rw [hsucc, Nat.mul_left_comm] at htwo
    omega
  rw [probe, heq, Nat.add_mul_mod_self_right, probe_zero]

end TriangularProbing
