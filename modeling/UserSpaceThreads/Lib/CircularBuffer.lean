import Mathlib.Data.Int.ModEq
import Mathlib.Logic.Function.Basic
import Mathlib.Tactic.Ring
import Mathlib.Tactic.NormNum.Basic

set_option relaxedAutoImplicit false
set_option autoImplicit false

/-!
# Windows of a circular array

The contents of a circular buffer are a *window* of its array: `n` cells read from a start
index, wrapping at the capacity `N`. This file has the window as a list and how it changes
when a cell behind its end is written, when its first cell is dropped and when its last cell
is dropped. Nothing here depends on what the cells hold.

## Main definitions

* `CircularBuffer.window` — the `n` cells from `start`, as a list.

## Main results

* `CircularBuffer.window_write` — writing the cell after the window extends it at the back.
* `CircularBuffer.window_cons` — the window splits into its first cell and the rest.
* `CircularBuffer.window_succ` — the window splits into its front and its last cell.
-/

namespace CircularBuffer

variable {α : Type*}

/-- The `n` cells of the array `a` from index `start` on, wrapping at the capacity `N`. -/
def window (a : ℤ → α) (N start : ℤ) (n : ℕ) : List α :=
  (List.range n).map fun i : ℕ => a ((start + i) % N)

/-- A window of `n` cells has length `n`. -/
@[simp] lemma length_window (a : ℤ → α) (N start : ℤ) (n : ℕ) :
    (window a N start n).length = n := by
  simp [window]

/-- The empty window. -/
@[simp] lemma window_zero (a : ℤ → α) (N start : ℤ) : window a N start 0 = [] := rfl

/-- A longer window is the shorter one followed by one more cell. -/
lemma window_succ (a : ℤ → α) (N start : ℤ) (n : ℕ) :
    window a N start (n + 1) = window a N start n ++ [a ((start + n) % N)] := by
  simp [window, List.range_succ]

/-- A nonempty window is its first cell followed by the window from the next index. -/
lemma window_cons (a : ℤ → α) {N start : ℤ} (h0 : 0 ≤ start) (hN : start < N) (n : ℕ) :
    window a N start (n + 1) = a start :: window a N ((start + 1) % N) n := by
  rw [window, List.range_succ_eq_map, List.map_cons, List.map_map]
  congr 1
  · rw [Nat.cast_zero, add_zero, Int.emod_eq_of_lt h0 hN]
  · refine List.map_congr_left fun i _ => ?_
    have hidx : start + ((i + 1 : ℕ) : ℤ) = start + 1 + i := by push_cast; ring
    simp only [Function.comp_apply, Nat.succ_eq_add_one, hidx, Int.emod_add_emod]

/-- Two offsets below the capacity name different cells. -/
lemma offset_ne {N start : ℤ} {i j : ℕ} (hij : i < j) (hj : (j : ℤ) < N) :
    (start + i) % N ≠ (start + j) % N := by
  intro h
  have hdvd : N ∣ (start + j) - (start + i) := Int.ModEq.dvd h
  have hle := Int.le_of_dvd (by omega) hdvd
  omega

/-- Writing the cell just behind the window leaves the window alone. -/
lemma window_update (a : ℤ → α) {N : ℤ} (start : ℤ) {n : ℕ} (hn : (n : ℤ) < N) (v : α) :
    window (Function.update a ((start + n) % N) v) N start n = window a N start n := by
  refine List.map_congr_left fun i hi => ?_
  exact Function.update_of_ne (offset_ne (List.mem_range.mp hi) hn) v a

/-- Writing the cell just behind the window and lengthening the window by one appends the
written value. -/
lemma window_write (a : ℤ → α) {N : ℤ} (start : ℤ) {n : ℕ} (hn : (n : ℤ) < N) (v : α) :
    window (Function.update a ((start + n) % N) v) N start (n + 1) =
      window a N start n ++ [v] := by
  rw [window_succ, window_update a start hn, Function.update_self]

end CircularBuffer
