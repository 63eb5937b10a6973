import UserSpaceThreads.KhashFlags
import UserSpaceThreads.Lib.OpenAddressing
import UserSpaceThreads.Lib.TriangularProbing

set_option relaxedAutoImplicit false
set_option autoImplicit false

/-!
# The hash table as a table with open addressing

The two flag bits of a bucket and its places in `keys` and `vals` make a cell in the sense of
`OpenAddressing`, and the loops of `kh_get` and `kh_put` search along triangular probes. This
file has the invariant of the table, and what `kh_get`, `kh_del`, `kh_clear` and the search of
`kh_put` do to a table that satisfies it.

A search ends at the first bucket that is empty or has its key, or, if there is none, where it
started. So the table works even if no bucket is empty, as long as one of them is deleted.

## Main definitions

* `UserThreads.Khash.table` — the cells of a table.
* `UserThreads.Khash.Represents` — the invariant, and the partial function that a table stands
  for.

## Main results

* `UserThreads.Khash.Represents.khGet` — `kh_get` finds a key that is there, and no other.
* `UserThreads.Khash.Represents.khPutSearch` — where `kh_put` puts a key.
* `UserThreads.Khash.Represents.khDel`, `UserThreads.Khash.Represents.khClear`.
-/

namespace UserThreads

open OpenAddressing TriangularProbing

variable {K V : Type}

/-- The cells that flags, keys and values make. -/
def khCells (flags : Flags) (keys : ℕ → K) (vals : ℕ → V) : Table K V := fun i =>
  if acIsempty flags i then .empty
  else if acIsdel flags i then .deleted
  else .full (keys i) (vals i)

/-- The buckets that a search for `key` visits, of `n`. -/
def khProbe (hashFunc : K → BitVec 32) (n : ℕ) (key : K) (t : ℕ) : ℕ :=
  probe n (hashFunc key).toNat t

namespace Khash

/-- The cells of a table. -/
def table (h : Khash K V) : Table K V := khCells h.flags h.keys h.vals

/-- The entries of a table. -/
def entries (h : Khash K V) : Multiset (K × V) := contents h.table h.nBuckets

/-- The table satisfies its invariant, and it stands for the partial function `f`. -/
structure Represents (hashFunc : K → BitVec 32) (h : Khash K V) (f : K → Option V) : Prop where
  buckets : h.nBuckets = 0 ∨ ∃ k, 2 ≤ k ∧ k ≤ 31 ∧ h.nBuckets = 2 ^ k
  size_eq : h.entries.card = h.size
  occupied_eq : occupied h.table h.nBuckets = h.nOccupied
  upper_eq : h.upperBound = acHashUpper h.nBuckets
  placed : Placed (khProbe hashFunc h.nBuckets) h.table h.nBuckets
  stores : Stores h.entries f

end Khash

/-! ## Cells -/

section Cells

variable {flags : Flags} {keys : ℕ → K} {vals : ℕ → V} {i j : ℕ}

/-- A bucket is empty. -/
lemma khCells_empty_iff : khCells flags keys vals i = .empty ↔ acIsempty flags i = true := by
  rw [khCells]
  split_ifs with he hd
  · simp [he]
  · simp [he]
  · simp [he]

/-- A bucket is not empty. -/
lemma khCells_ne_empty_iff : khCells flags keys vals i ≠ .empty ↔ acIsempty flags i = false := by
  rw [ne_eq, khCells_empty_iff, Bool.not_eq_true]

/-- A bucket is deleted. -/
lemma khCells_deleted_iff : khCells flags keys vals i = .deleted ↔
    acIsempty flags i = false ∧ acIsdel flags i = true := by
  rw [khCells]
  split_ifs with he hd
  · simp [he]
  · simp [he, hd]
  · simp [he, hd]

/-- A bucket is live. -/
lemma khCells_of_live (keys : ℕ → K) (vals : ℕ → V) (h : acIseither flags i = false) :
    khCells flags keys vals i = .full (keys i) (vals i) := by
  rw [acIseither_eq, Bool.or_eq_false_iff] at h
  rw [khCells, h.1, h.2]
  rfl

/-- A bucket with an entry is live, and the entry is that of `keys` and `vals`. -/
lemma khCells_full {k : K} {v : V} (h : khCells flags keys vals i = .full k v) :
    acIsempty flags i = false ∧ acIsdel flags i = false ∧ keys i = k ∧ vals i = v := by
  rw [khCells] at h
  split_ifs at h with he hd
  obtain ⟨hk, hv⟩ := Cell.full.inj h
  exact ⟨by simpa using he, by simpa using hd, hk, hv⟩

/-- A bucket that is not live has no entry. -/
lemma khCells_content_eq_zero_iff :
    (khCells flags keys vals i).content = 0 ↔ acIseither flags i = true := by
  rw [khCells, acIseither_eq]
  split_ifs with he hd
  · simp [he]
  · simp [hd]
  · simp [he, hd]

/-- An empty bucket is not live. -/
lemma acIseither_of_empty (h : khCells flags keys vals i = .empty) : acIseither flags i = true := by
  have hzero : (khCells flags keys vals i).content = 0 := by
    rw [h]
    rfl
  exact khCells_content_eq_zero_iff.mp hzero

/-- A bucket with an entry is live. -/
lemma acIseither_of_full {k : K} {v : V} (h : khCells flags keys vals i = .full k v) :
    acIseither flags i = false := by
  obtain ⟨he, hd, -⟩ := khCells_full h
  rw [acIseither_eq, he, hd]
  rfl

/-- Marking a bucket as deleted. -/
lemma khCells_acSetIsdelTrue (h : acIsempty flags i = false) :
    khCells (acSetIsdelTrue flags i) keys vals =
      Function.update (khCells flags keys vals) i .deleted := by
  funext j
  rw [Function.update_apply, khCells, khCells, acIsempty_acSetIsdelTrue, acIsdel_acSetIsdelTrue]
  split_ifs with he hd hj hj hj hj <;> simp_all

/-- Writing a key into a bucket and giving it both flags. -/
lemma khCells_acSetIsbothFalse (k : K) :
    khCells (acSetIsbothFalse flags i) (Function.update keys i k) vals =
      Function.update (khCells flags keys vals) i (.full k (vals i)) := by
  funext j
  rw [Function.update_apply, khCells, khCells, acIsempty_acSetIsbothFalse,
    acIsdel_acSetIsbothFalse]
  by_cases hj : j = i
  · subst hj
    simp
  · simp [hj]

/-- Writing a value into a live bucket. -/
lemma khCells_update_vals (h : acIseither flags i = false) (v : V) :
    khCells flags keys (Function.update vals i v) =
      Function.update (khCells flags keys vals) i (.full (keys i) v) := by
  funext j
  rw [Function.update_apply]
  by_cases hj : j = i
  · subst hj
    rw [if_pos rfl, khCells_of_live _ _ h, Function.update_self]
  · rw [if_neg hj, khCells, khCells, Function.update_of_ne hj]

end Cells

/-! ## Searches -/

/-- One step of a search. -/
lemma khStep_probe {n k start t : ℕ} (hn : n = 2 ^ k) (hk : k ≤ 31) :
    khStep (n - 1) (probe n start t) (t + 1) = probe n start (t + 1) := by
  rw [khStep_eq hn (by omega), probe_succ]

/-- A search that has not come far is not back at its start. -/
lemma probe_ne_first {n k start t : ℕ} (hn : n = 2 ^ k) (ht : t + 2 < 2 * n) :
    probe n start (t + 1) ≠ probe n start 0 := by
  subst hn
  exact probe_ne_start (Nat.succ_pos t) (by omega)

section Search

variable {h : Khash K V} {key : K}

/-- A search goes on at a bucket that is not empty and does not have the key. -/
lemma khSkips_iff {i : ℕ} :
    khSkips h key i ↔ h.table i ≠ .empty ∧ ∀ v, h.table i ≠ .full key v := by
  rw [khSkips, Khash.table, khCells_ne_empty_iff]
  refine and_congr_right fun he => ?_
  constructor
  · rintro (hd | hk) v hfull
    · rw [(khCells_full hfull).2.1] at hd
      cases hd
    · exact hk (khCells_full hfull).2.2.1
  · intro hall
    by_cases hd : acIsdel h.flags i = true
    · exact .inl hd
    · refine .inr fun hk => hall (h.vals i) ?_
      rw [khCells_of_live _ _ (by rw [acIseither_eq, he]; simpa using hd), hk]

/-- A search stops at an empty bucket, or at the bucket of the key. -/
lemma table_of_not_khSkips {i : ℕ} (hstop : ¬ khSkips h key i) :
    h.table i = .empty ∨ h.table i = .full key (h.vals i) := by
  by_cases hempty : h.table i = .empty
  · exact .inl hempty
  · rw [khSkips_iff, not_and] at hstop
    have hkey := hstop hempty
    push Not at hkey
    obtain ⟨v, hfull⟩ := hkey
    refine .inr ?_
    rw [hfull, (khCells_full hfull).2.2.2]

variable [DecidableEq K] {hashFunc : K → BitVec 32}

/-- The loop of `kh_get` runs up to the first bucket at which it does not go on. -/
lemma khGetLoop_stop {n k start m t : ℕ} (hn : n = 2 ^ k) (hk : k ≤ 31) (hm : m + 1 < 2 * n)
    (hskip : ∀ s < m, khSkips h key (probe n start s)) (hstop : ¬ khSkips h key (probe n start m))
    (ht : t ≤ m) (fuel : ℕ) (hfuel : m < t + fuel) :
    khGetLoop h key (n - 1) (probe n start 0) fuel (probe n start t) t =
      some (if acIseither h.flags (probe n start m) then h.nBuckets else probe n start m) := by
  induction fuel generalizing t with
  | zero => omega
  | succ fuel ih =>
    rw [khGetLoop]
    rcases Nat.eq_or_lt_of_le ht with rfl | hlt
    · rw [if_neg hstop]
    · rw [if_pos (hskip t hlt)]
      simp only [khStep_probe hn hk]
      rw [if_neg (probe_ne_first hn (by omega))]
      exact ih hlt (by omega)

/-- The loop of `kh_get` comes back to its start if it goes on everywhere. -/
lemma khGetLoop_wrap {n k start t : ℕ} (hn : n = 2 ^ k) (hk : k ≤ 31)
    (hskip : ∀ s, khSkips h key (probe n start s)) (ht : t + 1 < 2 * n) (fuel : ℕ)
    (hfuel : 2 * n ≤ t + 1 + fuel) :
    khGetLoop h key (n - 1) (probe n start 0) fuel (probe n start t) t = some h.nBuckets := by
  have hpos : 0 < n := hn ▸ Nat.two_pow_pos k
  induction fuel generalizing t with
  | zero => omega
  | succ fuel ih =>
    rw [khGetLoop, if_pos (hskip t)]
    simp only [khStep_probe hn hk]
    by_cases hlast : t + 2 < 2 * n
    · rw [if_neg (probe_ne_first hn hlast)]
      exact ih (by omega) (by omega)
    · have ht : t + 1 = 2 * n - 1 := by omega
      rw [ht, if_pos (probe_return hpos start)]

/-- A search stops at a first bucket, or goes on everywhere. -/
lemma khSkips_cases {n k : ℕ} (hn : n = 2 ^ k) (h : Khash K V) (key : K) (start : ℕ) :
    (∃ m < n, ¬ khSkips h key (probe n start m) ∧ ∀ s < m, khSkips h key (probe n start s)) ∨
      ∀ i < n, khSkips h key i := by
  by_cases hall : ∀ i < n, khSkips h key i
  · exact .inr hall
  · push Not at hall
    obtain ⟨i, hi, hstop⟩ := hall
    obtain ⟨t, ht, rfl⟩ : ∃ t < n, probe n start t = i := by
      subst hn
      exact exists_probe start hi
    have hex : ∃ m, ¬ khSkips h key (probe n start m) := ⟨t, hstop⟩
    refine .inl ⟨Nat.find hex, (Nat.find_le hstop).trans_lt ht, Nat.find_spec hex, fun s hs => ?_⟩
    exact not_not.mp (Nat.find_min hex hs)

/-! ## The search of `kh_put` -/

/-- The last deleted bucket among the first `t` of a search, or `n` if there is none. -/
def lastDeleted (h : Khash K V) (n start : ℕ) : ℕ → ℕ
  | 0 => n
  | t + 1 => if acIsdel h.flags (probe n start t) then probe n start t else lastDeleted h n start t

omit [DecidableEq K] in
/-- It is deleted, if there is one. -/
lemma lastDeleted_cases (h : Khash K V) (n start t : ℕ) :
    (lastDeleted h n start t = n ∧ ∀ s < t, acIsdel h.flags (probe n start s) = false) ∨
      ∃ s < t, lastDeleted h n start t = probe n start s ∧
        acIsdel h.flags (probe n start s) = true := by
  induction t with
  | zero => exact .inl ⟨rfl, fun s hs => absurd hs (Nat.not_lt_zero s)⟩
  | succ t ih =>
    rw [lastDeleted]
    split_ifs with hdel
    · exact .inr ⟨t, Nat.lt_succ_self t, rfl, hdel⟩
    · rcases ih with ⟨heq, hnone⟩ | ⟨s, hs, heq, hd⟩
      · refine .inl ⟨heq, fun s hs => ?_⟩
        rcases Nat.eq_or_lt_of_le (Nat.le_of_lt_succ hs) with rfl | hlt
        · simpa using hdel
        · exact hnone s hlt
      · exact .inr ⟨s, by omega, heq, hd⟩

/-- The loop of `kh_put` runs up to the first bucket at which it does not go on. -/
lemma khPutLoop_stop {n k start m t : ℕ} (hn : n = 2 ^ k) (hk : k ≤ 31) (hm : m + 1 < 2 * n)
    (hskip : ∀ s < m, khSkips h key (probe n start s)) (hstop : ¬ khSkips h key (probe n start m))
    (ht : t ≤ m) (fuel : ℕ) (hfuel : m < t + fuel) :
    khPutLoop h key (n - 1) (probe n start 0) fuel (probe n start t) t (lastDeleted h n start t) =
      some (h.nBuckets, probe n start m, lastDeleted h n start m) := by
  induction fuel generalizing t with
  | zero => omega
  | succ fuel ih =>
    rw [khPutLoop]
    rcases Nat.eq_or_lt_of_le ht with rfl | hlt
    · rw [if_neg hstop]
    · rw [if_pos (hskip t hlt)]
      simp only [khStep_probe hn hk]
      rw [if_neg (probe_ne_first hn (by omega))]
      exact ih hlt (by omega)

/-- The loop of `kh_put` comes back to its start if it goes on everywhere.

**Proof sketch.** Induction on the fuel. The first `2 * n - 2` steps come to buckets other than the
first, by `probe_ne`; the step after them is back at the first bucket and ends the loop. -/
lemma khPutLoop_wrap {n k start t : ℕ} (hn : n = 2 ^ k) (hk : k ≤ 31)
    (hskip : ∀ s, khSkips h key (probe n start s)) (ht : t + 1 < 2 * n) (fuel : ℕ)
    (hfuel : 2 * n ≤ t + 1 + fuel) :
    khPutLoop h key (n - 1) (probe n start 0) fuel (probe n start t) t (lastDeleted h n start t) =
      some (lastDeleted h n start (2 * n - 1), probe n start 0,
        lastDeleted h n start (2 * n - 1)) := by
  have hpos : 0 < n := hn ▸ Nat.two_pow_pos k
  induction fuel generalizing t with
  | zero => omega
  | succ fuel ih =>
    rw [khPutLoop, if_pos (hskip t)]
    simp only [khStep_probe hn hk]
    by_cases hlast : t + 2 < 2 * n
    · rw [if_neg (probe_ne_first hn hlast)]
      exact ih (by omega) (by omega)
    · have ht : t + 1 = 2 * n - 1 := by omega
      have hback : probe n start (t + 1) = probe n start 0 := by
        rw [ht, probe_return hpos]
      rw [hback, if_pos rfl, ← ht]
      rfl

end Search

/-! ## What the functions do to a table that satisfies the invariant -/

namespace Khash.Represents

variable {hashFunc : K → BitVec 32} {h : Khash K V} {f : K → Option V}

/-- The keys of live buckets. -/
lemma eq_some (hr : h.Represents hashFunc f) {i : ℕ} (hi : i < h.nBuckets) {k : K} {v : V}
    (hfull : h.table i = .full k v) : f k = some v :=
  (hr.stores.mem_iff k v).mp (mem_contents.mpr ⟨i, hi, hfull⟩)

/-- A key that no search meets. -/
lemma eq_none (hr : h.Represents hashFunc f) {k : K}
    (hall : ∀ i < h.nBuckets, ∀ v, h.table i ≠ .full k v) : f k = none := by
  refine hr.stores.eq_none_iff.mpr fun v hmem => ?_
  obtain ⟨i, hi, hfull⟩ := mem_contents.mp hmem
  exact hall i hi v hfull

/-- A table without buckets stands for the empty function. -/
lemma eq_none_of_zero (hr : h.Represents hashFunc f) (h0 : h.nBuckets = 0) (k : K) : f k = none :=
  hr.eq_none fun i hi => by omega

/-- The number of buckets is a power of two, if there are any. -/
lemma pow_buckets (hr : h.Represents hashFunc f) (h0 : h.nBuckets ≠ 0) :
    ∃ k, 2 ≤ k ∧ k ≤ 31 ∧ h.nBuckets = 2 ^ k := hr.buckets.resolve_left h0

/-- A search that stops at an empty bucket. -/
lemma eq_none_of_stop (hr : h.Represents hashFunc f) [DecidableEq K] {k : K} {m : ℕ}
    (hempty : h.table (khProbe hashFunc h.nBuckets k m) = .empty)
    (hskip : ∀ s < m, khSkips h k (khProbe hashFunc h.nBuckets k s)) : f k = none :=
  hr.stores.eq_none_iff.mpr (hr.placed.absent hempty fun s hs => (khSkips_iff.mp (hskip s hs)).2)

/-- The first bucket of a search. -/
lemma start_eq {n k : ℕ} (hn : n = 2 ^ k) (key : K) :
    (hashFunc key).toNat &&& (n - 1) = khProbe hashFunc n key 0 := by
  rw [and_pred_eq hn, khProbe, probe_zero]

variable [DecidableEq K]

/-- **`kh_get` finds a key that is there, and no other.**

**Proof sketch.** The search stops at the first bucket that it does not skip. If this one is empty,
the key is nowhere (`Placed.absent`); if it has an entry, the entry is that of the key. If all
buckets are skipped, the loop comes back to its start and the key is in none of them, since the
probes visit every bucket. -/
theorem khGet (hr : h.Represents hashFunc f) (key : K) :
    ∃ i, UserThreads.khGet hashFunc h key = some i ∧
      (i = h.nBuckets ∧ f key = none ∨
        i < h.nBuckets ∧ h.table i = .full key (h.vals i) ∧ f key = some (h.vals i)) := by
  rw [UserThreads.khGet]
  by_cases h0 : h.nBuckets = 0
  · rw [if_neg (not_not.mpr h0)]
    exact ⟨0, rfl, .inl ⟨h0.symm, hr.eq_none_of_zero h0 key⟩⟩
  obtain ⟨k, -, hk, hn⟩ := hr.pow_buckets h0
  rw [if_pos h0]
  simp only [start_eq hn]
  rcases khSkips_cases hn h key (hashFunc key).toNat with ⟨m, hm, hstop, hskip⟩ | hall
  · refine ⟨_, khGetLoop_stop hn hk (by omega) hskip hstop (Nat.zero_le m) _ (by omega), ?_⟩
    have hlt := probe_lt (Nat.pos_of_ne_zero h0) (hashFunc key).toNat m
    rcases table_of_not_khSkips hstop with hempty | hfull
    · rw [acIseither_of_empty hempty]
      exact .inl ⟨rfl, hr.eq_none_of_stop hempty hskip⟩
    · rw [acIseither_of_full hfull]
      exact .inr ⟨hlt, hfull, hr.eq_some hlt hfull⟩
  · have hskip (s : ℕ) : khSkips h key (probe h.nBuckets (hashFunc key).toNat s) :=
      hall _ (probe_lt (Nat.pos_of_ne_zero h0) _ s)
    exact ⟨_, khGetLoop_wrap hn hk hskip (t := 0) (by omega) _ (by omega),
      .inl ⟨rfl, hr.eq_none fun i hi => (khSkips_iff.mp (hall i hi)).2⟩⟩

/-- **Where `kh_put` puts a key**: into the bucket that has it, or else into one without an
entry that a search for it comes by. There must be such a bucket.

**Proof sketch.** If the first bucket is empty, it is taken. Otherwise the loop goes on to the first
bucket that it does not skip. If this one has the key, it is taken; if it is empty, the last deleted
bucket on the way is taken instead, or the empty one if there was none. If all buckets are skipped,
the loop comes back to its start. Then there is no empty bucket, but there is one without an entry,
so there is a deleted one, and the loop has come by it. -/
theorem khPutSearch (hr : h.Represents hashFunc f) (h0 : h.nBuckets ≠ 0) {key : K}
    (hroom : f key = none → h.size < h.nBuckets) :
    ∃ x < h.nBuckets, UserThreads.khPutSearch hashFunc h key = some x ∧
      (h.table x = .full key (h.vals x) ∨
        f key = none ∧ (h.table x).content = 0 ∧ ∃ t, khProbe hashFunc h.nBuckets key t = x ∧
          ∀ s < t, h.table (khProbe hashFunc h.nBuckets key s) ≠ .empty) := by
  obtain ⟨k, -, hk, hn⟩ := hr.pow_buckets h0
  have hpow : 2 ^ k ≤ 2 ^ 31 := Nat.pow_le_pow_right (by decide) hk
  have hlt (t : ℕ) : khProbe hashFunc h.nBuckets key t < h.nBuckets :=
    probe_lt (Nat.pos_of_ne_zero h0) _ t
  rw [UserThreads.khPutSearch, pred32_eq (by omega) (by omega)]
  simp only [start_eq hn]
  split_ifs with hempty
  · have hempty : h.table (khProbe hashFunc h.nBuckets key 0) = .empty :=
      khCells_empty_iff.mpr hempty
    refine ⟨_, hlt 0, rfl, .inr ⟨hr.eq_none_of_stop hempty (by simp), ?_, 0, rfl, by simp⟩⟩
    rw [hempty]
    rfl
  rcases khSkips_cases hn h key (hashFunc key).toNat with ⟨m, hm, hstop, hskip⟩ | hall
  · have hloop := khPutLoop_stop hn hk (by omega) hskip hstop (Nat.zero_le m)
      (2 * h.nBuckets) (by omega)
    simp only [khProbe] at hlt ⊢
    rw [lastDeleted] at hloop
    rw [hloop, Option.map_some, khPutChoose, if_pos rfl]
    rcases table_of_not_khSkips hstop with hempty | hfull
    · have hnone := hr.eq_none_of_stop hempty hskip
      have hchain (s : ℕ) (hs : s < m) := (khSkips_iff.mp (hskip s hs)).1
      -- the last deleted bucket before it, or the empty one itself
      rcases lastDeleted_cases h h.nBuckets (hashFunc key).toNat m with
        ⟨heq, -⟩ | ⟨s, hs, heq, hdel⟩
      · rw [heq, if_neg (by simp)]
        refine ⟨_, hlt m, rfl, .inr ⟨hnone, ?_, m, rfl, hchain⟩⟩
        rw [hempty]
        rfl
      · rw [heq, if_pos ⟨khCells_empty_iff.mp hempty, (hlt s).ne⟩]
        refine ⟨_, hlt s, rfl, .inr ⟨hnone, khCells_content_eq_zero_iff.mpr ?_, s, rfl,
          fun u hu => hchain u (hu.trans hs)⟩⟩
        rw [acIseither_eq, hdel, Bool.or_true]
    · rw [if_neg (by rw [(khCells_full hfull).1]; simp)]
      exact ⟨_, hlt m, rfl, .inl hfull⟩
  · have hskip (s : ℕ) : khSkips h key (probe h.nBuckets (hashFunc key).toNat s) := hall _ (hlt s)
    have hloop := khPutLoop_wrap hn hk hskip (t := 0) (by omega) (2 * h.nBuckets)
      (by omega)
    have hnone : f key = none := hr.eq_none fun i hi => (khSkips_iff.mp (hall i hi)).2
    -- no bucket is empty, so one that is free is deleted
    obtain ⟨i, hi, hzero⟩ := exists_free (hr.size_eq.trans_lt (hroom hnone))
    obtain ⟨t, ht, rfl⟩ : ∃ t < h.nBuckets, probe h.nBuckets (hashFunc key).toNat t = i := by
      rw [hn] at hi ⊢
      exact exists_probe _ hi
    have hdeleted : acIsdel h.flags (probe h.nBuckets (hashFunc key).toNat t) = true := by
      have hlive := khCells_content_eq_zero_iff.mp hzero
      rwa [acIseither_eq, khCells_ne_empty_iff.mp (khSkips_iff.mp (hskip t)).1, Bool.false_or]
        at hlive
    simp only [khProbe] at hlt ⊢
    rw [lastDeleted] at hloop
    rw [hloop, Option.map_some]
    rcases lastDeleted_cases h h.nBuckets (hashFunc key).toNat (2 * h.nBuckets - 1) with
      ⟨-, hno⟩ | ⟨s, -, heq, hdel⟩
    · rw [hno t (by omega)] at hdeleted
      cases hdeleted
    · rw [heq, khPutChoose, if_neg (hlt s).ne]
      refine ⟨_, hlt s, rfl, .inr ⟨hnone, khCells_content_eq_zero_iff.mpr ?_, s, rfl,
        fun u _ => (khSkips_iff.mp (hskip u)).1⟩⟩
      rw [acIseither_eq, hdel, Bool.or_true]

/-- What `kh_put` does to a table `h` that has room: it answers the bucket `x` of the key, the
table `h'` has the key there, and `*ret` tells what was in this bucket before: `0` if it was the
key, `1` if the bucket had never been used, and `2` if it was deleted. The value of a key that was
not there before is whatever stands in its place. -/
structure Puts (hashFunc : K → BitVec 32) (f : K → Option V) (h : Khash K V) (key : K) (x : ℕ)
    (ret : ℤ) (h' : Khash K V) : Prop where
  lt : x < h'.nBuckets
  full : h'.table x = .full key (h'.vals x)
  represents : h'.Represents hashFunc (Function.update f key (some (h'.vals x)))
  ret : ret = 0 ∧ f key = some (h'.vals x) ∧ h.table x = .full key (h'.vals x) ∨
    f key = none ∧ (ret = 1 ∧ h.table x = .empty ∨ ret = 2 ∧ h.table x = .deleted)

/-- The value of `*ret` and what was in the bucket determine each other. -/
lemma Puts.ret_iff {key : K} {x : ℕ} {ret : ℤ} {h' : Khash K V}
    (hputs : Puts hashFunc f h key x ret h') :
    (ret = 0 ↔ f key ≠ none) ∧ (ret = 1 ↔ h.table x = .empty) ∧
      (ret = 2 ↔ h.table x = .deleted) := by
  rcases hputs.ret with ⟨rfl, hsome, hcell⟩ | ⟨hnone, ⟨rfl, hcell⟩ | ⟨rfl, hcell⟩⟩
  · simp [hsome, hcell]
  · simp [hnone, hcell]
  · simp [hnone, hcell]

/-- `*ret` is negative only if there is no memory. -/
lemma Puts.ret_nonneg {key : K} {x : ℕ} {ret : ℤ} {h' : Khash K V}
    (hputs : Puts hashFunc f h key x ret h') : 0 ≤ ret := by
  rcases hputs.ret with ⟨rfl, -⟩ | ⟨-, ⟨rfl, -⟩ | ⟨rfl, -⟩⟩ <;> decide

/-- A key in a bucket without an entry.

**Proof sketch.** The bucket had no entry, so the entries of the table are those before and the new
one; `contents_fill` counts them. That the key is found again is `Placed.write`. -/
lemma fill (hr : h.Represents hashFunc f) {key : K} {x t : ℕ} (hx : x < h.nBuckets)
    (hnone : f key = none) (hzero : (h.table x).content = 0)
    (hprobe : khProbe hashFunc h.nBuckets key t = x)
    (hchain : ∀ s < t, h.table (khProbe hashFunc h.nBuckets key s) ≠ .empty) {n : ℕ}
    (hn : occupied (Function.update h.table x (.full key (h.vals x))) h.nBuckets = n) :
    Represents hashFunc { h with
      keys := Function.update h.keys x key
      flags := acSetIsbothFalse h.flags x
      size := h.size + 1
      nOccupied := n } (Function.update f key (some (h.vals x))) := by
  have htable : khCells (acSetIsbothFalse h.flags x) (Function.update h.keys x key) h.vals =
      Function.update h.table x (.full key (h.vals x)) := khCells_acSetIsbothFalse key
  have hentries := contents_fill h.table hx hzero key (h.vals x)
  refine ⟨hr.buckets, ?_, ?_, hr.upper_eq, ?_, ?_⟩
  · rw [entries, table, htable, hentries, Multiset.card_cons]
    exact congrArg (· + 1) hr.size_eq
  · rw [table, htable]
    exact hn
  · rw [table, htable]
    subst hprobe
    exact hr.placed.write (h.vals _) hchain
  · rw [entries, table, htable, hentries]
    exact hr.stores.cons hnone (h.vals x)

/-- The last part of `kh_put`, at the bucket that its search has found.

**Proof sketch.** The cases are those of the code: a bucket that has never been used, a deleted one,
and the one that has the key. A bucket that had never been used counts among the occupied ones from
now on, a deleted one did so before. -/
lemma khPutAt (hr : h.Represents hashFunc f) {key : K} {x : ℕ} (hx : x < h.nBuckets)
    (hsearch : h.table x = .full key (h.vals x) ∨
      f key = none ∧ (h.table x).content = 0 ∧ ∃ t, khProbe hashFunc h.nBuckets key t = x ∧
        ∀ s < t, h.table (khProbe hashFunc h.nBuckets key s) ≠ .empty) :
    ∃ ret h', UserThreads.khPutAt h key x = (x, ret, h') ∧ Puts hashFunc f h key x ret h' := by
  rcases hsearch with hfull | ⟨hnone, hzero, t, hprobe, hchain⟩
  · obtain ⟨he, hd, -⟩ := khCells_full hfull
    have hsome := hr.eq_some hx hfull
    refine ⟨0, h, by simp [UserThreads.khPutAt, he, hd], hx, hfull, ?_,
      .inl ⟨rfl, hsome, hfull⟩⟩
    rwa [← hsome, Function.update_eq_self]
  have hfull : khCells (acSetIsbothFalse h.flags x) (Function.update h.keys x key) h.vals x =
      .full key (h.vals x) := by
    rw [khCells_acSetIsbothFalse, Function.update_self]
  rw [UserThreads.khPutAt]
  split_ifs with he hd
  · have hempty : h.table x = .empty := khCells_empty_iff.mpr he
    have hoccupied := occupied_fill hx hempty (c := .full key (h.vals x)) Cell.full_ne_empty
    rw [hr.occupied_eq] at hoccupied
    exact ⟨1, _, rfl, hx, hfull, hr.fill hx hnone hzero hprobe hchain hoccupied,
      .inr ⟨hnone, .inl ⟨rfl, hempty⟩⟩⟩
  · have hdeleted : h.table x = .deleted := khCells_deleted_iff.mpr ⟨by simpa using he, hd⟩
    have hused : h.table x ≠ .empty := khCells_ne_empty_iff.mpr (by simpa using he)
    have hoccupied := occupied_reuse (n := h.nBuckets) hused (c := .full key (h.vals x))
      Cell.full_ne_empty
    rw [hr.occupied_eq] at hoccupied
    exact ⟨2, _, rfl, hx, hfull, hr.fill hx hnone hzero hprobe hchain hoccupied,
      .inr ⟨hnone, .inr ⟨rfl, hdeleted⟩⟩⟩
  · have hlive := khCells_content_eq_zero_iff.mp hzero
    rw [acIseither_eq] at hlive
    simp [he, hd] at hlive

/-- `kh_value(h, x) = val`, for a bucket with an entry.

**Proof sketch.** The value changes in one cell. The entries are compared through the table without
this entry: it is taken out, and put back with the new value. -/
lemma khSetValue (hr : h.Represents hashFunc f) {x : ℕ} (hx : x < h.nBuckets)
    {key : K} {v : V} (hfull : h.table x = .full key v) (val : V) :
    (UserThreads.khSetValue h x val).Represents hashFunc (Function.update f key (some val)) := by
  have hlive := acIseither_of_full hfull
  have hkey := (khCells_full hfull).2.2.1
  have htable : khCells h.flags h.keys (Function.update h.vals x val) =
      Function.update h.table x (.full key val) := by
    rw [khCells_update_vals hlive, hkey]
    rfl
  have hclear := contents_clear hx hfull
  have hentries : contents (Function.update h.table x (.full key val)) h.nBuckets =
      (key, val) ::ₘ contents (Function.update h.table x .deleted) h.nBuckets := by
    have hzero : (Function.update h.table x (Cell.deleted : Cell K V) x).content = 0 := by simp
    have hfill := contents_fill (Function.update h.table x .deleted) hx hzero key val
    rwa [Function.update_idem] at hfill
  refine ⟨hr.buckets, ?_, ?_, hr.upper_eq, ?_, ?_⟩
  · have hsize := hr.size_eq
    rw [entries, hclear, Multiset.card_cons] at hsize
    rw [entries, table, UserThreads.khSetValue, htable, hentries, Multiset.card_cons]
    exact hsize
  · rw [table, UserThreads.khSetValue, htable,
      occupied_reuse (by rw [hfull]; exact Cell.full_ne_empty) Cell.full_ne_empty]
    exact hr.occupied_eq
  · rw [table, UserThreads.khSetValue, htable]
    exact hr.placed.rewrite hx hfull val
  · have hstores := hr.stores
    rw [entries, hclear] at hstores
    rw [entries, table, UserThreads.khSetValue, htable, hentries]
    exact hstores.exchange val

/-- **`kh_del`** takes the entry of a bucket away.

**Proof sketch.** The bucket becomes a deleted one. It stays occupied, so the searches for other
keys still go past it (`Placed.delete`), and the entries lose the one that was in it. -/
theorem khDel (hr : h.Represents hashFunc f) {x : ℕ} (hx : x < h.nBuckets) {key : K} {v : V}
    (hfull : h.table x = .full key v) :
    (UserThreads.khDel h x).Represents hashFunc (Function.update f key none) := by
  have hlive := acIseither_of_full hfull
  have htable : khCells (acSetIsdelTrue h.flags x) h.keys h.vals =
      Function.update h.table x .deleted := khCells_acSetIsdelTrue (khCells_full hfull).1
  have hclear := contents_clear hx hfull
  rw [UserThreads.khDel, if_pos ⟨hx.ne, hlive⟩]
  refine ⟨hr.buckets, ?_, ?_, hr.upper_eq, ?_, ?_⟩
  · have hsize := hr.size_eq
    rw [entries, hclear, Multiset.card_cons] at hsize
    rw [entries, table, htable]
    dsimp only
    omega
  · rw [table, htable,
      occupied_reuse (by rw [hfull]; exact Cell.full_ne_empty) Cell.deleted_ne_empty]
    exact hr.occupied_eq
  · rw [table, htable]
    exact hr.placed.delete x
  · have hstores := hr.stores
    rw [entries, hclear] at hstores
    rw [entries, table, htable]
    exact hstores.tail

end Khash.Represents

/-- `kh_del` of no bucket, or of one without an entry, changes nothing. -/
lemma Khash.khDel_of_not_live (h : Khash K V) {x : ℕ}
    (hx : x = h.nBuckets ∨ (h.table x).content = 0) : UserThreads.khDel h x = h := by
  refine if_neg ?_
  rintro ⟨hne, hlive⟩
  rcases hx with rfl | hzero
  · exact hne rfl
  · rw [khCells_content_eq_zero_iff.mp hzero] at hlive
    cases hlive

/-- A table all of whose buckets are empty. -/
lemma Khash.represents_of_empty {hashFunc : K → BitVec 32} {h : Khash K V}
    (buckets : h.nBuckets = 0 ∨ ∃ k, 2 ≤ k ∧ k ≤ 31 ∧ h.nBuckets = 2 ^ k) (size : h.size = 0)
    (nOccupied : h.nOccupied = 0) (upper : h.upperBound = acHashUpper h.nBuckets)
    (empty : ∀ i < h.nBuckets, h.table i = .empty) : h.Represents hashFunc fun _ => none := by
  have hzero : ∀ i < h.nBuckets, (h.table i).content = 0 := fun i hi => by
    rw [empty i hi]
    rfl
  have hentries : h.entries = 0 := contents_of_no_full hzero
  refine ⟨buckets, ?_, ?_, upper, placed_of_no_full hzero, ?_⟩
  · rw [hentries, size]
    rfl
  · rw [nOccupied, occupied, Finset.card_eq_zero, Finset.filter_eq_empty_iff]
    intro i hi
    exact not_not.mpr (empty i (Finset.mem_range.mp hi))
  · rw [hentries]
    exact Stores.empty

/-- `kh_init` makes an empty table. -/
lemma Khash.represents_khInit (hashFunc : K → BitVec 32) (keys : ℕ → K) (vals : ℕ → V) :
    (khInit keys vals).Represents hashFunc fun _ => none :=
  represents_of_empty (.inl rfl) rfl rfl (by simp [khInit, acHashUpper]) fun i hi =>
    absurd hi (Nat.not_lt_zero i)

/-- **`kh_clear`** makes a table empty. -/
theorem Khash.Represents.khClear {hashFunc : K → BitVec 32} {h : Khash K V} {f : K → Option V}
    (hr : h.Represents hashFunc f) : (UserThreads.khClear h).Represents hashFunc fun _ => none := by
  rw [UserThreads.khClear]
  split_ifs with h0
  · obtain ⟨k, -, -, hn⟩ := hr.pow_buckets h0
    exact represents_of_empty hr.buckets rfl rfl hr.upper_eq fun i hi =>
      khCells_empty_iff.mpr (acIsempty_memsetFlags _ hn hi)
  · have hnone : f = fun _ => none := funext fun k => hr.eq_none_of_zero (not_not.mp h0) k
    rwa [← hnone]

end UserThreads
