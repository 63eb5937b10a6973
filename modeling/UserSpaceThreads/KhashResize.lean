import Mathlib.Tactic.Abel
import UserSpaceThreads.KhashTable

set_option relaxedAutoImplicit false
set_option autoImplicit false

/-!
# The rehash of `kh_resize`

`kh_resize` rehashes in place: the old and the new table share the arrays of keys and values, and
only the flags of the new table are new. An entry of the old table is taken in hand and put where
a search of the new table finds an empty bucket; if this bucket is in use in the old table, its
entry is taken in hand next. During all this the entries of the old table, those of the new one
and the one in hand are together the entries at the start.

When it makes the arrays shorter, behind the rehash, `kh_resize` does not test what `krealloc`
answers. So there is one way to lose the entries: a table that shrinks, with one of these requests
refused.

## Main definitions

* `UserThreads.Rehashing` — the invariant of the rehash.
* `UserThreads.Khash.Loses` — the table shrinks, and a request for a shorter array is refused.
* `UserThreads.Resized` — how `kh_resize` can end, and when.

## Main results

* `UserThreads.Rehashing.khKickOut` — the kick-out process ends, and puts the entry in hand away.
* `UserThreads.Rehashing.khRehash` — the rehash ends with all entries in the new table.
* `UserThreads.khResize_exact` — `kh_resize` keeps the entries of a table, unless it loses an array.
-/

namespace UserThreads

open OpenAddressing TriangularProbing

variable {K V : Type}

/-! ## Writes -/

section Writes

variable {flags : Flags} {keys : ℕ → K} {vals : ℕ → V} {i : ℕ}

/-- A write into the arrays does not change a table in which the bucket is not live. -/
lemma khCells_update_of_not_live (h : acIseither flags i = true) (key : K) (val : V) :
    khCells flags (Function.update keys i key) (Function.update vals i val) =
      khCells flags keys vals := by
  funext j
  by_cases hj : j = i
  · subst hj
    rw [acIseither_eq, Bool.or_eq_true] at h
    rw [khCells, khCells]
    split_ifs with he hd
    · rfl
    · rfl
    · rcases h with h | h
      · exact absurd h he
      · exact absurd h hd
  · rw [khCells, khCells, Function.update_of_ne hj, Function.update_of_ne hj]

/-- The entry in hand goes into an empty bucket of the new table. -/
lemma khCells_acSetIsemptyFalse (h : acIsdel flags i = false) (key : K) (val : V) :
    khCells (acSetIsemptyFalse flags i) (Function.update keys i key)
        (Function.update vals i val) =
      Function.update (khCells flags keys vals) i (.full key val) := by
  funext j
  rw [Function.update_apply, khCells, khCells, acIsempty_acSetIsemptyFalse,
    acIsdel_acSetIsemptyFalse]
  by_cases hj : j = i
  · subst hj
    simp [h]
  · simp [hj]

/-- An entry of the old table is taken out, and its bucket is written. -/
lemma khCells_take (h : acIseither flags i = false) (key : K) (val : V) :
    khCells (acSetIsdelTrue flags i) (Function.update keys i key) (Function.update vals i val) =
      Function.update (khCells flags keys vals) i .deleted := by
  have hdel : acIseither (acSetIsdelTrue flags i) i = true := by
    rw [acIseither_eq, acIsdel_acSetIsdelTrue]
    simp
  rw [acIseither_eq, Bool.or_eq_false_iff] at h
  rw [khCells_update_of_not_live hdel, khCells_acSetIsdelTrue h.1]

/-- Marking a bucket as deleted takes no other bucket back into use. -/
lemma acIseither_acSetIsdelTrue_of (j : ℕ) (h : acIseither flags j = true) :
    acIseither (acSetIsdelTrue flags i) j = true := by
  rw [acIseither_eq, Bool.or_eq_true] at h
  rw [acIseither_eq, acIsempty_acSetIsdelTrue, acIsdel_acSetIsdelTrue, Bool.or_eq_true,
    Bool.or_eq_true]
  exact h.imp_right .inr

end Writes

/-! ## The search for an empty bucket -/

/-- The loop runs up to the first empty bucket. -/
lemma khFindEmpty_stop {flags : Flags} {n k start m t : ℕ} (hn : n = 2 ^ k) (hk : k ≤ 31)
    (hused : ∀ s < m, acIsempty flags (probe n start s) = false)
    (hempty : acIsempty flags (probe n start m) = true) (ht : t ≤ m) {fuel : ℕ}
    (hfuel : m < t + fuel) :
    khFindEmpty flags (n - 1) fuel (probe n start t) t = some (probe n start m) := by
  induction fuel generalizing t with
  | zero => omega
  | succ fuel ih =>
    rw [khFindEmpty]
    rcases Nat.eq_or_lt_of_le ht with rfl | hlt
    · rw [if_neg (by rw [hempty]; decide)]
    · rw [if_pos (hused t hlt), khStep_probe hn hk]
      exact ih hlt (by omega)

/-- If some bucket is empty, the search finds one, behind buckets that are not. -/
lemma exists_khFindEmpty {flags : Flags} {n k : ℕ} (hn : n = 2 ^ k) (hk : k ≤ 31) (start : ℕ)
    (hfree : ∃ i < n, acIsempty flags i = true) :
    ∃ m, khFindEmpty flags (n - 1) n (probe n start 0) 0 = some (probe n start m) ∧
      acIsempty flags (probe n start m) = true ∧
      ∀ s < m, acIsempty flags (probe n start s) = false := by
  obtain ⟨i, hi, hempty⟩ := hfree
  obtain ⟨t, ht, rfl⟩ : ∃ t < n, probe n start t = i := by
    subst hn
    exact exists_probe start hi
  have hex : ∃ m, acIsempty flags (probe n start m) = true := ⟨t, hempty⟩
  have hused (s : ℕ) (hs : s < Nat.find hex) : acIsempty flags (probe n start s) = false :=
    Bool.eq_false_iff.mpr (Nat.find_min hex hs)
  have hlt : Nat.find hex < n := (Nat.find_le hempty).trans_lt ht
  exact ⟨Nat.find hex,
    khFindEmpty_stop hn hk hused (Nat.find_spec hex) (Nat.zero_le _) (by omega),
    Nat.find_spec hex, hused⟩

/-! ## The invariant -/

/-- The state of a rehash into `n` buckets of a table with the entries `es`, with the entries in
`hand` in neither table. -/
structure Rehashing (hashFunc : K → BitVec 32) (n : ℕ) (es hand : Multiset (K × V))
    (h : Khash K V) (newFlags : Flags) : Prop where
  entries : h.entries + contents (khCells newFlags h.keys h.vals) n + hand = es
  clean : ∀ i < n, acIsdel newFlags i = false
  placed : Placed (khProbe hashFunc n) (khCells newFlags h.keys h.vals) n

namespace Rehashing

variable {hashFunc : K → BitVec 32} {n k : ℕ} {es hand : Multiset (K × V)} {h : Khash K V}
  {newFlags : Flags} {key : K} {val : V}

/-- As long as an entry is in hand, the new table has an empty bucket. -/
lemma exists_empty (hr : Rehashing hashFunc n es {(key, val)} h newFlags) (hes : es.card ≤ n) :
    ∃ i < n, acIsempty newFlags i = true := by
  have hclean : ∀ i < n, khCells newFlags h.keys h.vals i ≠ .deleted := by
    intro i hi hdel
    have hclean := hr.clean i hi
    rw [(khCells_deleted_iff.mp hdel).2] at hclean
    cases hclean
  have hcard := congrArg Multiset.card hr.entries
  rw [Multiset.card_add, Multiset.card_add, card_contents_eq hclean, Multiset.card_singleton]
    at hcard
  obtain ⟨i, hi, hempty⟩ := OpenAddressing.exists_empty (show
    occupied (khCells newFlags h.keys h.vals) n < n by omega)
  exact ⟨i, hi, khCells_empty_iff.mp hempty⟩

/-- The entry in hand is put into an empty bucket, and the old table loses the entries of
`hand'`.

**Proof sketch.** The bucket is empty in the new table, so the entry in hand comes to the entries
there; and the old table and the new hand together have what the old table had. The search for the
key passes no empty bucket on its way, which is `Placed.write`. -/
lemma put (hr : Rehashing hashFunc n es {(key, val)} h newFlags) {i t : ℕ} (hi : i < n)
    (hempty : acIsempty newFlags i = true) (hprobe : khProbe hashFunc n key t = i)
    (hchain : ∀ s < t, acIsempty newFlags (khProbe hashFunc n key s) = false) {flags : Flags}
    {hand' : Multiset (K × V)}
    (hold : h.entries = contents (khCells flags (Function.update h.keys i key)
      (Function.update h.vals i val)) h.nBuckets + hand') :
    Rehashing hashFunc n es hand'
      { h with
        flags := flags
        keys := Function.update h.keys i key
        vals := Function.update h.vals i val } (acSetIsemptyFalse newFlags i) := by
  have htable : khCells (acSetIsemptyFalse newFlags i) (Function.update h.keys i key)
      (Function.update h.vals i val) =
        Function.update (khCells newFlags h.keys h.vals) i (.full key val) :=
    khCells_acSetIsemptyFalse (hr.clean i hi) key val
  have hzero : (khCells newFlags h.keys h.vals i).content = 0 := by
    rw [khCells_empty_iff.mpr hempty]
    rfl
  refine ⟨?_, fun j hj => ?_, ?_⟩
  · have hfill := contents_fill (khCells newFlags h.keys h.vals) hi hzero key val
    rw [Khash.entries, Khash.table, htable, hfill, ← hr.entries, hold, ← Multiset.singleton_add]
    abel
  · rw [acIsdel_acSetIsemptyFalse]
    exact hr.clean j hj
  · rw [htable]
    subst hprobe
    exact hr.placed.write val fun s hs => khCells_ne_empty_iff.mpr (hchain s hs)

/-- The old table loses the entry of a live bucket that is written. -/
lemma entries_take {i : ℕ} (hi : i < h.nBuckets) (hlive : acIseither h.flags i = false) (key : K)
    (val : V) : h.entries = contents (khCells (acSetIsdelTrue h.flags i)
      (Function.update h.keys i key) (Function.update h.vals i val)) h.nBuckets +
        {(h.keys i, h.vals i)} := by
  have hclear := contents_clear hi (khCells_of_live h.keys h.vals hlive)
  rw [khCells_take hlive, Multiset.add_comm, Multiset.singleton_add]
  exact hclear

/-- The old table loses nothing if a bucket is written that is not live or not its own. -/
lemma entries_keep {i : ℕ} (hi : ¬ (i < h.nBuckets ∧ acIseither h.flags i = false)) (key : K)
    (val : V) : h.entries = contents (khCells h.flags (Function.update h.keys i key)
      (Function.update h.vals i val)) h.nBuckets + 0 := by
  rw [add_zero]
  by_cases hlt : i < h.nBuckets
  · have hdead : acIseither h.flags i = true := by simpa [hlt] using hi
    rw [khCells_update_of_not_live hdead]
    rfl
  · refine contents_congr fun j hj => ?_
    have hne : j ≠ i := by omega
    rw [Khash.table, khCells, khCells, Function.update_of_ne hne, Function.update_of_ne hne]

/-- **The kick-out process ends** and puts the entry in hand away. It takes no bucket of the old
table back into use.

**Proof sketch.** Induction on the fuel, which is larger than the number of entries that the old
table still has. The search finds an empty bucket of the new table, since this has one entry less
than the whole and there are at least as many buckets as entries. If the old table has an entry in
that bucket, the two are exchanged, and the old table has one entry less; if not, the process
ends. -/
theorem khKickOut (hn : n = 2 ^ k) (hk : k ≤ 31) (hes : es.card ≤ n)
    (hr : Rehashing hashFunc n es {(key, val)} h newFlags) {fuel : ℕ}
    (hfuel : h.entries.card < fuel) :
    ∃ h' newFlags', UserThreads.khKickOut hashFunc n fuel key val h newFlags =
        some (h', newFlags') ∧
      Rehashing hashFunc n es 0 h' newFlags' ∧ h'.nBuckets = h.nBuckets ∧ h'.size = h.size ∧
      ∀ i, acIseither h.flags i = true → acIseither h'.flags i = true := by
  induction fuel generalizing key val h newFlags with
  | zero => exact absurd hfuel (Nat.not_lt_zero _)
  | succ fuel ih =>
    obtain ⟨m, hfind, hempty, hchain⟩ :=
      exists_khFindEmpty hn hk (hashFunc key).toNat (hr.exists_empty hes)
    have hlt : probe n (hashFunc key).toNat m < n := probe_lt (hn ▸ Nat.two_pow_pos k) _ m
    rw [UserThreads.khKickOut]
    simp only [Khash.Represents.start_eq hn, khProbe, hfind, Option.bind_some]
    split_ifs with hlive
    · have hold := entries_take hlive.1 hlive.2 key val
      have hput := hr.put hlt hempty rfl hchain hold
      rw [hold, Multiset.card_add, Multiset.card_singleton] at hfuel
      obtain ⟨h', newFlags', heq, hr', hbuckets, hsize, hdead⟩ :=
        ih hput (Nat.lt_of_succ_lt_succ hfuel)
      exact ⟨h', newFlags', heq, hr', hbuckets, hsize,
        fun i hi => hdead i (acIseither_acSetIsdelTrue_of i hi)⟩
    · exact ⟨_, _, rfl, hr.put hlt hempty rfl hchain (entries_keep hlive key val), rfl, rfl,
        fun _ hi => hi⟩

/-- An entry of the old table is taken in hand. -/
lemma take (hr : Rehashing hashFunc n es 0 h newFlags) {j : ℕ} (hj : j < h.nBuckets)
    (hlive : acIseither h.flags j = false) :
    Rehashing hashFunc n es {(h.keys j, h.vals j)} { h with flags := acSetIsdelTrue h.flags j }
      newFlags := by
  refine ⟨?_, hr.clean, hr.placed⟩
  have hcells := khCells_of_live h.keys h.vals hlive
  have hmark : khCells (acSetIsdelTrue h.flags j) h.keys h.vals =
      Function.update h.table j .deleted := khCells_acSetIsdelTrue (khCells_full hcells).1
  have hclear := contents_clear hj hcells
  rw [← hr.entries, Khash.entries, Khash.entries, Khash.table, Khash.table, hclear, hmark,
    ← Multiset.singleton_add, Khash.table]
  abel

/-- **The rehash ends**, and then the old table has no entries.

**Proof sketch.** Induction on the number of buckets of the old table that are still to be visited.
A bucket with an entry is emptied into the hand, and the kick-out process puts the hand away. The
buckets that have been visited stay without entries, because the process takes no bucket of the old
table back into use. At the end no bucket has an entry. -/
theorem khRehash (hn : n = 2 ^ k) (hk : k ≤ 31) (hes : es.card ≤ n)
    (hr : Rehashing hashFunc n es 0 h newFlags) {j m : ℕ} (hm : j + m = h.nBuckets)
    (hdone : ∀ i < j, acIseither h.flags i = true) :
    ∃ h' newFlags', UserThreads.khRehash hashFunc n m j h newFlags = some (h', newFlags') ∧
      Rehashing hashFunc n es 0 h' newFlags' ∧ h'.nBuckets = h.nBuckets ∧ h'.size = h.size ∧
      h'.entries = 0 := by
  induction m generalizing j h newFlags with
  | zero =>
    refine ⟨h, newFlags, rfl, hr, rfl, rfl, contents_of_no_full fun i hi => ?_⟩
    exact khCells_content_eq_zero_iff.mpr (hdone i (by omega))
  | succ m ih =>
    rw [UserThreads.khRehash]
    split_ifs with hlive
    · have htake := hr.take (by omega) hlive
      have hcard : ({ h with flags := acSetIsdelTrue h.flags j } : Khash K V).entries.card ≤
          h.nBuckets := card_contents_le_size _ _
      obtain ⟨h₁, newFlags₁, heq, hr₁, hbuckets, hsize, hdead⟩ :=
        htake.khKickOut hn hk hes (Nat.lt_succ_of_le hcard)
      have hdone₁ : ∀ i < j + 1, acIseither h₁.flags i = true := by
        intro i hi
        refine hdead i ?_
        rcases Nat.eq_or_lt_of_le (Nat.le_of_lt_succ hi) with rfl | hlt
        · rw [acIseither_eq, acIsdel_acSetIsdelTrue]
          simp
        · exact acIseither_acSetIsdelTrue_of i (hdone i hlt)
      have hm₁ : j + 1 + m = h₁.nBuckets := by
        rw [hbuckets]
        dsimp only
        omega
      obtain ⟨h', newFlags', heq', hr', hbuckets', hsize', hzero⟩ := ih hr₁ hm₁ hdone₁
      rw [heq, Option.bind_some]
      exact ⟨h', newFlags', heq', hr', hbuckets'.trans hbuckets, hsize'.trans hsize, hzero⟩
    · refine ih hr (by omega) fun i hi => ?_
      rcases Nat.eq_or_lt_of_le (Nat.le_of_lt_succ hi) with rfl | hlt
      · simpa using hlive
      · exact hdone i hlt

end Rehashing

/-! ## `kh_resize` -/

/-- The table is made smaller, with memory for the new flags, but a request for a shorter array is
refused. -/
def Khash.Loses (h : Khash K V) (newNBuckets : ℕ) (mem : Memory) : Prop :=
  h.size < acHashUpper (khRoundup newNBuckets) ∧ khRoundup newNBuckets < h.nBuckets ∧
    mem.flags = true ∧ ¬ (mem.keys = true ∧ mem.vals = true)

instance (h : Khash K V) (newNBuckets : ℕ) (mem : Memory) :
    Decidable (h.Loses newNBuckets mem) :=
  inferInstanceAs (Decidable (_ ∧ _))

/-- How `kh_resize` can end for a table `h` that stands for `f`, and on which condition. -/
inductive Resized (hashFunc : K → BitVec 32) (f : K → Option V) (h : Khash K V)
    (newNBuckets : ℕ) (mem : Memory) : ResizeEnd K V → Prop
  /-- The entries would not fit: nothing happens. -/
  | small (hsmall : acHashUpper (khRoundup newNBuckets) ≤ h.size) :
      Resized hashFunc f h newNBuckets mem (.answered 0 h)
  /-- A request before the rehash is refused: nothing happens. -/
  | refused (hroom : h.size < acHashUpper (khRoundup newNBuckets))
      (hmem : ¬ (mem.flags = true ∧
        (h.nBuckets < khRoundup newNBuckets → mem.keys = true ∧ mem.vals = true))) :
      Resized hashFunc f h newNBuckets mem (.answered (-1) h)
  /-- A request behind the rehash is refused: an array is lost. -/
  | lost (hloses : h.Loses newNBuckets mem) : Resized hashFunc f h newNBuckets mem .lost
  /-- The entries are in a table of the new size. -/
  | rehashed {h' : Khash K V} (hroom : h.size < acHashUpper (khRoundup newNBuckets))
      (hflags : mem.flags = true)
      (hmem : h.nBuckets ≠ khRoundup newNBuckets → mem.keys = true ∧ mem.vals = true)
      (represents : h'.Represents hashFunc f) (hbuckets : h'.nBuckets = khRoundup newNBuckets)
      (hsize : h'.size = h.size) (hoccupied : h'.nOccupied = h.size) :
      Resized hashFunc f h newNBuckets mem (.answered 0 h')

namespace Khash.Represents

variable {hashFunc : K → BitVec 32} {h : Khash K V} {f : K → Option V}

/-- The table behind the rehash has all entries.

**Proof sketch.** The new flags say that every bucket is empty, so the invariant of the rehash holds
at its start, with no entry in hand; `acHashUpper n < n` makes sure that the entries fit. At its end
the old table has no entries left and none is in hand, so the new one has them all, and as it has no
deleted bucket it uses as many buckets as it has entries. -/
lemma rehash (hr : h.Represents hashFunc f) {n k : ℕ} (h2 : 2 ≤ k) (hk : k ≤ 31)
    (hn : n = 2 ^ k) (hroom : h.size < acHashUpper n) :
    ∃ h' newFlags, khRehash hashFunc n h.nBuckets 0 h
        (memsetFlags (fun _ => 0) (acFsize n)) = some (h', newFlags) ∧
      h'.nBuckets = h.nBuckets ∧ h'.size = h.size ∧
      Represents hashFunc { h' with
        flags := newFlags
        nBuckets := n
        nOccupied := h'.size
        upperBound := acHashUpper n } f := by
  have hfour : 2 ^ 2 ≤ 2 ^ k := Nat.pow_le_pow_right (by decide) h2
  have hupper : acHashUpper n < n := acHashUpper_lt (by omega)
  have hzero : ∀ i < n,
      (khCells (memsetFlags (fun _ => 0) (acFsize n)) h.keys h.vals i).content = 0 := fun i hi => by
    rw [khCells_empty_iff.mpr (acIsempty_memsetFlags _ hn hi)]
    rfl
  have hstart : Rehashing hashFunc n h.entries 0 h (memsetFlags (fun _ => 0) (acFsize n)) :=
    ⟨by rw [contents_of_no_full hzero, add_zero, add_zero],
      fun i hi => acIsdel_memsetFlags _ hn hi, placed_of_no_full hzero⟩
  have hcard : h.entries.card ≤ n := by
    rw [hr.size_eq]
    omega
  obtain ⟨h', newFlags, heq, hr', hbuckets, hsize, hold⟩ :=
    hstart.khRehash hn hk hcard (Nat.zero_add _) fun i hi => absurd hi (Nat.not_lt_zero i)
  -- all entries are in the new table
  have hentries : contents (khCells newFlags h'.keys h'.vals) n = h.entries := by
    have hall := hr'.entries
    rwa [hold, zero_add, add_zero] at hall
  have hclean : ∀ i < n, khCells newFlags h'.keys h'.vals i ≠ .deleted := by
    intro i hi hdel
    rw [khCells_deleted_iff, hr'.clean i hi] at hdel
    exact absurd hdel.2 (by decide)
  have hcount : h.entries.card = h'.size := hr.size_eq.trans hsize.symm
  refine ⟨h', newFlags, heq, hbuckets, hsize, .inr ⟨k, h2, hk, hn⟩, ?_, ?_, rfl, hr'.placed, ?_⟩
  · rw [entries, table, hentries]
    exact hcount
  · rw [table, ← card_contents_eq hclean, hentries]
    exact hcount
  · rw [entries, table, hentries]
    exact hr.stores

/-- `kh_resize` keeps the entries of a table, for every number of buckets asked for, unless it
loses an array.

**Proof sketch.** One case for each test of the code, in its order. The rehash ends by `rehash`;
what is left behind it is the request for shorter arrays, and this is made only if the number of
buckets goes down. -/
lemma khResize (hr : h.Represents hashFunc f) (newNBuckets : ℕ) (mem : Memory) :
    ∃ e, UserThreads.khResize hashFunc h newNBuckets mem = some e ∧
      Resized hashFunc f h newNBuckets mem e := by
  obtain ⟨k, h2, hk, hn⟩ := khRoundup_eq newNBuckets
  rw [UserThreads.khResize]
  dsimp only
  by_cases hsmall : h.size ≥ acHashUpper (khRoundup newNBuckets)
  · exact ⟨_, if_pos hsmall, .small hsmall⟩
  have hroom : h.size < acHashUpper (khRoundup newNBuckets) := Nat.lt_of_not_le hsmall
  rw [if_neg hsmall]
  by_cases hflags : ¬ mem.flags
  · exact ⟨_, if_pos hflags, .refused hroom fun hmem => hflags hmem.1⟩
  rw [if_neg hflags]
  by_cases hkeys : h.nBuckets < khRoundup newNBuckets ∧ ¬ mem.keys
  · exact ⟨_, if_pos hkeys, .refused hroom fun hmem => hkeys.2 (hmem.2 hkeys.1).1⟩
  rw [if_neg hkeys]
  by_cases hvals : h.nBuckets < khRoundup newNBuckets ∧ ¬ mem.vals
  · exact ⟨_, if_pos hvals, .refused hroom fun hmem => hvals.2 (hmem.2 hvals.1).2⟩
  rw [if_neg hvals]
  rw [not_not] at hflags
  obtain ⟨h', newFlags, heq, hbuckets, hsize, hr'⟩ := hr.rehash h2 hk hn hroom
  rw [heq, Option.map_some]
  dsimp only
  rw [hbuckets]
  by_cases hshorter : h.nBuckets > khRoundup newNBuckets ∧ ¬ (mem.keys ∧ mem.vals)
  · exact ⟨_, congrArg some (if_pos hshorter), .lost ⟨hroom, hshorter.1, hflags, hshorter.2⟩⟩
  · refine ⟨_, congrArg some (if_neg hshorter),
      .rehashed hroom hflags (fun hne => ?_) hr' rfl hsize hsize⟩
    -- longer arrays are tested for, and shorter ones have not been refused
    by_contra hrefused
    rcases Nat.lt_or_gt_of_ne hne with hlonger | hless
    · rw [not_and, not_not] at hkeys hvals
      exact hrefused ⟨hkeys hlonger, hvals hlonger⟩
    · exact hshorter ⟨hless, hrefused⟩

end Khash.Represents

/-- **What `kh_resize` does**, for every number of buckets asked for. It does nothing, if the
entries would not fit; nothing but to answer `-1`, if a request for flags or longer arrays is
refused; and it loses an array, if a request for shorter ones is refused. Otherwise all entries are
in a table of the new size, with no deleted bucket left.

**Proof sketch.** `Represents.khResize` says that one of four things has happened, each with its
reason. The reasons exclude one another in the order of the tests. -/
theorem khResize_exact {hashFunc : K → BitVec 32} {h : Khash K V} {f : K → Option V}
    (hr : h.Represents hashFunc f) (newNBuckets : ℕ) (mem : Memory) :
    if acHashUpper (khRoundup newNBuckets) ≤ h.size then
      khResize hashFunc h newNBuckets mem = some (.answered 0 h)
    else if ¬ (mem.flags ∧ (h.nBuckets < khRoundup newNBuckets → mem.keys ∧ mem.vals)) then
      khResize hashFunc h newNBuckets mem = some (.answered (-1) h)
    else if khRoundup newNBuckets < h.nBuckets ∧ ¬ (mem.keys ∧ mem.vals) then
      khResize hashFunc h newNBuckets mem = some .lost
    else ∃ h', khResize hashFunc h newNBuckets mem = some (.answered 0 h') ∧
      h'.Represents hashFunc f ∧ h'.nBuckets = khRoundup newNBuckets ∧ h'.size = h.size ∧
      h'.nOccupied = h.size := by
  obtain ⟨e, heq, hres⟩ := hr.khResize newNBuckets mem
  cases hres with
  | small hsmall => rwa [if_pos hsmall]
  | refused hroom hmem => rwa [if_neg hroom.not_ge, if_pos hmem]
  | lost hloses =>
    obtain ⟨hroom, hshorter, hflags, hrefused⟩ := hloses
    have hmem : mem.flags ∧ (h.nBuckets < khRoundup newNBuckets → mem.keys ∧ mem.vals) :=
      ⟨hflags, fun hlonger => absurd hlonger hshorter.not_gt⟩
    rwa [if_neg hroom.not_ge, if_neg (not_not.mpr hmem), if_pos ⟨hshorter, hrefused⟩]
  | rehashed hroom hflags hmem represents hbuckets hsize hoccupied =>
    have hmem' : mem.flags ∧ (h.nBuckets < khRoundup newNBuckets → mem.keys ∧ mem.vals) :=
      ⟨hflags, fun hlonger => hmem hlonger.ne⟩
    have hshorter : ¬ (khRoundup newNBuckets < h.nBuckets ∧ ¬ (mem.keys ∧ mem.vals)) :=
      fun hshorter => hshorter.2 (hmem hshorter.1.ne')
    rw [if_neg hroom.not_ge, if_neg (not_not.mpr hmem'), if_neg hshorter]
    exact ⟨_, heq, represents, hbuckets, hsize, hoccupied⟩

/-- A table of 8 buckets in which key `4` has the value `40`, and key `1` has been deleted. -/
def khSample : Khash (BitVec 64) (BitVec 64) where
  nBuckets := 8
  size := 1
  nOccupied := 2
  upperBound := 6
  flags := fun _ => 0xaaaaa8a6#32
  keys := fun i => if i = 4 then 4 else 1
  vals := fun i => if i = 4 then 40 else 10

/-- The sample table satisfies the invariant. -/
lemma represents_khSample : khSample.Represents khInt64HashFunc
    (Function.update (fun _ => none) 4 (some 40)) := by
  have hentries : khSample.entries = {(4, 40)} := by
    rw [Khash.entries, contents]
    simp only [khSample, Finset.sum_range_succ]
    rfl
  refine ⟨.inr ⟨3, by decide, by decide, rfl⟩, ?_, by decide, by decide, ?_, ?_⟩
  · rw [hentries]
    rfl
  · -- key `4` is in the first bucket of its probe
    intro i hi k v hfull
    have hmem : (k, v) ∈ khSample.entries := mem_contents.mpr ⟨i, hi, hfull⟩
    rw [hentries, Multiset.mem_singleton, Prod.mk.injEq] at hmem
    obtain ⟨rfl, rfl⟩ := hmem
    have honly : ∀ j < 8, acIseither khSample.flags j = false →
        khProbe khInt64HashFunc 8 4 0 = j := by decide
    exact ⟨0, honly i hi (acIseither_of_full hfull), fun s hs => absurd hs (Nat.not_lt_zero s)⟩
  · rw [hentries, ← Multiset.cons_zero]
    exact Stores.empty.cons rfl 40

/-- Two resizes to 4 buckets, which clear the deleted bucket and make the arrays shorter; for one of
them the memory for the keys is refused. -/
theorem khResize_exact_sample :
    (∃ h', khResize khInt64HashFunc khSample 4 ⟨true, true, true⟩ = some (.answered 0 h') ∧
      h'.Represents khInt64HashFunc (Function.update (fun _ => none) 4 (some 40)) ∧
      h'.nBuckets = 4 ∧ h'.size = 1 ∧ h'.nOccupied = 1) ∧
    khResize khInt64HashFunc khSample 4 ⟨true, false, true⟩ = some .lost := by
  have hshort := khResize_exact represents_khSample 4 ⟨true, true, true⟩
  have hlost := khResize_exact represents_khSample 4 ⟨true, false, true⟩
  rw [if_neg (by decide), if_neg (by decide), if_neg (by decide)] at hshort
  rw [if_neg (by decide), if_neg (by decide), if_pos (by decide)] at hlost
  exact ⟨hshort, hlost⟩

end UserThreads
