import Mathlib.Algebra.BigOperators.Group.Finset.Basic
import Mathlib.Algebra.Order.BigOperators.Group.Finset
import Mathlib.Tactic.Ring
import Mathlib.Tactic.Linarith

set_option relaxedAutoImplicit false
set_option autoImplicit false

/-!
# The accounting allocator `malloc369.c`

`malloc369` and `free369` wrap `malloc` and `free` and keep a map from every address they
have handed out to the size of the block, with the bit `FREED` set once the block is freed.
The address that `malloc` answers is a parameter of `malloc369`. `free` of a pointer that
the map rejects is taken to return; the code only reaches it to report a bad pointer.
Printing under `verbose` and the filling of freed memory are left out. The counters are
mathematical integers: as the source says, they need `2^63` bytes before they overflow.

## Main definitions

* `UserThreads.Heap` — the state of the allocator; `malloc369`, `free369` — its operations.
* `UserThreads.Heap.Live` — the addresses of blocks that are allocated and not yet freed.
* `UserThreads.Heap.Accounts` — the counters describe a given finite set of live blocks.

## Main results

* `UserThreads.Heap.Accounts.malloc369`, `UserThreads.Heap.Accounts.free369` — the operations
  keep the accounts; in particular no assertion of `free369` fails.
-/

namespace UserThreads

/-- An address, as `malloc` answers it. -/
abbrev Addr := ℕ

/-- The null pointer. -/
def NULL : Addr := 0

/-- `FREED`: if set, the block has been freed already. -/
def FREED : BitVec 64 := 0x8000000000000000#64

/-- The state of `malloc369.c`: the four counters and the map of blocks. -/
structure Heap where
  /-- `num_mallocs` -/
  numMallocs : ℤ
  /-- `num_frees` -/
  numFrees : ℤ
  /-- `bytes_malloced` -/
  bytesMalloced : ℤ
  /-- `bytes_freed` -/
  bytesFreed : ℤ
  /-- `malloc_map` -/
  mallocMap : Addr → Option (BitVec 64)

/-- `init_csc369_malloc`. -/
def initCsc369Malloc : Heap := ⟨0, 0, 0, 0, fun _ => none⟩

namespace Heap

/-- `malloc369`, when `malloc(size)` answers the address `m`. -/
def malloc369 (h : Heap) (size : BitVec 64) (m : Addr) : Heap :=
  { h with
    numMallocs := h.numMallocs + 1
    bytesMalloced := h.bytesMalloced + size.toNat
    mallocMap := Function.update h.mallocMap m (some size) }

/-- `free369`; `none` when one of its assertions fails. -/
def free369 (h : Heap) (ptr : Addr) : Option Heap :=
  if ptr = NULL then some h
  else
    match h.mallocMap ptr with
    | none => some h
    | some size =>
      if size &&& FREED ≠ 0 then some h
      else if ¬ (size ≠ 0) then none
      else if ¬ (h.numMallocs - h.numFrees > 0) then none
      else if ¬ (h.bytesMalloced - h.bytesFreed ≥ size.toNat) then none
      else some { h with
        numFrees := h.numFrees + 1
        bytesFreed := h.bytesFreed + size.toNat
        mallocMap := Function.update h.mallocMap ptr (some (size ||| FREED)) }

/-- `get_current_bytes_malloced`; `none` when its assertion fails. -/
def getCurrentBytesMalloced (h : Heap) : Option ℤ :=
  if ¬ (h.bytesMalloced ≥ h.bytesFreed) then none else some (h.bytesMalloced - h.bytesFreed)

/-- `get_current_num_mallocs`; `none` when its assertion fails. -/
def getCurrentNumMallocs (h : Heap) : Option ℤ :=
  if ¬ (h.numMallocs ≥ h.numFrees) then none else some (h.numMallocs - h.numFrees)

/-- `is_leak_free`; `none` when an assertion of a getter fails. -/
def isLeakFree (h : Heap) (numMallocsTol numBytesTol : ℤ) : Option Bool :=
  h.getCurrentBytesMalloced.bind fun bytes =>
    if bytes > numBytesTol then some false
    else h.getCurrentNumMallocs.map fun num => !decide (num > numMallocsTol)

/-- The block at `p` is allocated and not yet freed. -/
def Live (h : Heap) (p : Addr) : Prop :=
  ∃ size, h.mallocMap p = some size ∧ size &&& FREED = 0

instance (h : Heap) (p : Addr) : Decidable (h.Live p) :=
  match hp : h.mallocMap p with
  | none => isFalse (by rintro ⟨_, hs, -⟩; rw [hp] at hs; cases hs)
  | some size =>
    if hf : size &&& FREED = 0 then isTrue ⟨size, hp, hf⟩
    else isFalse (by rintro ⟨_, hs, hz⟩; rw [hp] at hs; cases hs; exact hf hz)

/-- The size recorded for the address `p`. -/
def sizeAt (h : Heap) (p : Addr) : ℤ := ((h.mallocMap p).getD 0).toNat

/-- The counters describe the set `blocks` of live blocks, all of them of positive size. -/
structure Accounts (h : Heap) (blocks : Finset Addr) : Prop where
  mem_iff : ∀ p, p ∈ blocks ↔ h.Live p
  count : h.numMallocs - h.numFrees = blocks.card
  bytes : h.bytesMalloced - h.bytesFreed = ∑ p ∈ blocks, h.sizeAt p
  pos : ∀ p, h.mallocMap p ≠ some 0
  null : NULL ∉ blocks

/-! ## The `FREED` bit -/

/-- `FREED` is the top bit. -/
lemma freed_eq : FREED = BitVec.twoPow 64 63 := by decide

/-- A size below `2^63` does not have the `FREED` bit. -/
lemma and_freed_of_lt {size : BitVec 64} (h : size.toNat < 2 ^ 63) : size &&& FREED = 0 := by
  have hbit : size.getLsbD 63 = false := by
    rw [BitVec.getLsbD, Nat.testBit_lt_two_pow h]
  rw [freed_eq, BitVec.and_twoPow, hbit]
  rfl

/-- Marking a size sets the `FREED` bit. -/
lemma or_freed_and_freed (size : BitVec 64) : (size ||| FREED) &&& FREED ≠ 0 := by
  have hbit : (size ||| FREED).getLsbD 63 = true := by
    rw [BitVec.getLsbD_or, freed_eq, BitVec.getLsbD_twoPow]
    simp
  rw [freed_eq] at hbit ⊢
  rw [BitVec.and_twoPow, hbit]
  decide

/-! ## The operations and the live blocks -/

/-- After `malloc369` its block is live, and the others are as before. -/
lemma live_malloc369 (h : Heap) {size : BitVec 64} (hsize : size.toNat < 2 ^ 63) (m p : Addr) :
    (h.malloc369 size m).Live p ↔ p = m ∨ h.Live p := by
  by_cases hp : p = m
  · subst hp
    simp [Live, malloc369, and_freed_of_lt hsize]
  · simp [Live, malloc369, hp]

/-- The size recorded for an address after the map has been updated. -/
lemma sizeAt_update (h : Heap) (ptr p : Addr) (word : BitVec 64) (a b c d : ℤ) :
    sizeAt ⟨a, b, c, d, Function.update h.mallocMap ptr (some word)⟩ p =
      if p = ptr then (word.toNat : ℤ) else h.sizeAt p := by
  by_cases hp : p = ptr
  · subst hp
    simp [sizeAt]
  · simp [sizeAt, hp]

/-- Accounts of the empty allocator. -/
lemma accounts_init : initCsc369Malloc.Accounts ∅ :=
  ⟨fun p => by simp [Live, initCsc369Malloc], rfl, rfl, fun p => by simp [initCsc369Malloc],
    by simp⟩

/-- `malloc369` of a fresh nonzero address with a size between `1` and `2^63 - 1` adds its
block to the accounts.

**Proof sketch.** The block is at an address that no block of the accounts has, so the sum of the
sizes grows by its size and the number of blocks by one, as the two counters do. That the size is
below `2 ^ 63` keeps the mark of freed blocks apart from it. -/
lemma Accounts.malloc369 {h : Heap} {blocks : Finset Addr} (ha : h.Accounts blocks)
    {size : BitVec 64} (hpos : size ≠ 0) (hlt : size.toNat < 2 ^ 63) {m : Addr}
    (hm : m ∉ blocks) (hnull : m ≠ NULL) :
    (h.malloc369 size m).Accounts (insert m blocks) where
  mem_iff p := by
    rw [Finset.mem_insert, live_malloc369 h hlt, ha.mem_iff]
  count := by
    have hcount := ha.count
    rw [Finset.card_insert_of_notMem hm]
    simp only [Heap.malloc369]
    push_cast
    omega
  bytes := by
    have hbytes := ha.bytes
    have hsum : ∑ p ∈ blocks, (h.malloc369 size m).sizeAt p = ∑ p ∈ blocks, h.sizeAt p :=
      Finset.sum_congr rfl fun p hp => by
        rw [Heap.malloc369, sizeAt_update, if_neg (ne_of_mem_of_not_mem hp hm)]
    rw [Finset.sum_insert hm, hsum, Heap.malloc369, sizeAt_update, if_pos rfl]
    dsimp only
    omega
  pos p := by
    by_cases hp : p = m
    · subst hp
      simpa [Heap.malloc369] using hpos
    · simpa [Heap.malloc369, hp] using ha.pos p
  null := by
    rw [Finset.mem_insert, not_or]
    exact ⟨hnull.symm, ha.null⟩

/-- `free369` of a pointer to no live block changes nothing. -/
lemma free369_of_not_live {h : Heap} {ptr : Addr} (hptr : ¬ h.Live ptr) :
    h.free369 ptr = some h := by
  rw [Heap.free369]
  by_cases hnull : ptr = NULL
  · exact if_pos hnull
  rw [if_neg hnull]
  cases hmap : h.mallocMap ptr with
  | none => rfl
  | some size =>
    have hbit : size &&& FREED ≠ 0 := fun hbit => hptr ⟨size, hmap, hbit⟩
    exact if_pos hbit

/-- `free369` of a live block: no assertion fails, and it is counted and marked. -/
lemma Accounts.free369_eq {h : Heap} {blocks : Finset Addr} (ha : h.Accounts blocks) {ptr : Addr}
    {size : BitVec 64} (hsize : h.mallocMap ptr = some size) (hbit : size &&& FREED = 0) :
    h.free369 ptr = some ⟨h.numMallocs, h.numFrees + 1, h.bytesMalloced,
      h.bytesFreed + size.toNat, Function.update h.mallocMap ptr (some (size ||| FREED))⟩ := by
  have hmem : ptr ∈ blocks := (ha.mem_iff ptr).mpr ⟨size, hsize, hbit⟩
  have hnull : ptr ≠ NULL := fun he => ha.null (he ▸ hmem)
  have hpos : size ≠ 0 := fun he => ha.pos ptr (he ▸ hsize)
  have hat : h.sizeAt ptr = size.toNat := by simp [sizeAt, hsize]
  have hcard : 0 < blocks.card := Finset.card_pos.mpr ⟨ptr, hmem⟩
  have hcount := ha.count
  have hle : (size.toNat : ℤ) ≤ h.bytesMalloced - h.bytesFreed := by
    rw [ha.bytes, ← hat]
    exact Finset.single_le_sum (f := h.sizeAt) (fun p _ => Int.natCast_nonneg _) hmem
  simp only [Heap.free369, if_neg hnull, hsize, if_neg (not_not.mpr hbit),
    if_neg (not_not.mpr hpos)]
  rw [if_neg (by omega), if_neg (by omega)]

/-- `free369` of a live block: no assertion fails, and the block leaves the accounts.

**Proof sketch.** The counters of frees grow by one and by the size of the block, which leaves the
accounts. The mark makes the entry differ from that of a live block, and it is never `0`. -/
lemma Accounts.free369 {h : Heap} {blocks : Finset Addr} (ha : h.Accounts blocks) {ptr : Addr}
    (hmem : ptr ∈ blocks) :
    ∃ h', h.free369 ptr = some h' ∧ h'.Accounts (blocks.erase ptr) := by
  obtain ⟨size, hsize, hbit⟩ := (ha.mem_iff ptr).mp hmem
  have hat : h.sizeAt ptr = size.toNat := by simp [sizeAt, hsize]
  have hcard : 0 < blocks.card := Finset.card_pos.mpr ⟨ptr, hmem⟩
  have hcount := ha.count
  have hbytes := ha.bytes
  refine ⟨_, ha.free369_eq hsize hbit, ?_, ?_, ?_, ?_,
    fun hn => ha.null (Finset.mem_of_mem_erase hn)⟩
  · intro p
    rw [Finset.mem_erase, ha.mem_iff]
    by_cases hp : p = ptr
    · subst hp
      simpa [Live] using or_freed_and_freed size
    · simp [Live, hp]
  · rw [Finset.card_erase_of_mem hmem]
    dsimp only
    omega
  · have hsum : ∑ p ∈ blocks.erase ptr, sizeAt ⟨h.numMallocs, h.numFrees + 1, h.bytesMalloced,
        h.bytesFreed + size.toNat, Function.update h.mallocMap ptr (some (size ||| FREED))⟩ p =
        ∑ p ∈ blocks.erase ptr, h.sizeAt p :=
      Finset.sum_congr rfl fun p hp => by
        rw [sizeAt_update, if_neg (Finset.ne_of_mem_erase hp)]
    rw [hsum, Finset.sum_erase_eq_sub hmem, hat]
    dsimp only
    omega
  · intro p
    by_cases hp : p = ptr
    · subst hp
      dsimp only
      rw [Function.update_self]
      intro hz
      have hmark := or_freed_and_freed size
      rw [Option.some.inj hz] at hmark
      exact hmark (by decide)
    · simpa [hp] using ha.pos p

/-- `free369` takes its block out of the accounts, and changes nothing if there is none. -/
lemma Accounts.free {h h' : Heap} {blocks : Finset Addr} (ha : h.Accounts blocks) {ptr : Addr}
    (hfree : h.free369 ptr = some h') : h'.Accounts (blocks.erase ptr) := by
  by_cases hmem : ptr ∈ blocks
  · obtain ⟨h₁, hfree₁, ha₁⟩ := ha.free369 hmem
    obtain rfl : h₁ = h' := Option.some.inj (hfree₁.symm.trans hfree)
    exact ha₁
  · have hdead : ¬ h.Live ptr := fun hlive => hmem ((ha.mem_iff ptr).mpr hlive)
    obtain rfl : h = h' := Option.some.inj ((free369_of_not_live hdead).symm.trans hfree)
    rwa [Finset.erase_eq_of_notMem hmem]

/-- No assertion of `free369` fails. -/
lemma Accounts.free369_isSome {h : Heap} {blocks : Finset Addr} (ha : h.Accounts blocks)
    (ptr : Addr) : ∃ h', h.free369 ptr = some h' := by
  by_cases hmem : ptr ∈ blocks
  · obtain ⟨h', hfree, -⟩ := ha.free369 hmem
    exact ⟨h', hfree⟩
  · exact ⟨h, free369_of_not_live fun hlive => hmem ((ha.mem_iff ptr).mpr hlive)⟩

end Heap

end UserThreads
