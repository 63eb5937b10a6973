import Mathlib.Algebra.BigOperators.Group.List.Basic
import UserSpaceThreads.Malloc369

set_option relaxedAutoImplicit false
set_option autoImplicit false

/-!
# The accounts of `malloc369.c`

What the counters and the map of `malloc369.c` say after any sequence of calls. The sequence is
read twice: by the allocator, and by a ledger that lists the live blocks with their sizes and
the blocks that have been freed. Pointers that are not in the ledger are those that `free369`
rejects: null, foreign ones, and ones that have been freed already.

## Main definitions

* `UserThreads.Request` — a call of the allocator.
* `UserThreads.Ledger` — the live blocks, and those that have been freed.
* `UserThreads.Exact` — the counters, the getters and the map agree with the ledger.

## Main results

* `UserThreads.malloc369_exact` — the accounts are exact after every sequence of calls.
* `UserThreads.Exact.isLeakFree_iff` — the leak check of the tests.
-/

namespace UserThreads

/-! ## Calls and the ledger -/

/-- A call of the allocator: `malloc369(size)`, in which `malloc` answers `m`, or
`free369(ptr)`. -/
inductive Request
  | malloc369 (size : BitVec 64) (m : Addr)
  | free369 (ptr : Addr)
  deriving DecidableEq, Repr

/-- The allocator answers a request; `none` when an assertion fails. -/
def Heap.serve (h : Heap) : Request → Option Heap
  | .malloc369 size m => some (h.malloc369 size m)
  | .free369 ptr => h.free369 ptr

/-- The allocator after `init_csc369_malloc` and some requests. -/
def serveAll (rs : List Request) : Option Heap := rs.foldlM Heap.serve initCsc369Malloc

/-- A block of memory: its address and its size. -/
abbrev Block := Addr × BitVec 64

/-- The total size of some blocks. -/
def totalSize (bs : List Block) : ℤ := (bs.map fun b => (b.2.toNat : ℤ)).sum

/-- The blocks that are live, and those that have been freed. -/
structure Ledger where
  live : List Block
  freed : List Block
  deriving DecidableEq, Repr

namespace Ledger

/-- Nothing has been allocated. -/
def empty : Ledger := ⟨[], []⟩

/-- The ledger after a request. -/
def enter (l : Ledger) : Request → Ledger
  | .malloc369 size m => ⟨(m, size) :: l.live, l.freed⟩
  | .free369 ptr =>
    ⟨l.live.filter fun b => b.1 ≠ ptr, l.live.filter (fun b => b.1 = ptr) ++ l.freed⟩

/-- The ledger after some requests. -/
def enterAll (l : Ledger) (rs : List Request) : Ledger := rs.foldl enter l

/-- The address is that of a live block. -/
def Holds (l : Ledger) (p : Addr) : Prop := p ∈ l.live.map Prod.fst

instance (l : Ledger) (p : Addr) : Decidable (l.Holds p) :=
  inferInstanceAs (Decidable (_ ∈ _))

/-- The request has a size from `1` to `2^63 - 1`, and `malloc` answers it with an address that
is not null and not that of a live block. Any pointer may be freed. -/
def Allows (l : Ledger) : Request → Prop
  | .malloc369 size m => size ≠ 0 ∧ size.toNat < 2 ^ 63 ∧ m ≠ NULL ∧ ¬ l.Holds m
  | .free369 _ => True

instance (l : Ledger) (r : Request) : Decidable (l.Allows r) := by
  cases r <;> unfold Allows <;> infer_instance

/-- Each of the requests is allowed when it is made. -/
def AllowsAll : Ledger → List Request → Prop
  | _, [] => True
  | l, r :: rs => l.Allows r ∧ AllowsAll (l.enter r) rs

instance decidableAllowsAll : (l : Ledger) → (rs : List Request) → Decidable (l.AllowsAll rs)
  | _, [] => inferInstanceAs (Decidable True)
  | l, r :: rs =>
    have := decidableAllowsAll (l.enter r) rs
    inferInstanceAs (Decidable (_ ∧ _))

end Ledger

/-- The blocks that the requests allocate, the latest first. -/
def allocated : List Request → List Block
  | [] => []
  | .malloc369 size m :: rs => allocated rs ++ [(m, size)]
  | .free369 _ :: rs => allocated rs

/-! ## The accounts -/

/-- The counters and the map of the allocator agree with the ledger. -/
structure Agrees (h : Heap) (l : Ledger) : Prop where
  accounts : h.Accounts (l.live.map Prod.fst).toFinset
  nodup : (l.live.map Prod.fst).Nodup
  sizes : ∀ b ∈ l.live, h.mallocMap b.1 = some b.2
  numFrees : h.numFrees = l.freed.length
  bytesFreed : h.bytesFreed = totalSize l.freed

/-- The total size of one block more. -/
@[simp] lemma totalSize_cons (b : Block) (bs : List Block) :
    totalSize (b :: bs) = b.2.toNat + totalSize bs := by
  simp [totalSize]

/-- The total size of two lists of blocks. -/
@[simp] lemma totalSize_append (bs cs : List Block) :
    totalSize (bs ++ cs) = totalSize bs + totalSize cs := by
  simp [totalSize]

/-- The total size does not depend on the order. -/
lemma totalSize_perm {bs cs : List Block} (h : bs.Perm cs) : totalSize bs = totalSize cs := by
  unfold totalSize
  exact (h.map _).sum_eq

/-- Sizes are not negative. -/
lemma totalSize_nonneg (bs : List Block) : 0 ≤ totalSize bs := by
  induction bs with
  | nil => simp [totalSize]
  | cons b bs ih =>
    rw [totalSize_cons]
    omega

/-- The entries with the address of a certain block, when addresses differ. -/
lemma filter_address {bs : List Block} (h : (bs.map Prod.fst).Nodup) {b : Block} (hb : b ∈ bs) :
    (bs.filter fun c => c.1 = b.1) = [b] := by
  induction bs with
  | nil => cases hb
  | cons c bs ih =>
    rw [List.map_cons, List.nodup_cons] at h
    obtain ⟨hc, hbs⟩ := h
    rcases List.mem_cons.mp hb with rfl | hmem
    · have hrest : (bs.filter fun c => c.1 = b.1) = [] := by
        refine List.filter_eq_nil_iff.mpr fun d hd => ?_
        have hne : d.1 ≠ b.1 := fun heq => hc (heq ▸ List.mem_map_of_mem hd)
        simpa using hne
      rw [List.filter_cons_of_pos (by simp), hrest]
    · have hne : c.1 ≠ b.1 := fun heq => hc (heq ▸ List.mem_map_of_mem hmem)
      rw [List.filter_cons_of_neg (by simpa using hne)]
      exact ih hbs hmem

/-- The ledger after a free that is rejected. -/
lemma Ledger.enter_bad {l : Ledger} {ptr : Addr} (hptr : ¬ l.Holds ptr) :
    l.enter (.free369 ptr) = l := by
  have hne : ∀ b ∈ l.live, b.1 ≠ ptr := by
    rintro b hb rfl
    exact hptr (List.mem_map_of_mem hb)
  have hlive : (l.live.filter fun b => b.1 ≠ ptr) = l.live :=
    List.filter_eq_self.mpr fun b hb => by simpa using hne b hb
  have hfreed : (l.live.filter fun b => b.1 = ptr) = [] :=
    List.filter_eq_nil_iff.mpr fun b hb => by simpa using hne b hb
  rw [Ledger.enter, hlive, hfreed]
  rfl

namespace Agrees

variable {h : Heap} {l : Ledger}

/-- The sum over the accounts is the total size of the ledger. -/
lemma bytes (ha : Agrees h l) : h.bytesMalloced - h.bytesFreed = totalSize l.live := by
  have hsize : ∀ b ∈ l.live, h.sizeAt b.1 = b.2.toNat := by
    intro b hb
    simp [Heap.sizeAt, ha.sizes b hb]
  rw [ha.accounts.bytes, List.sum_toFinset _ ha.nodup, List.map_map, totalSize]
  congr 1
  exact List.map_congr_left hsize

/-- The number of live blocks is the length of the ledger. -/
lemma count (ha : Agrees h l) : h.numMallocs - h.numFrees = l.live.length := by
  rw [ha.accounts.count, List.toFinset_card_of_nodup ha.nodup, List.length_map]

/-- The addresses in the ledger are those of the live blocks. -/
lemma holds_iff (ha : Agrees h l) (p : Addr) : l.Holds p ↔ h.Live p := by
  rw [← ha.accounts.mem_iff, List.mem_toFinset]
  rfl

/-- A pointer that is not in the ledger is rejected, and nothing changes. -/
lemma free_bad (ha : Agrees h l) {ptr : Addr} (hptr : ¬ l.Holds ptr) : h.free369 ptr = some h := by
  rw [ha.holds_iff] at hptr
  exact Heap.free369_of_not_live hptr

/-- `malloc369` enters its block. -/
lemma malloc369 (ha : Agrees h l) {size : BitVec 64} {m : Addr}
    (hallows : l.Allows (.malloc369 size m)) :
    Agrees (h.malloc369 size m) (l.enter (.malloc369 size m)) := by
  obtain ⟨hpos, hlt, hnull, hm⟩ := hallows
  have hm' : m ∉ (l.live.map Prod.fst).toFinset := by
    rw [List.mem_toFinset]
    exact hm
  refine ⟨?_, List.nodup_cons.mpr ⟨hm, ha.nodup⟩, ?_, ha.numFrees, ha.bytesFreed⟩
  · have hacc := ha.accounts.malloc369 hpos hlt hm' hnull
    simpa [Ledger.enter] using hacc
  · intro b hb
    rcases List.mem_cons.mp hb with rfl | hmem
    · simp [Heap.malloc369]
    · have hne : b.1 ≠ m := by
        rintro rfl
        exact hm (List.mem_map_of_mem hmem)
      simpa [Heap.malloc369, hne] using ha.sizes b hmem

/-- `free369` moves a live block to the blocks that have been freed, and rejects all other
pointers.

**Proof sketch.** A pointer that is not that of a live block is rejected by one of the tests of the
code. For the others the ledger moves the blocks with this address to the freed ones, and as the
addresses of live blocks differ it moves exactly one. -/
lemma free369 (ha : Agrees h l) (ptr : Addr) :
    ∃ h', h.free369 ptr = some h' ∧ Agrees h' (l.enter (.free369 ptr)) := by
  by_cases hptr : l.Holds ptr
  swap
  · rw [Ledger.enter_bad hptr]
    exact ⟨h, ha.free_bad hptr, ha⟩
  obtain ⟨b, hb, rfl⟩ := List.mem_map.mp hptr
  have hsize := ha.sizes b hb
  obtain ⟨size, hsize', hbit⟩ := (ha.holds_iff b.1).mp hptr
  obtain rfl : b.2 = size := Option.some.inj (hsize.symm.trans hsize')
  have hmem : b.1 ∈ (l.live.map Prod.fst).toFinset := List.mem_toFinset.mpr hptr
  have heq := ha.accounts.free369_eq hsize hbit
  obtain ⟨h', hfree, hacc⟩ := ha.accounts.free369 hmem
  obtain rfl : _ = h' := Option.some.inj (heq.symm.trans hfree)
  -- the addresses of live blocks differ, so exactly one block is moved
  have hone := filter_address ha.nodup hb
  refine ⟨_, heq, ⟨?_, ?_, ?_, ?_, ?_⟩⟩
  · convert hacc using 1
    ext p
    simp only [Ledger.enter, List.mem_toFinset, List.mem_map, List.mem_filter, Finset.mem_erase]
    constructor
    · rintro ⟨c, ⟨hc, hne⟩, rfl⟩
      exact ⟨by simpa using hne, c, hc, rfl⟩
    · rintro ⟨hne, c, hc, rfl⟩
      exact ⟨c, ⟨hc, by simpa using hne⟩, rfl⟩
  · exact ha.nodup.sublist (List.filter_sublist.map _)
  · intro c hc
    obtain ⟨hc, hne⟩ := List.mem_filter.mp hc
    have hne : c.1 ≠ b.1 := by simpa using hne
    simpa [hne] using ha.sizes c hc
  · rw [Ledger.enter, hone, List.length_append, ha.numFrees]
    push_cast
    simp
    ring
  · rw [Ledger.enter, hone, totalSize_append, ha.bytesFreed]
    simp [totalSize]
    ring

/-- The allocator agrees with the ledger at the start. -/
lemma init : Agrees initCsc369Malloc .empty :=
  ⟨Heap.accounts_init, List.nodup_nil, by simp [Ledger.empty], rfl, rfl⟩

/-- No assertion fails in a request, and the ledger stays right. -/
lemma serve (ha : Agrees h l) {r : Request} (hr : l.Allows r) :
    ∃ h', h.serve r = some h' ∧ Agrees h' (l.enter r) := by
  cases r with
  | malloc369 size m => exact ⟨_, rfl, ha.malloc369 hr⟩
  | free369 ptr => exact ha.free369 ptr

/-- No assertion fails in a sequence of requests, and the ledger stays right. -/
theorem serveAll (ha : Agrees h l) {rs : List Request} (hrs : l.AllowsAll rs) :
    ∃ h', rs.foldlM Heap.serve h = some h' ∧ Agrees h' (l.enterAll rs) := by
  induction rs generalizing h l with
  | nil => exact ⟨h, rfl, ha⟩
  | cons r rs ih =>
    obtain ⟨h₁, hserve, ha₁⟩ := ha.serve hrs.1
    obtain ⟨h₂, hrest, ha₂⟩ := ih ha₁ hrs.2
    refine ⟨h₂, ?_, ha₂⟩
    rw [List.foldlM_cons, hserve]
    exact hrest

end Agrees

/-- Every block that has been allocated is live or has been freed, and not both or twice.

**Proof sketch.** Induction on the requests. `malloc369` puts its block among the live ones, and
`free369` moves some from the live to the freed ones. -/
lemma Ledger.perm (l : Ledger) (rs : List Request) :
    ((l.enterAll rs).freed ++ (l.enterAll rs).live).Perm (allocated rs ++ (l.freed ++ l.live)) := by
  induction rs generalizing l with
  | nil => exact .refl _
  | cons r rs ih =>
    refine (ih (l.enter r)).trans ?_
    cases r with
    | malloc369 size m =>
      rw [allocated, List.append_assoc]
      refine List.Perm.append_left _ ?_
      exact List.perm_middle
    | free369 ptr =>
      refine List.Perm.append_left _ ?_
      have hsplit := List.filter_append_perm (fun b : Block => b.1 = ptr) l.live
      have hnot : (fun b : Block => decide (b.1 ≠ ptr)) = fun b => !decide (b.1 = ptr) := by
        funext b
        exact decide_not
      rw [Ledger.enter, hnot]
      refine (List.perm_append_comm.append_right _).trans ?_
      rw [List.append_assoc]
      exact List.Perm.append_left _ hsplit

/-! ## Sequences of calls -/

/-- The counters, the getters and the map describe the blocks of the ledger. -/
structure Exact (h : Heap) (l : Ledger) : Prop where
  /-- the blocks that are live, by number and by size -/
  num : h.getCurrentNumMallocs = some (l.live.length : ℤ)
  bytes : h.getCurrentBytesMalloced = some (totalSize l.live)
  /-- the blocks that have been freed, by number and by size -/
  numFrees : h.numFrees = l.freed.length
  bytesFreed : h.bytesFreed = totalSize l.freed
  /-- the map has the live blocks, with their sizes -/
  live : ∀ p size, h.mallocMap p = some size ∧ size &&& FREED = 0 ↔ (p, size) ∈ l.live
  /-- pointers to no live block are rejected -/
  bad : ∀ ptr, ¬ l.Holds ptr → h.free369 ptr = some h

/-- The counters are those of a `long`. -/
structure Heap.InRange (h : Heap) : Prop where
  numMallocs : 0 ≤ h.numMallocs ∧ h.numMallocs < 2 ^ 63
  numFrees : 0 ≤ h.numFrees ∧ h.numFrees < 2 ^ 63
  bytesMalloced : 0 ≤ h.bytesMalloced ∧ h.bytesMalloced < 2 ^ 63
  bytesFreed : 0 ≤ h.bytesFreed ∧ h.bytesFreed < 2 ^ 63

/-- The accounts of an allocator that agrees with the ledger. -/
lemma Agrees.exact {h : Heap} {l : Ledger} (ha : Agrees h l) : Exact h l := by
  have hcount := ha.count
  have hbytes := ha.bytes
  have hnonneg := totalSize_nonneg l.live
  refine ⟨?_, ?_, ha.numFrees, ha.bytesFreed, fun p size => ⟨?_, fun hb => ?_⟩,
    fun ptr => ha.free_bad⟩
  · rw [Heap.getCurrentNumMallocs, if_neg (by omega), hcount]
  · rw [Heap.getCurrentBytesMalloced, if_neg (by omega), hbytes]
  · rintro ⟨hmap, hbit⟩
    obtain ⟨b, hb, rfl⟩ := List.mem_map.mp ((ha.holds_iff p).mpr ⟨size, hmap, hbit⟩)
    obtain rfl : b.2 = size := Option.some.inj ((ha.sizes b hb).symm.trans hmap)
    exact hb
  · obtain ⟨size', hmap, hbit⟩ := (ha.holds_iff p).mp (List.mem_map_of_mem hb)
    obtain rfl : size = size' := Option.some.inj ((ha.sizes _ hb).symm.trans hmap)
    exact ⟨hmap, hbit⟩

/-- The leak check with tolerance `0` succeeds if no block is live. -/
lemma Exact.isLeakFree_iff {h : Heap} {l : Ledger} (he : Exact h l) :
    h.isLeakFree 0 0 = some true ↔ l.live = [] := by
  have hnonneg := totalSize_nonneg l.live
  simp only [Heap.isLeakFree, he.num, he.bytes, Option.bind_some, Option.map_some]
  constructor
  · intro hleak
    split_ifs at hleak
    · simp at hleak
    · have hlength : ¬ ((l.live.length : ℤ) > 0) := by simpa using Option.some.inj hleak
      rw [← List.length_eq_zero_iff]
      omega
  · intro hnil
    simp [hnil, totalSize]

/-- Allowed blocks have at least one byte. -/
lemma length_le_totalSize {l : Ledger} {rs : List Request} (hrs : l.AllowsAll rs) :
    ((allocated rs).length : ℤ) ≤ totalSize (allocated rs) := by
  induction rs generalizing l with
  | nil => simp [allocated, totalSize]
  | cons r rs ih =>
    have hrest := ih hrs.2
    cases r with
    | malloc369 size m =>
      obtain ⟨hpos, -⟩ := hrs.1
      have hsize : 0 < size.toNat := Nat.pos_of_ne_zero fun h0 => hpos (BitVec.eq_of_toNat_eq h0)
      rw [allocated, List.length_append, totalSize_append]
      simp only [List.length_singleton, totalSize, List.map_cons, List.map_nil, List.sum_singleton]
      push_cast
      rw [totalSize] at hrest
      omega
    | free369 ptr => exact hrest

/-- From the start on, every block that has been allocated is live or has been freed. -/
lemma Ledger.enterAll_perm (rs : List Request) :
    ((Ledger.empty.enterAll rs).freed ++ (Ledger.empty.enterAll rs).live).Perm (allocated rs) := by
  have hperm := Ledger.empty.perm rs
  rwa [show allocated rs ++ (Ledger.empty.freed ++ Ledger.empty.live) = allocated rs from
    List.append_nil _] at hperm

/-- The counters stay in the range of a `long` if less than `2^63` bytes are requested in all.

**Proof sketch.** Every counter is a number or a total size of blocks that are live or have been
freed. These are the blocks that have been allocated, so their total size is the number of bytes
requested, and as each has a byte there are no more of them. -/
lemma Agrees.inRange {h : Heap} {rs : List Request} (ha : Agrees h (Ledger.empty.enterAll rs))
    (hrs : Ledger.empty.AllowsAll rs) (hsum : totalSize (allocated rs) < 2 ^ 63) : h.InRange := by
  have hperm := Ledger.enterAll_perm rs
  have hlength := hperm.length_eq
  have hsize := totalSize_perm hperm
  rw [List.length_append] at hlength
  rw [totalSize_append] at hsize
  have hle := length_le_totalSize hrs
  have hlive := totalSize_nonneg (Ledger.empty.enterAll rs).live
  have hfreed := totalSize_nonneg (Ledger.empty.enterAll rs).freed
  have hcount := ha.count
  have hbytes := ha.bytes
  have hnumFrees := ha.numFrees
  have hbytesFreed := ha.bytesFreed
  exact ⟨by omega, by omega, by omega, by omega⟩

/-- **The accounts of the allocator are exact**, after every sequence of calls that requests
less than `2^63` bytes: no assertion fails; the getters answer the number and the total size of
the live blocks; each block that has been allocated is live or counted as freed, once; frees of
other pointers change nothing; and the counters do not overflow.

**Proof sketch.** The calls keep the counters in agreement with the ledger (`Agrees.serveAll`), so
no assertion fails. The getters read the counters (`Agrees.exact`), the sum of the sizes bounds them
(`Agrees.inRange`), and the blocks are counted in the ledger (`Ledger.enterAll_perm`). -/
theorem malloc369_exact {rs : List Request} (hrs : Ledger.empty.AllowsAll rs)
    (hsum : totalSize (allocated rs) < 2 ^ 63) :
    ∃ h, serveAll rs = some h ∧ Exact h (Ledger.empty.enterAll rs) ∧ h.InRange ∧
      ((Ledger.empty.enterAll rs).freed ++ (Ledger.empty.enterAll rs).live).Perm
        (allocated rs) := by
  obtain ⟨h, hserve, ha⟩ := Agrees.init.serveAll hrs
  exact ⟨h, hserve, ha.exact, ha.inRange hrs hsum, Ledger.enterAll_perm rs⟩

/-- Two blocks; one of them is freed twice and its address is used again, and the null pointer
and a foreign one are freed. -/
theorem malloc369_exact_reused :
    let rs : List Request := [.malloc369 16 1, .malloc369 8 32, .free369 1, .free369 1,
      .free369 NULL, .free369 99, .malloc369 4 1]
    ∃ h, serveAll rs = some h ∧ Exact h (Ledger.empty.enterAll rs) ∧ h.InRange ∧
      ((Ledger.empty.enterAll rs).freed ++ (Ledger.empty.enterAll rs).live).Perm
        (allocated rs) :=
  malloc369_exact (by decide) (by decide)

end UserThreads
