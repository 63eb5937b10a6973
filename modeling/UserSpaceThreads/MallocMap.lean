import UserSpaceThreads.Accounting
import UserSpaceThreads.KhashMap

set_option relaxedAutoImplicit false
set_option autoImplicit false

/-!
# The allocator with its hash table

`malloc369` and `free369` as the code has them, with `malloc_map` a table of `khash.h` and with the
memory that `free369` overwrites. They do to the counters and to the map what the functions of
`Malloc369` do, which take the map for a finite one: so the accounts are exact for the table, too,
as long as no more than `2 ^ 31` different addresses have come from `malloc` and less than `2 ^ 63`
bytes have been requested. And the loop of `free369` that fills a block with `0xee` stays inside the
block.

Pointers are numbers below `2 ^ 64`. `malloc369` is told the answer of `malloc` and which requests
for memory are answered in its `kh_put`. The counters of the source are of type `long`; here they
are integers, and they stay in the range of a `long` up to the bound on the bytes requested.

## Main definitions

* `UserThreads.TableHeap` — the state of `malloc369.c`; `TableHeap.malloc369`,
  `TableHeap.free369` — its operations.
* `UserThreads.TableHeap.Implements` — the table stands for the map of a `Heap`.

## Main results

* `UserThreads.malloc369_table_exact` — the accounts are exact, with the hash table.
* `UserThreads.free369_fills` — what `free369` does to memory.
-/

namespace UserThreads

open OpenAddressing

/-- The state of `malloc369.c`: the four counters, which are `long` in the source, the hash table,
and the memory. -/
structure TableHeap where
  /-- `num_mallocs` -/
  numMallocs : ℤ
  /-- `num_frees` -/
  numFrees : ℤ
  /-- `bytes_malloced` -/
  bytesMalloced : ℤ
  /-- `bytes_freed` -/
  bytesFreed : ℤ
  /-- `malloc_map` -/
  mallocMap : Khash (BitVec 64) (BitVec 64)
  /-- the bytes of memory -/
  memory : Addr → BitVec 8

/-- How a call of the allocator ends. -/
inductive CallEnd
  | returned (t : TableHeap)
  /-- `exit` -/
  | exited (status : ℤ)
  /-- an assertion has failed -/
  | aborted

namespace TableHeap

/-- `init_csc369_malloc`, with whatever the arrays of the table and memory hold. -/
def init (keys vals : ℕ → BitVec 64) (memory : Addr → BitVec 8) : TableHeap :=
  ⟨0, 0, 0, 0, khInit keys vals, memory⟩

/-- `malloc369`, when `malloc(size)` answers the address `m`. Printing is left out. -/
def malloc369 (t : TableHeap) (size : BitVec 64) (m : Addr) (mem : Memory) : Option CallEnd :=
  let t := { t with
    numMallocs := t.numMallocs + 1
    bytesMalloced := t.bytesMalloced + size.toNat }
  if m = NULL then some (.exited (-1))
  else
    (khPut khInt64HashFunc t.mallocMap (BitVec.ofNat 64 m) mem).map fun r =>
      if ¬ (r.2.1 ≥ 0) then .aborted
      else .returned { t with mallocMap := khSetValue r.2.2 r.1 size }

/-- The loop of `free369` that fills the block at `region`, for the next `n` bytes from `i` on. -/
def fillLoop (region : Addr) : ℕ → ℕ → (Addr → BitVec 8) → Addr → BitVec 8
  | 0, _, memory => memory
  | n + 1, i, memory => fillLoop region n (i + 1) (Function.update memory (region + i) 0xee#8)

/-- `free369`. `free` of a pointer that the map rejects is taken to return. -/
def free369 (t : TableHeap) (ptr : Addr) : Option CallEnd :=
  if ptr = NULL then some (.returned t)
  else
    (khGet khInt64HashFunc t.mallocMap (BitVec.ofNat 64 ptr)).map fun k =>
      if k = t.mallocMap.nBuckets then .returned t
      else
        let size := t.mallocMap.vals k
        if size &&& FREED ≠ 0 then .returned t
        else if ¬ (size ≠ 0) then .aborted
        else if ¬ (t.numMallocs - t.numFrees > 0) then .aborted
        else if ¬ (t.bytesMalloced - t.bytesFreed ≥ size.toNat) then .aborted
        else .returned { t with
          numFrees := t.numFrees + 1
          bytesFreed := t.bytesFreed + size.toNat
          memory := fillLoop ptr size.toNat 0 t.memory
          mallocMap := khSetValue t.mallocMap k (t.mallocMap.vals k ||| FREED) }

/-! ## The table stands for the map -/

/-- The counters are those of the abstract allocator, and the table stands for its map. -/
structure Implements (t : TableHeap) (h : Heap) : Prop where
  numMallocs : t.numMallocs = h.numMallocs
  numFrees : t.numFrees = h.numFrees
  bytesMalloced : t.bytesMalloced = h.bytesMalloced
  bytesFreed : t.bytesFreed = h.bytesFreed
  map : t.mallocMap.Represents khInt64HashFunc fun key => h.mallocMap key.toNat

/-- An entry of the map, seen through 64-bit keys. -/
lemma update_toNat (map : Addr → Option (BitVec 64)) {p : Addr} (hp : p < 2 ^ 64)
    (value : Option (BitVec 64)) :
    (fun key : BitVec 64 => Function.update map p value key.toNat) =
      Function.update (fun key : BitVec 64 => map key.toNat) (BitVec.ofNat 64 p) value := by
  funext key
  rw [Function.update_apply, Function.update_apply]
  have hiff : key.toNat = p ↔ key = BitVec.ofNat 64 p := by
    rw [← BitVec.toNat_inj, BitVec.toNat_ofNat, Nat.mod_eq_of_lt hp]
  exact if_congr hiff rfl rfl

/-- A pointer as a key of the table. -/
lemma toNat_key {p : Addr} (hp : p < 2 ^ 64) : (BitVec.ofNat 64 p).toNat = p := by
  rw [BitVec.toNat_ofNat, Nat.mod_eq_of_lt hp]

/-- The size of a block is at most the total size. -/
lemma le_totalSize {bs : List Block} {b : Block} (hb : b ∈ bs) :
    (b.2.toNat : ℤ) ≤ totalSize bs := by
  induction bs with
  | nil => cases hb
  | cons c bs ih =>
    have hnonneg := totalSize_nonneg bs
    rw [totalSize_cons]
    rcases List.mem_cons.mp hb with rfl | hmem
    · omega
    · have hle := ih hmem
      omega

/-- The bytes that the loop of `free369` fills. -/
lemma fillLoop_apply (region n i : ℕ) (memory : Addr → BitVec 8) (a : ℕ) :
    fillLoop region n i memory a =
      if region + i ≤ a ∧ a < region + i + n then 0xee#8 else memory a := by
  induction n generalizing i memory with
  | zero => rw [fillLoop, if_neg (by omega)]
  | succ n ih =>
    rw [fillLoop, ih, Function.update_apply]
    by_cases hfirst : a = region + i
    · rw [if_pos hfirst, if_pos (by omega : region + i ≤ a ∧ a < region + i + (n + 1)), ite_self]
    · rw [if_neg hfirst]
      exact if_congr (by omega) rfl rfl

variable {t : TableHeap} {h : Heap}

/-- `init_csc369_malloc`. -/
lemma implements_init (keys vals : ℕ → BitVec 64) (memory : Addr → BitVec 8) :
    (init keys vals memory).Implements initCsc369Malloc :=
  ⟨rfl, rfl, rfl, rfl, Khash.represents_khInit _ keys vals⟩

/-- **`malloc369`** does to the table what it does to the map, unless memory runs out.

**Proof sketch.** By `khPut_cases` the address gets a bucket, or `kh_put` answers `-1` and the
assertion fails. The value that is written next is the size, so the entry is that of the map. -/
theorem Implements.malloc369 (hi : t.Implements h) (size : BitVec 64) {m : Addr} (hm : m < 2 ^ 64)
    (hnull : m ≠ NULL) (mem : Memory)
    (hroom : ¬ (h.mallocMap m = none ∧ t.mallocMap.size = 2 ^ 31)) :
    (∃ t', t.malloc369 size m mem = some (.returned t') ∧ t'.Implements (h.malloc369 size m) ∧
        t'.memory = t.memory) ∨
      t.malloc369 size m mem = some .aborted ∧ mem.all = false := by
  have hroom' : ¬ (h.mallocMap (BitVec.ofNat 64 m).toNat = none ∧
      t.mallocMap.size = 2 ^ 31) := by
    rwa [toNat_key hm]
  rcases hi.map.khPut_cases (BitVec.ofNat 64 m) mem hroom' with
    ⟨_, x, ret, table, -, hput, hputs⟩ | ⟨hput, hmem⟩
  · have hneg : ret ≥ 0 := hputs.ret_nonneg
    have hset := hputs.represents.khSetValue hputs.lt hputs.full size
    rw [Function.update_idem, ← update_toNat h.mallocMap hm] at hset
    refine .inl ⟨{ t with
        numMallocs := t.numMallocs + 1
        bytesMalloced := t.bytesMalloced + size.toNat
        mallocMap := UserThreads.khSetValue table x size },
      ?_, ⟨?_, hi.numFrees, ?_, hi.bytesFreed, hset⟩, rfl⟩
    · rw [TableHeap.malloc369]
      dsimp only
      rw [if_neg hnull, hput, Option.map_some, if_neg (not_not.mpr hneg)]
    · exact congrArg (· + 1) hi.numMallocs
    · exact congrArg (· + (size.toNat : ℤ)) hi.bytesMalloced
  · refine .inr ⟨?_, hmem⟩
    rw [TableHeap.malloc369]
    dsimp only
    rw [if_neg hnull, hput]
    rfl

/-- `free369` of a pointer to no live block leaves everything as it is. -/
lemma Implements.free369_bad (hi : t.Implements h) {ptr : Addr} (hptr : ptr < 2 ^ 64)
    (hdead : ¬ h.Live ptr) : t.free369 ptr = some (.returned t) := by
  rw [TableHeap.free369]
  by_cases hnull : ptr = NULL
  · exact if_pos hnull
  rw [if_neg hnull]
  obtain ⟨k, hget, hcases⟩ := hi.map.khGet (BitVec.ofNat 64 ptr)
  rw [hget, Option.map_some]
  rcases hcases with ⟨hend, -⟩ | ⟨hlt, -, hsome⟩
  · rw [if_pos hend]
  · rw [toNat_key hptr] at hsome
    have hbit : t.mallocMap.vals k &&& FREED ≠ 0 := fun hbit => hdead ⟨_, hsome, hbit⟩
    rw [if_neg hlt.ne]
    dsimp only
    rw [if_pos hbit]

/-- **`free369`** of a live block does to the table what it does to the map, and fills the
block.

**Proof sketch.** The table has the size of the block under its address, since it stands for the
map. The assertions of the code hold, because the counters are the totals and the block is among
those that count. The entry is then written with the mark, as in the map. -/
theorem Implements.free369_live (hi : t.Implements h) {l : Ledger} (ha : Agrees h l) {b : Block}
    (hb : b ∈ l.live) (hlt : b.1 < 2 ^ 64) :
    ∃ t' h', t.free369 b.1 = some (.returned t') ∧ h.free369 b.1 = some h' ∧ t'.Implements h' ∧
      h'.mallocMap = Function.update h.mallocMap b.1 (some (b.2 ||| FREED)) ∧
      t'.memory = fillLoop b.1 b.2.toNat 0 t.memory := by
  have hsize := ha.sizes b hb
  obtain ⟨size, hsize', hbit⟩ := (ha.holds_iff b.1).mp (List.mem_map_of_mem hb)
  obtain rfl : b.2 = size := Option.some.inj (hsize.symm.trans hsize')
  have hfree := ha.accounts.free369_eq hsize hbit
  -- the assertions hold of the counters, as they do for the map
  have hnull : b.1 ≠ NULL := by
    intro hnull
    refine ha.accounts.null ?_
    rw [ha.accounts.mem_iff, ← hnull]
    exact ⟨_, hsize, hbit⟩
  have hpos : b.2 ≠ 0 := fun h0 => ha.accounts.pos b.1 (h0 ▸ hsize)
  have hcount : t.numMallocs - t.numFrees > 0 := by
    have hlength := List.length_pos_of_mem hb
    rw [hi.numMallocs, hi.numFrees, ha.count]
    omega
  have hbytes : t.bytesMalloced - t.bytesFreed ≥ b.2.toNat := by
    rw [hi.bytesMalloced, hi.bytesFreed, ha.bytes]
    exact le_totalSize hb
  obtain ⟨k, hget, ⟨-, hnone⟩ | ⟨hk, hfull, hsome⟩⟩ := hi.map.khGet (BitVec.ofNat 64 b.1)
  · rw [toNat_key hlt, hsize] at hnone
    cases hnone
  rw [toNat_key hlt, hsize] at hsome
  have hval : t.mallocMap.vals k = b.2 := (Option.some.inj hsome).symm
  have hset := hi.map.khSetValue hk hfull (b.2 ||| FREED)
  rw [← update_toNat h.mallocMap hlt] at hset
  refine ⟨{ t with
      numFrees := t.numFrees + 1
      bytesFreed := t.bytesFreed + b.2.toNat
      memory := fillLoop b.1 b.2.toNat 0 t.memory
      mallocMap := UserThreads.khSetValue t.mallocMap k (b.2 ||| FREED) },
    _, ?_, hfree, ⟨hi.numMallocs, ?_, hi.bytesMalloced, ?_, hset⟩, rfl, rfl⟩
  · rw [TableHeap.free369, if_neg hnull, hget, Option.map_some, if_neg hk.ne]
    dsimp only
    rw [hval, if_neg (not_not.mpr hbit), if_neg (not_not.mpr hpos), if_neg (not_not.mpr hcount),
      if_neg (not_not.mpr hbytes)]
  · exact congrArg (· + 1) hi.numFrees
  · exact congrArg (· + (b.2.toNat : ℤ)) hi.bytesFreed

end TableHeap

/-! ## Sequences of calls -/

/-- A call of the allocator: `malloc369(size)`, in which `malloc` answers `m` and the requests of
`kh_put` for memory are answered as `mem` says, or `free369(ptr)`. -/
inductive TableRequest
  | malloc369 (size : BitVec 64) (m : Addr) (mem : Memory)
  | free369 (ptr : Addr)

namespace TableRequest

/-- The request, without what the table needs. -/
def request : TableRequest → Request
  | malloc369 size m _ => .malloc369 size m
  | free369 ptr => .free369 ptr

/-- The pointer that a request answers or is about. -/
def ptr : TableRequest → Addr
  | malloc369 _ m _ => m
  | free369 ptr => ptr

/-- The table gets no memory. -/
def Refused : TableRequest → Prop
  | malloc369 _ _ mem => mem.all = false
  | free369 _ => False

end TableRequest

/-- The address belongs to the block. -/
def InBlock (a : Addr) (b : Block) : Prop := b.1 ≤ a ∧ a < b.1 + b.2.toNat

instance (a : Addr) (b : Block) : Decidable (InBlock a b) :=
  inferInstanceAs (Decidable (_ ∧ _))

namespace TableHeap

/-- The allocator answers a request. -/
def serve (t : TableHeap) : TableRequest → Option CallEnd
  | .malloc369 size m mem => t.malloc369 size m mem
  | .free369 ptr => t.free369 ptr

/-- The allocator answers requests, until it ends the program. -/
def serveAll : TableHeap → List TableRequest → Option CallEnd
  | t, [] => some (.returned t)
  | t, r :: rs =>
    (t.serve r).bind fun
      | .returned t' => serveAll t' rs
      | e => some e

/-- What holds between requests: the table stands for the map of an allocator that agrees with
the ledger, its keys are among `addresses`, and exactly the blocks that have been freed are
filled. -/
structure Tracks (t : TableHeap) (h : Heap) (l : Ledger) (addresses : Finset Addr)
    (memory : Addr → BitVec 8) : Prop where
  implements : t.Implements h
  agrees : Agrees h l
  known : ∀ p, h.mallocMap p ≠ none → p ∈ addresses
  filled : ∀ a, t.memory a = if ∃ b ∈ l.freed, InBlock a b then 0xee#8 else memory a

namespace Tracks

variable {t : TableHeap} {h : Heap} {l : Ledger} {addresses : Finset Addr}
  {memory : Addr → BitVec 8}

/-- At most `2 ^ 31` addresses leave room in the table. -/
lemma room (ht : t.Tracks h l addresses memory) (hcard : addresses.card ≤ 2 ^ 31) {m : Addr}
    (hm : m < 2 ^ 64) (hmem : m ∈ addresses) :
    ¬ (h.mallocMap m = none ∧ t.mallocMap.size = 2 ^ 31) := by
  have hroom := ht.implements.map.room (addresses.image (BitVec.ofNat 64))
    (fun key v hsome => ?_) (Finset.card_image_le.trans hcard)
    (Finset.mem_image_of_mem (BitVec.ofNat 64) hmem)
  · rwa [toNat_key hm] at hroom
  · have hkey : key.toNat ∈ addresses := ht.known key.toNat (by rw [hsome]; simp)
    exact Finset.mem_image.mpr ⟨key.toNat, hkey, by simp⟩

/-- `malloc369` answers, or ends the program as the table gets no memory. -/
lemma malloc369 (ht : t.Tracks h l addresses memory) (hcard : addresses.card ≤ 2 ^ 31)
    {size : BitVec 64} {m : Addr} (hm : m < 2 ^ 64) (hmem : m ∈ addresses)
    (hallows : l.Allows (.malloc369 size m)) (mem : Memory) :
    (∃ t' h', t.malloc369 size m mem = some (.returned t') ∧
        t'.Tracks h' (l.enter (.malloc369 size m)) addresses memory) ∨
      t.malloc369 size m mem = some .aborted ∧ mem.all = false := by
  have hnull : m ≠ NULL := hallows.2.2.1
  rcases ht.implements.malloc369 size hm hnull mem (ht.room hcard hm hmem) with
    ⟨t', hserve, himpl, hmemory⟩ | habort
  · refine .inl ⟨t', _, hserve, himpl, ht.agrees.malloc369 hallows, fun p hp => ?_, fun a => ?_⟩
    · by_cases hpm : p = m
      · rwa [hpm]
      · rw [Heap.malloc369] at hp
        dsimp only at hp
        rw [Function.update_of_ne hpm] at hp
        exact ht.known p hp
    · rw [hmemory]
      exact ht.filled a
  · exact .inr habort

/-- `free369` answers.

**Proof sketch.** If the pointer is that of a live block, `Implements.free369_live` gives the
answer: the freed block joins those whose bytes are filled. Other pointers leave everything as it
is. -/
lemma free369 (ht : t.Tracks h l addresses memory) {ptr : Addr} (hptr : ptr < 2 ^ 64) :
    ∃ t' h', t.free369 ptr = some (.returned t') ∧
      t'.Tracks h' (l.enter (.free369 ptr)) addresses memory := by
  by_cases hholds : l.Holds ptr
  swap
  · have hdead : ¬ h.Live ptr := fun hlive => hholds ((ht.agrees.holds_iff ptr).mpr hlive)
    rw [Ledger.enter_bad hholds]
    exact ⟨t, h, ht.implements.free369_bad hptr hdead, ht⟩
  obtain ⟨b, hb, rfl⟩ := List.mem_map.mp hholds
  obtain ⟨t', h', hserve, hfree, himpl, hmap, hmemory⟩ :=
    ht.implements.free369_live ht.agrees hb hptr
  obtain ⟨h₁, hfree₁, hagrees⟩ := ht.agrees.free369 b.1
  obtain rfl : h' = h₁ := Option.some.inj (hfree.symm.trans hfree₁)
  refine ⟨t', h', hserve, himpl, hagrees, fun p hp => ?_, fun a => ?_⟩
  · by_cases hpb : p = b.1
    · refine ht.known p ?_
      rw [hpb, ht.agrees.sizes b hb]
      simp
    · rw [hmap, Function.update_of_ne hpb] at hp
      exact ht.known p hp
  · rw [hmemory, fillLoop_apply, Ledger.enter, filter_address ht.agrees.nodup hb, ht.filled]
    by_cases hin : InBlock a b
    · rw [if_pos (by simpa [InBlock] using hin), if_pos ⟨b, by simp, hin⟩]
    · rw [if_neg (by simpa [InBlock] using hin)]
      refine if_congr ?_ rfl rfl
      simp [hin]

/-- One request is answered, or the program ends as the table gets no memory. -/
lemma serve (ht : t.Tracks h l addresses memory) (hcard : addresses.card ≤ 2 ^ 31)
    {r : TableRequest} (hr : l.Allows r.request) (hptr : r.ptr < 2 ^ 64)
    (hmem : ∀ b ∈ allocated [r.request], b.1 ∈ addresses) :
    (∃ t' h', t.serve r = some (.returned t') ∧
        t'.Tracks h' (l.enter r.request) addresses memory) ∨
      t.serve r = some .aborted ∧ r.Refused := by
  cases r with
  | malloc369 size m mem => exact ht.malloc369 hcard hptr (hmem (m, size) (by simp [allocated,
      TableRequest.request])) hr mem
  | free369 ptr => exact .inl (ht.free369 hptr)

/-- All requests are answered, or the program ends as the table gets no memory.

**Proof sketch.** Induction on the sequence. A request keeps the table in step with the map and the
ledger, or aborts the program, and then it was refused memory. -/
theorem serveAll (ht : t.Tracks h l addresses memory) (hcard : addresses.card ≤ 2 ^ 31)
    {rs : List TableRequest} (hrs : l.AllowsAll (rs.map TableRequest.request))
    (hptr : ∀ r ∈ rs, r.ptr < 2 ^ 64)
    (hmem : ∀ b ∈ allocated (rs.map TableRequest.request), b.1 ∈ addresses) :
    (∃ t' h', t.serveAll rs = some (.returned t') ∧
        t'.Tracks h' (l.enterAll (rs.map TableRequest.request)) addresses memory) ∨
      t.serveAll rs = some .aborted ∧ ∃ r ∈ rs, r.Refused := by
  induction rs generalizing t h l with
  | nil => exact .inl ⟨t, h, rfl, ht⟩
  | cons r rs ih =>
    rw [List.map_cons] at hrs hmem
    have hsplit : allocated (r.request :: rs.map TableRequest.request) =
        allocated (rs.map TableRequest.request) ++ allocated [r.request] := by
      cases r <;> simp [TableRequest.request, allocated]
    rw [hsplit] at hmem
    rcases ht.serve hcard hrs.1 (hptr r List.mem_cons_self)
      (fun b hb => hmem b (List.mem_append_right _ hb)) with ⟨t₁, h₁, hserve, ht₁⟩ | ⟨hserve, href⟩
    · rw [TableHeap.serveAll, hserve]
      rcases ih ht₁ hrs.2 (fun r hr => hptr r (List.mem_cons_of_mem _ hr))
        (fun b hb => hmem b (List.mem_append_left _ hb)) with hdone | ⟨habort, r', hr', href⟩
      · exact .inl hdone
      · exact .inr ⟨habort, r', List.mem_cons_of_mem _ hr', href⟩
    · rw [TableHeap.serveAll, hserve]
      exact .inr ⟨rfl, r, List.mem_cons_self, href⟩

end Tracks

end TableHeap

/-- After allowed requests the allocator tracks the ledger, or the program has ended as the table
got no memory. -/
lemma tracks_serveAll (keys vals : ℕ → BitVec 64) (memory : Addr → BitVec 8)
    {rs : List TableRequest} (hrs : Ledger.empty.AllowsAll (rs.map TableRequest.request))
    (hptr : ∀ r ∈ rs, r.ptr < 2 ^ 64)
    (hcard : ((allocated (rs.map TableRequest.request)).map Prod.fst).toFinset.card ≤ 2 ^ 31) :
    (∃ t h, (TableHeap.init keys vals memory).serveAll rs = some (.returned t) ∧
        t.Tracks h (Ledger.empty.enterAll (rs.map TableRequest.request))
          ((allocated (rs.map TableRequest.request)).map Prod.fst).toFinset memory) ∨
      (TableHeap.init keys vals memory).serveAll rs = some .aborted ∧ ∃ r ∈ rs, r.Refused := by
  have hinit : (TableHeap.init keys vals memory).Tracks initCsc369Malloc .empty
      ((allocated (rs.map TableRequest.request)).map Prod.fst).toFinset memory :=
    ⟨TableHeap.implements_init keys vals memory, .init, fun p hp => absurd rfl hp,
      fun a => by simp [Ledger.empty, TableHeap.init]⟩
  exact hinit.serveAll hcard hrs hptr fun b hb =>
    List.mem_toFinset.mpr (List.mem_map_of_mem hb)

/-- **The accounts are exact with the hash table, too.** Take any sequence of requests in which at
most `2 ^ 31` different addresses come from `malloc` and less than `2 ^ 63` bytes are requested.
They are all answered, the counters are those of the ledger and do not overflow, and the table
stands for a map in which the live blocks have their sizes; or an assertion of `malloc369` has
failed, but only if a request of the table for memory has been refused.

**Proof sketch.** `tracks_serveAll` gives an abstract allocator that the table implements and that
agrees with the ledger; what the ledger says of its counters is `Agrees.exact` and
`Agrees.inRange`. -/
theorem malloc369_table_exact (keys vals : ℕ → BitVec 64) (memory : Addr → BitVec 8)
    {rs : List TableRequest} (hrs : Ledger.empty.AllowsAll (rs.map TableRequest.request))
    (hptr : ∀ r ∈ rs, r.ptr < 2 ^ 64)
    (hcard : ((allocated (rs.map TableRequest.request)).map Prod.fst).toFinset.card ≤ 2 ^ 31)
    (hsum : totalSize (allocated (rs.map TableRequest.request)) < 2 ^ 63) :
    (∃ t h, (TableHeap.init keys vals memory).serveAll rs = some (.returned t) ∧
        t.Implements h ∧
        Exact h (Ledger.empty.enterAll (rs.map TableRequest.request)) ∧ h.InRange) ∨
      (TableHeap.init keys vals memory).serveAll rs = some .aborted ∧ ∃ r ∈ rs, r.Refused := by
  rcases tracks_serveAll keys vals memory hrs hptr hcard with ⟨t, h, hserve, ht⟩ | habort
  · exact .inl ⟨t, h, hserve, ht.implements, ht.agrees.exact, ht.agrees.inRange hrs hsum⟩
  · exact .inr habort

/-- Two blocks; one is freed twice, and its address is used again. -/
theorem malloc369_table_exact_reused :
    let rs : List TableRequest := [.malloc369 16 1 .granted, .malloc369 8 32 .granted,
      .free369 1, .free369 1, .malloc369 4 1 .granted]
    (∃ t h, (TableHeap.init (fun _ => 0) (fun _ => 0) fun _ => 0).serveAll rs =
          some (.returned t) ∧ t.Implements h ∧
        Exact h (Ledger.empty.enterAll (rs.map TableRequest.request)) ∧ h.InRange) ∨
      (TableHeap.init (fun _ => 0) (fun _ => 0) fun _ => 0).serveAll rs = some .aborted ∧
        ∃ r ∈ rs, r.Refused :=
  malloc369_table_exact _ _ _ (by decide) (by decide) (by decide) (by decide)

/-- **`free369` fills its blocks and nothing else.** After any such sequence of requests each byte
of memory is `0xee` if it belongs to a block that has been freed, and is as it was if not.

**Proof sketch.** `tracks_serveAll` says of every byte whether a freed block has covered it, as part
of what is kept along the sequence. -/
theorem free369_fills (keys vals : ℕ → BitVec 64) (memory : Addr → BitVec 8)
    {rs : List TableRequest} (hrs : Ledger.empty.AllowsAll (rs.map TableRequest.request))
    (hptr : ∀ r ∈ rs, r.ptr < 2 ^ 64)
    (hcard : ((allocated (rs.map TableRequest.request)).map Prod.fst).toFinset.card ≤ 2 ^ 31) :
    (∃ t, (TableHeap.init keys vals memory).serveAll rs = some (.returned t) ∧
        ∀ a, t.memory a =
          if ∃ b ∈ (Ledger.empty.enterAll (rs.map TableRequest.request)).freed, InBlock a b
          then 0xee#8 else memory a) ∨
      (TableHeap.init keys vals memory).serveAll rs = some .aborted ∧ ∃ r ∈ rs, r.Refused := by
  rcases tracks_serveAll keys vals memory hrs hptr hcard with ⟨t, h, hserve, ht⟩ | habort
  · exact .inl ⟨t, hserve, ht.filled⟩
  · exact .inr habort

/-- A block is freed, and its address is used again for a smaller one. -/
theorem free369_fills_reused :
    let rs : List TableRequest := [.malloc369 16 1 .granted, .malloc369 8 32 .granted,
      .free369 1, .malloc369 4 1 .granted]
    (∃ t, (TableHeap.init (fun _ => 0) (fun _ => 0) fun _ => 0).serveAll rs =
          some (.returned t) ∧
        ∀ a, t.memory a =
          if ∃ b ∈ (Ledger.empty.enterAll (rs.map TableRequest.request)).freed, InBlock a b
          then 0xee#8 else 0) ∨
      (TableHeap.init (fun _ => 0) (fun _ => 0) fun _ => 0).serveAll rs = some .aborted ∧
        ∃ r ∈ rs, r.Refused :=
  free369_fills _ _ _ (by decide) (by decide) (by decide)

end UserThreads
