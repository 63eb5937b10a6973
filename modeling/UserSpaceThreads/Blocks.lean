import UserSpaceThreads.Pointers

set_option relaxedAutoImplicit false
set_option autoImplicit false

/-!
# Blocks of memory

The library calls `malloc369` for the stacks of threads, for wait queues, for locks and for
condition variables. In every run the blocks that are allocated and not yet freed are exactly
the ones that are still in use, and each of them has one use. Making and destroying a lock or a
condition variable takes two calls of the allocator, between which the timer may strike; a
thread that dies there leaves one block behind.

This holds whatever user code does, also if it destroys an object twice: a second `free369` of a
block finds it freed.

## Main definitions

* `UserThreads.View.Uses` — the blocks in use.
* `UserThreads.View.Stocked` — the blocks in use are the blocks that are allocated.

## Main results

* `UserThreads.ReachableBy.stocked` — the accounts of all runs.
-/

namespace UserThreads

open History (Adds)

/-- The transactions that make or destroy a thread or an object. -/
def Label.makes : Label → Bool
  | .create _ _ _ => true
  | .die _ _ => true
  | .dieTo _ _ _ => true
  | .dieBack _ _ => true
  | .newQueue => true
  | .newLock _ => true
  | .newCv _ => true
  | .newHalf _ => true
  | .dropQueue _ => true
  | .dropHalf _ _ => true
  | .dropLock _ => true
  | .dropCv _ => true
  | _ => false

namespace View

variable {v v' : View} {l : Label} {p : Addr} {r : Role}

/-! ## The blocks in use -/

/-- The blocks that the library keeps, and what for. -/
inductive Uses (v : View) : Addr → Role → Prop
  /-- the stack of a live thread -/
  | stack {t : Tid} (ne : t ≠ 0) (state : v.state t ≠ .Destroyed) :
      Uses v (v.stackStart t) (.stack t)
  /-- a wait queue -/
  | queue {q : Addr} {o : Owner} {es : List Tid} (queue : v.queues q = some (o, es)) :
      Uses v q (.queue o)
  /-- a lock -/
  | lock {l : Addr} {lock : Lock} (lockAt : v.locks l = some lock) : Uses v l .lock
  /-- a condition variable -/
  | cv {c : Addr} {cv : Cv} (cvAt : v.cvs c = some cv) : Uses v c .cv
  /-- the lock or condition variable that a thread has made one half of -/
  | half {t : Tid} {p : Addr} (halfway : .halfway t p ∈ v.trace)
      (notLock : ¬ Gave .lockCreate p v.trace) (notCv : ¬ Gave .cvCreate p v.trace) :
      Uses v p (.half t)

/-- The address of a block in use is kept somewhere. -/
lemma Uses.refers (h : v.Uses p r) (hp : v.Pointed) : v.Refers p r := by
  cases h with
  | stack ne state => exact .stack ne state
  | queue queue => exact .queue queue
  | lock lockAt => exact .lock (hp.locks _ _ lockAt)
  | cv cvAt => exact .cv (hp.cvs _ _ cvAt)
  | half halfway notLock notCv => exact .half halfway notLock notCv

/-- A block has one use. -/
lemma Uses.unique {r' : Role} (h : v.Uses p r) (h' : v.Uses p r') (hp : v.Pointed) : r = r' :=
  hp.unique p r r' (h.refers hp) (h'.refers hp)

/-- The same things exist in `v` and in `v'`. -/
structure Alike (v v' : View) : Prop where
  stackStart : v'.stackStart = v.stackStart
  state : ∀ t, v'.state t = .Destroyed ↔ v.state t = .Destroyed
  queues : ∀ q, (v'.queues q).map Prod.fst = (v.queues q).map Prod.fst
  locks : ∀ l, (v'.locks l).map Lock.queue = (v.locks l).map Lock.queue
  cvs : v'.cvs = v.cvs
  heap : v'.heap = v.heap
  trace : Plainly v.trace v'.trace

/-- A wait queue exists in `v'` if it exists in `v`. -/
lemma Alike.queue (h : v.Alike v') {q : Addr} {o : Owner} {es : List Tid}
    (hq : v.queues q = some (o, es)) : ∃ es', v'.queues q = some (o, es') := by
  have hsame := h.queues q
  rw [hq] at hsame
  obtain ⟨⟨o', es'⟩, hq', heq⟩ := Option.map_eq_some_iff.mp hsame
  obtain rfl : o' = o := heq
  exact ⟨es', hq'⟩

/-- A lock exists in `v'` if it exists in `v`. -/
lemma Alike.lock (h : v.Alike v') {l : Addr} {lock : Lock} (hl : v.locks l = some lock) :
    ∃ lock', v'.locks l = some lock' ∧ lock'.queue = lock.queue := by
  have hsame := h.locks l
  rw [hl] at hsame
  exact Option.map_eq_some_iff.mp hsame

/-- A wait queue exists in `v` if it exists in `v'`. -/
lemma Alike.queue_of (h : v.Alike v') {q : Addr} {o : Owner} {es : List Tid}
    (hq : v'.queues q = some (o, es)) : ∃ es', v.queues q = some (o, es') := by
  have hsame := h.queues q
  rw [hq] at hsame
  obtain ⟨⟨o', es'⟩, hq', heq⟩ := Option.map_eq_some_iff.mp hsame.symm
  obtain rfl : o' = o := heq
  exact ⟨es', hq'⟩

/-- Nothing is made or destroyed, and the live threads stay alive. -/
lemma alike_of (hs : v'.stackStart = v.stackStart)
    (hst : ∀ t, v'.state t = .Destroyed ↔ v.state t = .Destroyed)
    (hq : ∀ q, (v'.queues q).map Prod.fst = (v.queues q).map Prod.fst) (hl : v'.locks = v.locks)
    (hc : v'.cvs = v.cvs) (hh : v'.heap = v.heap) (ht : Plainly v.trace v'.trace) : v.Alike v' :=
  ⟨hs, hst, hq, fun l => by rw [hl], hc, hh, ht⟩

/-- The address is the stack of a live thread. -/
def OnStack (v : View) (p : Addr) : Prop := ∃ t, t ≠ 0 ∧ v.state t ≠ .Destroyed ∧ v.stackStart t = p

/-- A thread has made one half of the lock or condition variable at the address, and user code
has not been given it. -/
def HalfMade (v : View) (p : Addr) : Prop :=
  (∃ t, .halfway t p ∈ v.trace) ∧ ¬ Gave .lockCreate p v.trace ∧ ¬ Gave .cvCreate p v.trace

/-- The block is in use. -/
def InUse (v : View) (p : Addr) : Prop :=
  v.OnStack p ∨ (v.queues p).isSome ∨ (v.locks p).isSome ∨ (v.cvs p).isSome ∨ v.HalfMade p

/-- A block is in use if it has a use. -/
lemma inUse_iff : v.InUse p ↔ ∃ r, v.Uses p r := by
  constructor
  · rintro (⟨t, ne, state, rfl⟩ | h | h | h | ⟨⟨t, halfway⟩, notLock, notCv⟩)
    · exact ⟨_, .stack ne state⟩
    · obtain ⟨⟨o, es⟩, hq⟩ := Option.isSome_iff_exists.mp h
      exact ⟨_, .queue hq⟩
    · obtain ⟨lock, hl⟩ := Option.isSome_iff_exists.mp h
      exact ⟨_, .lock hl⟩
    · obtain ⟨cv, hc⟩ := Option.isSome_iff_exists.mp h
      exact ⟨_, .cv hc⟩
    · exact ⟨_, .half halfway notLock notCv⟩
  · rintro ⟨r, h⟩
    cases h with
    | stack ne state => exact .inl ⟨_, ne, state, rfl⟩
    | queue queue => exact .inr (.inl (by rw [queue]; rfl))
    | lock lockAt => exact .inr (.inr (.inl (by rw [lockAt]; rfl)))
    | cv cvAt => exact .inr (.inr (.inr (.inl (by rw [cvAt]; rfl))))
    | half halfway notLock notCv =>
      exact .inr (.inr (.inr (.inr ⟨⟨_, halfway⟩, notLock, notCv⟩)))

/-- What is half made stays so under plain events. -/
lemma halfMade_iff_of_plainly (h : Plainly v.trace v'.trace) : v'.HalfMade p ↔ v.HalfMade p := by
  unfold HalfMade
  rw [gave_iff_of_plainly h rfl, gave_iff_of_plainly h rfl]
  simp only [halfway_iff_of_plainly h]

/-- The blocks in use are the same. -/
lemma Alike.inUse (h : v.Alike v') : v'.InUse p ↔ v.InUse p := by
  have hstack : v'.OnStack p ↔ v.OnStack p := by
    unfold OnStack
    simp only [h.stackStart, ne_eq, h.state]
  have hqueue : (v'.queues p).isSome = (v.queues p).isSome := by
    simpa only [Option.isSome_map] using congrArg Option.isSome (h.queues p)
  have hlock : (v'.locks p).isSome = (v.locks p).isSome := by
    simpa only [Option.isSome_map] using congrArg Option.isSome (h.locks p)
  unfold InUse
  rw [hstack, hqueue, hlock, h.cvs, halfMade_iff_of_plainly h.trace]

/-! ## The accounts -/

/-- The blocks in use are the blocks that are allocated and not yet freed; thread 0 runs on the
stack of the process. -/
structure Stocked (v : View) : Prop where
  main : v.stackStart 0 = NULL
  accounts : ∃ blocks, v.heap.Accounts blocks ∧ ∀ p, p ∈ blocks ↔ v.InUse p

/-- The blocks in use are allocated. -/
lemma Stocked.live_iff (h : v.Stocked) (p : Addr) : v.heap.Live p ↔ ∃ r, v.Uses p r := by
  obtain ⟨blocks, ha, hblocks⟩ := h.accounts
  rw [← ha.mem_iff, hblocks, inUse_iff]

/-- No block in use is at the null pointer. -/
lemma Stocked.ne_null (h : v.Stocked) (hu : v.Uses p r) : p ≠ NULL := by
  obtain ⟨blocks, ha, hblocks⟩ := h.accounts
  rintro rfl
  exact ha.null ((hblocks _).mpr (inUse_iff.mpr ⟨r, hu⟩))

/-- Nothing is made or destroyed. -/
lemma Stocked.alike (h : v.Stocked) (ha : v.Alike v') : v'.Stocked := by
  obtain ⟨blocks, hacc, hblocks⟩ := h.accounts
  refine ⟨by rw [ha.stackStart, h.main], blocks, by rwa [ha.heap], fun p => ?_⟩
  rw [hblocks, ha.inUse]

/-- One more block is allocated and used. -/
lemma Stocked.malloc (h : v.Stocked) (hp : v.Pointed) (hv : v.Valid) {size : BitVec 64}
    (hpos : size ≠ 0) (hlt : size.toNat < 2 ^ 63) (hmain : v'.stackStart 0 = v.stackStart 0)
    (hheap : v'.heap = v.heap.malloc369 size v.brk)
    (huse : ∀ p, v'.InUse p ↔ p = v.brk ∨ v.InUse p) : v'.Stocked := by
  obtain ⟨blocks, hacc, hblocks⟩ := h.accounts
  have hfresh : v.brk ∉ blocks := fun hmem => by
    obtain ⟨r, hr⟩ := inUse_iff.mp ((hblocks _).mp hmem)
    exact hp.ne_brk (hr.refers hp) rfl
  refine ⟨hmain.trans h.main, insert v.brk blocks, ?_, fun p => ?_⟩
  · rw [hheap]
    exact hacc.malloc369 hpos hlt hfresh hv.brk.ne'
  · rw [Finset.mem_insert, hblocks, huse]

/-- One block is freed and no longer used. -/
lemma Stocked.free (h : v.Stocked) {q : Addr} {heap : Heap} (hfree : v.heap.free369 q = some heap)
    (hmain : v'.stackStart 0 = v.stackStart 0) (hheap : v'.heap = heap)
    (huse : ∀ p, v'.InUse p ↔ p ≠ q ∧ v.InUse p) : v'.Stocked := by
  obtain ⟨blocks, hacc, hblocks⟩ := h.accounts
  refine ⟨hmain.trans h.main, blocks.erase q, by rw [hheap]; exact hacc.free hfree, fun p => ?_⟩
  rw [Finset.mem_erase, hblocks, huse]

/-- The uses after things have gone. -/
lemma Keeps.uses (h : v.Keeps v') (hu : v'.Uses p r) : v.Uses p r := by
  cases hu with
  | stack ne state => exact h.stackStart ▸ .stack ne (h.state _ state)
  | queue queue =>
    obtain ⟨es', hq⟩ := h.queues _ _ _ queue
    exact .queue hq
  | lock lockAt =>
    obtain ⟨c, hl⟩ := h.locks _ _ lockAt
    exact .lock hl
  | cv cvAt => exact .cv (h.cvs _ _ cvAt)
  | half halfway notLock notCv =>
    rw [gave_iff_of_plainly h.trace rfl] at notLock notCv
    exact .half ((halfway_iff_of_plainly h.trace _ _).mp halfway) notLock notCv

/-- The block at `q` loses its use, and the others keep theirs. -/
lemma Keeps.inUse_free (h : v.Keeps v') {q : Addr} (hgone : ∀ r, v.Uses q r → ¬ v'.Uses q r)
    (hrest : ∀ p, p ≠ q → v.InUse p → v'.InUse p) (p : Addr) : v'.InUse p ↔ p ≠ q ∧ v.InUse p := by
  constructor
  · intro hu
    obtain ⟨r, hr⟩ := inUse_iff.mp hu
    refine ⟨?_, inUse_iff.mpr ⟨r, h.uses hr⟩⟩
    rintro rfl
    exact hgone r (h.uses hr) hr
  · rintro ⟨hne, hu⟩
    exact hrest p hne hu

/-- The stack of a thread. -/
lemma Uses.of_stack {t : Tid} (h : v.Uses p (.stack t)) :
    t ≠ 0 ∧ v.state t ≠ .Destroyed ∧ v.stackStart t = p := by
  generalize hr : Role.stack t = r at h
  cases h with
  | stack ne state =>
    cases hr
    exact ⟨ne, state, rfl⟩
  | _ => cases hr

/-- A wait queue. -/
lemma Uses.of_queue {o : Owner} (h : v.Uses p (.queue o)) : ∃ es, v.queues p = some (o, es) := by
  generalize hr : Role.queue o = r at h
  cases h with
  | queue queue =>
    cases hr
    exact ⟨_, queue⟩
  | _ => cases hr

/-- A lock. -/
lemma Uses.of_lock (h : v.Uses p .lock) : ∃ lock, v.locks p = some lock := by
  generalize hr : Role.lock = r at h
  cases h with
  | lock lockAt => exact ⟨_, lockAt⟩
  | _ => cases hr

/-- A condition variable. -/
lemma Uses.of_cv (h : v.Uses p .cv) : ∃ cv, v.cvs p = some cv := by
  generalize hr : Role.cv = r at h
  cases h with
  | cv cvAt => exact ⟨_, cvAt⟩
  | _ => cases hr

/-- What is in use stays in use when a thread ends, but for its stack. -/
lemma InUse.bury (hu : v.InUse p) {t : Tid} (hne : t ≠ 0 → p ≠ v.stackStart t) (killed : Bool)
    (rsp : Addr) (heap : Heap) : (v.bury t killed rsp heap).InUse p := by
  have hk := keeps_bury v t killed rsp heap
  obtain ⟨u, hu0, hst, rfl⟩ | hu := hu
  · have hut : u ≠ t := by
      rintro rfl
      exact hne hu0 rfl
    exact .inl ⟨u, hu0, by simpa [hut] using hst, by simp⟩
  · right
    rw [bury_queues, bury_locks, bury_cvs, halfMade_iff_of_plainly hk.trace]
    exact hu

/-- The end of a thread: its stack is freed, unless it is thread 0. -/
lemma Stocked.bury (h : v.Stocked) (hp : v.Pointed) {t : Tid} {killed : Bool} {rsp : Addr}
    {heap : Heap} (hd : v.Dies t killed rsp heap) : (v.bury t killed rsp heap).Stocked := by
  have hk := keeps_bury v t killed rsp heap
  rcases eq_or_ne t 0 with rfl | h0
  · obtain ⟨blocks, hacc, hblocks⟩ := h.accounts
    refine ⟨by simpa using h.main, blocks, by rwa [bury_heap, if_pos rfl], fun p => ?_⟩
    rw [hblocks]
    refine ⟨fun hu => hu.bury (fun hne => (hne rfl).elim) .., fun hu => ?_⟩
    obtain ⟨r, hr⟩ := inUse_iff.mp hu
    exact inUse_iff.mpr ⟨r, hk.uses hr⟩
  · refine h.free (hd.heap h0) (by simp) (by rw [bury_heap, if_neg h0])
      (hk.inUse_free (fun r hr hr' => ?_) fun p hne hu => hu.bury (fun _ => hne) ..)
    obtain rfl := hr.unique (.stack h0 hd.state) hp
    exact hr'.of_stack.2.1 (by simp)

/-- A new thread. -/
lemma Stocked.spawn (h : v.Stocked) (hp : v.Pointed) (hv : v.Valid) {num : Tid} (hpos : 0 < num)
    (hdead : v.state num = .Destroyed) (fn parg : ℕ) : (v.spawn num fn parg).Stocked := by
  have hzero : (0 : Tid) ≠ num := hpos.ne
  have hlarge : THREAD_MIN_STACK ≠ 0 ∧ THREAD_MIN_STACK.toNat < 2 ^ 63 := by decide
  refine h.malloc hp hv hlarge.1 hlarge.2 (by simp [hzero]) rfl fun p => ?_
  have htrace : Plainly v.trace (v.spawn num fn parg).trace := (Adds.refl _ _).cons rfl
  have hstack : (v.spawn num fn parg).OnStack p ↔ p = v.brk ∨ v.OnStack p := by
    constructor
    · rintro ⟨t, ht, hst, rfl⟩
      rcases eq_or_ne t num with rfl | hne
      · exact .inl (by simp)
      · exact .inr ⟨t, ht, by simpa [hne] using hst, by simp [hne]⟩
    · rintro (rfl | ⟨t, ht, hst, rfl⟩)
      · exact ⟨num, hzero.symm, by simp, by simp⟩
      · have hne : t ≠ num := by
          rintro rfl
          exact hst hdead
        exact ⟨t, ht, by simpa [hne] using hst, by simp [hne]⟩
  unfold InUse
  rw [hstack, halfMade_iff_of_plainly htrace, or_assoc]
  rfl

/-- The wait queue that has been made exists. -/
lemma isSome_queues_newQueue (v : View) (o : Owner) (p : Addr) :
    ((v.newQueue o).queues p).isSome ↔ p = v.brk ∨ (v.queues p).isSome := by
  rcases eq_or_ne p v.brk with rfl | hne
  · simp
  · simp [hne]

/-- A new wait queue. -/
lemma Stocked.newQueue (h : v.Stocked) (hp : v.Pointed) (hv : v.Valid) (o : Owner) :
    (v.newQueue o).Stocked := by
  have hlarge : SIZEOF_WAIT_QUEUE ≠ 0 ∧ SIZEOF_WAIT_QUEUE.toNat < 2 ^ 63 := by decide
  refine h.malloc hp hv hlarge.1 hlarge.2 rfl rfl fun p => ?_
  have htrace : Plainly v.trace (v.newQueue o).trace := (Adds.refl _ _).cons rfl
  unfold InUse
  rw [isSome_queues_newQueue, halfMade_iff_of_plainly htrace, or_assoc, or_left_comm]
  rfl

/-- The same blocks are allocated and in use. -/
lemma Stocked.same (h : v.Stocked) (hmain : v'.stackStart = v.stackStart) (hheap : v'.heap = v.heap)
    (huse : ∀ p, v'.InUse p ↔ v.InUse p) : v'.Stocked := by
  obtain ⟨blocks, hacc, hblocks⟩ := h.accounts
  exact ⟨by rw [hmain, h.main], blocks, by rwa [hheap], fun p => by rw [hblocks, huse]⟩

/-- One half of a lock or condition variable. -/
lemma Stocked.newHalf (h : v.Stocked) (hp : v.Pointed) (hv : v.Valid) {size : BitVec 64}
    (hpos : size ≠ 0) (hlt : size.toNat < 2 ^ 63) :
    ((v.malloc size).emit (.halfway v.current v.brk)).Stocked := by
  refine h.malloc hp hv hpos hlt rfl rfl fun p => ?_
  have hlock : ¬ Gave .lockCreate v.brk v.trace := fun hg => hp.ne_brk (.lock hg) rfl
  have hcv : ¬ Gave .cvCreate v.brk v.trace := fun hg => hp.ne_brk (.cv hg) rfl
  have hhalf : ((v.malloc size).emit (.halfway v.current v.brk)).HalfMade p ↔
      p = v.brk ∨ v.HalfMade p := by
    unfold HalfMade
    simp only [emit_trace, malloc_trace, gave_cons, Event.gives, Bool.false_eq_true, false_or,
      List.mem_cons, Event.halfway.injEq]
    rcases eq_or_ne p v.brk with rfl | hne
    · simp [hlock, hcv]
    · simp [hne]
  unfold InUse
  rw [hhalf]
  simp only [or_left_comm (b := p = v.brk)]
  rfl

/-- What is half made does not depend on the wait queues that user code has been given. -/
lemma Stocked.giveQueue (h : v.Stocked) (r : Ret) : (v.back .waitQueueCreate r).Stocked := by
  refine h.same rfl rfl fun p => ?_
  have hhalf : (v.back .waitQueueCreate r).HalfMade p ↔ v.HalfMade p := by
    unfold HalfMade
    simp [Event.gives]
  unfold InUse
  rw [hhalf]
  rfl

/-- A lock is finished and given to user code. -/
lemma Stocked.giveLock (h : v.Stocked) {a : Addr} {t : Tid} (ha : v.Refers a (.half t)) (b : Addr) :
    ((v.setLock a (some ⟨b, -1⟩)).back .lockCreate ⟨a, none⟩).Stocked := by
  obtain ⟨halfway, notLock, notCv⟩ := ha.of_half
  refine h.same rfl rfl fun p => ?_
  unfold InUse
  rcases eq_or_ne p a with rfl | hne
  · have hhalf : v.HalfMade p := ⟨⟨t, halfway⟩, notLock, notCv⟩
    simp [hhalf]
  · have hhalf : ((v.setLock a (some ⟨b, -1⟩)).back .lockCreate ⟨a, none⟩).HalfMade p ↔
        v.HalfMade p := by
      unfold HalfMade
      simp [Event.gives, hne.symm]
    rw [hhalf]
    simp [hne, OnStack]

/-- A condition variable is finished and given to user code. -/
lemma Stocked.giveCv (h : v.Stocked) {a : Addr} {t : Tid} (ha : v.Refers a (.half t)) (b : Addr) :
    ((v.setCv a (some ⟨b⟩)).back .cvCreate ⟨a, none⟩).Stocked := by
  obtain ⟨halfway, notLock, notCv⟩ := ha.of_half
  refine h.same rfl rfl fun p => ?_
  unfold InUse
  rcases eq_or_ne p a with rfl | hne
  · have hhalf : v.HalfMade p := ⟨⟨t, halfway⟩, notLock, notCv⟩
    simp [hhalf]
  · have hhalf : ((v.setCv a (some ⟨b⟩)).back .cvCreate ⟨a, none⟩).HalfMade p ↔
        v.HalfMade p := by
      unfold HalfMade
      simp [Event.gives, hne.symm]
    rw [hhalf]
    simp [hne, OnStack]

/-- Half of what user code has been given is freed: it is not half made. -/
lemma Stocked.halfway (h : v.Stocked) {a : Addr}
    (ha : Gave .lockCreate a v.trace ∨ Gave .cvCreate a v.trace) (t : Tid) :
    (v.emit (.halfway t a)).Stocked := by
  refine h.same rfl rfl fun p => ?_
  have hhalf : (v.emit (.halfway t a)).HalfMade p ↔ v.HalfMade p := by
    unfold HalfMade
    simp only [emit_trace, gave_cons, Event.gives, Bool.false_eq_true, false_or, List.mem_cons,
      Event.halfway.injEq]
    rcases eq_or_ne p a with rfl | hne
    · rcases ha with ha | ha <;> simp [ha]
    · simp [hne]
  unfold InUse
  rw [hhalf]
  rfl

/-- A wait queue is freed. -/
lemma Stocked.dropQueue (h : v.Stocked) (hp : v.Pointed) {q : Addr} {o : Owner}
    (hq : q = NULL ∨ v.Refers q (.queue o)) {rsp : Addr} {heap : Heap}
    (hfree : v.heap.free369 q = some heap) : ((v.free q rsp heap).setQueue q none).Stocked := by
  have hk : v.Keeps ((v.free q rsp heap).setQueue q none) :=
    keeps_of rfl (fun _ ht => ht) (queues_of_update_none _) rfl rfl rfl ((Adds.refl _ _).cons rfl)
  refine h.free hfree rfl rfl (hk.inUse_free (fun r hr hr' => ?_) fun p hne hu => ?_)
  · obtain hnull | hrefers := hq
    · exact h.ne_null hr hnull
    · obtain rfl := hp.unique _ _ _ (hr.refers hp) hrefers
      obtain ⟨es, hes⟩ := hr'.of_queue
      simp at hes
  · unfold InUse at hu ⊢
    rw [halfMade_iff_of_plainly hk.trace]
    simpa [hne, OnStack] using hu

/-- A lock is freed. -/
lemma Stocked.dropLock (h : v.Stocked) (hp : v.Pointed) {a : Addr}
    (ha : a = NULL ∨ v.Refers a .lock) {rsp : Addr} {heap : Heap}
    (hfree : v.heap.free369 a = some heap) : ((v.free a rsp heap).setLock a none).Stocked := by
  have hk : v.Keeps ((v.free a rsp heap).setLock a none) :=
    ⟨rfl, fun _ ht => ht, fun _ _ es hq => ⟨es, hq⟩,
      fun _ lock hl => ⟨lock.current, eq_some_of_update_none hl⟩, fun _ _ hc => hc, le_rfl,
      (Adds.refl _ _).cons rfl⟩
  refine h.free hfree rfl rfl (hk.inUse_free (fun r hr hr' => ?_) fun p hne hu => ?_)
  · obtain hnull | hrefers := ha
    · exact h.ne_null hr hnull
    · obtain rfl := hp.unique _ _ _ (hr.refers hp) hrefers
      obtain ⟨lock, hlock⟩ := hr'.of_lock
      simp at hlock
  · unfold InUse at hu ⊢
    rw [halfMade_iff_of_plainly hk.trace]
    simpa [hne, OnStack] using hu

/-- A condition variable is freed. -/
lemma Stocked.dropCv (h : v.Stocked) (hp : v.Pointed) {a : Addr}
    (ha : a = NULL ∨ v.Refers a .cv) {rsp : Addr} {heap : Heap}
    (hfree : v.heap.free369 a = some heap) : ((v.free a rsp heap).setCv a none).Stocked := by
  have hk : v.Keeps ((v.free a rsp heap).setCv a none) :=
    ⟨rfl, fun _ ht => ht, fun _ _ es hq => ⟨es, hq⟩, fun _ lock hl => ⟨lock.current, hl⟩,
      fun _ _ hc => eq_some_of_update_none hc, le_rfl, (Adds.refl _ _).cons rfl⟩
  refine h.free hfree rfl rfl (hk.inUse_free (fun r hr hr' => ?_) fun p hne hu => ?_)
  · obtain hnull | hrefers := ha
    · exact h.ne_null hr hnull
    · obtain rfl := hp.unique _ _ _ (hr.refers hp) hrefers
      obtain ⟨cv, hcv⟩ := hr'.of_cv
      simp at hcv
  · unfold InUse at hu ⊢
    rw [halfMade_iff_of_plainly hk.trace]
    simpa [hne, OnStack] using hu

/-! ## Transactions -/

/-- The holders of the wait queues after one of them has been written. -/
lemma holders_of_update {q : Addr} {o : Owner} {es es' : List Tid} (hq : v.queues q = some (o, es))
    (p : Addr) :
    (Function.update v.queues q (some (o, es')) p).map Prod.fst = (v.queues p).map Prod.fst := by
  rcases eq_or_ne p q with rfl | hne
  · rw [Function.update_self, hq]
    rfl
  · rw [Function.update_of_ne hne]

/-- The dead after a live thread has got another state. -/
lemma destroyed_of_update {t : Tid} {s : State} (ht : v.state t ≠ .Destroyed)
    (hs : s ≠ .Destroyed) (u : Tid) :
    Function.update v.state t s u = .Destroyed ↔ v.state u = .Destroyed := by
  rcases eq_or_ne u t with rfl | hne
  · simp [ht, hs]
  · rw [Function.update_of_ne hne]

/-- Nothing changes but lists of threads, and events happen. -/
lemma alike_of_eq (hs : v'.stackStart = v.stackStart) (hst : v'.state = v.state)
    (hq : v'.queues = v.queues) (hl : v'.locks = v.locks) (hc : v'.cvs = v.cvs)
    (hh : v'.heap = v.heap) (ht : Plainly v.trace v'.trace) : v.Alike v' :=
  alike_of hs (fun _ => by rw [hst]) (fun _ => by rw [hq]) hl hc hh ht

/-- The transactions that make and destroy nothing.

**Proof sketch.** By the transaction. A thread that falls asleep or is woken is not Destroyed before
or after, a wait queue that is pushed to or popped from keeps its owner, and a lock that is taken or
given up keeps its wait queue. -/
lemma Step.alike (hs : Step v l v') (hlife : v.Life) (hl : l.makes = false) : v.Alike v' := by
  have hrefl := Adds.refl (fun e => e.plain = true) v.trace
  have hpush {u : Tid} {es : List Tid} {tr : List Event} (h : Plainly v.trace tr) :
      Plainly v.trace (pushTrace es u tr) := adds_pushTrace h fun _ _ => rfl
  have hsleep {f : Fn} (hc : v.Calls f) (u : Tid) :
      Function.update v.state v.current .Sleep u = .Destroyed ↔ v.state u = .Destroyed :=
    destroyed_of_update (hlife.alive _ hc.alive) (by decide) u
  cases hs with
  | called | started | exit => exact alike_of_eq rfl rfl rfl rfl rfl rfl (hrefl.cons rfl)
  | @returned f r alive fn done =>
    have hplain : (Event.returned v.current f r).plain = true := by
      cases f <;> first | rfl | exact done.elim
    exact alike_of_eq rfl rfl rfl rfl rfl rfl (hrefl.cons hplain)
  | discard => exact alike_of_eq rfl rfl rfl rfl rfl rfl hrefl
  | dispatch | yieldTo => exact alike_of_eq rfl rfl rfl rfl rfl rfl ((hpush hrefl).cons rfl)
  | sleep calls sleeps access queue =>
    exact alike_of rfl (hsleep calls) (holders_of_update queue) rfl rfl rfl
      ((hpush (hrefl.cons rfl)).cons rfl)
  | @sleepNone f q o o' es es' calls sleeps access queue =>
    refine alike_of rfl (fun u => ?_) (fun p => ?_) rfl rfl rfl ((hrefl.cons rfl).cons rfl)
    · have hawake := destroyed_of_update (v := v.asleep v.current q o' es) (t := v.current)
        (s := .Running) (by simp) (by decide) u
      exact hawake.trans (hsleep calls u)
    · have hpushed : (v.asleep v.current q o' es).queues q = some (o', pushEntry es v.current) := by
        simp
      exact (holders_of_update hpushed p).trans (holders_of_update queue p)
  | wait calls =>
    exact alike_of rfl (hsleep calls) (fun _ => rfl) rfl rfl rfl ((hpush (hrefl.cons rfl)).cons rfl)
  | waitNone calls =>
    exact alike_of rfl (hsleep calls) (fun _ => rfl) rfl rfl rfl ((hrefl.cons rfl).cons rfl)
  | @wake f q o o' t es calls wakes access queue state =>
    have hst : v.state t ≠ .Destroyed := by
      rw [state]
      decide
    exact alike_of rfl (destroyed_of_update hst (by decide)) (holders_of_update queue) rfl rfl rfl
      (hpush (hrefl.cons rfl))
  | skip calls wakes access queue =>
    exact alike_of rfl (fun _ => Iff.rfl) (holders_of_update queue) rfl rfl rfl hrefl
  | @take a lock f calls acquires lockAt =>
    refine ⟨rfl, fun _ => Iff.rfl, fun _ => rfl, fun b => ?_, rfl, rfl, hrefl⟩
    rcases eq_or_ne b a with rfl | hne <;> simp [*]
  | @give a lock f calls releases lockAt =>
    refine ⟨rfl, fun _ => Iff.rfl, fun _ => rfl, fun b => ?_, rfl, rfl, hrefl⟩
    rcases eq_or_ne b a with rfl | hne <;> simp [*]
  | _ => cases hl

/-- The death of a thread releases its waiter. -/
lemma Stocked.release (h : v.Stocked) (t : Tid) {w : Tid} (hw : v.state w ≠ .Destroyed) :
    (v.release t w).Stocked :=
  h.alike (alike_of rfl (destroyed_of_update hw (by decide)) (fun _ => rfl) rfl rfl rfl
    ((Adds.refl _ _).cons rfl))

/-- **Every transaction keeps the accounts.**

**Proof sketch.** The transactions that make and destroy nothing are `Step.alike`. Each of the
others gives out a block that nothing holds yet, or frees the block of an object that is taken away
in the same transaction. -/
theorem Stocked.step (h : v.Stocked) (hlife : v.Life) (hp : v.Pointed) (hv : v.Valid)
    (hs : Step v l v') : v'.Stocked := by
  cases hmakes : l.makes with
  | false => exact h.alike (hs.alike hlife hmakes)
  | true =>
    cases hs with
    | @create num fn parg calls pos valid dead =>
      refine (h.spawn hp hv pos dead fn parg).alike (alike_of_eq rfl rfl rfl rfl rfl rfl ?_)
      exact adds_pushTrace (Adds.refl _ _) fun _ _ => rfl
    | die dies => exact h.bury hp dies
    | @dieTo t w killed rsp heap dies waiter valid state ne =>
      have hreleased := (h.bury hp dies).release t (w := w) (by simp [ne, state])
      exact hreleased.alike (alike_of_eq rfl rfl rfl rfl rfl rfl
        ((adds_pushTrace (Adds.refl _ _) fun _ _ => rfl).cons rfl))
    | @dieBack t killed rsp heap dies waiter state ne =>
      exact (h.bury hp dies).release t (by simp [ne, state])
    | newQueue => exact (h.newQueue hp hv .user).giveQueue _
    | newHalf calls creates =>
      obtain ⟨-, rfl⟩ | ⟨-, rfl⟩ := creates
      · exact h.newHalf hp hv (by decide) (by decide)
      · exact h.newHalf hp hv (by decide) (by decide)
    | @newLock a alive fn =>
      have hp' := hp.newQueue (.lock a)
      exact (h.newQueue hp hv (.lock a)).giveLock
        (hp'.making v.current .lockCreate a alive fn rfl) _
    | @newCv c alive fn =>
      have hp' := hp.newQueue (.cv c)
      exact (h.newQueue hp hv (.cv c)).giveCv (hp'.making v.current .cvCreate c alive fn rfl) _
    | @dropQueue q heap calls free =>
      have hentitled := entitled_of_fn hp.entitled (congrArg Progress.fn calls.progress)
      refine (h.dropQueue hp (hentitled.imp_right .userQueue) free).alike
        (alike_of_eq rfl rfl rfl rfl rfl rfl ((Adds.refl _ _).cons rfl))
    | @dropHalf f a q heap calls destroys free =>
      obtain ⟨-, lock, hl, rfl⟩ | ⟨-, cv, hc, rfl⟩ := destroys
      · have hgave : Gave .lockCreate a v.trace := hp.locks a lock hl
        exact (h.dropQueue hp (.inr (.lockQueue hl)) free).halfway (.inl (hgave.cons _)) _
      · have hgave : Gave .cvCreate a v.trace := hp.cvs a cv hc
        exact (h.dropQueue hp (.inr (.cvQueue hc)) free).halfway (.inr (hgave.cons _)) _
    | @dropLock a heap alive fn free =>
      have hentitled := entitled_of_fn hp.entitled (congrArg Progress.fn fn)
      refine (h.dropLock hp (hentitled.imp_right .lock) free).alike
        (alike_of_eq rfl rfl rfl rfl rfl rfl ((Adds.refl _ _).cons rfl))
    | @dropCv c heap alive fn free =>
      have hentitled := entitled_of_fn hp.entitled (congrArg Progress.fn fn)
      refine (h.dropCv hp (hentitled.imp_right .cv) free).alike
        (alike_of_eq rfl rfl rfl rfl rfl rfl ((Adds.refl _ _).cons rfl))
    | _ => cases hmakes

end View

/-- At the start no block is allocated. -/
lemma stocked_threadInit (garbage : ℤ) : (abs (threadInit garbage)).Stocked := by
  refine ⟨rfl, ∅, Heap.accounts_init, fun p => ?_⟩
  simp only [Finset.notMem_empty, false_iff]
  rintro (⟨t, ne, state, -⟩ | hq | hl | hc | ⟨⟨t, halfway⟩, -, -⟩)
  · exact state (congrArg Thread.state (if_neg ne))
  · cases hq
  · cases hl
  · cases hc
  · cases halfway

variable {m : Machine} {ok : Machine → Action → Prop}

/-- **The accounts of all runs.** -/
theorem ReachableBy.stocked (h : ReachableBy ok m) (hrun : ¬ Stopped m) :
    (abs m).Life ∧ (abs m).Pointed ∧ (abs m).Stocked := by
  refine ((h.view (I := fun v => v.Life ∧ v.Pointed ∧ v.Stocked)
    (fun g => ⟨life_threadInit g, pointed_threadInit g, stocked_threadInit g⟩) ?_).resolve_left
    hrun).2
  rintro m a v l v' - - - ⟨hlife, hp, hst⟩ hv hperm hs
  exact ⟨hlife.step hs, hp.step hlife (View.entitled_of_permits hperm) hs,
    hst.step hlife hp hv hs⟩

end UserThreads
