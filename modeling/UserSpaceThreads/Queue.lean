import UserSpaceThreads.Lib.CircularBuffer

set_option relaxedAutoImplicit false
set_option autoImplicit false

/-!
# The ring buffer of `thread.c`

`queue_t` and its operations, as the code computes them on `int` indices, and the list of
entries that a queue stands for. The ready queue `thread_queue` and every wait queue are
queues of this type. The rest of the development works with `UserThreads.Queue`, which
carries the representation invariant, and with the list of its entries.

## Main definitions

* `UserThreads.QueueT` — `queue_t`; `next`, `prev`, `queuePush`, `queuePopLast`, `queuePop` —
  the functions of these names.
* `UserThreads.QueueT.WellFormed` — the representation invariant.
* `UserThreads.Queue` — a `queue_t` that satisfies it; `Queue.entries` — its contents, oldest
  entry first.

## Main results

* `UserThreads.Queue.entries_push`, `entries_pop`, `entries_popLast` — the operations on the
  list of entries.
-/

namespace UserThreads

/-- `THREAD_MAX_THREADS`. -/
def THREAD_MAX_THREADS : ℤ := 1024

/-- The capacity `THREAD_MAX_THREADS * 30` of a queue. -/
def QUEUE_CAPACITY : ℤ := THREAD_MAX_THREADS * 30

/-- `ERR_EMPTY`. -/
def ERR_EMPTY : ℤ := -2

/-- The capacity as a numeral. -/
lemma queue_capacity : QUEUE_CAPACITY = 30720 := rfl

/-! ## The code -/

/-- `queue_t`. -/
structure QueueT where
  /-- `current_size` -/
  currentSize : ℤ
  /-- `start` -/
  start : ℤ
  /-- `end` -/
  stop : ℤ
  /-- `threads` -/
  threads : ℤ → ℤ

/-- `next`. -/
def next (index : ℤ) : ℤ :=
  let offset := index + 1
  if offset < QUEUE_CAPACITY then offset
  else if offset > QUEUE_CAPACITY then -1
  else 0

/-- `prev`. -/
def prev (index : ℤ) : ℤ :=
  let offset := index - 1
  if offset ≥ 0 then offset
  else if offset < -1 then -1
  else QUEUE_CAPACITY - 1

/-- `queue_push`: the result and the queue after it. -/
def queuePush (queue : QueueT) (value : ℤ) : Bool × QueueT :=
  if queue.currentSize = QUEUE_CAPACITY then (false, queue)
  else
    (true, { queue with
      threads := Function.update queue.threads queue.stop value
      stop := next queue.stop
      currentSize := queue.currentSize + 1 })

/-- `queue_pop_last`: the result and the queue after it. -/
def queuePopLast (queue : QueueT) : ℤ × QueueT :=
  if queue.currentSize = 0 then (ERR_EMPTY, queue)
  else
    let stop := prev queue.stop
    (queue.threads stop, { queue with stop := stop, currentSize := queue.currentSize - 1 })

/-- `queue_pop`: the result and the queue after it. -/
def queuePop (queue : QueueT) : ℤ × QueueT :=
  if queue.currentSize = 0 then (ERR_EMPTY, queue)
  else
    (queue.threads queue.start,
      { queue with start := next queue.start, currentSize := queue.currentSize - 1 })

/-! ## The representation invariant -/

/-- The representation invariant: indices inside the array, a size between empty and full, and
`end` behind the last entry. -/
structure QueueT.WellFormed (queue : QueueT) : Prop where
  start_nonneg : 0 ≤ queue.start
  start_lt : queue.start < QUEUE_CAPACITY
  size_nonneg : 0 ≤ queue.currentSize
  size_le : queue.currentSize ≤ QUEUE_CAPACITY
  stop_eq : queue.stop = (queue.start + queue.currentSize) % QUEUE_CAPACITY

/-- On an index of the array, `next` is the successor modulo the capacity. -/
lemma next_eq {index : ℤ} (h0 : 0 ≤ index) (h : index < QUEUE_CAPACITY) :
    next index = (index + 1) % QUEUE_CAPACITY := by
  simp only [next, queue_capacity] at *
  split_ifs <;> omega

/-- On an index of the array, `prev` is the predecessor modulo the capacity. -/
lemma prev_eq {index : ℤ} (h0 : 0 ≤ index) (h : index < QUEUE_CAPACITY) :
    prev index = (index - 1) % QUEUE_CAPACITY := by
  simp only [prev, queue_capacity] at *
  split_ifs <;> omega

/-- The index `end` lies inside the array. -/
lemma QueueT.WellFormed.stop_mem {queue : QueueT} (h : queue.WellFormed) :
    0 ≤ queue.stop ∧ queue.stop < QUEUE_CAPACITY := by
  rw [h.stop_eq, queue_capacity]
  omega

/-- `queue_push` keeps the representation invariant. -/
lemma QueueT.WellFormed.push {queue : QueueT} (h : queue.WellFormed) (value : ℤ) :
    (queuePush queue value).2.WellFormed := by
  obtain ⟨h0, h1⟩ := h.stop_mem
  rw [queuePush]
  split_ifs with hfull
  · exact h
  · have hle := h.size_le
    have hnn := h.size_nonneg
    refine ⟨h.start_nonneg, h.start_lt, by dsimp only; omega, by dsimp only; omega, ?_⟩
    dsimp only
    rw [next_eq h0 h1, h.stop_eq, queue_capacity]
    omega

/-- `queue_pop_last` keeps the representation invariant. -/
lemma QueueT.WellFormed.popLast {queue : QueueT} (h : queue.WellFormed) :
    (queuePopLast queue).2.WellFormed := by
  obtain ⟨h0, h1⟩ := h.stop_mem
  rw [queuePopLast]
  split_ifs with hempty
  · exact h
  · have hle := h.size_le
    have hnn := h.size_nonneg
    refine ⟨h.start_nonneg, h.start_lt, by dsimp only; omega, by dsimp only; omega, ?_⟩
    dsimp only
    rw [prev_eq h0 h1, h.stop_eq, queue_capacity]
    omega

/-- `queue_pop` keeps the representation invariant. -/
lemma QueueT.WellFormed.pop {queue : QueueT} (h : queue.WellFormed) :
    (queuePop queue).2.WellFormed := by
  rw [queuePop]
  split_ifs with hempty
  · exact h
  · have hle := h.size_le
    have hnn := h.size_nonneg
    have hnext := next_eq h.start_nonneg h.start_lt
    have hcap := queue_capacity
    rw [hcap] at hnext
    refine ⟨?_, ?_, by dsimp only; omega, by dsimp only; omega, ?_⟩ <;> dsimp only
    · omega
    · omega
    · rw [hnext, h.stop_eq, queue_capacity]
      omega

/-! ## Queues and their entries -/

/-- A `queue_t` that satisfies the representation invariant. Every queue of a run is one: a
queue starts empty and only the three operations change it. -/
structure Queue where
  /-- The `queue_t`. -/
  raw : QueueT
  /-- It satisfies the representation invariant. -/
  wf : raw.WellFormed

namespace Queue

/-- A queue with `current_size = start = end = 0`. -/
def empty : Queue where
  raw := ⟨0, 0, 0, fun _ => 0⟩
  wf := ⟨le_rfl, by decide, le_rfl, by decide, by decide⟩

/-- `queue_push`, the result. -/
def pushOk (q : Queue) (value : ℤ) : Bool := (queuePush q.raw value).1

/-- `queue_push`, the queue after it. -/
def push (q : Queue) (value : ℤ) : Queue := ⟨(queuePush q.raw value).2, q.wf.push value⟩

/-- `queue_pop`: the result and the queue after it. -/
def pop (q : Queue) : ℤ × Queue := ((queuePop q.raw).1, ⟨(queuePop q.raw).2, q.wf.pop⟩)

/-- `queue_pop_last`: the result and the queue after it. -/
def popLast (q : Queue) : ℤ × Queue :=
  ((queuePopLast q.raw).1, ⟨(queuePopLast q.raw).2, q.wf.popLast⟩)

/-- `current_size` as a natural number. -/
def size (q : Queue) : ℕ := q.raw.currentSize.toNat

/-- The entries of a queue, oldest first. -/
def entries (q : Queue) : List ℤ :=
  CircularBuffer.window q.raw.threads QUEUE_CAPACITY q.raw.start q.size

/-- `current_size` is the size as a natural number. -/
lemma currentSize_eq (q : Queue) : q.raw.currentSize = q.size :=
  (Int.toNat_of_nonneg q.wf.size_nonneg).symm

/-- A queue has `current_size` entries. -/
@[simp] lemma length_entries (q : Queue) : q.entries.length = q.size :=
  CircularBuffer.length_window ..

/-- A queue never holds more entries than its capacity. -/
lemma size_le (q : Queue) : (q.size : ℤ) ≤ QUEUE_CAPACITY := by
  rw [← currentSize_eq]
  exact q.wf.size_le

/-- The empty queue has no entries. -/
@[simp] lemma entries_empty : empty.entries = [] := rfl

/-- A push is accepted exactly when the queue is not full. -/
lemma pushOk_iff (q : Queue) (value : ℤ) :
    q.pushOk value = true ↔ (q.entries.length : ℤ) < QUEUE_CAPACITY := by
  have hle := q.size_le
  rw [pushOk, queuePush, currentSize_eq, length_entries]
  split_ifs with h <;> simp <;> omega

/-- A push appends its value, or leaves a full queue as it is. -/
lemma entries_push (q : Queue) (value : ℤ) :
    (q.push value).entries =
      if (q.entries.length : ℤ) < QUEUE_CAPACITY then q.entries ++ [value] else q.entries := by
  have hle := q.size_le
  rw [length_entries]
  by_cases hfull : q.raw.currentSize = QUEUE_CAPACITY
  · have hpush : q.push value = q := by simp [push, queuePush, hfull]
    rw [hpush, if_neg (by rw [← currentSize_eq]; omega)]
  · have hlt : (q.size : ℤ) < QUEUE_CAPACITY := by rw [← currentSize_eq] at hle ⊢; omega
    have hsize : (q.raw.currentSize + 1).toNat = q.size + 1 := by rw [currentSize_eq]; rfl
    have hstop : q.raw.stop = (q.raw.start + q.size) % QUEUE_CAPACITY := by
      rw [q.wf.stop_eq, currentSize_eq]
    have hentries : (q.push value).entries = CircularBuffer.window
        (Function.update q.raw.threads q.raw.stop value) QUEUE_CAPACITY q.raw.start
        (q.raw.currentSize + 1).toNat := by
      simp only [entries, size, push, queuePush, if_neg hfull]
    rw [if_pos hlt, hentries, hsize, hstop]
    exact CircularBuffer.window_write q.raw.threads q.raw.start hlt value

/-- Popping an empty queue answers `ERR_EMPTY` and leaves the queue as it is. -/
lemma pop_of_nil {q : Queue} (h : q.entries = []) : q.pop = (ERR_EMPTY, q) := by
  have hsize : q.raw.currentSize = 0 := by
    rw [currentSize_eq, ← length_entries, h]; rfl
  simp [pop, queuePop, hsize]

/-- Popping a nonempty queue answers its oldest entry and leaves the others. -/
lemma pop_of_cons {q : Queue} {v : ℤ} {vs : List ℤ} (h : q.entries = v :: vs) :
    q.pop.1 = v ∧ q.pop.2.entries = vs := by
  have hlen : q.size = vs.length + 1 := by rw [← length_entries, h]; rfl
  have hne : q.raw.currentSize ≠ 0 := by rw [currentSize_eq, hlen]; omega
  have hsize : (q.raw.currentSize - 1).toNat = vs.length := by rw [currentSize_eq, hlen]; omega
  have hwin := CircularBuffer.window_cons q.raw.threads q.wf.start_nonneg q.wf.start_lt vs.length
  rw [← hlen, ← next_eq q.wf.start_nonneg q.wf.start_lt] at hwin
  obtain ⟨hv, hvs⟩ := List.cons.inj (h.symm.trans hwin)
  simp only [pop, queuePop, if_neg hne, entries, size, hsize]
  exact ⟨hv.symm, hvs.symm⟩

/-- Popping the last entry of a nonempty queue answers its newest entry and leaves the
others. -/
lemma popLast_of_append {q : Queue} {v : ℤ} {vs : List ℤ} (h : q.entries = vs ++ [v]) :
    q.popLast.1 = v ∧ q.popLast.2.entries = vs := by
  have hlen : q.size = vs.length + 1 := by rw [← length_entries, h]; simp
  have hne : q.raw.currentSize ≠ 0 := by rw [currentSize_eq, hlen]; omega
  have hsize : (q.raw.currentSize - 1).toNat = vs.length := by rw [currentSize_eq, hlen]; omega
  obtain ⟨h0, h1⟩ := q.wf.stop_mem
  have hprev : prev q.raw.stop = (q.raw.start + vs.length) % QUEUE_CAPACITY := by
    rw [prev_eq h0 h1, q.wf.stop_eq, currentSize_eq, hlen, queue_capacity]
    omega
  have hwin := CircularBuffer.window_succ q.raw.threads QUEUE_CAPACITY q.raw.start vs.length
  rw [← hlen] at hwin
  obtain ⟨hvs, hv⟩ := List.append_inj' (h.symm.trans hwin) rfl
  simp only [popLast, queuePopLast, if_neg hne, entries, size, hsize, hprev]
  exact ⟨(List.singleton_inj.mp hv).symm, hvs.symm⟩

end Queue

end UserThreads
