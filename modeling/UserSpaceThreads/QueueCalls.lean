import Mathlib.Data.List.Basic
import UserSpaceThreads.Lib.BoundedDeque
import UserSpaceThreads.Queue

set_option relaxedAutoImplicit false
set_option autoImplicit false

/-!
# The ring buffer as a bounded double-ended sequence

The queues of `thread.c` start with `current_size = start = end = 0` over an array that holds
whatever was there before, and from then on only `queue_push`, `queue_pop` and
`queue_pop_last` change them. This file compares every sequence of such calls with the same
sequence of operations on a list.

## Main definitions

* `UserThreads.queueCall` — one call of one of the three functions.
* `UserThreads.queueCell` — the cell of `threads` that a call reads or writes.
* `UserThreads.QueueT.Represents` — the list of values that a `queue_t` stands for.
* `UserThreads.QueueT.InArray` — the indices of a queue stay inside its array.
* `UserThreads.QueueT.Serves` — each function does to the list of values what it is for.

## Main results

* `UserThreads.queueCall_frame` — a call depends on no cell but the one of `queueCell`, and
  changes no other.
* `UserThreads.queueCall_refines` — one call against one operation on the list.
* `UserThreads.queue_refines_list` — the same for every sequence of calls, and what holds of
  every queue that is reached.
-/

namespace UserThreads

open BoundedDeque (Op Answer)

/-! ## Calls -/

/-- What the three functions return: `queue_push` a `bool`, the others an `int`. -/
inductive QueueResult
  /-- The result of `queue_push`. -/
  | bool (ok : Bool)
  /-- The result of `queue_pop` and `queue_pop_last`. -/
  | int (value : ℤ)
  deriving DecidableEq

/-- How the three functions report an answer: a missing value as `ERR_EMPTY`. -/
def QueueResult.encode : Answer ℤ → QueueResult
  | .accepted ok => .bool ok
  | .taken value => .int (value.getD ERR_EMPTY)

/-- One call: its result and the queue after it. -/
def queueCall : Op ℤ → QueueT → QueueResult × QueueT
  | .push value, queue => (.bool (queuePush queue value).1, (queuePush queue value).2)
  | .pop, queue => (.int (queuePop queue).1, (queuePop queue).2)
  | .popLast, queue => (.int (queuePopLast queue).1, (queuePopLast queue).2)

/-- The cell of `threads` that a call reads or writes, if it does: a push to a full queue and a
pop from an empty one touch none. -/
def queueCell : Op ℤ → QueueT → Option ℤ
  | .push _, queue => if queue.currentSize = QUEUE_CAPACITY then none else some queue.stop
  | .pop, queue => if queue.currentSize = 0 then none else some queue.start
  | .popLast, queue => if queue.currentSize = 0 then none else some (prev queue.stop)

/-- The queue with another value in one cell of `threads`. -/
def QueueT.poke (queue : QueueT) (index value : ℤ) : QueueT :=
  { queue with threads := Function.update queue.threads index value }

/-- **A call touches no cell but its own**: whatever another cell holds, the call answers the
same, does the same to the rest of the queue, and leaves the other cell as it is.

**Proof sketch.** A call reads and writes the cell that `queueCell` names and no other; if it is
refused, it touches none. The cells compared are different, so the two writes commute. -/
theorem queueCall_frame (op : Op ℤ) (queue : QueueT) {index : ℤ}
    (h : queueCell op queue ≠ some index) (value : ℤ) :
    queueCall op (queue.poke index value) =
      ((queueCall op queue).1, (queueCall op queue).2.poke index value) := by
  cases op with
  | push v =>
    by_cases hfull : queue.currentSize = QUEUE_CAPACITY
    · simp [queueCall, queuePush, QueueT.poke, hfull]
    · have hne : queue.stop ≠ index := by simpa [queueCell, hfull] using h
      simp [queueCall, queuePush, QueueT.poke, hfull, Function.update_comm hne]
  | pop =>
    by_cases hempty : queue.currentSize = 0
    · simp [queueCall, queuePop, QueueT.poke, hempty]
    · have hne : queue.start ≠ index := by simpa [queueCell, hempty] using h
      simp [queueCall, queuePop, QueueT.poke, hempty, Function.update_of_ne hne]
  | popLast =>
    by_cases hempty : queue.currentSize = 0
    · simp [queueCall, queuePopLast, QueueT.poke, hempty]
    · have hne : prev queue.stop ≠ index := by simpa [queueCell, hempty] using h
      simp [queueCall, queuePopLast, QueueT.poke, hempty, Function.update_of_ne hne]

/-! ## The list that a queue stands for -/

/-- The values of a `queue_t`, oldest first. -/
def QueueT.contents (queue : QueueT) : List ℤ :=
  CircularBuffer.window queue.threads QUEUE_CAPACITY queue.start queue.currentSize.toNat

/-- The `queue_t` satisfies the representation invariant and its values are the list. -/
structure QueueT.Represents (queue : QueueT) (values : List ℤ) : Prop where
  wf : queue.WellFormed
  contents_eq : queue.contents = values

namespace QueueT

variable {queue : QueueT} {values : List ℤ}

/-- The number of values is `current_size`. -/
lemma Represents.length (h : queue.Represents values) :
    (values.length : ℤ) = queue.currentSize := by
  rw [← h.contents_eq, contents, CircularBuffer.length_window]
  exact Int.toNat_of_nonneg h.wf.size_nonneg

/-- The `queue_t` as a queue of the development. -/
def Represents.toQueue (h : queue.Represents values) : Queue := ⟨queue, h.wf⟩

/-- Its entries are the list. -/
lemma Represents.entries_toQueue (h : queue.Represents values) : h.toQueue.entries = values :=
  h.contents_eq

/-- The list is shorter than the capacity exactly when the queue is not full. -/
lemma Represents.length_lt_iff (h : queue.Represents values) :
    values.length < QUEUE_CAPACITY.toNat ↔ queue.currentSize < QUEUE_CAPACITY := by
  rw [← h.length]
  omega

/-- A queue whose fields are zero is empty, whatever its array holds. -/
lemma represents_zero (threads : ℤ → ℤ) : Represents ⟨0, 0, 0, threads⟩ [] :=
  ⟨⟨le_rfl, by simp [queue_capacity], le_rfl, by simp [queue_capacity], by simp⟩, rfl⟩

/-- A push to a queue with room. -/
lemma Represents.push (h : queue.Represents values) (hroom : queue.currentSize < QUEUE_CAPACITY)
    (value : ℤ) :
    (queuePush queue value).1 = true ∧
      (queuePush queue value).2.Represents (values ++ [value]) := by
  have hlen : (h.toQueue.entries.length : ℤ) < QUEUE_CAPACITY := by
    rw [h.entries_toQueue, h.length]
    exact hroom
  have hentries := h.toQueue.entries_push value
  rw [if_pos hlen, h.entries_toQueue] at hentries
  exact ⟨(h.toQueue.pushOk_iff value).mpr hlen, h.wf.push value, hentries⟩

/-- A pop from a queue that is not empty. -/
lemma Represents.pop {v : ℤ} {vs : List ℤ} (h : queue.Represents (v :: vs)) :
    (queuePop queue).1 = v ∧ (queuePop queue).2.Represents vs := by
  obtain ⟨hv, hvs⟩ := Queue.pop_of_cons h.entries_toQueue
  exact ⟨hv, h.wf.pop, hvs⟩

/-- A pop of the last value of a queue that is not empty. -/
lemma Represents.popLast {v : ℤ} {vs : List ℤ} (h : queue.Represents (vs ++ [v])) :
    (queuePopLast queue).1 = v ∧ (queuePopLast queue).2.Represents vs := by
  obtain ⟨hv, hvs⟩ := Queue.popLast_of_append h.entries_toQueue
  exact ⟨hv, h.wf.popLast, hvs⟩

end QueueT

/-- **One call** does to the `queue_t` what its operation does to the list.

**Proof sketch.** The tests of the code on the size are tests of the length of the list
(`Represents.length_lt_iff`). Behind them each operation has its own lemma: `Represents.push`,
`Represents.pop` and `Represents.popLast`. -/
lemma queueCall_refines (op : Op ℤ) (queue : QueueT) (values : List ℤ)
    (h : queue.Represents values) :
    (queueCall op queue).1 =
        QueueResult.encode (BoundedDeque.call QUEUE_CAPACITY.toNat op values).1 ∧
      (queueCall op queue).2.Represents
        (BoundedDeque.call QUEUE_CAPACITY.toNat op values).2 := by
  cases op with
  | push value =>
    have hiff := h.length_lt_iff
    have hle := h.wf.size_le
    by_cases hroom : queue.currentSize < QUEUE_CAPACITY
    · obtain ⟨hok, hrep⟩ := h.push hroom value
      simp only [queueCall, BoundedDeque.call, if_pos (hiff.mpr hroom), QueueResult.encode, hok]
      exact ⟨trivial, hrep⟩
    · have hfull : queue.currentSize = QUEUE_CAPACITY := by omega
      simp only [queueCall, queuePush, if_pos hfull, BoundedDeque.call,
        if_neg (mt hiff.mp hroom), QueueResult.encode]
      exact ⟨trivial, h⟩
  | pop =>
    cases values with
    | nil =>
      have hempty : queue.currentSize = 0 := by rw [← h.length]; rfl
      simp only [queueCall, queuePop, if_pos hempty, BoundedDeque.call, QueueResult.encode]
      exact ⟨rfl, h⟩
    | cons v vs =>
      obtain ⟨hv, hrep⟩ := h.pop
      simp only [queueCall, BoundedDeque.call, QueueResult.encode, hv]
      exact ⟨rfl, hrep⟩
  | popLast =>
    rcases values.eq_nil_or_concat' with rfl | ⟨vs, v, rfl⟩
    · have hempty : queue.currentSize = 0 := by rw [← h.length]; rfl
      simp only [queueCall, queuePopLast, if_pos hempty, BoundedDeque.call, QueueResult.encode]
      exact ⟨rfl, h⟩
    · obtain ⟨hv, hrep⟩ := h.popLast
      simp only [queueCall, BoundedDeque.call, QueueResult.encode, hv,
        List.getLast?_concat, List.dropLast_concat]
      exact ⟨rfl, hrep⟩

/-! ## Indices -/

/-- On an index of the array, `next` answers an index of the array. -/
lemma next_mem {index : ℤ} (h0 : 0 ≤ index) (h : index < QUEUE_CAPACITY) :
    0 ≤ next index ∧ next index < QUEUE_CAPACITY := by
  rw [next_eq h0 h, queue_capacity]
  omega

/-- On an index of the array, `prev` answers an index of the array. -/
lemma prev_mem {index : ℤ} (h0 : 0 ≤ index) (h : index < QUEUE_CAPACITY) :
    0 ≤ prev index ∧ prev index < QUEUE_CAPACITY := by
  rw [prev_eq h0 h, queue_capacity]
  omega

/-- `prev` takes back `next`, also where the index wraps. -/
lemma prev_next {index : ℤ} (h0 : 0 ≤ index) (h : index < QUEUE_CAPACITY) :
    prev (next index) = index := by
  obtain ⟨hn0, hn⟩ := next_mem h0 h
  rw [prev_eq hn0 hn, next_eq h0 h, queue_capacity]
  rw [queue_capacity] at h
  omega

/-- The indices of a queue stay inside its array: `start` and `end`, the index of every cell
that a call touches, and what `next` and `prev` answer when a call uses them. -/
structure QueueT.InArray (queue : QueueT) : Prop where
  start_mem : 0 ≤ queue.start ∧ queue.start < QUEUE_CAPACITY
  stop_mem : 0 ≤ queue.stop ∧ queue.stop < QUEUE_CAPACITY
  next_start : next queue.start ≠ -1
  next_stop : next queue.stop ≠ -1
  prev_stop : prev queue.stop ≠ -1
  cell_mem : ∀ op index, queueCell op queue = some index → 0 ≤ index ∧ index < QUEUE_CAPACITY

/-- The representation invariant keeps the indices inside the array. -/
lemma QueueT.WellFormed.inArray {queue : QueueT} (h : queue.WellFormed) : queue.InArray := by
  obtain ⟨hstop, hstop'⟩ := h.stop_mem
  have hnextStart := next_mem h.start_nonneg h.start_lt
  have hnextStop := next_mem hstop hstop'
  have hprevStop := prev_mem hstop hstop'
  refine ⟨⟨h.start_nonneg, h.start_lt⟩, ⟨hstop, hstop'⟩, by omega, by omega, by omega, ?_⟩
  intro op index hcell
  cases op with
  | push value =>
    simp only [queueCell, Option.ite_none_left_eq_some, Option.some.injEq] at hcell
    rw [← hcell.2]
    exact ⟨hstop, hstop'⟩
  | pop =>
    simp only [queueCell, Option.ite_none_left_eq_some, Option.some.injEq] at hcell
    rw [← hcell.2]
    exact ⟨h.start_nonneg, h.start_lt⟩
  | popLast =>
    simp only [queueCell, Option.ite_none_left_eq_some, Option.some.injEq] at hcell
    rw [← hcell.2]
    exact hprevStop

/-! ## Every sequence of calls -/

/-- What the three functions do on a queue that holds the given values. -/
structure QueueT.Serves (queue : QueueT) (values : List ℤ) : Prop where
  /-- A push to a full queue returns false and changes nothing. -/
  push_full : ∀ value, queue.currentSize = QUEUE_CAPACITY → queuePush queue value = (false, queue)
  /-- A push to another queue appends at the back. -/
  push_room : ∀ value, queue.currentSize < QUEUE_CAPACITY →
    ∃ queue', queuePush queue value = (true, queue') ∧ queue'.Represents (values ++ [value])
  /-- A pop from an empty queue returns `ERR_EMPTY` and changes nothing. -/
  pop_empty : queue.currentSize = 0 → queuePop queue = (ERR_EMPTY, queue)
  /-- A pop from another queue removes and returns the oldest value. -/
  pop_oldest : ∀ v vs, values = v :: vs →
    ∃ queue', queuePop queue = (v, queue') ∧ queue'.Represents vs
  /-- So does `queue_pop_last` on an empty queue. -/
  popLast_empty : queue.currentSize = 0 → queuePopLast queue = (ERR_EMPTY, queue)
  /-- On another queue it removes and returns the newest value. -/
  popLast_newest : ∀ v vs, values = vs ++ [v] →
    ∃ queue', queuePopLast queue = (v, queue') ∧ queue'.Represents vs
  /-- After an accepted push, `queue_pop_last` returns the pushed value and gives back the
  queue as it was, up to the cell behind its last value. -/
  popLast_push : ∀ value, queue.currentSize < QUEUE_CAPACITY →
    queuePopLast (queuePush queue value).2 = (value, queue.poke queue.stop value) ∧
      (queue.poke queue.stop value).Represents values

/-- A push followed by `queue_pop_last`, wherever `end` stands in the array. -/
lemma queuePopLast_queuePush {queue : QueueT} (h : queue.WellFormed)
    (hroom : queue.currentSize < QUEUE_CAPACITY) (value : ℤ) :
    queuePopLast (queuePush queue value).2 = (value, queue.poke queue.stop value) := by
  obtain ⟨hstop, hstop'⟩ := h.stop_mem
  have hnn := h.size_nonneg
  have hne : queue.currentSize ≠ QUEUE_CAPACITY := by omega
  have hpos : queue.currentSize + 1 ≠ 0 := by omega
  simp only [queuePush, if_neg hne, queuePopLast, if_neg hpos, prev_next hstop hstop',
    Function.update_self, add_sub_cancel_right]
  rfl

/-- The functions serve every queue that satisfies the representation invariant. -/
lemma QueueT.Represents.serves {queue : QueueT} {values : List ℤ}
    (h : queue.Represents values) : queue.Serves values where
  push_full value hfull := by rw [queuePush, if_pos hfull]
  push_room value hroom := by
    obtain ⟨hok, hrep⟩ := h.push hroom value
    exact ⟨_, Prod.ext hok rfl, hrep⟩
  pop_empty hempty := by rw [queuePop, if_pos hempty]
  pop_oldest v vs hvs := by
    subst hvs
    obtain ⟨hv, hrep⟩ := h.pop
    exact ⟨_, Prod.ext hv rfl, hrep⟩
  popLast_empty hempty := by rw [queuePopLast, if_pos hempty]
  popLast_newest v vs hvs := by
    subst hvs
    obtain ⟨hv, hrep⟩ := h.popLast
    exact ⟨_, Prod.ext hv rfl, hrep⟩
  popLast_push value hroom := by
    have hpush := queuePopLast_queuePush h.wf hroom value
    obtain ⟨-, hrep⟩ := (h.push hroom value).2.popLast
    rw [hpush] at hrep
    exact ⟨hpush, hrep⟩

/-- **The ring buffer is a bounded double-ended sequence.** Take a queue with
`current_size = start = end = 0`, whatever its array holds, and any sequence of calls. The
calls return what the operations on a list with room for `QUEUE_CAPACITY` values answer, the
queue then stands for the list that they leave, its representation invariant holds with all
indices inside the array, and every further call does to it what its operation is for.

**Proof sketch.** Each call refines its list operation (`queueCall_refines`), so each run does
(`BoundedDeque.run_refines`). What is said of the queue at the end follows from `Represents`. -/
theorem queue_refines_list (threads : ℤ → ℤ) (ops : List (Op ℤ)) :
    ∃ answers values results queue,
      BoundedDeque.run (BoundedDeque.call QUEUE_CAPACITY.toNat) ops [] = (answers, values) ∧
      BoundedDeque.run queueCall ops ⟨0, 0, 0, threads⟩ = (results, queue) ∧
      results = answers.map QueueResult.encode ∧ queue.Represents values ∧ queue.InArray ∧
      queue.Serves values := by
  obtain ⟨hresults, hrep⟩ :=
    BoundedDeque.run_refines queueCall_refines ops (QueueT.represents_zero threads)
  exact ⟨_, _, _, _, rfl, rfl, hresults, hrep, hrep.wf.inArray, hrep.serves⟩

/-- Calls on a queue over an array of stale values. -/
example : (BoundedDeque.run queueCall [.push 7, .push 8, .popLast, .pop, .pop]
    ⟨0, 0, 0, fun index => index⟩).1 = [.bool true, .bool true, .int 8, .int 7, .int (-2)] := by
  decide

end UserThreads
