import UserSpaceThreads.Step
import UserSpaceThreads.View

set_option relaxedAutoImplicit false
set_option autoImplicit false

/-!
# The view of a machine

The abstraction function, and how each update of the machine looks in the view. Updates of the
processor alone cannot be seen there.

## Main definitions

* `UserThreads.abs` — the view of a machine.

## Main results

* `UserThreads.abs_setState`, …, `UserThreads.abs_pushReady` — the updates commute with `abs`.
* `UserThreads.abs_threadYieldSwitch` — so does the switch of `thread_yield`.
-/

namespace UserThreads

/-- A wait queue as the view has it. -/
def absQueue (wq : WaitQueue) : Owner × List Tid := (wq.owner, wq.queue.entries)

/-- The view of a machine. -/
@[simps] def abs (m : Machine) : View where
  state t := (m.threads t).state
  waiter t := (m.threads t).waiter
  exitCode t := (m.threads t).exitCode
  stackStart t := (m.threads t).stackStart
  ready := m.threadQueue.entries
  current := m.currentThread
  queues q := (m.waitQueues q).map absQueue
  locks := m.locks
  cvs := m.cvs
  heap := m.heap
  brk := m.brk
  trace := m.trace

/-! ## Queues -/

/-- The wait queue behind one of the view. -/
lemma waitQueue_of_abs {m : Machine} {q : Addr} {o : Owner} {es : List Tid}
    (h : (abs m).queues q = some (o, es)) :
    ∃ wq, m.waitQueues q = some wq ∧ wq.owner = o ∧ wq.queue.entries = es := by
  obtain ⟨wq, hwq, heq⟩ := Option.map_eq_some_iff.mp h
  exact ⟨wq, hwq, Prod.ext_iff.mp heq⟩

/-- `queue_push` on the entries. -/
lemma Queue.entries_push_eq (q : Queue) (t : Tid) : (q.push t).entries = pushEntry q.entries t := by
  have hle := q.size_le
  rw [Queue.entries_push, pushEntry, Queue.length_entries]
  split_ifs with h₁ h₂ h₂
  · omega
  · rfl
  · rfl
  · omega

/-- The history after a `queue_push`. -/
lemma pushTrace_eq (q : Queue) (t : Tid) (tr : List Event) :
    (if q.pushOk t = true then tr else .refused t (decide (t ∈ q.entries)) :: tr) =
      pushTrace q.entries t tr := by
  have hle := q.size_le
  have hok := q.pushOk_iff t
  rw [Queue.length_entries] at hok
  rw [pushTrace, Queue.length_entries]
  split_ifs with h₁ h₂ h₂
  · have := hok.mp h₁
    omega
  · rfl
  · rfl
  · exact (h₁ (hok.mpr (by omega))).elim

/-! ## Updates that the view shows -/

/-- A field of the slots after one slot has been written. -/
lemma field_update {α : Type} (f : Thread → α) (threads : Tid → Thread) (t : Tid) (th : Thread) :
    (fun u => f (Function.update threads t th u)) =
      Function.update (fun u => f (threads u)) t (f th) := by
  funext u
  rcases eq_or_ne u t with rfl | hne
  · simp only [Function.update_self]
  · simp only [Function.update_of_ne hne]

/-- Writing back a value that is already there. -/
lemma field_update_same {α : Type} (f : Thread → α) (threads : Tid → Thread) (t : Tid)
    (th : Thread) (h : f th = f (threads t)) :
    (fun u => f (Function.update threads t th u)) = fun u => f (threads u) := by
  rw [field_update, h]
  exact Function.update_eq_self t fun u => f (threads u)

/-- An event is an event of the view. -/
@[simp] lemma abs_emit (m : Machine) (e : Event) : abs (m.emit e) = (abs m).emit e := rfl

/-- The view of a machine of which one slot has been written. -/
lemma abs_setThread (m : Machine) (t : Tid) (th : Thread) :
    abs (m.setThread t th) = { abs m with
      state := Function.update (abs m).state t th.state
      waiter := Function.update (abs m).waiter t th.waiter
      exitCode := Function.update (abs m).exitCode t th.exitCode
      stackStart := Function.update (abs m).stackStart t th.stackStart } := by
  unfold abs Machine.setThread
  dsimp only
  rw [field_update Thread.state, field_update Thread.waiter, field_update Thread.exitCode,
    field_update Thread.stackStart]

/-- The state of a thread is written. -/
@[simp] lemma abs_setState (m : Machine) (t : Tid) (s : State) :
    abs (m.setState t s) = (abs m).setState t s := by
  rw [Machine.setState, abs_setThread]
  simp only [View.setState]
  congr 1 <;> apply Function.update_eq_self

/-- The waiter of a thread is written. -/
@[simp] lemma abs_setWaiter (m : Machine) (t w : Tid) :
    abs (m.setWaiter t w) = (abs m).setWaiter t w := by
  rw [Machine.setWaiter, abs_setThread]
  simp only [View.setWaiter]
  congr 1 <;> apply Function.update_eq_self

/-- The exit code of a thread is written. -/
@[simp] lemma abs_setExitCode (m : Machine) (t : Tid) (c : ℤ) :
    abs (m.setExitCode t c) = (abs m).setExitCode t c := by
  rw [Machine.setExitCode, abs_setThread]
  simp only [View.setExitCode]
  congr 1 <;> apply Function.update_eq_self

/-- A wait queue is written: the view has its owner and its entries. -/
@[simp] lemma abs_setWaitQueue (m : Machine) (q : Addr) (wq : Option WaitQueue) :
    abs (m.setWaitQueue q wq) = (abs m).setQueue q (wq.map absQueue) := by
  unfold abs Machine.setWaitQueue View.setQueue
  dsimp only
  congr 1
  funext p
  rcases eq_or_ne p q with rfl | hne
  · simp only [Function.update_self]
  · simp only [Function.update_of_ne hne]

/-- A lock is written. -/
@[simp] lemma abs_setLock (m : Machine) (l : Addr) (lock : Option Lock) :
    abs (m.setLock l lock) = (abs m).setLock l lock := rfl

/-- A condition variable is written. -/
@[simp] lemma abs_setCv (m : Machine) (c : Addr) (cv : Option Cv) :
    abs (m.setCv c cv) = (abs m).setCv c cv := rfl

/-- The ready queue is written: the view has its entries. -/
@[simp] lemma abs_setThreadQueue (m : Machine) (queue : Queue) :
    abs (m.setThreadQueue queue) = (abs m).setReady queue.entries := rfl

/-- A push onto the ready queue, which leaves an event if it is refused. -/
@[simp] lemma abs_pushReady (m : Machine) (t : Tid) :
    abs (m.pushReady t) = (abs m).pushReady t := by
  unfold abs Machine.pushReady View.pushReady
  dsimp only
  rw [Queue.entries_push_eq, pushTrace_eq]

/-- A block is allocated: the break moves behind it. -/
@[simp] lemma abs_afterMalloc369 (m : Machine) (size : BitVec 64) :
    abs (m.afterMalloc369 size) = (abs m).malloc size := rfl

/-- A block is freed. -/
@[simp] lemma abs_afterFree369 (m : Machine) (p : Addr) (heap : Heap) :
    abs (m.afterFree369 p heap) = (abs m).free p m.rsp heap := rfl

/-! ## Updates of the processor -/

/-- The signal mask is not in the view. -/
@[simp] lemma abs_interruptsSet (m : Machine) (b : Bool) : abs (m.interruptsSet b) = abs m := rfl

/-- Where the processor is, is not in the view. -/
@[simp] lemma abs_setControl (m : Machine) (c : Control) : abs (m.setControl c) = abs m := rfl

/-- The administrative mode is not in the view. -/
@[simp] lemma abs_setAdministrativeMode (m : Machine) (b : Bool) :
    abs (m.setAdministrativeMode b) = abs m := rfl

/-- `thread_to_destroy` is not in the view. -/
@[simp] lemma abs_setThreadToDestroy (m : Machine) (t : Tid) :
    abs (m.setThreadToDestroy t) = abs m := rfl

/-- A switch of contexts does not show in the view. -/
@[simp] lemma abs_load (m : Machine) (c : Context) : abs (m.load c) = abs m := rfl

/-- Saved contexts are not in the view. -/
@[simp] lemma abs_setUcontext (m : Machine) (t : Tid) (u : Ucontext) :
    abs (m.setUcontext t u) = abs m := by
  unfold abs Machine.setUcontext Machine.setThread
  dsimp only
  congr 1 <;> exact field_update_same _ _ _ _ rfl

/-! ## Composite updates -/

/-- Storing a new thread in its slot, at the address that `malloc369` has answered. -/
lemma abs_spawn (m : Machine) (num : Tid) (fn parg : ℕ) (u : Ucontext) :
    abs (((m.afterMalloc369 THREAD_MIN_STACK).setThread num
      ⟨u, m.brk, .Running, -1, -SIGKILL⟩).emit (.created num fn parg)) =
      (abs m).spawn num fn parg := by
  rw [abs_emit, abs_setThread]
  rfl

/-- `wait_queue_create` behind its `malloc369`. -/
@[simp] lemma abs_initWaitQueue (m : Machine) (o : Owner) :
    abs (initWaitQueue o m) = (abs m).newQueue o := by
  unfold initWaitQueue View.newQueue
  rw [abs_emit, abs_setWaitQueue, abs_afterMalloc369]
  rfl

/-- A return to user code leaves its event. -/
@[simp] lemma abs_userReturn (f : Fn) (r : Ret) (m : Machine) :
    abs (userReturn f r m) = (abs m).back f r := rfl

/-- The return of `interrupt_handler` does not show in the view. -/
@[simp] lemma abs_handlerReturn (what : Interrupted) (m : Machine) :
    abs (handlerReturn what m) = abs m := rfl

/-- Loading a saved context does not show in the view. -/
lemma abs_setcontext (m : Machine) (u : Ucontext) : abs (m.setcontext u) = abs m := by
  cases u <;> rfl

/-- The switch of `thread_yield`, as the view has it. -/
lemma abs_threadYieldSwitch (s : Bool) (t : Tid) (k : Stack) (m : Machine) :
    abs (threadYieldSwitch s t k m) = (abs m).switchTo t := by
  have hcur (m : Machine) : abs ((m.setCurrentThread t).emit (.switched t)) =
      { abs m with current := t, trace := .switched t :: m.trace } := rfl
  unfold threadYieldSwitch
  rw [abs_setcontext, hcur, abs_pushReady, abs_setUcontext]
  simp only [View.switchTo, View.pushReady, Machine.pushReady_trace, Machine.setUcontext_trace,
    Machine.setUcontext_threadQueue, Machine.setUcontext_currentThread]
  rw [pushTrace_eq]
  rfl

end UserThreads
