import UserSpaceThreads.Lib.History
import UserSpaceThreads.Machine

set_option relaxedAutoImplicit false
set_option autoImplicit false

/-!
# What a history says about threads

The history of a run records calls, returns, creations, deaths, sleeps, wakeups and switches.
This file reads off it what became of a thread, which call it is in, what it is asleep on and
which locks it holds. The definitions speak of events only; the program's own variables
(`state`, `waiter`, `exit_code`, the queues) play no part in them.

## Main definitions

* `UserThreads.fate` — whether a thread is alive, has exited or was killed.
* `UserThreads.progress` — the call that a thread is in, or what it is going to start with.
* `UserThreads.Gave` — the pointers that user code has been given.
* `UserThreads.dormant` — what a thread has suspended itself on and not been woken from.
* `UserThreads.sleepers` — the threads asleep on a wait queue, longest first.
* `UserThreads.holds` — whether a thread is between acquiring and releasing a lock.
-/

namespace UserThreads

/-! ## Life and death -/

/-- What became of the latest thread of an id. -/
inductive Fate
  | alive
  | exited (code : ℤ)
  | killed
  deriving DecidableEq, Repr

/-- The fate of the latest thread with id `t`, if there was one. -/
@[simp] def fate (t : Tid) : List Event → Option Fate
  | [] => if t = 0 then some .alive else none
  | .created u _ _ :: tr => if u = t then some .alive else fate t tr
  | .exited u c :: tr => if u = t then some (.exited c) else fate t tr
  | .killed u :: tr => if u = t then some .killed else fate t tr
  | _ :: tr => fate t tr

/-! ## Calls -/

/-- How far a thread is: the function and the argument that it will start with, while it has not
started yet; the call of the library that it is in, with the thread that it has started to wait
for, and the lock or condition variable that it has made or destroyed one half of. In user code
all of these are missing. -/
structure Progress where
  start : Option (ℕ × ℕ) := none
  fn : Option Fn := none
  waits : Option Tid := none
  block : Option Addr := none
  deriving DecidableEq, Repr

/-- How far the latest thread with id `t` is. -/
@[simp] def progress (t : Tid) : List Event → Progress
  | [] => {}
  | .called u f :: tr => if u = t then { fn := some f } else progress t tr
  | .waited u x :: tr =>
    if u = t then { progress t tr with waits := some x } else progress t tr
  | .halfway u p :: tr =>
    if u = t then { progress t tr with block := some p } else progress t tr
  | .returned u _ _ :: tr => if u = t then {} else progress t tr
  | .created u fn parg :: tr =>
    if u = t then { start := some (fn, parg) } else progress t tr
  | .started u _ _ :: tr => if u = t then {} else progress t tr
  | _ :: tr => progress t tr

/-- Since the latest call of `t`, a new thread has been given the id `x`. -/
@[simp] def remade (x t : Tid) : List Event → Bool
  | [] => false
  | .called u _ :: tr => if u = t then false else remade x t tr
  | .created u _ _ :: tr => if u = x then true else remade x t tr
  | _ :: tr => remade x t tr

/-- The create functions, which return a pointer. -/
def Fn.creates : Fn → Bool
  | .waitQueueCreate => true
  | .lockCreate => true
  | .cvCreate => true
  | _ => false

/-- The object that a destroy function destroys. -/
def Fn.destroys : Fn → Option Addr
  | .waitQueueDestroy q => some q
  | .lockDestroy l => some l
  | .cvDestroy c => some c
  | _ => none

/-- The event is the return of the pointer `p` from `f` to user code. -/
def Event.gives (f : Fn) (p : Addr) : Event → Bool
  | .returned _ g r => g = f ∧ r.value = p
  | _ => false

/-- The function `f` has returned the pointer `p` to user code. -/
def Gave (f : Fn) (p : Addr) (tr : List Event) : Prop := ∃ e ∈ tr, e.gives f p = true

instance (f : Fn) (p : Addr) (tr : List Event) : Decidable (Gave f p tr) :=
  inferInstanceAs (Decidable (∃ e ∈ tr, e.gives f p = true))

/-! ## Sleeping and waiting -/

/-- What a thread suspends itself on: a wait queue, or the end of another thread. -/
inductive Blocker
  | queue (q : Addr)
  | thread (x : Tid)
  deriving DecidableEq, Repr

/-- What `t` has suspended itself on and has not been woken from. Only a `thread_wakeup` of the
same queue, the death of the same thread, or a `thread_sleep` that fails ends this. -/
@[simp] def dormant (t : Tid) : List Event → Option Blocker
  | [] => none
  | .slept u q :: tr => if u = t then some (.queue q) else dormant t tr
  | .waited u x :: tr => if u = t then some (.thread x) else dormant t tr
  | .woken u q :: tr =>
    if u = t ∧ dormant t tr = some (.queue q) then none else dormant t tr
  | .released x u :: tr =>
    if u = t ∧ dormant t tr = some (.thread x) then none else dormant t tr
  | .sleptNone u _ :: tr => if u = t then none else dormant t tr
  | .created u _ _ :: tr => if u = t then none else dormant t tr
  | _ :: tr => dormant t tr

/-- The live threads that have gone to sleep on the wait queue at `q` and have not been woken
since, the one asleep longest first. -/
@[simp] def sleepers (q : Addr) : List Event → List Tid
  | [] => []
  | .queueCreated p :: tr => if p = q then [] else sleepers q tr
  | .slept t p :: tr => if p = q then sleepers q tr ++ [t] else sleepers q tr
  | .woken t p :: tr => if p = q then (sleepers q tr).erase t else sleepers q tr
  | .sleptNone t p :: tr => if p = q then (sleepers q tr).erase t else sleepers q tr
  | .exited t _ :: tr => (sleepers q tr).erase t
  | .killed t :: tr => (sleepers q tr).erase t
  | _ :: tr => sleepers q tr

/-! ## What the functions do to wait queues and locks -/

/-- The function can put its caller to sleep on a wait queue of this holder. -/
def Fn.sleepsOn (o : Owner) : Fn → Bool
  | .threadSleep _ => o = .user
  | .lockAcquire l => o = .lock l
  | .cvWait c l => o = .cv c ∨ o = .lock l
  | _ => false

/-- The function wakes threads on a wait queue of this holder. -/
def Fn.wakesOn (o : Owner) : Fn → Bool
  | .threadWakeup _ _ => o = .user
  | .lockRelease l => o = .lock l
  | .cvWait _ l => o = .lock l
  | .cvSignal c _ => o = .cv c
  | .cvBroadcast c _ => o = .cv c
  | _ => false

/-- The function acquires the lock `l` before it returns. -/
def Fn.acquires (l : Addr) : Fn → Bool
  | .lockAcquire l' => l' = l
  | .cvWait _ l' => l' = l
  | _ => false

/-- The function releases the lock `l`. -/
def Fn.releases (l : Addr) : Fn → Bool
  | .lockRelease l' => l' = l
  | .cvWait _ l' => l' = l
  | _ => false

/-- The thread `t` is alive and is between the return of a `lock_acquire` or `cv_wait` on the
lock `l` and its next `lock_release` or `cv_wait` on it. -/
@[simp] def holds (t : Tid) (l : Addr) : List Event → Bool
  | [] => false
  | .returned u f _ :: tr => if u = t ∧ f.acquires l then true else holds t l tr
  | .called u f :: tr => if u = t ∧ f.releases l then false else holds t l tr
  | .created u _ _ :: tr => if u = t then false else holds t l tr
  | .exited u _ :: tr => if u = t then false else holds t l tr
  | .killed u :: tr => if u = t then false else holds t l tr
  | _ :: tr => holds t l tr

end UserThreads
