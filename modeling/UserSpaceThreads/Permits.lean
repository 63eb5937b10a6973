import UserSpaceThreads.Yield

set_option relaxedAutoImplicit false
set_option autoImplicit false

/-!
# Which transactions a step permits

A step of the machine carries out a sequence of transactions of the view. Before the step it is
known, from the state and the action alone, in what circumstances the critical ones among them
can occur: which threads are pushed onto `thread_queue` without an entry being removed first,
that a thread is created in a certain slot, that a `thread_yield` names a certain thread. These
conditions let a claim about runs restrict the steps of the machine and learn from it something
about the transactions.

## Main definitions

* `UserThreads.wakeList` — the threads that the loop of `thread_wakeup` makes Running.
* `UserThreads.pushes` — the threads that a step pushes onto `thread_queue`.
* `UserThreads.Permits` — the transactions that a step can carry out.
-/

namespace UserThreads

/-- The threads that the loop of `thread_wakeup` makes Running when the wait queue has the
entries `es`, in their order. At a Running thread its assertion fails. -/
def wakeList (all : ℤ) : (Tid → State) → List Tid → List Tid
  | _, [] => []
  | state, t :: ts =>
    match state t with
    | .Running => []
    | .Sleep => if all = 0 then [t] else t :: wakeList all (Function.update state t .Running) ts
    | .Destroyed => wakeList all state ts

/-- The threads that `thread_wakeup(q, all)` makes Running. -/
def wakes (m : Machine) (q : Addr) (all : ℤ) : List Tid :=
  match m.waitQueues q with
  | none => []
  | some wq => wakeList all (fun t => (m.threads t).state) wq.queue.entries

/-- The waiter of `t`, if it is another thread than the current one and asleep: the thread that
gets the processor when `t` dies. -/
def heir (m : Machine) (t : Tid) : Option Tid :=
  let w := (m.threads t).waiter
  if w ≠ -1 ∧ w ≠ t ∧ w ≠ m.currentThread ∧ (m.threads w).state = .Sleep then some w else none

/-- The current thread goes to the end of `thread_queue` when the death of `t` gives the
processor to its waiter. -/
def deathPushes (m : Machine) (t : Tid) : List Tid :=
  if (heir m t).isSome then [m.currentThread] else []

/-- The id `t` names a live thread other than the current one. -/
def NamesOther (m : Machine) (t : Tid) : Prop :=
  t ≠ m.currentThread ∧ isValidThread t ∧ (m.threads t).state ≠ .Destroyed

instance (m : Machine) (t : Tid) : Decidable (NamesOther m t) :=
  inferInstanceAs (Decidable (_ ∧ _))

/-- A `thread_wait(x, ..)` would put the current thread to sleep. -/
def WaitSleeps (m : Machine) (x : Tid) : Prop :=
  isValidThread x ∧ (m.threads x).state ≠ .Destroyed ∧ x ≠ m.currentThread ∧
    (m.threads x).waiter = -1

instance (m : Machine) (x : Tid) : Decidable (WaitSleeps m x) :=
  inferInstanceAs (Decidable (_ ∧ _))

/-- The threads that a step pushes onto `thread_queue`, in their order, other than after
`get_thread_any` has removed an entry. -/
def pushes (m : Machine) : Action → List Tid
  | .call (.threadCreate _ _) => (threadNumToCreate m).toList
  | .call (.threadYield t) => if NamesOther m t then [m.currentThread] else []
  | .call (.threadKill t) => deathPushes m t
  | .call (.threadExit _) => if m.currentThread = 0 then deathPushes m 0 else []
  | .call (.threadWakeup q all) => wakes m q all
  | .call (.lockRelease l) => (m.locks l).elim [] fun lock => wakes m lock.queue 1
  | .call (.cvWait _ l) => (m.locks l).elim [] fun lock => wakes m lock.queue 1
  | .call (.cvSignal c _) => (m.cvs c).elim [] fun cv => wakes m cv.queue 0
  | .call (.cvBroadcast c _) => (m.cvs c).elim [] fun cv => wakes m cv.queue 1
  | .exec => if m.administrativeMode then deathPushes m m.currentThread else []
  | _ => []

/-- The lock that the function acquires. -/
def Fn.acquired : Fn → Option Addr
  | .lockAcquire l => some l
  | .cvWait _ l => some l
  | _ => none

/-- The lock whose loop test in `lock_acquire` the step executes, unless it finds the lock free
for certain: that is the case when `cv_wait` has just released it. -/
def testedLock (m : Machine) : Action → Option Addr
  | .call (.lockAcquire l) => some l
  | .exec => (progress m.currentThread m.trace).fn.bind Fn.acquired
  | _ => none

/-- The wait queue that the step can put the current thread to sleep on. -/
def sleepQueue (m : Machine) : Action → Option Addr
  | .call (.threadSleep q) => some q
  | .call (.cvWait c _) => (m.cvs c).map Cv.queue
  | a => (testedLock m a).bind fun l => (m.locks l).bind fun lock =>
      if lock.current = -1 then none else some lock.queue

/-- The wait queue that the step frees. -/
def freedQueue (m : Machine) : Action → Option Addr
  | .exec =>
    match m.control with
    | .alloc (.waitQueueDestroy q) => some q
    | .alloc (.lockDestroyQueue l) => (m.locks l).map Lock.queue
    | .alloc (.cvDestroyQueue c) => (m.cvs c).map Cv.queue
    | _ => none
  | _ => none

/-- The entries after pushes of several threads. -/
def pushAll (es : List Tid) (ts : List Tid) : List Tid := ts.foldl pushEntry es

/-- In the view `v`, the step from `m` is about to push `t`. -/
def Pushes (m : Machine) (a : Action) (v : View) (t : Tid) : Prop :=
  ∃ before after, pushes m a = before ++ t :: after ∧
    v.ready = pushAll m.threadQueue.entries before

/-- The view `v` is that of `m`, but for events. -/
def Unchanged (m : Machine) (v : View) : Prop := v = { abs m with trace := v.trace }

/-- In the view `w`, the wait queue `q` has lost entries at its head at most since `v`. -/
def View.Trims (v w : View) (q : Addr) : Prop :=
  ∀ o es, w.queues q = some (o, es) → ∃ es₀, v.queues q = some (o, es₀) ∧ es <:+ es₀

/-- In the view `v`, the step from `m` puts the current thread to sleep on the wait queue `q` of
`o`. -/
structure Sleeps (m : Machine) (a : Action) (v : View) (q : Addr) (o : Owner) : Prop where
  queue : sleepQueue m a = some q
  current : v.current = m.currentThread
  trims : (abs m).Trims v q
  lock : ∀ l, o = .lock l → testedLock m a = some l ∧ v.queues = (abs m).queues ∧ v.locks = m.locks

/-- The conditions under which the step from `m` by `a` carries out a transaction in the
view `v`. -/
def Permits (m : Machine) (a : Action) (v : View) : Label → Prop
  | .called f => a = .call f ∧ v = abs m ∧ f.Admissible m
  | .create num fn parg => a = .call (.threadCreate fn parg) ∧ threadNumToCreate m = some num ∧
      Unchanged m v ∧ Pushes m a v num
  | .dispatch _ => v.state v.current ≠ .Destroyed →
      (∃ t, v.Calls (.threadYield t)) ∨ progress v.current v.trace = {} ∨
        a = .tick ∧ (∃ t ∈ m.threadQueue.entries, ¬ Useless m t) ∧ ∃ p, m.control = .alloc p ∧
          progress v.current v.trace = { fn := some p.fn, block := p.block }
  | .yieldTo t => a = .call (.threadYield t) ∧ Unchanged m v ∧ Pushes m a v v.current
  | .sleep q o _ => Sleeps m a v q o
  | .waitNone x => ∃ c, a = .call (.threadWait x c) ∧ WaitSleeps m x ∧
      ∀ t ∈ m.threadQueue.entries, Useless m t
  | .wake _ t => Pushes m a v t
  | .die t killed => killed = true → a = .call (.threadKill t) ∧ Unchanged m v
  | .dieTo t _ killed =>
      (killed = true → a = .call (.threadKill t) ∧ Unchanged m v) ∧ Pushes m a v v.current
  | .dieBack t killed => killed = true → a = .call (.threadKill t) ∧ Unchanged m v
  | .dropQueue q => freedQueue m a = some q ∧ v = abs m
  | .dropHalf _ q => freedQueue m a = some q ∧ v = abs m
  | _ => True

/-- The transactions on which `Permits` puts no condition. -/
def Label.free : Label → Bool
  | .called _ => false
  | .create _ _ _ => false
  | .dispatch _ => false
  | .yieldTo _ => false
  | .sleep _ _ _ => false
  | .waitNone _ => false
  | .wake _ _ => false
  | .die _ _ => false
  | .dieTo _ _ _ => false
  | .dieBack _ _ => false
  | .dropQueue _ => false
  | .dropHalf _ _ => false
  | _ => true

/-- The free transactions are permitted. -/
lemma permits_of_free (m : Machine) (a : Action) (v : View) (l : Label) (h : l.free = true) :
    Permits m a v l := by
  cases l <;> trivial

end UserThreads
