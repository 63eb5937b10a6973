import UserSpaceThreads.CondVars
import UserSpaceThreads.Exits

set_option relaxedAutoImplicit false
set_option autoImplicit false

/-!
# Where the process can crash

A step crashes if an assertion fails in it, if it reads an object that is not there, loads a
context that has never been saved or has been spent, or calls `exit` with a status other than 0.
In a *fit* state the steps of the library itself and the timer never crash, and a call by user
code crashes in the step in which it is made if and only if it breaks its own precondition
(`Fn.Pre`): the assertions at its head and the presence of the objects that it is given.

`malloc369` is taken not to fail here: the `exit(-1)` that it calls then is left out.

## Main definitions

* `UserThreads.Healthy` — the process has not crashed.
* `UserThreads.Fit`, `UserThreads.Equipped` — what calls rely on, and what the library relies on
  to go on.
* `UserThreads.Fn.Pre` — the precondition of a call.

## Main results

* `UserThreads.Fit.call_healthy` — a call crashes if and only if it breaks its precondition.
* `UserThreads.Equipped.exec_healthy`, `UserThreads.Fit.tick_healthy` — the other steps do not
  crash.
-/

namespace UserThreads

variable {α : Type} {m m' : Machine} {q l c : Addr} {t : Tid} {k : Stack}

/-! ## Crashes -/

/-- An assertion has failed, the behaviour is undefined, or the process has exited with a status
other than 0. -/
def Control.fails : Control → Bool
  | .aborted => true
  | .undefined => true
  | .exited n => n ≠ 0
  | _ => false

/-- The process has not crashed. -/
def Healthy (m : Machine) : Prop := m.control.fails = false

instance (m : Machine) : Decidable (Healthy m) := inferInstanceAs (Decidable (_ = _))

/-- The process has not crashed when the function has returned or control has left it. -/
def Safe (o : Outcome Machine α) : Prop := o.All (fun _ _ => True) Healthy

/-- A failed assertion is a crash. -/
@[simp] lemma not_healthy_abort : ¬ Healthy m.abort := by simp [Healthy, Control.fails]

/-- Undefined behaviour is a crash. -/
@[simp] lemma not_healthy_undef : ¬ Healthy m.undef := by simp [Healthy, Control.fails]

/-- A function that returns has not crashed. -/
@[simp] lemma safe_ret (a : α) : Safe (.ret a m) := trivial

/-- A function that does not return has not crashed if the process is healthy where it goes on. -/
@[simp] lemma safe_jump : Safe (.jump m : Outcome Machine α) ↔ Healthy m := Iff.rfl

/-- The first part of a safe function is safe. -/
lemma Safe.of_bind {β : Type} {o : Outcome Machine α} {g : α → Machine → Outcome Machine β}
    (h : Safe (o.bind g)) : Safe o := by
  cases o with
  | ret a m => trivial
  | jump m => exact h

/-- If what follows is safe, a function is safe if its first part is. -/
lemma safe_bind {β : Type} {o : Outcome Machine α} {g : α → Machine → Outcome Machine β}
    (hg : ∀ a m, Safe (g a m)) : Safe (o.bind g) ↔ Safe o :=
  ⟨Safe.of_bind, fun h => h.bind fun a m _ => hg a m⟩

/-- A return to user code is healthy. -/
lemma healthy_userReturn (f : Fn) (r : Ret) : Healthy (userReturn f r m) := rfl

/-- A function is safe if and only if the step is healthy in which its caller goes on. -/
lemma healthy_andThen {o : Outcome Machine α} {g : α → Machine → Machine}
    (hg : ∀ a m, Healthy (g a m)) : Healthy (andThen o g) ↔ Safe o := by
  cases o with
  | ret a m => exact iff_of_true (hg a m) trivial
  | jump m => exact Iff.rfl

/-- A call is healthy if and only if its function is safe. -/
lemma healthy_returning {o : Outcome Machine α} (f : Fn) (r : α → Ret) :
    Healthy (andThen o fun a m => userReturn f (r a) m) ↔ Safe o :=
  healthy_andThen fun a _ => healthy_userReturn f (r a)

/-- Control does not come back to the caller of the function. -/
def NoReturn (o : Outcome Machine α) : Prop := o.All (fun _ _ => False) fun _ => True

/-- What follows does not return. -/
lemma noReturn_bind {β : Type} {o : Outcome Machine α} {g : α → Machine → Outcome Machine β}
    (hg : ∀ a m, NoReturn (g a m)) : NoReturn (o.bind g) := by
  cases o with
  | ret a m => exact hg a m
  | jump m => trivial

/-- A step that ends in a function that does not return. -/
lemma NoReturn.healthy_andThen {o : Outcome Machine α} (h : NoReturn o)
    (g : α → Machine → Machine) :
    Healthy (andThen o g) ↔ Safe o := by
  cases o with
  | ret a m => exact h.elim
  | jump m => exact Iff.rfl

/-! ## `thread_yield` -/

/-- Every live thread but the current one has a saved context. -/
def Saved (m : Machine) : Prop :=
  ∀ t, t ≠ m.currentThread → (m.threads t).state ≠ .Destroyed →
    ∃ cx, (m.threads t).ucontext = .saved cx

/-- The contexts of parked threads are saved. -/
lemma Parked.saved (h : Parked m) : Saved m := fun t ht hst =>
  let ⟨_, hk, _⟩ := (h.threads t ht hst).saved
  ⟨_, hk⟩

/-- Between steps, the contexts are saved. -/
lemma Base.saved (hb : Base m) : Saved m := fun _ ht hst =>
  let ⟨_, hk, _⟩ := (hb.parkedAt ht hst).saved
  ⟨_, hk⟩

/-- The switch to a live thread. -/
lemma Saved.switch (hs : Saved m) (hne : t ≠ m.currentThread)
    (hst : (m.threads t).state ≠ .Destroyed) (s : Bool) (k : Stack) :
    Healthy (threadYieldSwitch s t k m) := by
  obtain ⟨cx, hcx⟩ := hs t hne hst
  rw [Healthy, threadYieldSwitch_control hne hcx]
  rfl

/-- `thread_yield(THREAD_ANY)` finds no thread, or the process goes on in another one. -/
lemma Saved.threadYield_any (hs : Saved m) (hcur : isValidThread m.currentThread)
    (hv : ∀ t ∈ m.threadQueue.entries, isValidThread t) (k : Stack) :
    (threadYield THREAD_ANY k m).All (fun r m' => r = THREAD_NONE ∧
      (∀ t ∈ m.threadQueue.entries, Useless m t) ∧ ∃ q', m' = m.setThreadQueue q') Healthy := by
  rcases threadYield_any_cases k hcur hv with
    ⟨q', -, hall, heq⟩ | ⟨-, t, -, q', -, -, -, hrun, hne, -, heq⟩
  · rw [heq]
    exact ⟨rfl, hall, q', rfl⟩
  · rw [heq]
    have hs' : Saved ((m.interruptsSet false).setThreadQueue q') := hs
    exact hs'.switch hne (by simp [hrun]) _ _

/-- **`thread_yield`** does not crash. -/
lemma Saved.threadYield_safe (hs : Saved m) (hv : (abs m).Valid) (t : Tid) (k : Stack) :
    Safe (threadYield t k m) := by
  by_cases hany : t = THREAD_ANY
  · subst hany
    exact (hs.threadYield_any hv.current hv.ready k).mono (fun _ _ _ => trivial) fun _ h => h
  rw [threadYield]
  simp only [Machine.interruptsSet_currentThread, if_neg hany]
  by_cases hself : t = THREAD_SELF ∨ t = m.currentThread
  · rw [if_pos hself]
    trivial
  rw [if_neg hself]
  have hs' : Saved (m.interruptsSet false) := hs
  have hne : t ≠ (m.interruptsSet false).currentThread := fun heq => hself (.inr heq)
  by_cases hlive : isValidThread t ∧ (m.threads t).state ≠ .Destroyed
  · rw [threadYieldTo_live (m := m.interruptsSet false) hlive.1 hlive.2]
    exact hs'.switch hne hlive.2 _ _
  · rw [threadYieldTo_dead (m := m.interruptsSet false)
      (by rw [Machine.interruptsSet_threads]; tauto)]
    trivial

/-! ## Fit states -/

/-- `q` is null or the address of a wait queue. -/
def QueueAt (m : Machine) (q : Addr) : Prop := q = NULL ∨ (m.waitQueues q).isSome = true

instance (m : Machine) (q : Addr) : Decidable (QueueAt m q) := inferInstanceAs (Decidable (_ ∨ _))

/-- A lock is at `l`, and it is free or its wait queue is there. -/
def LockAt (m : Machine) (l : Addr) : Prop :=
  ∃ lock ∈ m.locks l, lock.current = -1 ∨ QueueAt m lock.queue

instance (m : Machine) (l : Addr) : Decidable (LockAt m l) :=
  inferInstanceAs (Decidable (∃ lock ∈ m.locks l, _))

/-- When the current thread has pushed itself onto the wait queue `q`, it is the last entry. -/
def Room (m : Machine) (q : Addr) : Prop :=
  ∀ wq, m.waitQueues q = some wq → (wq.queue.push m.currentThread).popLast.1 = m.currentThread

/-- The entries of a wait queue are different threads, none of which is Running. -/
def Wakeable (m : Machine) : Prop :=
  ∀ q wq, m.waitQueues q = some wq →
    wq.queue.entries.Nodup ∧ ∀ t ∈ wq.queue.entries, (m.threads t).state ≠ .Running

/-- The waiters of live threads are other threads, asleep. -/
def Awaited (m : Machine) : Prop :=
  ∀ t w, (m.threads t).state ≠ .Destroyed → (m.threads t).waiter = w → w ≠ -1 →
    isValidThread w ∧ w ≠ t ∧ w ≠ m.currentThread ∧ (m.threads w).state = .Sleep

/-- The object is there that the call of the allocator frees the first half of. -/
def AllocPoint.Present (m : Machine) : AllocPoint → Prop
  | .lockDestroyQueue l => (m.locks l).isSome = true
  | .cvDestroyQueue c => (m.cvs c).isSome = true
  | _ => True

/-- What calls by user code and the timer signal rely on. -/
structure Fit (m : Machine) : Prop where
  base : Base m
  wakeable : Wakeable m
  room : ∀ q, Room m q
  awaited : Awaited m
  /-- no assertion of `free369` fails -/
  heap : ∀ p, ∃ heap, m.heap.free369 p = some heap
  /-- locks and condition variables have wait queues of their own -/
  apart : ∀ c cv l lock, m.cvs c = some cv → m.locks l = some lock → cv.queue ≠ lock.queue

/-- What the library relies on to go on. -/
structure Equipped (m : Machine) : Prop extends Fit m where
  /-- the lock that the current thread is about to take is there -/
  lock : fate m.currentThread m.trace = some .alive →
    ∀ l, (progress m.currentThread m.trace).fn.bind Fn.acquired = some l → l ≠ NULL ∧ LockAt m l
  /-- the object is there that it is about to free -/
  present : ∀ p, m.control = .alloc p → p.Present m

/-! ## Going to sleep -/

/-- **`thread_sleep`** crashes if and only if the wait queue is not there. -/
lemma Saved.threadSleep_safe (hs : Saved m) (hv : (abs m).Valid) (hroom : Room m q)
    (hq : QueueAt m q) (k : Stack) : (threadSleep q k m).All
      (fun _ m' => m'.locks = m.locks ∧ m'.interrupts = m.interrupts) Healthy := by
  by_cases hq0 : q = NULL
  · rw [threadSleep, if_pos hq0]
    exact ⟨rfl, rfl⟩
  obtain ⟨wq, hwq⟩ := Option.isSome_iff_exists.mp (hq.resolve_left hq0)
  rcases threadSleep_cases hv hwq k with
    ⟨q', -, -, heq⟩ | ⟨-, t, -, q', -, -, -, hrun, hne, -, heq⟩
  · rw [heq, if_pos (hroom wq hwq)]
    exact ⟨rfl, rfl⟩
  · rw [heq]
    have hs' : Saved (((asleepAt m q wq).interruptsSet false).setThreadQueue q') := by
      intro u hu hst
      have hu' : u ≠ m.currentThread := hu
      simp only [Machine.setThreadQueue_threads, Machine.interruptsSet_threads,
        Machine.emit_threads, Machine.setWaitQueue_threads, Machine.setState_threads,
        Function.update_of_ne hu'] at hst ⊢
      exact hs u hu' hst
    exact hs'.switch hne (by simp [Function.update_of_ne hne, hrun]) _ _

/-- `thread_sleep` does not crash if and only if the wait queue is there. -/
lemma Saved.threadSleep_iff (hs : Saved m) (hv : (abs m).Valid) (hroom : Room m q) (k : Stack) :
    Safe (threadSleep q k m) ↔ QueueAt m q := by
  refine ⟨fun h => ?_, fun hq =>
    (hs.threadSleep_safe hv hroom hq k).mono (fun _ _ _ => trivial) fun _ h => h⟩
  by_contra hq
  obtain ⟨hq0, hnone⟩ := not_or.mp hq
  rw [Option.not_isSome_iff_eq_none] at hnone
  rw [threadSleep, if_neg hq0] at h
  simp [hnone] at h

/-- **The loop of `lock_acquire`** crashes if and only if the lock is not there, or the wait queue
on which it has to sleep. -/
lemma Saved.lockAcquireLoop_iff (hs : Saved m) (hv : (abs m).Valid) (hroom : ∀ q, Room m q)
    (s : Bool) (k : Stack) : Safe (lockAcquireLoop l s k m) ↔ LockAt m l := by
  rw [lockAcquireLoop]
  cases hl : m.locks l with
  | none => simp [LockAt, hl]
  | some lock =>
    have hat : LockAt m l ↔ lock.current = -1 ∨ QueueAt m lock.queue := by simp [LockAt, hl]
    dsimp only
    rw [hat]
    by_cases hfree : lock.current = -1
    · rw [if_neg (not_not.mpr hfree)]
      exact iff_of_true trivial (.inl hfree)
    · rw [if_pos hfree, or_iff_right hfree]
      refine (safe_bind fun a m' => ?_).trans (hs.threadSleep_iff hv (hroom _) _)
      exact safe_jump.mpr rfl

/-- **`lock_acquire`**. -/
lemma Saved.lockAcquire_iff (hs : Saved m) (hv : (abs m).Valid) (hroom : ∀ q, Room m q)
    (k : Stack) :
    Safe (lockAcquire l k m) ↔ l ≠ NULL ∧ LockAt m l := by
  rw [lockAcquire]
  by_cases hl : l = NULL
  · simp [hl]
  · rw [if_neg hl]
    have hs' : Saved (m.interruptsSet false) := hs
    exact (hs'.lockAcquireLoop_iff hv hroom _ k).trans (and_iff_right hl).symm

/-! ## Waking up -/

/-- **`thread_wakeup`** returns if the wait queue is there. -/
lemma Wakeable.threadWakeup_done (h : Wakeable m) (hv : (abs m).Valid) (hq : QueueAt m q)
    (all : ℤ) :
    ∃ n m', threadWakeup q all m = .ret n m' ∧
      ∀ p, p ≠ q → m'.waitQueues p = m.waitQueues p := by
  by_cases hq0 : q = NULL
  · rw [threadWakeup, if_pos hq0]
    exact ⟨0, m, rfl, fun _ _ => rfl⟩
  · obtain ⟨wq, hwq⟩ := Option.isSome_iff_exists.mp (hq.resolve_left hq0)
    obtain ⟨hnodup, hrun⟩ := h q wq hwq
    obtain ⟨m', hm', hwoken⟩ := threadWakeup_returns hv hwq hnodup hrun all
    exact ⟨_, m', hm', hwoken.others⟩

/-- `thread_wakeup` does not crash if and only if the wait queue is there. -/
lemma Wakeable.threadWakeup_iff (h : Wakeable m) (hv : (abs m).Valid) (all : ℤ) :
    Safe (threadWakeup q all m) ↔ QueueAt m q := by
  refine ⟨fun hsafe => ?_, fun hq => ?_⟩
  · by_contra hq
    obtain ⟨hq0, hnone⟩ := not_or.mp hq
    rw [Option.not_isSome_iff_eq_none] at hnone
    rw [threadWakeup, if_neg hq0] at hsafe
    simp [hnone] at hsafe
  · obtain ⟨n, m', hm', -⟩ := h.threadWakeup_done hv hq all
    rw [hm']
    trivial

/-- The lock at `l` belongs to the current thread, and its wait queue is there. -/
def Releasable (m : Machine) (l : Addr) : Prop :=
  l ≠ NULL ∧ ∃ lock ∈ m.locks l, lock.current = m.currentThread ∧ QueueAt m lock.queue

instance (m : Machine) (l : Addr) : Decidable (Releasable m l) :=
  inferInstanceAs (Decidable (l ≠ NULL ∧ ∃ lock ∈ m.locks l, _))

/-- **`lock_release`** returns if the lock is there and belongs to the current thread. -/
lemma Wakeable.lockRelease_done (h : Wakeable m) (hv : (abs m).Valid) (hl0 : l ≠ NULL) {lock : Lock}
    (hl : m.locks l = some lock) (hown : lock.current = m.currentThread)
    (hq : QueueAt m lock.queue) : ∃ m', lockRelease l m = .ret () m' ∧
      ∀ p, p ≠ lock.queue → m'.waitQueues p = m.waitQueues p := by
  have h' : Wakeable ((m.interruptsSet false).setLock l (some { lock with current := -1 })) := h
  obtain ⟨n, m', hm', hothers⟩ := h'.threadWakeup_done (hv.retrace ..) hq 1
  refine ⟨m'.interruptsSet m.interrupts, ?_, hothers⟩
  rw [lockRelease, if_neg hl0]
  simp only [Machine.interruptsSet_locks, hl, Machine.interruptsSet_currentThread, hown,
    not_true_eq_false, if_false]
  rw [hm']
  rfl

/-- `lock_release` does not crash if and only if the lock is there with its wait queue and belongs
to the current thread. -/
lemma Wakeable.lockRelease_iff (h : Wakeable m) (hv : (abs m).Valid) :
    Safe (lockRelease l m) ↔ Releasable m l := by
  refine ⟨fun hsafe => ?_, fun ⟨hl0, lock, hl, hown, hq⟩ => ?_⟩
  · rw [lockRelease] at hsafe
    by_cases hl0 : l = NULL
    · simp [hl0] at hsafe
    rw [if_neg hl0] at hsafe
    cases hl : m.locks l with
    | none => simp [hl] at hsafe
    | some lock =>
      simp only [Machine.interruptsSet_locks, hl, Machine.interruptsSet_currentThread] at hsafe
      by_cases hown : lock.current = m.currentThread
      swap
      · simp [hown] at hsafe
      refine ⟨hl0, lock, hl, hown, ?_⟩
      have h' : Wakeable ((m.interruptsSet false).setLock l (some { lock with current := -1 })) := h
      rw [if_neg (not_not.mpr hown)] at hsafe
      exact (h'.threadWakeup_iff (hv.retrace ..) 1).mp hsafe.of_bind
  · obtain ⟨m', hm', -⟩ := h.lockRelease_done hv hl0 hl hown hq
    rw [hm']
    trivial

/-! ## Condition variables -/

/-- A condition variable is at `c`, and its wait queue is there. -/
def CvThere (m : Machine) (c : Addr) : Prop := c ≠ NULL ∧ ∃ cv ∈ m.cvs c, QueueAt m cv.queue

instance (m : Machine) (c : Addr) : Decidable (CvThere m c) :=
  inferInstanceAs (Decidable (c ≠ NULL ∧ ∃ cv ∈ m.cvs c, _))

/-- **`cv_signal` and `cv_broadcast`**.

**Proof sketch.** The checks come in the order of the source. Behind them the function is a
`thread_wakeup` on the wait queue of the condition variable (`threadWakeup_iff`). -/
lemma Wakeable.cvWakeup_iff (h : Wakeable m) (hv : (abs m).Valid) (all : ℤ) :
    Safe (cvWakeup all c l m) ↔ CvThere m c ∧ l ≠ NULL ∧ OwnsLock m l := by
  rw [cvWakeup]
  by_cases hc0 : c = NULL
  · simp [hc0, CvThere]
  by_cases hl0 : l = NULL
  · simp [hc0, hl0]
  rw [if_neg hc0, if_neg hl0]
  simp only [Machine.interruptsSet_locks, Machine.interruptsSet_cvs]
  cases hl : m.locks l with
  | none => simp [OwnsLock, hl]
  | some lock =>
    simp only [Machine.interruptsSet_currentThread]
    by_cases hown : lock.current = m.currentThread
    swap
    · simp [OwnsLock, hl, hown]
    rw [if_neg (not_not.mpr hown)]
    have howns : OwnsLock m l := ⟨lock, hl, hown⟩
    simp only [hl0, ne_eq, not_false_eq_true, howns, and_true]
    cases hc : m.cvs c with
    | none => simp [CvThere, hc]
    | some cv =>
      have hat : CvThere m c ↔ QueueAt m cv.queue := by simp [CvThere, hc, hc0]
      have h' : Wakeable (m.interruptsSet false) := h
      refine (safe_bind fun a m' => ?_).trans ((h'.threadWakeup_iff hv all).trans hat.symm)
      exact safe_ret _

/-- What `lock_release` leaves in `cv_wait`. -/
structure Released (m : Machine) (l q : Addr) (m₁ : Machine) : Prop where
  saved : Saved m₁
  valid : (abs m₁).Valid
  interrupts : m₁.interrupts = false
  current : m₁.currentThread = m.currentThread
  cvs : m₁.cvs = m.cvs
  free : ∃ lock, m₁.locks l = some lock ∧ lock.current = -1
  others : ∀ p, p ≠ q → m₁.waitQueues p = m.waitQueues p

/-- `cv_wait` behind its `lock_release`.

**Proof sketch.** The `thread_sleep` is safe if and only if the wait queue of the condition variable
is there. If it returns, no other thread has run, so the lock is free and `lock_acquire` takes it at
once. -/
lemma Released.goesOn {m₁ : Machine} {lock : Lock} (h : Released m l lock.queue m₁)
    (hroom : ∀ q, Room m q) (hne : ∀ cv, m.cvs c = some cv → cv.queue ≠ lock.queue) (hc0 : c ≠ NULL)
    (hl0 : l ≠ NULL) (s : Bool) (k k' : Stack) :
    Safe (match m₁.cvs c with
      | none => .jump m₁.undef
      | some cv => (threadSleep cv.queue k m₁).bind fun _ m =>
          cvWaitAfterSleep l s k' m) ↔ CvThere m c := by
  rw [h.cvs]
  cases hc : m.cvs c with
  | none => simp [CvThere, hc]
  | some cv =>
    have hqueue := h.others cv.queue (hne cv hc)
    have hat : CvThere m c ↔ QueueAt m₁ cv.queue := by simp [CvThere, hc, hc0, QueueAt, hqueue]
    have hroom₁ : Room m₁ cv.queue := fun wq hwq => by
      rw [h.current]
      exact hroom cv.queue wq (hqueue ▸ hwq)
    rw [hat]
    dsimp only
    refine ⟨fun hsafe => (h.saved.threadSleep_iff h.valid hroom₁ k).mp hsafe.of_bind, fun hq => ?_⟩
    · refine (h.saved.threadSleep_safe h.valid hroom₁ hq k).bind ?_
      rintro - m₂ ⟨hlocks, hint⟩
      obtain ⟨lock', hl, hfree⟩ := h.free
      have hl₂ : m₂.locks l = some lock' := (congrFun hlocks l).trans hl
      have hint₂ : m₂.interrupts = false := hint.trans h.interrupts
      rw [cvWaitAfterSleep, hint₂, if_neg (by decide), lockAcquire, if_neg hl0, lockAcquireLoop]
      simp only [Machine.interruptsSet_locks, hl₂, hfree, ne_eq, not_true_eq_false, if_false]
      trivial

/-- **`cv_wait`** comes to its `thread_sleep` if the lock belongs to the current thread. -/
lemma Wakeable.cvWait_releases (h : Wakeable m) (hv : (abs m).Valid) (hi : Inside m) {f : Fn}
    (hcalls : (abs m).Calls f) (hf : f = .cvWait c l)
    (hholds : holds m.currentThread l m.trace = false) (hl0 : l ≠ NULL) {lock : Lock}
    (hl : m.locks l = some lock) (hown : lock.current = m.currentThread)
    (hq : QueueAt m lock.queue) : ∃ m₁, lockRelease l (m.interruptsSet false) = .ret () m₁ ∧
      Released m l lock.queue m₁ := by
  have h' : Wakeable (m.interruptsSet false) := h
  obtain ⟨m₁, hm₁, hothers⟩ := h'.lockRelease_done hv hl0 hl hown hq
  have hi₀ : Inside (m.interruptsSet false) := (keeps_interruptsSet ..).inside hi hi.state
  have hrun : Run (fun _ _ => True) (abs (m.interruptsSet false)) (m.interruptsSet false) :=
    ⟨hv, hi₀, .refl⟩
  have hback := hrun.lockRelease_spec (f := f) (l := l) (fun _ _ _ => trivial) hcalls
    (by simp [hf, Fn.wakesOn]) (by simp [hf, Fn.releases]) hholds fun _ _ _ _ _ _ _ _ => trivial
  rw [hm₁] at hback
  obtain ⟨⟨hrun₁, -, hint, hcur⟩, hfree, hcvs, -⟩ := hback
  exact ⟨m₁, hm₁, hrun₁.inside.parked.saved, hrun₁.valid, hint, hcur, hcvs, hfree, hothers⟩

/-- **`cv_wait`**.

**Proof sketch.** The checks come in the order of the source. Behind them, `lock_release` returns if
the wait queue of the lock is there (`cvWait_releases`), and what follows is `Released.goesOn`. -/
lemma Wakeable.cvWait_iff (h : Wakeable m) (hv : (abs m).Valid) (hi : Inside m)
    (hcalls : (abs m).Calls (.cvWait c l)) (hholds : holds m.currentThread l m.trace = false)
    (hroom : ∀ q, Room m q)
    (hapart : ∀ cv lock, m.cvs c = some cv → m.locks l = some lock → cv.queue ≠ lock.queue)
    (k : Stack) : Safe (cvWait c l k m) ↔ CvThere m c ∧ Releasable m l := by
  rw [cvWait]
  by_cases hc0 : c = NULL
  · simp [hc0, CvThere]
  by_cases hl0 : l = NULL
  · simp [hc0, hl0, Releasable]
  rw [if_neg hc0, if_neg hl0]
  simp only [Machine.interruptsSet_locks]
  cases hl : m.locks l with
  | none => simp [Releasable, hl]
  | some lock =>
    simp only [Machine.interruptsSet_currentThread]
    by_cases hown : lock.current = m.currentThread
    swap
    · simp [Releasable, hl, hown]
    rw [if_neg (not_not.mpr hown)]
    by_cases hq : QueueAt m lock.queue
    swap
    · refine iff_of_false (fun hsafe => hq ?_) fun hboth => ?_
      · have h' : Wakeable (m.interruptsSet false) := h
        obtain ⟨-, lock', hl', -, hq'⟩ := (h'.lockRelease_iff hv).mp hsafe.of_bind
        obtain rfl := Option.some.inj (hl.symm.trans hl')
        exact hq'
      · obtain ⟨-, lock', hl', -, hq'⟩ := hboth.2
        obtain rfl := Option.some.inj (hl.symm.trans hl')
        exact hq hq'
    obtain ⟨m₁, hm₁, hreleased⟩ := h.cvWait_releases hv hi hcalls rfl hholds hl0 hl hown hq
    rw [hm₁, Outcome.bind_ret, and_iff_left ⟨hl0, lock, hl, hown, hq⟩]
    exact hreleased.goesOn hroom (fun cv hc => hapart cv lock hc hl) hc0 hl0 _ _ _

/-! ## Deaths -/

/-- The death of a thread that nobody is waiting for. -/
lemma handleDeath_unawaited (hw : (m.threads t).waiter = -1) (k : Stack) :
    handleDeath t k m = .ret () (m.setState t .Destroyed) :=
  handleDeath_alone fun hne => (hne hw).elim

/-- A change of state leaves the contexts. -/
lemma ucontext_setState (m : Machine) (t : Tid) (s : State) (u : Tid) :
    ((m.setState t s).threads u).ucontext = (m.threads u).ucontext :=
  congrFun (field_update_same Thread.ucontext m.threads t { m.threads t with state := s } rfl) u

/-- The death of a thread with a waiter: the waiter gets the processor. -/
lemma Awaited.handleDeath_waited (h : Awaited m) (hs : Saved m)
    (ht : (m.threads t).state ≠ .Destroyed)
    (hw : (m.threads t).waiter ≠ -1) (k : Stack) :
    ∃ m', handleDeath t k m = .jump m' ∧ Healthy m' := by
  obtain ⟨hvalid, hne, hcur, hsleep⟩ := h t _ ht rfl hw
  have hlive : (m.threads (m.threads t).waiter).state ≠ .Destroyed := by simp [hsleep]
  rw [UserThreads.handleDeath_waited rfl hne hvalid hlive, if_neg (by simp [hsleep]), if_neg hcur]
  refine ⟨_, rfl, ?_⟩
  have hs' : Saved (releasedAt (m.interruptsSet false) t (m.threads t).waiter) := by
    intro u hu hst
    have hucontext :
        ((releasedAt (m.interruptsSet false) t (m.threads t).waiter).threads u).ucontext =
        (m.threads u).ucontext :=
      (ucontext_setState _ _ _ u).trans (ucontext_setState _ _ _ u)
    rw [hucontext]
    refine hs u hu fun hdead => hst ?_
    have huw : u ≠ (m.threads t).waiter := fun heq => hlive (heq ▸ hdead)
    rw [Machine.emit_threads, Machine.setState_threads, Function.update_of_ne huw]
    rcases eq_or_ne u t with rfl | hut
    · simp
    · simpa [Function.update_of_ne hut] using hdead
  exact hs'.switch hcur (by simp) _ _

/-- **`handle_death`** of a live thread. -/
lemma Awaited.handleDeath_safe (h : Awaited m) (hs : Saved m)
    (ht : (m.threads t).state ≠ .Destroyed)
    (k : Stack) : Safe (handleDeath t k m) := by
  by_cases hw : (m.threads t).waiter = -1
  · rw [handleDeath_unawaited hw]
    trivial
  · obtain ⟨m', hm', hhealthy⟩ := h.handleDeath_waited hs ht hw k
    rw [hm']
    exact hhealthy

/-- **`thread_kill`** by user code.

**Proof sketch.** A refused call returns. Otherwise `free369` does not fail, and `handle_death`
finds no waiter, or one that sleeps and can be switched to (`handleDeath_safe`). -/
lemma Awaited.threadKill_safe (h : Awaited m) (hs : Saved m)
    (hheap : ∀ p, ∃ heap, m.heap.free369 p = some heap) (t : Tid) (k : Stack) :
    Safe (threadKill t k m) := by
  rw [threadKill]
  dsimp only
  split_ifs with hself hvalid hdead h0
  · trivial
  · trivial
  · trivial
  -- the thread dies in a state with the threads of `m`
  all_goals
    have hdies (m₁ : Machine) (hthreads : m₁.threads = m.threads)
        (hcur : m₁.currentThread = m.currentThread) :
        Safe ((handleDeath t (.threadKill t m.interrupts :: k) m₁).bind fun _ m' =>
          threadKillAfterDeath t m.interrupts m') := by
      refine (safe_bind fun _ _ => safe_ret _).mpr (Awaited.handleDeath_safe ?_ ?_ ?_ _)
      · rw [Awaited, hthreads, hcur]
        exact h
      · rw [Saved, hthreads, hcur]
        exact hs
      · rw [hthreads]
        exact hdead
  · obtain ⟨heap, hfree⟩ := hheap (m.threads t).stackStart
    have hfree' :
        (m.interruptsSet false).heap.free369 ((m.interruptsSet false).threads t).stackStart =
        some heap := hfree
    rw [Machine.free369, hfree', Outcome.bind_ret]
    refine hdies _ ?_ ?_ <;> split_ifs <;> rfl
  · rw [Outcome.bind_ret]
    refine hdies _ ?_ ?_ <;> split_ifs <;> rfl

/-! ## `thread_exit` -/

/-- Thread 0 has somebody to leave the processor to when it exits. -/
def Replaceable (m : Machine) : Prop :=
  (heir m 0).isSome = true ∨ ∃ t ∈ m.threadQueue.entries, ¬ Useless m t

instance (m : Machine) : Decidable (Replaceable m) := inferInstanceAs (Decidable (_ ∨ _))

/-- Thread 0 exits, and nobody is waiting for it.

**Proof sketch.** If the `thread_yield` finds a thread, its context is saved and the switch
succeeds. If it finds none, what is left to load is the own context of thread 0, which is not there
(`unsaved`). -/
lemma Inside.threadExitAfterDeath_iff (hi : Inside m) (hs : Saved m) (hv : (abs m).Valid)
    (h0 : m.currentThread = 0) (m₁ : Machine) (hcur : m₁.currentThread = m.currentThread)
    (hready : m₁.threadQueue = m.threadQueue)
    (hthreads : ∀ t, t ≠ 0 → m₁.threads t = m.threads t)
    (hcontext : (m₁.threads 0).ucontext = (m.threads 0).ucontext) (code : ℤ) :
    Safe (threadExitAfterDeath code k m₁) ↔ ∃ t ∈ m.threadQueue.entries, ¬ Useless m t := by
  have huseless (t : Tid) : Useless m₁ t ↔ Useless m t := by
    rcases eq_or_ne t 0 with rfl | ht
    · simp [Useless, hcur, h0]
    · rw [Useless, Useless, hthreads t ht, hcur]
  have hs₁ : Saved m₁ := fun t ht hst => by
    rw [hcur] at ht
    have ht0 : t ≠ 0 := h0 ▸ ht
    rw [hthreads t ht0] at hst ⊢
    exact hs t ht hst
  have hcur₁ : isValidThread m₁.currentThread := hcur ▸ hv.current
  have hvalid : ∀ t ∈ m₁.threadQueue.entries, isValidThread t := hready ▸ hv.ready
  rw [threadExitAfterDeath]
  rcases threadYield_any_cases (.threadExitYield code :: k) hcur₁ hvalid with
    ⟨q', -, hall, heq⟩ | ⟨ds, t, ts, q', hes, -, -, hrun, hne, -, heq⟩
  · -- its own context is all that is left to load
    rw [heq, Outcome.bind_ret, safe_jump]
    refine iff_of_false (fun hsafe => ?_) ?_
    · have hundef := threadExitSetcontext_undefined (m := m₁.setThreadQueue q') code
        fun cx hcx => by
        refine hi.unsaved cx ?_
        rw [h0, ← hcontext]
        exact hcx
      rw [Healthy, hundef] at hsafe
      cases hsafe
    · rintro ⟨t, ht, huse⟩
      exact huse ((huseless t).mp (hall t (hready ▸ ht)))
  · rw [heq, Outcome.bind_jump, safe_jump]
    have hs' : Saved ((m₁.interruptsSet false).setThreadQueue q') := hs₁
    refine iff_of_true (hs'.switch hne (by simp [hrun]) _ _) ⟨t, ?_, fun huse => ?_⟩
    · rw [← hready, hes]
      simp
    · exact (huseless t).mpr huse ⟨hrun, hne⟩

/-- A thread exits with the signal blocked. -/
lemma healthy_exit_masked {f : Fn} {code : ℤ}
    (hf : f = .threadExit code ∨ f = .threadReturn ∧ code = 0)
    (hint : m.interrupts = false) : ¬ Healthy (call f m) := by
  rw [Healthy, call_exit_masked hint hf]
  decide

/-- A thread other than thread 0 exits: the context of thread 0 is there. -/
lemma Inside.healthy_exit_other (hi : Inside m) (h0 : m.currentThread ≠ 0) {f : Fn} {code : ℤ}
    (hf : f = .threadExit code ∨ f = .threadReturn ∧ code = 0) (hint : m.interrupts = true) :
    Healthy (call f m) := by
  obtain ⟨s, a, k', hz⟩ := hi.parked.zero h0
  rw [call_exits h0 hint hf hz]
  rfl

/-- Thread 0 exits.

**Proof sketch.** A thread that waits for thread 0 is asleep, so `handle_death` gives it the
processor. Without one thread 0 dies, and the rest of `thread_exit` is healthy if and only if its
`thread_yield` finds another thread (`threadExitAfterDeath_iff`). -/
lemma Inside.healthy_exit_main (hi : Inside m) (ha : Awaited m) (hv : (abs m).Valid)
    (h0 : m.currentThread = 0) (hint : m.interrupts = true) (code : ℤ) :
    Healthy (call (.threadExit code) m) ↔ Replaceable m := by
  set m₁ := (((m.emit (.called m.currentThread (.threadExit code))).interruptsSet false).emit
    (.exited m.currentThread code)).setExitCode m.currentThread code with hm₁
  have hcall : Healthy (call (.threadExit code) m) ↔ Safe ((handleDeath m₁.currentThread
      [.threadExitDeath code, .user (.threadExit code)] m₁).bind fun _ m =>
        threadExitAfterDeath code [.user (.threadExit code)] m) := by
    have hexit : threadExit code [.user (.threadExit code)]
        (m.emit (.called m.currentThread (.threadExit code))) =
          (handleDeath m₁.currentThread [.threadExitDeath code, .user (.threadExit code)] m₁).bind
            fun _ m => threadExitAfterDeath code [.user (.threadExit code)] m := by
      rw [threadExit, if_neg (by simp [hint])]
      exact if_pos h0
    have hnoReturn : NoReturn (threadExit code [.user (.threadExit code)]
        (m.emit (.called m.currentThread (.threadExit code)))) := by
      rw [hexit]
      exact noReturn_bind fun _ _ => noReturn_bind fun _ _ => trivial
    rw [← hexit]
    exact hnoReturn.healthy_andThen _
  rw [hcall]
  have hfield {β : Type} (g : Thread → β) (hg : ∀ th, g { th with exitCode := code } = g th)
      (t : Tid) : g (m₁.threads t) = g (m.threads t) :=
    congrFun (field_update_same g m.threads m.currentThread _ (hg _)) t
  have hs₁ : Saved m₁ := fun t ht hst => by
    rw [hfield Thread.ucontext fun _ => rfl]
    rw [hfield Thread.state fun _ => rfl] at hst
    exact hi.parked.saved t ht hst
  have ha₁ : Awaited m₁ := fun t w hst hw hne => by
    rw [hfield Thread.state fun _ => rfl] at hst ⊢
    rw [hfield Thread.waiter fun _ => rfl] at hw
    exact ha t w hst hw hne
  have hst₁ : (m₁.threads m₁.currentThread).state ≠ .Destroyed := by
    rw [hfield Thread.state fun _ => rfl]
    exact hi.state
  have hw₁ : (m₁.threads m₁.currentThread).waiter = (m.threads m.currentThread).waiter :=
    hfield Thread.waiter (fun _ => rfl) _
  by_cases hw : (m.threads m.currentThread).waiter = -1
  · have hnone : heir m 0 = none := by simp [heir, ← h0, hw]
    have hstate (t : Tid) (ht : t ≠ 0) : (m₁.setState m₁.currentThread .Destroyed).threads t =
        m.threads t := by
      have ht' : t ≠ m.currentThread := h0 ▸ ht
      simp [hm₁, Function.update_of_ne ht']
    rw [handleDeath_unawaited (hw₁.trans hw), Outcome.bind_ret, Replaceable, hnone,
      hi.threadExitAfterDeath_iff hi.parked.saved hv h0 (m₁.setState m₁.currentThread .Destroyed)
        rfl rfl hstate]
    · simp
    · exact (ucontext_setState ..).trans (hfield Thread.ucontext (fun _ => rfl) 0)
  · obtain ⟨m', hm', hhealthy⟩ := ha₁.handleDeath_waited hs₁ hst₁ (by rwa [hw₁]) _
    rw [hm']
    refine iff_of_true hhealthy (.inl ?_)
    obtain ⟨-, hne, -, hsleep⟩ := ha m.currentThread _ hi.state rfl hw
    rw [h0] at hw hne hsleep
    simp [heir, hw, hne, hsleep, h0]

/-! ## `thread_create` and `thread_wait` -/

/-- **`thread_create`** crashes if and only if the signal is blocked. -/
lemma threadCreate_iff (fn parg : ℕ) : Safe (threadCreate fn parg m) ↔ m.interrupts = true := by
  rw [threadCreate]
  cases hint : m.interrupts with
  | false => simp
  | true =>
    rw [if_neg (by simp)]
    cases threadNumToCreate (m.interruptsSet false) <;> exact iff_of_true trivial rfl

/-- **`thread_wait`** crashes if and only if the signal is blocked. -/
lemma Inside.threadWait_iff (hi : Inside m) (hv : (abs m).Valid) (x : Tid) (b : Bool) :
    Safe (threadWait x b k m) ↔ m.interrupts = true := by
  rw [threadWait]
  cases hint : m.interrupts with
  | false => simp
  | true =>
    refine iff_of_true ?_ rfl
    simp only [not_true_eq_false, if_false]
    split_ifs
    · trivial
    · trivial
    · trivial
    · have hs : Saved (awaitingAt m x) := (inside_awaitingAt hi x).parked.saved
      have hyield := hs.threadYield_any hv.current hv.ready (.threadWait x b true :: k)
      refine hyield.bind ?_
      rintro - m' ⟨-, -, q', rfl⟩
      trivial
    · trivial
    · trivial

/-! ## Calls -/

/-- The precondition of a call: what its assertions ask for, and the objects that it uses. -/
def Fn.Pre (m : Machine) : Fn → Prop
  | .threadCreate _ _ => m.interrupts = true
  | .threadWait _ _ => m.interrupts = true
  | .threadReturn => m.interrupts = true
  | .threadExit _ => m.interrupts = true ∧ (m.currentThread = 0 → Replaceable m)
  | .threadSleep q => QueueAt m q
  | .threadWakeup q _ => QueueAt m q
  | .lockDestroy l => l ≠ NULL ∧ ∃ lock ∈ m.locks l, lock.current = -1
  | .lockAcquire l => l ≠ NULL ∧ LockAt m l
  | .lockRelease l => Releasable m l
  | .cvDestroy c => c ≠ NULL
  | .cvWait c l => CvThere m c ∧ Releasable m l
  | .cvSignal c l => CvThere m c ∧ l ≠ NULL ∧ OwnsLock m l
  | .cvBroadcast c l => CvThere m c ∧ l ≠ NULL ∧ OwnsLock m l
  | _ => True

/-- **`lock_destroy`**, up to its first `free369`. -/
lemma lockDestroy_iff :
    Healthy (lockDestroy l m) ↔ l ≠ NULL ∧ ∃ lock ∈ m.locks l, lock.current = -1 := by
  rw [lockDestroy]
  by_cases hl0 : l = NULL
  · simp [hl0]
  rw [if_neg hl0]
  cases hl : m.locks l with
  | none => simp
  | some lock =>
    by_cases hfree : lock.current = -1
    · simp [hl0, hfree, Healthy, Control.fails]
    · simp [hfree]

/-- **`cv_destroy`**, up to its first `free369`. -/
lemma cvDestroy_iff : Healthy (cvDestroy c m) ↔ c ≠ NULL := by
  rw [cvDestroy]
  by_cases hc0 : c = NULL
  · simp [hc0]
  · simp [hc0, Healthy, Control.fails]

/-- **Calls crash exactly when they break their preconditions**: in a fit state, a call by user
code crashes in the step in which it is made if and only if its precondition does not hold.

**Proof sketch.** Each function has its own lemma, such as `threadSleep_iff`, about what it does
inside. The context of every live thread is saved, so no switch fails, and the wait queues of a fit
state are in order, so no assertion about them does. -/
theorem Fit.call_healthy (h : Fit m) (hu : m.control = .user) {f : Fn} (hadm : f.Admissible m) :
    Healthy (call f m) ↔ f.Pre m := by
  have hcontrol := h.base.control
  rw [ControlOk, hu] at hcontrol
  obtain ⟨hi, hprogress⟩ := hcontrol
  set m₀ := calledAt m f with hm₀
  have hi₀ : Inside m₀ := (keeps_calledAt m f).inside hi hi.state
  have hv₀ : (abs m₀).Valid := h.base.valid.retrace ..
  have hs₀ : Saved m₀ := h.base.saved
  have hw₀ : Wakeable m₀ := h.wakeable
  have hroom₀ : ∀ q, Room m₀ q := h.room
  have ha₀ : Awaited m₀ := h.awaited
  cases f with
  | threadCreate fn parg => exact (healthy_returning _ _).trans (threadCreate_iff fn parg)
  | threadYield t =>
    exact iff_of_true ((healthy_returning _ _).mpr (hs₀.threadYield_safe hv₀ t _)) trivial
  | threadExit code =>
    cases hint : m.interrupts with
    | false => simp [Fn.Pre, hint, healthy_exit_masked (.inl rfl) hint]
    | true =>
      by_cases h0 : m.currentThread = 0
      · simp [Fn.Pre, hint, h0, hi.healthy_exit_main h.awaited h.base.valid h0 hint code]
      · simp [Fn.Pre, hint, h0, hi.healthy_exit_other h0 (.inl rfl) hint]
  | threadReturn =>
    cases hint : m.interrupts with
    | false => simp [Fn.Pre, hint, healthy_exit_masked (.inr ⟨rfl, rfl⟩) hint]
    | true => simp [Fn.Pre, hint, hi.healthy_exit_other hadm (.inr ⟨rfl, rfl⟩) hint]
  | threadKill t =>
    exact iff_of_true ((healthy_returning _ _).mpr (ha₀.threadKill_safe hs₀ h.heap t _)) trivial
  | waitQueueCreate | waitQueueDestroy | lockCreate | cvCreate | interruptsSet =>
    exact iff_of_true rfl trivial
  | threadSleep q => exact (healthy_returning _ _).trans (hs₀.threadSleep_iff hv₀ (hroom₀ q) _)
  | threadWakeup q all => exact (healthy_returning _ _).trans (hw₀.threadWakeup_iff hv₀ all)
  | threadWait x b => exact (healthy_returning _ _).trans (hi₀.threadWait_iff hv₀ x b)
  | lockDestroy l => exact lockDestroy_iff
  | lockAcquire l => exact (healthy_returning _ _).trans (hs₀.lockAcquire_iff hv₀ hroom₀ _)
  | lockRelease l => exact (healthy_returning _ _).trans (hw₀.lockRelease_iff hv₀)
  | cvDestroy c => exact cvDestroy_iff
  | cvWait c l =>
    exact (healthy_returning _ _).trans (hw₀.cvWait_iff hv₀ hi₀ (calls_calledAt hi _)
      (by simp [hm₀, holds, Fn.releases]) hroom₀ (fun cv lock hc hl => h.apart c cv l lock hc hl) _)
  | cvSignal c l | cvBroadcast c l => exact (healthy_returning _ _).trans (hw₀.cvWakeup_iff hv₀ _)

/-! ## The other steps -/

/-- Behind the loop of `lock_acquire`, its caller returns. -/
lemma LoopCaller.healthy_unwind {s : Bool} {f : Fn} (h : LoopCaller l s k f) (r : Ret) :
    Healthy (unwind k r m) := by
  cases h <;> rfl

/-- The loop of `lock_acquire`, up to the return of its caller. -/
lemma LoopCaller.healthy {s : Bool} {f : Fn} (h : LoopCaller l s k f) (hs : Saved m)
    (hv : (abs m).Valid) (hroom : ∀ q, Room m q) (hl : LockAt m l) :
    Healthy (andThen (lockAcquireLoop l s k m) fun _ m => unwind k ⟨0, none⟩ m) :=
  (healthy_andThen fun _ _ => h.healthy_unwind _).mpr ((hs.lockAcquireLoop_iff hv hroom s k).mpr hl)

/-- A thread that has been resumed in `thread_yield` goes on.

**Proof sketch.** By the place where the thread was suspended. Only the ways through the loop of
`lock_acquire` can fail, and they need the lock and its wait queue. -/
lemma Suspended.healthy {s : Bool} {a : Tid} {p : Progress}
    (h : Suspended (.threadYield s a true :: k) p) (hint : m.interrupts = s) (hs : Saved m)
    (hv : (abs m).Valid) (hroom : ∀ q, Room m q)
    (hl : ∀ l, p.fn.bind Fn.acquired = some l → l ≠ NULL ∧ LockAt m l) :
    Healthy (unwind k ⟨a, none⟩ m) := by
  have hsame (hf : s = false) : m.interruptsSet false = m := by rw [← hf, ← hint]; rfl
  cases h with
  | yield | kill => rfl
  | tick ha what => cases what <;> rfl
  | sleep ha q b =>
    rw [unwind, threadSleepAfterYield, if_neg ha.ne.2.1]
    rfl
  | wait ha hx b =>
    rw [unwind, threadWaitAfterYield, hint, if_neg (by decide)]
    rfl
  | acquire ha q l b =>
    rw [unwind, threadSleepAfterYield, if_neg ha.ne.2.1, hsame rfl]
    exact (LoopCaller.acquire b).healthy hs hv hroom (hl l rfl).2
  | cvSleep ha q c l b =>
    rw [unwind, threadSleepAfterYield, if_neg ha.ne.2.1, hsame rfl]
    show Healthy (andThen (cvWaitAfterSleep l b [.user (.cvWait c l)] m)
      fun _ m => userReturn (.cvWait c l) ⟨0, none⟩ m)
    rw [healthy_returning (.cvWait c l) fun _ => ⟨0, none⟩, cvWaitAfterSleep, hint,
      if_neg (by decide)]
    refine (safe_bind fun a m' => ?_).mpr ((hs.lockAcquire_iff hv hroom _).mpr (hl l rfl))
    exact safe_ret _
  | cvAcquire ha q c l b =>
    rw [unwind, threadSleepAfterYield, if_neg ha.ne.2.1, hsame rfl]
    exact (LoopCaller.cvWait c b).healthy hs hv hroom (hl l rfl).2

/-- **Resuming a thread.** -/
lemma Entering.healthy (h : Entering m k) (hint : m.interrupts = false)
    (hcontrol : m.control = .resumed k) (hs : Saved m) (hv : (abs m).Valid)
    (hroom : ∀ q, Room m q)
    (hl : ∀ l, (progress m.currentThread m.trace).fn.bind Fn.acquired = some l →
      l ≠ NULL ∧ LockAt m l) : Healthy (exec m) := by
  rcases h.exec_cases hint hcontrol with ⟨fn, parg, -, heq⟩ | ⟨s, a, k', rfl, -, heq⟩
  · rw [heq]
    rfl
  · rw [heq]
    refine h.suspended.healthy rfl (fun t ht hst => ?_) ?_ hroom hl
    · have ht' : t ≠ m.currentThread := ht
      simp only [Machine.interruptsSet_threads, Machine.setUcontext_threads,
        Function.update_of_ne ht'] at hst ⊢
      exact hs t ht' hst
    · rw [abs_interruptsSet, abs_setUcontext]
      exact hv

/-- **The exit of a thread on the stack of thread 0.**

**Proof sketch.** Without a waiter the thread dies and `thread_yield` switches to a thread whose
context is saved, or the process exits. A waiter is asleep, and the switch to it succeeds. -/
lemma Exiting.healthy (h : Exiting m k) (hint : m.interrupts = false)
    (hcontrol : m.control = .resumed k) (hv : (abs m).Valid) (ha : Awaited m)
    (hheap : ∀ p, ∃ heap, m.heap.free369 p = some heap) : Healthy (exec m) := by
  obtain ⟨heap, hfree⟩ := hheap (m.threads m.currentThread).stackStart
  by_cases hw : (m.threads m.currentThread).waiter = -1
  · obtain ⟨g, hg⟩ := exec_alone h hcontrol hint hv.current hfree fun hne => (hne hw).elim
    have hs : Saved (buriedAt m heap) := fun t ht hst => by
      have ht' : t ≠ m.currentThread := ht
      obtain ⟨-, k', hk, -⟩ := h.parked.threads t ht'
        (by simpa [Function.update_of_ne ht'] using hst)
      exact ⟨_, by simpa [Function.update_of_ne ht'] using hk⟩
    rw [hg]
    have hyield := hs.threadYield_any hv.current hv.ready (.adminYield :: k)
    generalize threadYield THREAD_ANY (.adminYield :: k) (buriedAt m heap) = o at hyield
    cases o with
    | jump m' => exact hyield
    | ret a m' =>
      -- nobody is left: `exit(0)`
      obtain ⟨rfl, -, q', rfl⟩ := hyield
      rfl
  · obtain ⟨hvalid, hne, -, hsleep⟩ := ha m.currentThread _ h.state rfl hw
    obtain ⟨-, k', hk, -⟩ := h.parked.threads _ hne (by simp [hsleep])
    rw [exec_waited h hcontrol hint hv.current hfree rfl hvalid hne hsleep]
    set M := releasedAt ((freedAt m heap).interruptsSet false) m.currentThread
      (m.threads m.currentThread).waiter
    have hneM : (m.threads m.currentThread).waiter ≠ M.currentThread := hne
    have hcx : (M.threads (m.threads m.currentThread).waiter).ucontext = .saved ⟨_, false, k'⟩ :=
      (ucontext_setState ..).trans ((ucontext_setState ..).trans hk)
    rw [Healthy, threadYieldSwitch_control hneM hcx]
    rfl

/-- The create and destroy functions, from one call of the allocator to the next. -/
lemma AllocPoint.healthy {p : AllocPoint} (hp : p.Present m)
    (hheap : ∀ p, ∃ heap, m.heap.free369 p = some heap) : Healthy (allocate p m) := by
  have hfree (p : Addr) : Safe (m.free369 p) := by
    obtain ⟨heap, hfree⟩ := hheap p
    rw [Machine.free369, hfree]
    trivial
  unfold allocate
  cases p with
  | waitQueueCreate | lockCreate | lockCreateQueue | cvCreate | cvCreateQueue => rfl
  | waitQueueDestroy p | lockDestroy p | cvDestroy p =>
    exact (healthy_andThen fun _ _ => healthy_userReturn ..).mpr (hfree p)
  | lockDestroyQueue l =>
    obtain ⟨lock, hl⟩ := Option.isSome_iff_exists.mp hp
    dsimp only
    rw [hl]
    refine (healthy_andThen fun _ _ => ?_).mpr (hfree lock.queue)
    rfl
  | cvDestroyQueue c =>
    obtain ⟨cv, hc⟩ := Option.isSome_iff_exists.mp hp
    dsimp only
    rw [hc]
    refine (healthy_andThen fun _ _ => ?_).mpr (hfree cv.queue)
    rfl

/-- **The library goes on** without a crash.

**Proof sketch.** By the place where the library goes on: between two calls of the allocator its
object is there, at the loop test its lock is, and a context that has been loaded belongs to a live
thread or to an exit. -/
theorem Equipped.exec_healthy (h : Equipped m) (hs : step m .exec = some m') : Healthy m' := by
  have hcontrol := h.base.control
  rw [ControlOk] at hcontrol
  rw [step] at hs
  cases hc : m.control with
  | alloc p =>
    rw [hc] at hs
    cases hs
    rw [exec, hc]
    exact AllocPoint.healthy (h.present p hc) h.heap
  | lockLoop l s k =>
    rw [hc] at hs hcontrol
    cases hs
    obtain ⟨hi, hint, f, hcaller, hprogress⟩ := hcontrol
    rw [exec, hc]
    refine hcaller.healthy hi.parked.saved h.base.valid h.room (h.lock hi.alive l ?_).2
    rw [hprogress]
    cases hcaller <;> rfl
  | resumed k =>
    rw [hc] at hs hcontrol
    cases hs
    obtain ⟨hint, hentering | hexiting⟩ := hcontrol
    · exact hentering.healthy hint hc h.base.saved h.base.valid h.room
        (h.lock hentering.inside.alive)
    · exact hexiting.healthy hint hc h.base.valid h.awaited h.heap
  | _ =>
    rw [hc] at hs
    cases hs

/-- **The timer signal** does not crash the process.

**Proof sketch.** The handler is a `thread_yield(THREAD_ANY)`, which is safe as every live thread
can be switched to (`threadYield_safe`). -/
theorem Fit.tick_healthy (h : Fit m) (hs : step m .tick = some m') : Healthy m' := by
  have htick (what : Interrupted) : Healthy (interruptHandler what m) := by
    have hs' : Saved (m.interruptsSet false) := h.base.saved
    refine (healthy_andThen fun _ _ => ?_).mpr (hs'.threadYield_safe h.base.valid THREAD_ANY _)
    cases what <;> rfl
  rw [step] at hs
  split_ifs at hs
  cases hc : m.control with
  | user | alloc p =>
    rw [hc] at hs
    cases hs
    exact htick _
  | _ =>
    rw [hc] at hs
    cases hs

end UserThreads
