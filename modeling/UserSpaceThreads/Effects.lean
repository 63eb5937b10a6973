import UserSpaceThreads.Refine

set_option relaxedAutoImplicit false
set_option autoImplicit false

/-!
# What single calls do to the view

The effect of a call on what threads share, step by step, when nothing stands in its way: the
lock that is acquired is free, nobody sleeps on the lock that is released, the first entry of
`thread_queue` can run. The specifications in `Specs` say which transactions a call may carry
out; here the state after it is computed.

## Main definitions

* `UserThreads.LeadsTo`, `UserThreads.Resumes` — the view after a step, and where control is.

## Main results

* `UserThreads.leadsTo_lockAcquire`, `UserThreads.leadsTo_lockRelease`,
  `UserThreads.leadsTo_cvSignal` — calls that return at once.
* `UserThreads.Base.threadYield_resumes`, `UserThreads.Base.cvWait_resumes` — calls that give the
  processor to the first entry of `thread_queue`.
* `UserThreads.Base.leadsTo_yielded`, `UserThreads.Base.leadsTo_waited` — their returns.
-/

namespace UserThreads

variable {m : Machine} {l c q : Addr} {t : Tid}

/-- The step `a` leads to user code, and threads share `v` then. -/
def LeadsTo (m : Machine) (a : Action) (v : View) : Prop :=
  ∃ m', step m a = some m' ∧ m'.control = .user ∧ abs m' = v

/-- The step `a` loads the saved context of a thread, and threads share `v` then. -/
def Resumes (m : Machine) (a : Action) (v : View) : Prop :=
  ∃ m' k, step m a = some m' ∧ m'.control = .resumed k ∧ abs m' = v

/-- `thread_wakeup` on an empty wait queue does nothing. -/
lemma threadWakeup_nil {wq : WaitQueue} (all : ℤ) (hq0 : q ≠ NULL) (hq : m.waitQueues q = some wq)
    (hnil : wq.queue.entries = []) : threadWakeup q all m = .ret 0 m := by
  have hsame : Function.update m.waitQueues q (some wq) = m.waitQueues := by
    rw [← hq, Function.update_eq_self]
  rw [threadWakeup, if_neg hq0]
  simp only [Machine.interruptsSet_waitQueues, hq, threadWakeupLoop, Queue.pop_of_nil hnil, if_true]
  show Outcome.ret (0 : ℤ) { m with waitQueues := Function.update m.waitQueues q (some wq) } = _
  rw [hsame]

/-- `lock_release` when nobody sleeps on the lock. -/
lemma lockRelease_nil {lock : Lock} {wq : WaitQueue} (hl0 : l ≠ NULL)
    (hlock : m.locks l = some lock) (hown : lock.current = m.currentThread)
    (hq0 : lock.queue ≠ NULL)
    (hq : m.waitQueues lock.queue = some wq) (hnil : wq.queue.entries = []) :
    lockRelease l m = .ret () (m.setLock l (some { lock with current := -1 })) := by
  have hwake := threadWakeup_nil (m := (m.interruptsSet false).setLock l
    (some { lock with current := -1 })) 1 hq0 hq hnil
  rw [lockRelease, if_neg hl0]
  simp only [Machine.interruptsSet_locks, hlock, Machine.interruptsSet_currentThread,
    if_neg (not_not.mpr hown), hwake]
  rfl

/-- `thread_wakeup(q, 0)` takes the first sleeper. -/
lemma threadWakeup_one {wq : WaitQueue} {es : List Tid} (hq0 : q ≠ NULL)
    (hq : m.waitQueues q = some wq) (hes : wq.queue.entries = t :: es) (ht : isValidThread t)
    (hst : (m.threads t).state = .Sleep) :
    threadWakeup q 0 m = .ret 1 (wokenOne m q { wq with queue := wq.queue.pop.2 } t) := by
  obtain ⟨hpop, -⟩ := Queue.pop_of_cons hes
  rw [threadWakeup, if_neg hq0]
  simp only [Machine.interruptsSet_waitQueues, hq, threadWakeupLoop, hpop, if_neg ht.ne.1,
    Machine.setWaitQueue_threads, Machine.interruptsSet_threads, hst, if_true]
  rfl

/-- `lock_acquire` on a free lock. -/
lemma leadsTo_lockAcquire {lock : Lock} (hu : m.control = .user)
    (hgave : Gave .lockCreate l m.trace) (hl0 : l ≠ NULL) (hlock : m.locks l = some lock)
    (hfree : lock.current = -1) :
    LeadsTo m (.call (.lockAcquire l))
      ((((abs m).emit (.called m.currentThread (.lockAcquire l))).setLock l
        (some { lock with current := m.currentThread })).back (.lockAcquire l) ⟨0, none⟩) := by
  have hret : lockAcquire l [.user (.lockAcquire l)] (calledAt m (.lockAcquire l)) =
      .ret () (((calledAt m (.lockAcquire l)).setLock l
        (some { lock with current := m.currentThread }))) := by
    rw [lockAcquire, if_neg hl0, lockAcquireLoop]
    simp only [Machine.interruptsSet_locks, Machine.emit_locks, hlock, hfree]
    rfl
  refine ⟨_, if_pos ⟨hu, .inr hgave⟩, ?_, ?_⟩
  · show (andThen (lockAcquire l _ (calledAt m (.lockAcquire l))) _).control = _
    rw [hret]
    rfl
  · show abs (andThen (lockAcquire l _ (calledAt m (.lockAcquire l))) _) = _
    rw [hret]
    rfl

/-- `lock_release` when nobody sleeps on the lock. -/
lemma leadsTo_lockRelease {lock : Lock} {o : Owner} (hu : m.control = .user)
    (hgave : Gave .lockCreate l m.trace) (hl0 : l ≠ NULL) (hlock : m.locks l = some lock)
    (hown : lock.current = m.currentThread) (hq0 : lock.queue ≠ NULL)
    (hq : (abs m).queues lock.queue = some (o, [])) :
    LeadsTo m (.call (.lockRelease l))
      ((((abs m).emit (.called m.currentThread (.lockRelease l))).setLock l
        (some { lock with current := -1 })).back (.lockRelease l) ⟨0, none⟩) := by
  obtain ⟨wq, hwq, -, hnil⟩ := waitQueue_of_abs hq
  have hret := lockRelease_nil (m := calledAt m (.lockRelease l)) hl0 hlock hown hq0 hwq hnil
  refine ⟨_, if_pos ⟨hu, .inr hgave⟩, ?_, ?_⟩
  · show (andThen (lockRelease l (calledAt m (.lockRelease l))) _).control = _
    rw [hret]
    rfl
  · show abs (andThen (lockRelease l (calledAt m (.lockRelease l))) _) = _
    rw [hret]
    rfl

/-- `cv_signal` when a thread waits.

**Proof sketch.** The owner passes the check, and `thread_wakeup` wakes the first sleeper of the
condition variable (`threadWakeup_one`). -/
lemma leadsTo_cvSignal {lock : Lock} {cv : Cv} {o : Owner} {es : List Tid} (hu : m.control = .user)
    (hl : Gave .lockCreate l m.trace) (hc : Gave .cvCreate c m.trace) (hl0 : l ≠ NULL)
    (hc0 : c ≠ NULL) (hlock : m.locks l = some lock) (hown : lock.current = m.currentThread)
    (hcv : m.cvs c = some cv) (hq0 : cv.queue ≠ NULL)
    (hq : (abs m).queues cv.queue = some (o, t :: es)) (ht : isValidThread t)
    (hst : (m.threads t).state = .Sleep) :
    LeadsTo m (.call (.cvSignal c l)) ((((((((abs m).emit (.called m.currentThread
      (.cvSignal c l))).setQueue cv.queue (some (o, es))).setState t .Running).emit
        (.woken t cv.queue)).pushReady t)).back (.cvSignal c l) ⟨0, none⟩) := by
  obtain ⟨wq, hwq, rfl, hes⟩ := waitQueue_of_abs hq
  have hwake := threadWakeup_one (m := (calledAt m (.cvSignal c l)).interruptsSet false) hq0 hwq hes
    ht hst
  have hret : cvSignal c l (calledAt m (.cvSignal c l)) = .ret () ((wokenOne
      ((calledAt m (.cvSignal c l)).interruptsSet false) cv.queue
        { wq with queue := wq.queue.pop.2 } t).interruptsSet m.interrupts) := by
    rw [cvSignal, cvWakeup, if_neg hc0, if_neg hl0]
    simp only [Machine.interruptsSet_locks, Machine.emit_locks, hlock,
      Machine.interruptsSet_currentThread, Machine.emit_currentThread, if_neg (not_not.mpr hown),
      Machine.interruptsSet_cvs, Machine.emit_cvs, hcv, hwake]
    rfl
  refine ⟨_, if_pos ⟨hu, .inr hc, .inr hl⟩, ?_, ?_⟩
  · show (andThen (cvSignal c l (calledAt m (.cvSignal c l))) _).control = _
    rw [hret]
    rfl
  · show abs (andThen (cvSignal c l (calledAt m (.cvSignal c l))) _) = _
    rw [hret]
    show abs (userReturn _ _ _) = _
    rw [abs_userReturn, abs_interruptsSet, wokenOne, abs_pushReady, abs_emit, abs_setState,
      abs_setWaitQueue, abs_interruptsSet, abs_emit, Option.map_some, absQueue,
      (Queue.pop_of_cons hes).2]

/-- The switch to a live thread loads its context. -/
lemma Base.switch_resumes (hb : Base m) (m₁ : Machine) (s : Bool) (k : Stack)
    (hne : t ≠ m.currentThread) (hst : (m.threads t).state ≠ .Destroyed)
    (hcur : m₁.currentThread = m.currentThread)
    (hslot : (m₁.threads t).ucontext = (m.threads t).ucontext) :
    ∃ kt, (threadYieldSwitch s t k m₁).control = .resumed kt := by
  obtain ⟨-, kt, hkt, -⟩ := hb.parkedAt hne hst
  exact ⟨kt, threadYieldSwitch_control (c := ⟨(m.threads t).stackStart, false, kt⟩)
    (by rwa [hcur]) (by rw [hslot, hkt])⟩

/-- The first entry is the one that `get_thread_any` takes if it can run. -/
lemma first_useful {ts ds us : List Tid} {u : Tid} (heq : t :: ts = ds ++ u :: us)
    (ht : ¬ Useless m t) (hds : ∀ d ∈ ds, Useless m d) : u = t ∧ us = ts := by
  cases ds with
  | nil => simpa [eq_comm] using heq
  | cons d ds =>
    obtain ⟨rfl, -⟩ := List.cons_eq_cons.mp heq
    exact (ht (hds t (List.mem_cons_self ..))).elim

/-- `thread_yield(THREAD_ANY)` when the first entry can run. -/
lemma Base.threadYield_resumes (hb : Base m) (hu : m.control = .user) {ts : List Tid}
    (hready : m.threadQueue.entries = t :: ts) (hst : (m.threads t).state = .Running)
    (hne : t ≠ m.currentThread) :
    Resumes m (.call (.threadYield THREAD_ANY)) ((((abs m).emit (.called m.currentThread
      (.threadYield THREAD_ANY))).setReady ts).switchTo t) := by
  set m₀ := calledAt m (.threadYield THREAD_ANY) with hm₀
  have hready₀ : m₀.threadQueue.entries = t :: ts := hready
  have huse : ¬ Useless m₀ t := not_not.mpr ⟨hst, hne⟩
  have hstep : step m (.call (.threadYield THREAD_ANY)) = some (andThen (threadYield THREAD_ANY
      [.user (.threadYield THREAD_ANY)] m₀) fun v m => userReturn (.threadYield THREAD_ANY)
        ⟨v, none⟩ m) := if_pos ⟨hu, trivial⟩
  rcases threadYield_any_cases (m := m₀) [.user (.threadYield THREAD_ANY)] hb.valid.current
      hb.valid.ready with ⟨q', -, hall, -⟩ | ⟨ds, u, us, q', hes, hus, -, -, -, hds, heq⟩
  · exact (huse (hall t (by rw [hready₀]; exact List.mem_cons_self ..))).elim
  · obtain ⟨rfl, rfl⟩ := first_useful (hready₀.symm.trans hes) huse hds
    obtain ⟨k, hk⟩ := hb.switch_resumes ((m₀.interruptsSet false).setThreadQueue q') m₀.interrupts
      [.user (.threadYield THREAD_ANY)] hne (by rw [hst]; decide) rfl rfl
    refine ⟨_, k, hstep, ?_, ?_⟩
    · rw [heq]
      exact hk
    · rw [heq]
      show abs (threadYieldSwitch ..) = _
      rw [abs_threadYieldSwitch, abs_setThreadQueue, hus]
      rfl

/-- `cv_wait` by the owner of a lock on which nobody sleeps, when the first entry can run.

**Proof sketch.** The owner passes the check of `lock_release`, which has nobody to wake and frees
the lock (`lockRelease_nil`). The first entry of `thread_queue` is useful, so `thread_sleep` does
not fail: it drops no entry and switches to that thread (`threadSleep_cases`). -/
lemma Base.cvWait_resumes (hb : Base m) (hu : m.control = .user) {lock : Lock} {cv : Cv}
    {o o' : Owner} {es ts : List Tid} (hl : Gave .lockCreate l m.trace)
    (hc : Gave .cvCreate c m.trace) (hl0 : l ≠ NULL) (hc0 : c ≠ NULL)
    (hlock : m.locks l = some lock)
    (hown : lock.current = m.currentThread) (hq : (abs m).queues lock.queue = some (o, []))
    (hcv : m.cvs c = some cv) (hcq : (abs m).queues cv.queue = some (o', es))
    (hready : m.threadQueue.entries = t :: ts) (hst : (m.threads t).state = .Running)
    (hne : t ≠ m.currentThread) :
    Resumes m (.call (.cvWait c l))
      ((((((abs m).emit (.called m.currentThread (.cvWait c l))).setLock l
        (some { lock with current := -1 })).asleep m.currentThread cv.queue o' es).setReady
          ts).switchTo t) := by
  obtain ⟨lwq, hlwq, -, hnil⟩ := waitQueue_of_abs hq
  obtain ⟨wq, hwq, rfl, rfl⟩ := waitQueue_of_abs hcq
  set m₀ := (calledAt m (.cvWait c l)).interruptsSet false with hm₀
  set m₁ := m₀.setLock l (some { lock with current := -1 }) with hm₁
  have hrelease : lockRelease l m₀ = .ret () m₁ := lockRelease_nil hl0 hlock hown
    (hb.valid.ne_null hq) hlwq hnil
  have hv : (abs m₁).Valid := hb.valid.retrace ..
  have hready₁ : m₁.threadQueue.entries = t :: ts := hready
  have huse : ¬ Useless m₁ t := not_not.mpr ⟨hst, hne⟩
  have hcall : step m (.call (.cvWait c l)) = some (andThen ((threadSleep cv.queue
      [.cvWaitSleep l m.interrupts, .user (.cvWait c l)] m₁).bind fun _ m' =>
        cvWaitAfterSleep l m.interrupts [.user (.cvWait c l)] m')
          fun _ m => userReturn (.cvWait c l) ⟨0, none⟩ m) := by
    rw [step, if_pos ⟨hu, .inr hc, .inr hl⟩, call, cvWait, if_neg hc0, if_neg hl0]
    simp only [Machine.interruptsSet_locks, Machine.emit_locks, hlock,
      Machine.interruptsSet_currentThread, Machine.emit_currentThread, if_neg (not_not.mpr hown)]
    rw [← hm₀, hrelease]
    simp only [Outcome.bind_ret, show m₁.cvs c = some cv from hcv]
    rfl
  rcases threadSleep_cases hv (show m₁.waitQueues cv.queue = some wq from hwq)
      [.cvWaitSleep l m.interrupts, .user (.cvWait c l)] with
    ⟨q', -, hall, -⟩ | ⟨ds, u, us, q', hes, hus, -, -, -, hds, heq⟩
  · exact (huse (hall t (by rw [hready₁]; exact List.mem_cons_self ..))).elim
  · obtain ⟨rfl, rfl⟩ := first_useful (hready₁.symm.trans hes) huse hds
    obtain ⟨k, hk⟩ := hb.switch_resumes
      (((asleepAt m₁ cv.queue wq).interruptsSet false).setThreadQueue q') false
      [.threadSleep cv.queue m₁.interrupts, .cvWaitSleep l m.interrupts, .user (.cvWait c l)]
      hne (by rw [hst]; decide) rfl (by simp [hm₁, hm₀, hne])
    refine ⟨_, k, hcall, ?_, ?_⟩
    · rw [heq]
      exact hk
    · rw [heq]
      show abs (threadYieldSwitch ..) = _
      rw [abs_threadYieldSwitch, abs_setThreadQueue, abs_interruptsSet, abs_asleepAt, hus]
      rfl

/-- What a thread that is suspended in `thread_yield` or `cv_wait` does when its context has been
loaded. -/
lemma Base.exec_eq (hb : Base m) {k : Stack} (hc : m.control = .resumed k)
    (hfate : fate m.currentThread m.trace = some .alive) {f : Fn}
    (hfn : (progress m.currentThread m.trace).fn = some f) :
    ∃ s a k', Suspended (.threadYield s a true :: k') (progress m.currentThread m.trace) ∧
      isValidThread a ∧ step m .exec =
        some (unwind k' ⟨a, none⟩ ((m.setUcontext m.currentThread .spent).interruptsSet s)) := by
  have hcontrol := hb.control
  rw [ControlOk, hc] at hcontrol
  obtain ⟨hint, hentering | hexiting⟩ := hcontrol
  · have hstep : step m .exec = some (exec m) := by
      rw [step]
      simp only [hc]
    rcases hentering.exec_cases hint hc with ⟨fn, parg, rfl, -⟩ | ⟨s, a, k', rfl, ha, hexec⟩
    · have hsus := hentering.suspended
      generalize progress m.currentThread m.trace = p at hsus hfn
      cases hsus
      cases hfn
    · exact ⟨s, a, k', hentering.suspended, ha, by rw [hstep, hexec]⟩
  · rw [hexiting.fate] at hfate
    cases hfate

/-- A thread that goes on from a `thread_yield` returns from it. -/
lemma Base.leadsTo_yielded (hb : Base m) {k : Stack} (hc : m.control = .resumed k)
    (hfate : fate m.currentThread m.trace = some .alive) {x : Tid}
    (hfn : (progress m.currentThread m.trace).fn = some (.threadYield x)) :
    ∃ r, LeadsTo m .exec ((abs m).back (.threadYield x) r) := by
  obtain ⟨s, a, k', hsus, -, hstep⟩ := hb.exec_eq hc hfate hfn
  generalize progress m.currentThread m.trace = p at hsus hfn
  cases hsus with
  | yield s ha t =>
    cases hfn
    refine ⟨⟨a, none⟩, _, hstep, rfl, ?_⟩
    rw [unwind, abs_userReturn, abs_interruptsSet, abs_setUcontext]
  | tick ha what =>
    cases what with
    | user => cases hfn
    | alloc p => cases p <;> cases hfn
  | kill | sleep | wait | acquire | cvSleep | cvAcquire => cases hfn

/-- A thread that goes on from the sleep in a `cv_wait` returns from it if the lock is free.

**Proof sketch.** A thread in `cv_wait` has been suspended in the first sleep of that call or in the
loop of its `lock_acquire`. In both cases the next thing it does is the loop test, which finds the
lock free and takes it; the call then returns. -/
lemma Base.leadsTo_waited (hb : Base m) {k : Stack} (hc : m.control = .resumed k)
    (hfate : fate m.currentThread m.trace = some .alive)
    (hfn : (progress m.currentThread m.trace).fn = some (.cvWait c l)) {lock : Lock}
    (hl0 : l ≠ NULL) (hlock : m.locks l = some lock) (hfree : lock.current = -1) :
    LeadsTo m .exec (((abs m).setLock l (some { lock with current := m.currentThread })).back
      (.cvWait c l) ⟨0, none⟩) := by
  obtain ⟨s, a, k', hsus, ha, hstep⟩ := hb.exec_eq hc hfate hfn
  set m₁ := ((m.setUcontext m.currentThread .spent).interruptsSet s).interruptsSet false with hm₁
  have hloop (s' : Bool) (k : Stack) : lockAcquireLoop l s' k m₁ =
      .ret () ((m₁.setLock l (some { lock with current := m.currentThread })).interruptsSet
        s') := by
    rw [lockAcquireLoop]
    simp only [show m₁.locks l = some lock from hlock, hfree]
    rfl
  generalize progress m.currentThread m.trace = p at hsus hfn
  cases hsus with
  | cvSleep ha q c' l' s' =>
    cases hfn
    have hwait : cvWaitAfterSleep l s' [.user (.cvWait c l)] m₁ = .ret () (cvWaitAfterAcquire s'
        (m₁.setLock l (some { lock with current := m.currentThread }))) := by
      rw [cvWaitAfterSleep, if_neg (show ¬ m₁.interrupts = true from Bool.false_ne_true),
        lockAcquire, if_neg hl0]
      have hidle : m₁.interruptsSet false = m₁ := rfl
      simp only [hidle, hloop]
      rfl
    refine ⟨_, hstep, ?_, ?_⟩
    · rw [unwind, threadSleepAfterYield, if_neg ha.ne.2.1]
      show (andThen (cvWaitAfterSleep l s' [.user (.cvWait c l)] m₁) _).control = _
      rw [hwait]
      rfl
    · rw [unwind, threadSleepAfterYield, if_neg ha.ne.2.1]
      show abs (andThen (cvWaitAfterSleep l s' [.user (.cvWait c l)] m₁) _) = _
      rw [hwait]
      show abs (userReturn _ _ _) = _
      rw [abs_userReturn, cvWaitAfterAcquire, abs_interruptsSet, abs_setLock, hm₁,
        abs_interruptsSet, abs_interruptsSet, abs_setUcontext]
  | cvAcquire ha q c' l' s' =>
    cases hfn
    refine ⟨_, hstep, ?_, ?_⟩
    · rw [unwind, threadSleepAfterYield, if_neg ha.ne.2.1]
      show (andThen (lockAcquireLoop l false [.cvWaitAcquire s', .user (.cvWait c l)] m₁)
        _).control = _
      rw [hloop]
      rfl
    · rw [unwind, threadSleepAfterYield, if_neg ha.ne.2.1]
      show abs (andThen (lockAcquireLoop l false [.cvWaitAcquire s', .user (.cvWait c l)] m₁) _) = _
      rw [hloop]
      show abs (userReturn _ _ _) = _
      rw [abs_userReturn, cvWaitAfterAcquire, abs_interruptsSet, abs_interruptsSet, abs_setLock,
        hm₁, abs_interruptsSet, abs_interruptsSet, abs_setUcontext]
  | tick ha what =>
    cases what with
    | user => cases hfn
    | alloc p => cases p <;> cases hfn
  | yield | kill | sleep | wait | acquire => cases hfn

end UserThreads
