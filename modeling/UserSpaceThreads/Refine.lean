import UserSpaceThreads.DeathSpecs

set_option relaxedAutoImplicit false
set_option autoImplicit false

/-!
# The machine refines its view

Every step of the machine keeps the invariant `Base`, or ends the run, and carries out a
sequence of transactions of the view, each permitted in the sense of `Permits`. So an invariant
of the permitted transactions holds in the view of every reachable state.

## Main results

* `UserThreads.step_refines` — one step.
* `UserThreads.ReachableBy.view` — the invariant rule for views of reachable states.
-/

namespace UserThreads

variable {P : View → Label → Prop} {v : View} {m m' : Machine} {f : Fn}

/-! ## Going on from a saved context -/

/-- A function that has got the lock returns to user code. -/
lemma Acquired.userReturn_spec {l : Addr} {s : Bool} {r : Ret} (h : Acquired P v f l s m)
    (hfree : ∀ u l, Label.free l = true → P u l)
    (hf : f = .lockAcquire l ∨ ∃ c, f = .cvWait c l) : Lands P v (userReturn f r m) := by
  refine h.run.userReturn_spec hfree ?_ ?_
  · rw [show progress m.currentThread m.trace = _ from h.calls.progress]
  · rcases hf with rfl | ⟨c, rfl⟩ <;> exact h.owner

/-- The loop of `lock_acquire` has ended: its caller goes on. -/
lemma LoopCaller.unwind_spec {l : Addr} {s : Bool} {k : Stack} (hcaller : LoopCaller l s k f)
    (h : Acquired P v f l s m) (hfree : ∀ u l, Label.free l = true → P u l) :
    Lands P v (unwind k ⟨0, none⟩ m) := by
  cases hcaller with
  | acquire s =>
    rw [unwind]
    exact h.userReturn_spec hfree (.inl rfl)
  | cvWait c s' =>
    rw [unwind, unwind, cvWaitAfterAcquire]
    have h' : Acquired P v (.cvWait c l) l s' (m.interruptsSet s') :=
      ⟨h.run.same ((keeps_interruptsSet ..).inside h.run.inside h.run.inside.state) rfl,
        ⟨h.calls.alive, h.calls.progress⟩, rfl, h.owner⟩
    exact h'.userReturn_spec hfree (.inr ⟨c, rfl⟩)

/-- The interrupt handler returns to what it has interrupted. -/
lemma Run.handlerReturn_spec {what : Interrupted} (h : Run P v m)
    (hprogress : progress m.currentThread m.trace = what.progress) :
    Lands P v (handlerReturn what m) := by
  have hi : Inside (handlerReturn what m) :=
    ((keeps_interruptsSet m true).trans (keeps_setControl _ what.control)).inside h.inside
      h.inside.state
  refine .inr ⟨⟨h.valid, ?_⟩, h.path⟩
  cases what with
  | user => exact ⟨hi, hprogress⟩
  | alloc p => exact ⟨hi, hprogress⟩

/-- Returning through the frames below the `thread_yield` of a thread that has been resumed.

**Proof sketch.** By the place where the thread has been suspended. Most functions restore the mask
and return. A sleep in `lock_acquire` goes back to the loop, and one in `cv_wait` goes on to the
`lock_acquire` at its end, or is in that already. -/
lemma Run.unwind_spec {s : Bool} {a : Tid} {k : Stack} (h : Run P v m)
    (hfree : ∀ u l, Label.free l = true → P u l) (hint : m.interrupts = s)
    (hsus : Suspended (.threadYield s a true :: k) (progress m.currentThread m.trace))
    (hP : ∀ l, (progress m.currentThread m.trace).fn.bind Fn.acquired = some l →
      ∀ lock, m.locks l = some lock → lock.current ≠ -1 →
        ∀ t ts, P ((abs m).setReady (t :: ts)) (.sleep lock.queue (.lock l) t)) :
    Lands P v (unwind k ⟨a, none⟩ m) := by
  have hret {g : Fn} {r : Ret} {b : Bool}
      (hg : progress m.currentThread m.trace = { fn := some g }) (hdone : (abs m).Completes g r) :
      Lands P v (userReturn g r (m.interruptsSet b)) := by
    have hrun : Run P v (m.interruptsSet b) := h.same
      ((keeps_interruptsSet ..).inside h.inside h.inside.state) rfl
    refine hrun.userReturn_spec hfree ?_ hdone
    show (progress m.currentThread m.trace).fn = _
    rw [hg]
  have hsame : m.interruptsSet s = m := by rw [← hint]; rfl
  generalize hp : progress m.currentThread m.trace = p at hsus hP
  cases hsus with
  | yield _ ha t =>
    rw [unwind, ← hsame]
    exact hret hp trivial
  | tick ha what =>
    rw [unwind]
    exact h.handlerReturn_spec hp
  | kill ha ht b =>
    rw [unwind, handleDeathAfterYield, hsame, unwind, threadKillAfterDeath]
    exact hret hp trivial
  | sleep ha q b =>
    rw [unwind, threadSleepAfterYield, if_neg ha.ne.2.1]
    exact hret hp trivial
  | wait ha hx c =>
    rw [unwind, threadWaitAfterYield, hint, if_neg (by decide), threadWaitFinish]
    have hrun : Run P v (m.interruptsSet true) := h.same
      ((keeps_interruptsSet ..).inside h.inside h.inside.state) rfl
    refine hrun.userReturn_spec hfree ?_ (.inr ⟨rfl, hx, .inl ?_⟩)
    · show (progress m.currentThread m.trace).fn = _
      rw [hp]
    · show (progress m.currentThread m.trace).waits = _
      rw [hp]
  | acquire ha q l b =>
    rw [unwind, threadSleepAfterYield, if_neg ha.ne.2.1, hsame]
    have hcalls : (abs m).Calls (.lockAcquire l) := ⟨h.inside.alive, hp⟩
    show Lands P v (andThen (lockAcquireLoop l b [.user (.lockAcquire l)] m)
      fun _ m => unwind [.user (.lockAcquire l)] ⟨0, none⟩ m)
    exact lands_andThen (h.lockAcquireLoop_spec hfree (.acquire b) hcalls hint (hP l rfl))
      fun _ _ hacq => LoopCaller.unwind_spec (.acquire b) hacq hfree
  | cvSleep ha q c l b =>
    rw [unwind, threadSleepAfterYield, if_neg ha.ne.2.1, hsame]
    have hcalls : (abs m).Calls (.cvWait c l) := ⟨h.inside.alive, hp⟩
    show Lands P v (andThen (cvWaitAfterSleep l b [.user (.cvWait c l)] m)
      fun _ m => unwind [.user (.cvWait c l)] ⟨0, none⟩ m)
    exact lands_andThen (h.cvWaitAfterSleep_spec hfree hcalls (hP l rfl))
      fun _ _ hacq => hacq.userReturn_spec hfree (.inr ⟨c, rfl⟩)
  | cvAcquire ha q c l b =>
    rw [unwind, threadSleepAfterYield, if_neg ha.ne.2.1, hsame]
    have hcalls : (abs m).Calls (.cvWait c l) := ⟨h.inside.alive, hp⟩
    show Lands P v (andThen (lockAcquireLoop l false [.cvWaitAcquire b, .user (.cvWait c l)] m)
      fun _ m => unwind [.cvWaitAcquire b, .user (.cvWait c l)] ⟨0, none⟩ m)
    exact lands_andThen (h.lockAcquireLoop_spec hfree (.cvWait c b) hcalls hint (hP l rfl))
      fun _ _ hacq => LoopCaller.unwind_spec (.cvWait c b) hacq hfree

/-! ## Steps of the library -/

/-- The start of a thread concerns the current thread only. -/
lemma keeps_started (m : Machine) (fn parg : ℕ) :
    Keeps m (m.emit (.started m.currentThread fn parg)) := by
  refine ⟨rfl, rfl, rfl, fun _ => rfl, fun _ => rfl, fun _ h => h, fun _ _ => rfl, fun t ht => ?_⟩
  rw [Machine.emit_trace, progress, if_neg (Ne.symm ht)]

/-- A thread that enters its saved context starts, or returns from its `thread_yield`.

**Proof sketch.** A saved context is that of a `getcontext` in `thread_yield`, or the start of
`thread_stub`; the frames that a suspended thread can have (`Suspended`) say which. -/
lemma Entering.exec_cases {k : Stack} (h : Entering m k) (hint : m.interrupts = false)
    (hcontrol : m.control = .resumed k) :
    (∃ fn parg, k = [.threadStub fn parg] ∧ exec m =
      (((m.setUcontext m.currentThread .spent).interruptsSet true).emit
        (.started m.currentThread fn parg)).setControl .user) ∨
    ∃ s a k', k = .threadYield s a true :: k' ∧ isValidThread a ∧ exec m =
      unwind k' ⟨a, none⟩ ((m.setUcontext m.currentThread .spent).interruptsSet s) := by
  have hsus := h.suspended
  have hadmin : m.administrativeMode = false := h.inside.admin
  have hexec (s : Bool) (a : Tid) (k' : Stack) (hk : k = .threadYield s a true :: k') : exec m =
      unwind k' ⟨a, none⟩ ((m.setUcontext m.currentThread .spent).interruptsSet s) := by
    unfold exec
    rw [hcontrol, hk]
    show andThen (threadYieldAfterGetcontext s a true k' m) (fun v m => unwind k' ⟨v, none⟩ m) = _
    rw [threadYieldAfterGetcontext, if_pos rfl, hint, hadmin, if_neg (by decide),
      if_neg (by decide)]
    rfl
  generalize progress m.currentThread m.trace = p at hsus
  cases hsus with
  | stub fn parg =>
    refine .inl ⟨fn, parg, rfl, ?_⟩
    unfold exec
    rw [hcontrol]
  | yield | tick | kill | sleep | wait | acquire | cvSleep | cvAcquire =>
    exact .inr ⟨_, _, _, rfl, by assumption, hexec _ _ _ rfl⟩

/-- A thread enters its saved context.

**Proof sketch.** A new thread unblocks the signal and enters user code (`started`). An old one
restores the mask of its `thread_yield` and returns through the frames below (`Run.unwind_spec`). -/
lemma Entering.exec_spec {k : Stack} (h : Entering m k) (hv : (abs m).Valid)
    (hint : m.interrupts = false) (hcontrol : m.control = .resumed k)
    (hfree : ∀ u l, Label.free l = true → P u l)
    (hP : ∀ l, (progress m.currentThread m.trace).fn.bind Fn.acquired = some l →
      ∀ lock, m.locks l = some lock → lock.current ≠ -1 →
        ∀ t ts, P ((abs m).setReady (t :: ts)) (.sleep lock.queue (.lock l) t)) :
    Lands P (abs m) (exec m) := by
  have hrun : Run P (abs m) (m.setUcontext m.currentThread .spent) :=
    ⟨hv, h.inside, by rw [abs_setUcontext]; exact .refl⟩
  rcases h.exec_cases hint hcontrol with ⟨fn, parg, rfl, heq⟩ | ⟨s, a, k', rfl, -, heq⟩
  · rw [heq]
    have hstep : View.Step (abs (m.setUcontext m.currentThread .spent)) (.started fn parg)
        (abs ((((m.setUcontext m.currentThread .spent).interruptsSet true).emit
          (.started m.currentThread fn parg)).setControl .user)) := by
      refine .started h.inside.alive ?_
      have hsus := h.suspended
      show progress m.currentThread m.trace = _
      generalize progress m.currentThread m.trace = p at hsus
      cases hsus
      rfl
    refine hrun.lands ⟨?_, ?_⟩ (hfree _ _ rfl) hstep
    · exact (((keeps_interruptsSet _ true).trans (keeps_started _ fn parg)).trans
        (keeps_setControl _ _)).inside h.inside h.inside.state
    · exact if_pos rfl
  · rw [heq]
    have hrun' : Run P (abs m) ((m.setUcontext m.currentThread .spent).interruptsSet s) :=
      hrun.same ((keeps_interruptsSet ..).inside h.inside h.inside.state) rfl
    refine hrun'.unwind_spec hfree rfl h.suspended fun l hl lock hlock htaken t ts => ?_
    rw [abs_interruptsSet, abs_setUcontext]
    exact hP l hl lock hlock htaken t ts

/-- A step on the stack of thread 0 executes `admin_mode`. -/
lemma Exiting.exec_eq {k : Stack} (h : Exiting m k) (hint : m.interrupts = false)
    (hcontrol : m.control = .resumed k) : ∃ g, exec m = andThen (adminMode k m) g := by
  obtain ⟨s, a, k, rfl⟩ := h.frame
  have hadmin : m.administrativeMode = true := h.admin
  refine ⟨fun _ m => threadYieldSwitch s a k m, ?_⟩
  rw [exec, hcontrol]
  simp only [threadYieldAfterGetcontext, if_true, hint, hadmin, Bool.false_eq_true, if_false,
    h.toDestroy, not_true_eq_false]
  cases adminMode (.threadYield s a true :: k) m <;> rfl

/-- A thread exits in the context of thread 0. -/
lemma Exiting.exec_spec {k : Stack} (h : Exiting m k) (hv : (abs m).Valid)
    (hint : m.interrupts = false) (hcontrol : m.control = .resumed k)
    (hfree : ∀ u l, Label.free l = true → P u l)
    (hP : ∀ t u, u.state u.current = .Destroyed → P u (.dispatch t))
    (hdie : P (abs m) (.die m.currentThread false))
    (hback : P (abs m) (.dieBack m.currentThread false))
    (hto : ∀ w, (abs m).waiter m.currentThread = w → isValidThread w → w ≠ m.currentThread →
      (abs m).state w = .Sleep → P (abs m) (.dieTo m.currentThread w false)) :
    Lands P (abs m) (exec m) := by
  obtain ⟨g, heq⟩ := h.exec_eq hint hcontrol
  rw [heq]
  exact lands_andThen (Q := fun _ _ => False) (adminMode_spec h hint hv .refl hfree hP hdie hback
    hto)
    fun _ _ hf => hf.elim

/-! ## Calls of the allocator -/

/-- A thread halfway through a create or destroy function. -/
lemma keeps_halfway (m : Machine) (p : Addr) :
    Keeps m (m.emit (.halfway m.currentThread p)) := by
  refine ⟨rfl, rfl, rfl, fun _ => rfl, fun _ => rfl, fun _ h => h, fun _ _ => rfl,
    fun t ht => ?_⟩
  rw [Machine.emit_trace, progress, if_neg (Ne.symm ht)]

/-- Making a wait queue keeps the contexts. -/
lemma keeps_initWaitQueue (m : Machine) (o : Owner) : Keeps m (initWaitQueue o m) :=
  ((keeps_afterMalloc369 m SIZEOF_WAIT_QUEUE).trans (keeps_setWaitQueue _ m.malloc369 _)).trans
    (keeps_emit _ ⟨fun _ => rfl, fun _ => rfl⟩)

/-- The rules for the last update before a return to user code, and for the return. -/
lemma Run.userReturn_of {l : Label} {r : Ret} {m₁ : Machine} (h : Run P v m)
    (hl : P (abs m) l) (hkeeps : Keeps m m₁)
    (hst : (m₁.threads m.currentThread).state ≠ .Destroyed)
    (hstep : View.Step (abs m) l ((abs m₁).back f r)) : Lands P v (userReturn f r m₁) :=
  h.lands (controlOk_userReturn (hkeeps.inside h.inside hst) f r) hl hstep

/-- `free369` inside a function: it leaves the allocator in the state `heap`, or aborts. -/
lemma lands_free369 {p : Addr} {g : Unit → Machine → Machine}
    (h : ∀ heap, (abs m).heap.free369 p = some heap → Lands P v (g () (m.afterFree369 p heap))) :
    Lands P v (andThen (m.free369 p) g) := by
  rw [Machine.free369]
  cases hheap : m.heap.free369 p with
  | none => exact lands_abort
  | some heap => exact h heap hheap

/-- The first of the two calls of the allocator has been made. -/
lemma Run.halfway_spec {l : Label} {p : Addr} {a : AllocPoint} {m₁ : Machine} (h : Run P v m)
    (hl : P (abs m) l) (hkeeps : Keeps m m₁)
    (hst : (m₁.threads m.currentThread).state ≠ .Destroyed)
    (hstep : View.Step (abs m) l ((abs m₁).emit (.halfway m₁.currentThread p)))
    (hprogress : progress m₁.currentThread m₁.trace = { fn := some a.fn })
    (hblock : a.block = some p) :
    Lands P v ((m₁.emit (.halfway m₁.currentThread p)).setControl (.alloc a)) := by
  refine h.lands ⟨?_, ?_⟩ hl hstep
  · have hi := hkeeps.inside h.inside hst
    exact ((keeps_halfway m₁ p).trans (keeps_setControl _ _)).inside hi hi.state
  · show progress m₁.currentThread (.halfway m₁.currentThread p :: m₁.trace) = _
    rw [progress, if_pos rfl, hprogress, hblock]

/-- **The create and destroy functions** of wait queues, locks and condition variables, from one
call of the allocator to the next.

**Proof sketch.** One case for each point between two calls of the allocator. The first half of a
create or destroy function is recorded as half an object; the second half completes the object and
returns, or frees what is left of it. -/
lemma Run.allocate_spec {p : AllocPoint} (h : Run P v m)
    (hfree : ∀ u l, Label.free l = true → P u l)
    (hdropQueue : ∀ q, p = .waitQueueDestroy q → P (abs m) (.dropQueue q))
    (hdropLock : ∀ l lock, p = .lockDestroyQueue l → m.locks l = some lock →
      P (abs m) (.dropHalf l lock.queue))
    (hdropCv : ∀ c cv, p = .cvDestroyQueue c → m.cvs c = some cv →
      P (abs m) (.dropHalf c cv.queue))
    (hprogress : progress m.currentThread m.trace = { fn := some p.fn, block := p.block }) :
    Lands P v (allocate p m) := by
  have halive := h.inside.alive
  have hst := h.inside.state
  unfold allocate
  cases p with
  | waitQueueCreate =>
    refine h.userReturn_of (l := .newQueue) (hfree _ _ rfl) (keeps_initWaitQueue m .user) hst ?_
    rw [abs_initWaitQueue]
    exact .newQueue ⟨halive, hprogress⟩
  | waitQueueDestroy wq =>
    refine lands_free369 fun heap hheap => ?_
    refine h.userReturn_of (l := .dropQueue wq) (hdropQueue wq rfl)
      ((keeps_afterFree369 m wq heap).trans (keeps_setWaitQueue ..)) hst ?_
    rw [abs_setWaitQueue, abs_afterFree369, h.inside.rsp]
    exact .dropQueue ⟨halive, hprogress⟩ hheap
  | lockCreate =>
    refine h.halfway_spec (l := .newHalf SIZEOF_LOCK) (hfree _ _ rfl) (keeps_afterMalloc369 ..) hst
      ?_ hprogress rfl
    exact .newHalf ⟨halive, hprogress⟩ (.inl ⟨rfl, rfl⟩)
  | lockCreateQueue lock =>
    refine h.userReturn_of (l := .newLock lock) (hfree _ _ rfl)
      ((keeps_initWaitQueue m (.lock lock)).trans (keeps_setLock ..)) hst ?_
    rw [abs_setLock, abs_initWaitQueue]
    exact .newLock halive hprogress
  | lockDestroyQueue lock =>
    dsimp only
    cases hl : m.locks lock with
    | none => exact lands_undef
    | some l =>
      refine lands_free369 fun heap hheap => ?_
      refine h.halfway_spec (l := .dropHalf lock l.queue) (a := .lockDestroy lock)
        (hdropLock lock l rfl hl)
        ((keeps_afterFree369 m l.queue heap).trans (keeps_setWaitQueue ..)) hst ?_ hprogress rfl
      rw [abs_setWaitQueue, abs_afterFree369, h.inside.rsp]
      exact .dropHalf ⟨halive, hprogress⟩ (.inl ⟨rfl, l, hl, rfl⟩) hheap
  | lockDestroy lock =>
    refine lands_free369 fun heap hheap => ?_
    refine h.userReturn_of (l := .dropLock lock) (hfree _ _ rfl)
      ((keeps_afterFree369 m lock heap).trans (keeps_setLock ..)) hst ?_
    rw [abs_setLock, abs_afterFree369, h.inside.rsp]
    exact .dropLock halive hprogress hheap
  | cvCreate =>
    refine h.halfway_spec (l := .newHalf SIZEOF_CV) (hfree _ _ rfl) (keeps_afterMalloc369 ..) hst ?_
      hprogress rfl
    exact .newHalf ⟨halive, hprogress⟩ (.inr ⟨rfl, rfl⟩)
  | cvCreateQueue cv =>
    refine h.userReturn_of (l := .newCv cv) (hfree _ _ rfl)
      ((keeps_initWaitQueue m (.cv cv)).trans (keeps_setCv ..)) hst ?_
    rw [abs_setCv, abs_initWaitQueue]
    exact .newCv halive hprogress
  | cvDestroyQueue cv =>
    dsimp only
    cases hc : m.cvs cv with
    | none => exact lands_undef
    | some c =>
      refine lands_free369 fun heap hheap => ?_
      refine h.halfway_spec (l := .dropHalf cv c.queue) (a := .cvDestroy cv)
        (hdropCv cv c rfl hc)
        ((keeps_afterFree369 m c.queue heap).trans (keeps_setWaitQueue ..)) hst ?_ hprogress rfl
      rw [abs_setWaitQueue, abs_afterFree369, h.inside.rsp]
      exact .dropHalf ⟨halive, hprogress⟩ (.inr ⟨rfl, c, hc, rfl⟩) hheap
  | cvDestroy cv =>
    refine lands_free369 fun heap hheap => ?_
    refine h.userReturn_of (l := .dropCv cv) (hfree _ _ rfl)
      ((keeps_afterFree369 m cv heap).trans (keeps_setCv ..)) hst ?_
    rw [abs_setCv, abs_afterFree369, h.inside.rsp]
    exact .dropCv halive hprogress hheap

/-! ## Calls by user code -/

/-- The machine at the beginning of the call `f`. -/
abbrev calledAt (m : Machine) (f : Fn) : Machine := m.emit (.called m.currentThread f)

/-- A call concerns the current thread only. -/
lemma keeps_calledAt (m : Machine) (f : Fn) : Keeps m (calledAt m f) := by
  refine ⟨rfl, rfl, rfl, fun _ => rfl, fun _ => rfl, fun _ h => h, fun _ _ => rfl,
    fun t ht => ?_⟩
  rw [Machine.emit_trace, progress, if_neg (Ne.symm ht)]

/-- At the beginning of a call, the thread is in it. -/
lemma calls_calledAt (h : Inside m) (f : Fn) : (abs (calledAt m f)).Calls f :=
  ⟨h.alive, if_pos rfl⟩

/-- User code calls `f`. -/
lemma run_calledAt {f : Fn} (hv : (abs m).Valid) (hi : Inside m)
    (hprogress : progress m.currentThread m.trace = {}) (hadm : f.Admissible m)
    (hdestroy : ∀ l, f = .lockDestroy l → ∃ lock, m.locks l = some lock ∧ lock.current = -1) :
    Run (Permits m (.call f)) (abs m) (calledAt m f) :=
  ⟨hv, (keeps_calledAt m f).inside hi hi.state,
    Runs.Path.refl.tail (l := .called f) ⟨rfl, rfl, hadm⟩ (.called hi.alive hprogress hdestroy)⟩

/-- The wakeups of a step are permitted. -/
lemma permits_wake (m : Machine) (a : Action) (q : Addr) {ws : List Tid}
    (hpushes : pushes m a = ws) :
    ∀ before t after, ws = before ++ t :: after →
      ∀ u : View, u.ready = pushAll m.threadQueue.entries before → Permits m a u (.wake q t) :=
  fun before _ after heq _ hu => ⟨before, after, hpushes.trans heq, hu⟩

/-- A thread that finds a lock taken may go to sleep on it. -/
lemma sleeps_lock (m : Machine) (a : Action) {u : View} {l : Addr} {lock : Lock}
    (ha : testedLock m a = some l) (hl : m.locks l = some lock) (htaken : lock.current ≠ -1)
    (hcur : u.current = m.currentThread) (hqueues : u.queues = (abs m).queues)
    (hlocks : u.locks = m.locks) : Sleeps m a u lock.queue (.lock l) where
  queue := by
    have hq : ((testedLock m a).bind fun l => (m.locks l).bind fun lock =>
        if lock.current = -1 then none else some lock.queue) = some lock.queue := by
      simp [ha, hl, htaken]
    cases a with
    | exec | tick => exact hq
    | call f => cases f <;> first | exact hq | cases ha
  current := hcur
  trims _ es hq := ⟨es, hqueues ▸ hq, es.suffix_refl⟩
  lock l' heq := by
    cases heq
    exact ⟨ha, hqueues, hlocks⟩

/-- A create or destroy function runs up to its first call of the allocator. -/
lemma Run.lands_alloc {p : AllocPoint} (h : Run P v m)
    (hprogress : progress m.currentThread m.trace = { fn := some p.fn, block := p.block }) :
    Lands P v (m.setControl (.alloc p)) :=
  .inr ⟨⟨h.valid, (keeps_setControl ..).inside h.inside h.inside.state, hprogress⟩, h.path⟩

/-- The heir of a thread that has a sleeping waiter. -/
lemma heir_eq {t w : Tid} (hw : (m.threads t).waiter = w) (hv : isValidThread w) (hne : w ≠ t)
    (hcur : w ≠ m.currentThread) (hst : (m.threads w).state = .Sleep) : heir m t = some w := by
  simp only [heir, hw]
  exact if_pos ⟨hv.ne.2.2.1, hne, hcur, hst⟩

/-- A death that gives the processor to the waiter pushes the current thread. -/
lemma pushes_death {a : Action} {t w : Tid} {u : View} (ha : pushes m a = deathPushes m t)
    (hw : (m.threads t).waiter = w) (hv : isValidThread w) (hne : w ≠ t)
    (hcur : w ≠ m.currentThread) (hst : (m.threads w).state = .Sleep)
    (hready : u.ready = m.threadQueue.entries) (hucur : u.current = m.currentThread) :
    Pushes m a u u.current := by
  refine ⟨[], [], ?_, hready⟩
  rw [ha, deathPushes, heir_eq hw hv hne hcur hst, hucur]
  rfl

/-- `thread_exit`, called by user code with the timer signal unblocked.

**Proof sketch.** With the signal blocked the assertion fails. Otherwise the two cases of the code
are `Run.threadExit_main` and `Run.threadExit_other`; the returning thread is not thread 0, since
`main` does not return to `thread_stub`. -/
lemma Run.threadExit_spec {c : ℤ} {f : Fn} {k : Stack}
    (h : Run (Permits m (.call f)) v (calledAt m f))
    (hcalls : (abs (calledAt m f)).Calls f) (hexits : f = .threadExit c ∨ f = .threadReturn ∧ c = 0)
    (hreturn : f = .threadReturn → m.currentThread ≠ 0) :
    Lands (Permits m (.call f)) v (andThen (threadExit c k (calledAt m f)) fun _ m => m.undef) := by
  refine lands_andThen (Q := fun _ _ => False) ?_ fun _ _ hf => hf.elim
  rw [threadExit]
  by_cases hint : (calledAt m f).interrupts = true
  swap
  · rw [if_pos hint]
    exact lands_abort
  rw [if_neg (not_not.mpr hint)]
  have hfree := permits_of_free m (.call f)
  by_cases h0 : m.currentThread = 0
  · have hf : f = .threadExit c := hexits.resolve_right fun hr => hreturn hr.1 h0
    have hmain (t : Tid) (ht : t = 0) : ((handleDeath t (.threadExitDeath c :: k)
        ((((calledAt m f).interruptsSet false).emit (.exited m.currentThread c)).setExitCode
          m.currentThread c)).bind fun _ m => threadExitAfterDeath c k m).All (fun _ _ => False)
            (Lands (Permits m (.call f)) v) := by
      subst ht
      refine h.threadExit_main hfree hcalls hexits h0 ?_ (fun _ => ?_) (fun _ => ?_) ?_
      · exact fun _ _ hu hne => (hne hu).elim
      · exact fun hk => absurd hk (by decide)
      · exact fun hk => absurd hk (by decide)
      · intro w u hw hwv hne hst hready hcur hwaiter hstate
        rw [hwaiter] at hw
        rw [hstate] at hst
        refine ⟨fun hk => absurd hk (by decide), ?_⟩
        refine pushes_death (t := 0) ?_ hw hwv hne ?_ hst hready hcur
        · rw [hf, pushes, if_pos h0]
        · rwa [h0]
    exact (if_pos (c := ((calledAt m f).interruptsSet false).currentThread = 0) h0).symm ▸ hmain _
      h0
  · have h0' : ¬ ((calledAt m f).interruptsSet false).currentThread = 0 := h0
    refine (if_neg h0').symm ▸ ?_
    exact h.threadExit_other hfree hcalls hexits h0

/-- A call that only returns a value. -/
lemma Run.plain_spec {α : Type} {o : Outcome Machine α} {r : α → Ret}
    (hfree : ∀ u l, Label.free l = true → P u l)
    (h : o.All (fun _ m' => Back P v f m m') (Lands P v))
    (hdone : ∀ u a, View.Completes u f (r a)) :
    Lands P v (andThen o fun a m => userReturn f (r a) m) := by
  refine lands_andThen h fun a m' hback => ?_
  refine hback.run.userReturn_spec hfree ?_ (hdone _ a)
  rw [show progress m'.currentThread m'.trace = _ from hback.calls.progress]

/-- `thread_sleep`, called by user code with the null pointer or a wait queue that it has. -/
lemma call_threadSleep_spec {q : Addr}
    (hrun : Run (Permits m (.call (.threadSleep q))) v (calledAt m (.threadSleep q)))
    (hcalls : (abs (calledAt m (.threadSleep q))).Calls (.threadSleep q))
    (hadm : (Fn.threadSleep q).Admissible m) :
    Lands (Permits m (.call (.threadSleep q))) v (call (.threadSleep q) m) := by
  have hfree := permits_of_free m (.call (.threadSleep q))
  refine Run.plain_spec hfree ((hrun.threadSleep_spec hfree hcalls (o := .user) rfl (fun hq => ?_)
    (by simp) (fun _ _ => ⟨rfl, rfl, View.Trims.refl _ q, fun _ h => by cases h⟩)
    fun a ha => ?_).mono (fun _ _ h => h.1) fun _ h => h) fun _ _ => trivial
  · obtain ⟨e, he, hg⟩ := hadm.resolve_left hq
    exact ⟨e, List.mem_cons_of_mem _ he, hg⟩
  · exact .sleep ha q m.interrupts

/-- `thread_wakeup`, called by user code with the null pointer or a wait queue that it has. -/
lemma call_threadWakeup_spec {q : Addr} {all : ℤ}
    (hrun : Run (Permits m (.call (.threadWakeup q all))) v (calledAt m (.threadWakeup q all)))
    (hcalls : (abs (calledAt m (.threadWakeup q all))).Calls (.threadWakeup q all))
    (hadm : (Fn.threadWakeup q all).Admissible m) :
    Lands (Permits m (.call (.threadWakeup q all))) v (call (.threadWakeup q all) m) := by
  have hfree := permits_of_free m (.call (.threadWakeup q all))
  refine Run.plain_spec hfree (hrun.threadWakeup_spec hfree (o := .user) rfl hcalls
    (fun hq => ?_) (permits_wake m _ q rfl)) fun _ _ => trivial
  obtain ⟨e, he, hg⟩ := hadm.resolve_left hq
  exact ⟨e, List.mem_cons_of_mem _ he, hg⟩

/-- `lock_destroy`, called by user code: the lock is there and free, or the process is aborted. The
call is recorded only behind the assertion, so `hrun` is asked for under what the assertion says. -/
lemma call_lockDestroy_spec {l : Addr}
    (hrun : (∃ lock, m.locks l = some lock ∧ lock.current = -1) →
      Run (Permits m (.call (.lockDestroy l))) v (calledAt m (.lockDestroy l)))
    (hcalls : (abs (calledAt m (.lockDestroy l))).Calls (.lockDestroy l)) :
    Lands (Permits m (.call (.lockDestroy l))) v (call (.lockDestroy l) m) := by
  unfold call
  dsimp only
  rw [lockDestroy]
  by_cases hl : l = NULL
  · rw [if_pos hl]
    exact lands_abort
  rw [if_neg hl]
  cases hlock : (calledAt m (.lockDestroy l)).locks l with
  | none => exact lands_undef
  | some lock =>
    dsimp only
    by_cases hcur : lock.current = -1
    · rw [if_neg (not_not.mpr hcur)]
      exact (hrun ⟨lock, hlock, hcur⟩).lands_alloc hcalls.progress
    · rw [if_pos hcur]
      exact lands_abort

/-- `lock_acquire`, called by user code. -/
lemma call_lockAcquire_spec {l : Addr}
    (hrun : Run (Permits m (.call (.lockAcquire l))) v (calledAt m (.lockAcquire l)))
    (hcalls : (abs (calledAt m (.lockAcquire l))).Calls (.lockAcquire l)) :
    Lands (Permits m (.call (.lockAcquire l))) v (call (.lockAcquire l) m) := by
  have hfree := permits_of_free m (.call (.lockAcquire l))
  refine lands_andThen (hrun.lockAcquire_spec hfree (.acquire _) hcalls
    fun lock hl htaken t ts => ?_) fun _ _ hacq => hacq.userReturn_spec hfree (.inl rfl)
  exact sleeps_lock m _ rfl hl htaken rfl rfl rfl

/-- `lock_release`, called by user code. It wakes the threads in the wait queue of the lock. -/
lemma call_lockRelease_spec {l : Addr}
    (hrun : Run (Permits m (.call (.lockRelease l))) v (calledAt m (.lockRelease l)))
    (hcalls : (abs (calledAt m (.lockRelease l))).Calls (.lockRelease l)) :
    Lands (Permits m (.call (.lockRelease l))) v (call (.lockRelease l) m) := by
  have hfree := permits_of_free m (.call (.lockRelease l))
  refine lands_andThen (hrun.lockRelease_spec hfree hcalls (by simp [Fn.wakesOn])
    (by simp [Fn.releases]) (by simp [Fn.releases]) fun lock hl => ?_) fun _ m' hback => ?_
  · exact permits_wake m _ _ (by rw [pushes, show m.locks l = some lock from hl]; rfl)
  · refine hback.1.run.userReturn_spec hfree ?_ hback.2.1
    rw [show progress m'.currentThread m'.trace = _ from hback.1.calls.progress]

/-- `cv_destroy`, called by user code. -/
lemma call_cvDestroy_spec {c : Addr}
    (hrun : Run (Permits m (.call (.cvDestroy c))) v (calledAt m (.cvDestroy c)))
    (hcalls : (abs (calledAt m (.cvDestroy c))).Calls (.cvDestroy c)) :
    Lands (Permits m (.call (.cvDestroy c))) v (call (.cvDestroy c) m) := by
  unfold call
  dsimp only
  rw [cvDestroy]
  by_cases hc : c = NULL
  · rw [if_pos hc]
    exact lands_abort
  · rw [if_neg hc]
    exact hrun.lands_alloc hcalls.progress

/-- `cv_wait`, called by user code: it wakes the threads in the wait queue of the lock, and puts its
thread in that of the condition variable. -/
lemma call_cvWait_spec {c l : Addr}
    (hrun : Run (Permits m (.call (.cvWait c l))) v (calledAt m (.cvWait c l)))
    (hcalls : (abs (calledAt m (.cvWait c l))).Calls (.cvWait c l)) :
    Lands (Permits m (.call (.cvWait c l))) v (call (.cvWait c l) m) := by
  have hfree := permits_of_free m (.call (.cvWait c l))
  refine lands_andThen (hrun.cvWait_spec hfree hcalls (by simp [Fn.releases]) (fun lock hl => ?_)
    fun cv u hc hcur htrims t => ⟨?_, hcur, htrims, fun _ h => by cases h⟩)
    fun _ _ hacq => hacq.userReturn_spec hfree (.inr ⟨c, rfl⟩)
  · exact permits_wake m _ _ (by rw [pushes, show m.locks l = some lock from hl]; rfl)
  · rw [sleepQueue, show m.cvs c = some cv from hc]
    rfl

/-- `cv_signal`, called by user code. -/
lemma call_cvSignal_spec {c l : Addr}
    (hrun : Run (Permits m (.call (.cvSignal c l))) v (calledAt m (.cvSignal c l)))
    (hcalls : (abs (calledAt m (.cvSignal c l))).Calls (.cvSignal c l)) :
    Lands (Permits m (.call (.cvSignal c l))) v (call (.cvSignal c l) m) := by
  have hfree := permits_of_free m (.call (.cvSignal c l))
  refine Run.plain_spec hfree (hrun.cvWakeup_spec hfree hcalls (by simp [Fn.wakesOn])
    fun cv hc => ?_) fun _ _ => trivial
  exact permits_wake m _ _ (by rw [pushes, show m.cvs c = some cv from hc]; rfl)

/-- `cv_broadcast`, called by user code. -/
lemma call_cvBroadcast_spec {c l : Addr}
    (hrun : Run (Permits m (.call (.cvBroadcast c l))) v (calledAt m (.cvBroadcast c l)))
    (hcalls : (abs (calledAt m (.cvBroadcast c l))).Calls (.cvBroadcast c l)) :
    Lands (Permits m (.call (.cvBroadcast c l))) v (call (.cvBroadcast c l) m) := by
  have hfree := permits_of_free m (.call (.cvBroadcast c l))
  refine Run.plain_spec hfree (hrun.cvWakeup_spec hfree hcalls (by simp [Fn.wakesOn])
    fun cv hc => ?_) fun _ _ => trivial
  exact permits_wake m _ _ (by rw [pushes, show m.cvs c = some cv from hc]; rfl)

/-- `interrupts_set`, called by user code. -/
lemma call_interruptsSet_spec {b : Bool}
    (hrun : Run (Permits m (.call (.interruptsSet b))) v (calledAt m (.interruptsSet b))) :
    Lands (Permits m (.call (.interruptsSet b))) v (call (.interruptsSet b) m) := by
  have hset : Run _ _ ((calledAt m (.interruptsSet b)).interruptsSet b) := hrun.same
    ((keeps_interruptsSet ..).inside hrun.inside hrun.inside.state) rfl
  refine hset.userReturn_spec (permits_of_free m _) ?_ trivial
  show (progress m.currentThread (.called m.currentThread _ :: m.trace)).fn = _
  rw [progress, if_pos rfl]

/-- **A call by user code.**

**Proof sketch.** The call is recorded, and then the function runs from the state in which it has
been recorded. Each function has its own lemma, which says where control lands: back in user code,
in another thread, at the allocator, or at the end of the process. The guard of `lock_destroy` is
part of the record, so there the assertion comes first. -/
theorem call_spec {f : Fn} (hb : Base m) (hcontrol : m.control = .user) (hadm : f.Admissible m) :
    Lands (Permits m (.call f)) (abs m) (call f m) := by
  obtain ⟨hi, hprogress⟩ : Inside m ∧ progress m.currentThread m.trace = {} := by
    have h := hb.control
    rwa [ControlOk, hcontrol] at h
  have hfree := permits_of_free m (.call f)
  have hcalls := calls_calledAt hi f
  have hrun (hne : ∀ l, f ≠ .lockDestroy l) :
      Run (Permits m (.call f)) (abs m) (calledAt m f) :=
    run_calledAt hb.valid hi hprogress hadm fun l hl => (hne l hl).elim
  cases f with
  | threadCreate fn parg =>
    refine (hrun (by simp)).threadCreate_spec hfree hcalls
      fun num hnum => ⟨rfl, hnum, rfl, [], [], ?_, rfl⟩
    rw [pushes, show threadNumToCreate m = some num from hnum]
    rfl
  | threadYield t =>
    exact (hrun (by simp)).threadYield_spec hfree hcalls
      (fun _ _ _ => .inl ⟨t, hcalls.alive, hcalls.progress⟩)
      fun hother => ⟨rfl, rfl, [], [], if_pos hother, rfl⟩
  | threadExit c => exact (hrun (by simp)).threadExit_spec hcalls (.inl rfl) fun hf => by cases hf
  | threadReturn => exact (hrun (by simp)).threadExit_spec hcalls (.inr ⟨rfl, rfl⟩) fun _ => hadm
  | threadKill t =>
    exact (hrun (by simp)).threadKill_spec hfree hcalls (fun _ => ⟨rfl, rfl⟩)
      (fun _ => ⟨rfl, rfl⟩) fun w hw hwv hne hcur hst =>
        ⟨fun _ => ⟨rfl, rfl⟩, pushes_death (t := t) rfl hw hwv hne hcur hst rfl rfl⟩
  | waitQueueCreate | waitQueueDestroy wq | lockCreate | cvCreate =>
    exact (hrun (by simp)).lands_alloc hcalls.progress
  | threadSleep q => exact call_threadSleep_spec (hrun (by simp)) hcalls hadm
  | threadWakeup q all => exact call_threadWakeup_spec (hrun (by simp)) hcalls hadm
  | threadWait x c =>
    exact (hrun (by simp)).threadWait_spec hfree hcalls (if_pos rfl) fun hsleeps hall _ =>
      ⟨c, rfl, hsleeps, hall⟩
  | lockDestroy l =>
    refine call_lockDestroy_spec (fun hlock => ?_) hcalls
    refine run_calledAt hb.valid hi hprogress hadm fun l' heq => ?_
    cases heq
    exact hlock
  | lockAcquire l => exact call_lockAcquire_spec (hrun (by simp)) hcalls
  | lockRelease l => exact call_lockRelease_spec (hrun (by simp)) hcalls
  | cvDestroy c => exact call_cvDestroy_spec (hrun (by simp)) hcalls
  | cvWait c l => exact call_cvWait_spec (hrun (by simp)) hcalls
  | cvSignal c l => exact call_cvSignal_spec (hrun (by simp)) hcalls
  | cvBroadcast c l => exact call_cvBroadcast_spec (hrun (by simp)) hcalls
  | interruptsSet b => exact call_interruptsSet_spec (hrun (by simp))

/-! ## The steps -/

/-- **The timer signal.**

**Proof sketch.** The handler is a `thread_yield(THREAD_ANY)` with the signal blocked. It returns to
where the signal came, or suspends the thread there. -/
theorem tick_spec {what : Interrupted} (hb : Base m) (hcontrol : m.control = what.control) :
    Lands (Permits m .tick) (abs m) (interruptHandler what m) := by
  obtain ⟨hi, hprogress⟩ : Inside m ∧ progress m.currentThread m.trace = what.progress := by
    have h := hb.control
    rw [ControlOk, hcontrol] at h
    cases what <;> exact h
  have hfree := permits_of_free m .tick
  have hrun : Run (Permits m .tick) (abs m) (m.interruptsSet false) :=
    ⟨hb.valid, (keeps_interruptsSet ..).inside hi hi.state, .refl⟩
  refine lands_andThen (hrun.threadYield_any_spec hfree (fun t ts ht huse _ => ?_) ?_
    fun a ha => ?_) ?_
  · refine .inr ?_
    cases what with
    | user => exact .inl hprogress
    | alloc p => exact .inr ⟨rfl, ⟨t, ht, huse⟩, p, hcontrol, hprogress⟩
  · show (progress m.currentThread m.trace).waits = none
    rw [hprogress]
    cases what <;> rfl
  · show Suspended _ (progress m.currentThread m.trace)
    rw [hprogress]
    exact .tick ha what
  · rintro r m' ⟨-, hrun', q', rfl⟩
    exact hrun'.handlerReturn_spec hprogress

/-- **The library goes on.**

**Proof sketch.** By the place where the library goes on: between two calls of the allocator, at the
loop test of `lock_acquire`, or at a context that has just been loaded. In the last case the current
thread enters its own context, or is exiting and enters that of thread 0. -/
theorem exec_spec (hb : Base m) :
    step m .exec = some m' → Lands (Permits m .exec) (abs m) m' := by
  have hfree := permits_of_free m .exec
  have hb' := hb.control
  rw [ControlOk] at hb'
  rw [step]
  cases hcontrol : m.control with
  | user => exact fun h => by cases h
  | aborted => exact fun h => by cases h
  | exited n => exact fun h => by cases h
  | undefined => exact fun h => by cases h
  | alloc p =>
    rw [hcontrol] at hb'
    rintro ⟨⟩
    unfold exec
    rw [hcontrol]
    refine Run.allocate_spec ⟨hb.valid, hb'.1, .refl⟩ hfree ?_ ?_ ?_ hb'.2
    · rintro q rfl
      exact ⟨by rw [freedQueue, hcontrol], rfl⟩
    · rintro l lock rfl hl
      exact ⟨by rw [freedQueue, hcontrol]; simp [hl], rfl⟩
    · rintro c cv rfl hc
      exact ⟨by rw [freedQueue, hcontrol]; simp [hc], rfl⟩
  | lockLoop l s k =>
    rw [hcontrol] at hb'
    obtain ⟨hi, hint, f, hcaller, hprogress⟩ := hb'
    rintro ⟨⟩
    unfold exec
    rw [hcontrol]
    have hrun : Run (Permits m .exec) (abs m) m := ⟨hb.valid, hi, .refl⟩
    refine lands_andThen (hrun.lockAcquireLoop_spec hfree hcaller ⟨hi.alive, hprogress⟩ hint
      fun lock hl htaken t ts => ?_) fun _ _ hacq => hcaller.unwind_spec hacq hfree
    refine sleeps_lock m _ ?_ hl htaken rfl rfl rfl
    rw [testedLock, hprogress]
    cases hcaller <;> rfl
  | resumed k =>
    rw [hcontrol] at hb'
    obtain ⟨hint, hentering | hexiting⟩ := hb'
    · rintro ⟨⟩
      refine hentering.exec_spec hb.valid hint hcontrol hfree fun l hl lock hlock htaken t ts => ?_
      exact sleeps_lock m _ hl hlock htaken rfl rfl rfl
    · rintro ⟨⟩
      refine hexiting.exec_spec hb.valid hint hcontrol hfree (fun _ _ hu hne => (hne hu).elim)
        (fun hk => absurd hk (by decide)) (fun hk => absurd hk (by decide)) ?_
      intro w hw hwv hne hst
      refine ⟨fun hk => absurd hk (by decide), ?_⟩
      refine pushes_death (t := m.currentThread) ?_ hw hwv hne hne hst rfl rfl
      rw [pushes, if_pos hexiting.admin]

/-- **Refinement.** Every step ends the run or carries out permitted transactions.

**Proof sketch.** The three kinds of steps have their own theorems: `exec_spec`, `call_spec` and
`tick_spec`. -/
theorem step_refines {a : Action} (hb : Base m) (hs : step m a = some m') :
    Stopped m' ∨ Base m' ∧ Runs.Path View.Step (Permits m a) (abs m) (abs m') := by
  cases a with
  | exec => exact exec_spec hb hs
  | call f =>
    rw [step] at hs
    split_ifs at hs with h
    cases hs
    exact call_spec hb h.1 h.2
  | tick =>
    rw [step] at hs
    split_ifs at hs
    cases hcontrol : m.control with
    | user =>
      rw [hcontrol] at hs
      cases hs
      exact tick_spec hb hcontrol
    | alloc p =>
      rw [hcontrol] at hs
      cases hs
      exact tick_spec hb hcontrol
    | resumed k => rw [hcontrol] at hs; cases hs
    | lockLoop l s k => rw [hcontrol] at hs; cases hs
    | aborted => rw [hcontrol] at hs; cases hs
    | exited n => rw [hcontrol] at hs; cases hs
    | undefined => rw [hcontrol] at hs; cases hs

/-- No step follows when the run is over. -/
lemma Stopped.step_none {a : Action} (h : Stopped m) : step m a = none := by
  obtain h | ⟨n, h⟩ | h := h <;> cases a <;> simp [step, h]

/-! ## Reachable states -/

/-- The initial state satisfies the invariant. -/
lemma base_threadInit (garbage : ℤ) : Base (threadInit garbage) := by
  have hvalid : (abs (threadInit garbage)).Valid := by
    refine ⟨by simp only [abs_current, threadInit]; decide, ?_, ?_, fun t => .inl ?_, rfl, ?_⟩
    · intro t ht
      exact absurd ht (by simp [threadInit])
    · intro q o es hq
      exact absurd hq (by simp [threadInit])
    · rw [abs_waiter, threadInit]
      dsimp only
      split_ifs <;> rfl
    · exact Nat.zero_lt_one
  have hparked : Parked (threadInit garbage) := by
    refine ⟨fun t ht hst => (hst ?_).elim, fun h => (h rfl).elim, rfl⟩
    exact congrArg Thread.state (if_neg ht)
  refine ⟨hvalid, ⟨hparked, rfl, ?_, rfl, rfl, ?_⟩, rfl⟩
  · show State.Running ≠ .Destroyed
    decide
  · intro c
    show Ucontext.uninit ≠ _
    simp

/-- **The invariant rule.** What holds in the view of the initial states and is kept by the
transactions that the guarded steps permit holds in the view of every reachable state of a run
that is not over.

**Proof sketch.** An instance of `Runs.Reachable.simulation`: the steps are matched by transactions
(`step_refines`), and a process that is over takes no step. -/
theorem ReachableBy.view {ok : Machine → Action → Prop} {I : View → Prop}
    (hinit : ∀ garbage, I (abs (threadInit garbage)))
    (hstep : ∀ m a v l v', Base m → I (abs m) → ok m a → I v → v.Valid → Permits m a v l →
      View.Step v l v' → I v')
    (h : ReachableBy ok m) : Stopped m ∨ Base m ∧ I (abs m) := by
  have hrefines (s : Machine) (a : Action) (s' : Machine) (hb : Base s) (hs : step s a = some s') :
      Stopped s' ∨ Base s' ∧ Runs.Path View.Step (Permits s a) (abs s) (abs s') :=
    step_refines hb hs
  have hstop (s : Machine) (a : Action) (s' : Machine) (hstop : Stopped s)
      (hs : step s a = some s') : False := by
    rw [hstop.step_none] at hs
    cases hs
  refine (Runs.Reachable.simulation (I := fun v => I v ∧ v.Valid) ?_ hstop hrefines ?_ h).imp_right
    fun hbi => ⟨hbi.1, hbi.2.1⟩
  · rintro _ ⟨garbage, rfl⟩
    exact ⟨base_threadInit garbage, hinit garbage, (base_threadInit garbage).valid⟩
  · rintro s a v l v' hb ⟨hi, -⟩ hok ⟨hv, hvalid⟩ hp hs
    exact ⟨hstep s a v l v' hb hi hok hv hvalid hp hs, hs.valid hvalid⟩

/-- The invariant of the processor and the saved contexts holds in all runs. -/
lemma ReachableBy.base {ok : Machine → Action → Prop} (h : ReachableBy ok m) (hrun : ¬ Stopped m) :
    Base m := by
  have hview := h.view (I := fun _ => True) (fun _ => trivial) fun _ _ _ _ _ _ _ _ _ _ _ _ =>
    trivial
  exact (hview.resolve_left hrun).1

end UserThreads
