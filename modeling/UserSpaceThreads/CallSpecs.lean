import UserSpaceThreads.LockSpecs

set_option relaxedAutoImplicit false
set_option autoImplicit false

/-!
# Specifications of the other calls

The transactions of `thread_yield`, `thread_wait` and `thread_create`, as user code calls them:
from the call to the return to user code, or to where control leaves.

## Main results

* `UserThreads.firstDestroyed_eq_some`, `UserThreads.firstDestroyed_eq_none` — the search for a
  free slot.
* `UserThreads.Run.threadYield_spec`, `UserThreads.Run.threadWait_spec`,
  `UserThreads.Run.threadCreate_spec`.
-/

namespace UserThreads

variable {P : View → Label → Prop} {v : View} {m m' : Machine} {f : Fn}

/-! ## Returns to user code -/

/-- A return to user code concerns the current thread only. -/
lemma keeps_returned (m : Machine) (f : Fn) (r : Ret) :
    Keeps m (m.emit (.returned m.currentThread f r)) := by
  refine ⟨rfl, rfl, rfl, fun _ => rfl, fun _ => rfl, fun _ h => h, fun _ _ => rfl,
    fun t ht => ?_⟩
  rw [Machine.emit_trace, progress, if_neg (Ne.symm ht)]

/-- After a return, user code runs. -/
lemma controlOk_userReturn (h : Inside m) (f : Fn) (r : Ret) : ControlOk (userReturn f r m) := by
  refine ⟨?_, by simp [userReturn]⟩
  exact ((keeps_returned m f r).trans (keeps_setControl ..)).inside h h.state

/-- **A return to user code.** -/
lemma Run.userReturn_spec {r : Ret} (h : Run P v m) (hfree : ∀ u l, Label.free l = true → P u l)
    (hfn : (progress m.currentThread m.trace).fn = some f) (hdone : (abs m).Completes f r) :
    Lands P v (userReturn f r m) :=
  h.lands (controlOk_userReturn h.inside f r) (hfree _ (.returned f r) rfl)
    (.returned h.inside.alive hfn hdone)

/-- A function that returns a value to user code. -/
lemma lands_andThen {α : Type} {o : Outcome Machine α} {Q : α → Machine → Prop}
    {g : α → Machine → Machine} (h : o.All Q (Lands P v)) (hg : ∀ a m, Q a m → Lands P v (g a m)) :
    Lands P v (andThen o g) := by
  cases o with
  | ret a m => exact hg a m h
  | jump m => exact h

/-! ## `thread_yield` -/

/-- **`thread_yield`**, called by user code.

**Proof sketch.** `THREAD_ANY` is `Run.threadYield_any_spec`. A yield to the thread itself returns
its id, one to a dead or invalid thread is refused, and one to a live thread is a switch
(`yieldTo`). -/
lemma Run.threadYield_spec {t : Tid} (h : Run P v m)
    (hfree : ∀ u l, Label.free l = true → P u l) (hcalls : (abs m).Calls (.threadYield t))
    (hdispatch : ∀ t ts, P ((abs m).setReady ts) (.dispatch t))
    (hyield : NamesOther m t → P (abs m) (.yieldTo t)) :
    Lands P v (andThen (threadYield t [.user (.threadYield t)] m)
      fun r m => userReturn (.threadYield t) ⟨r, none⟩ m) := by
  have hprogress : progress m.currentThread m.trace = { fn := some (.threadYield t) } :=
    hcalls.progress
  have hfn : (progress m.currentThread m.trace).fn = some (.threadYield t) := by rw [hprogress]
  have hret (r : Ret) : Lands P v (userReturn (.threadYield t) r m) :=
    h.userReturn_spec hfree hfn trivial
  by_cases hany : t = THREAD_ANY
  · subst hany
    refine lands_andThen (h.threadYield_any_spec hfree (fun t ts _ _ => hdispatch t ts)
      (by rw [hprogress]) fun a ha => ?_) ?_
    · rw [hprogress]
      exact .yield m.interrupts ha THREAD_ANY
    · rintro r m' ⟨-, hrun, q', rfl⟩
      exact hrun.userReturn_spec hfree hfn trivial
  rw [threadYield]
  simp only [Machine.interruptsSet_currentThread, if_neg hany]
  by_cases hself : t = THREAD_SELF ∨ t = m.currentThread
  · rw [if_pos hself]
    exact hret ⟨m.currentThread, none⟩
  rw [if_neg hself]
  have hne : t ≠ m.currentThread := fun heq => hself (.inr heq)
  by_cases hlive : isValidThread t ∧ (m.threads t).state ≠ .Destroyed
  · obtain ⟨ht, hst⟩ := hlive
    set m₁ := m.interruptsSet false with hm₁
    have hi₁ : Inside m₁ := (keeps_interruptsSet m false).inside h.inside h.inside.state
    rw [threadYieldTo_live (m := m₁) ht hst]
    have hstep : View.Step (abs m) (.yieldTo t)
        (abs (threadYieldSwitch m.interrupts t [.user (.threadYield t)] m₁)) := by
      rw [abs_threadYieldSwitch]
      exact .yieldTo hcalls ht hst hne
    refine h.lands (controlOk_threadYieldSwitch (hi₁.mayLeave rfl fun a ha => ?_) ht hst hne)
      (hyield ⟨hne, ht, hst⟩) hstep
    rw [show progress m₁.currentThread m₁.trace = _ from hprogress]
    exact .yield m.interrupts ha t
  · have hdead : ¬ isValidThread t ∨ ((m.interruptsSet false).threads t).state = .Destroyed := by
      rw [Machine.interruptsSet_threads]
      tauto
    rw [threadYieldTo_dead hdead]
    exact hret ⟨THREAD_INVALID, none⟩

/-! ## `thread_create` -/

/-- The slot that the search finds is dead, and the slots before it are not. -/
lemma firstDestroyed_eq_some {threads : Tid → Thread} {n : ℕ} {i t : ℤ}
    (h : firstDestroyed threads n i = some t) :
    (i ≤ t ∧ t < i + n) ∧ (threads t).state = .Destroyed ∧
      ∀ j : ℤ, i ≤ j → j < t → (threads j).state ≠ .Destroyed := by
  induction n generalizing i with
  | zero => cases h
  | succ n ih =>
    rw [firstDestroyed] at h
    split_ifs at h with hi
    · cases h
      refine ⟨⟨le_rfl, by push_cast; omega⟩, hi, fun j h₁ h₂ => by omega⟩
    · obtain ⟨⟨h₁, h₂⟩, hdead, hlive⟩ := ih h
      refine ⟨⟨by omega, by push_cast; omega⟩, hdead, fun j hj hj' => ?_⟩
      rcases eq_or_ne j i with rfl | hne
      · exact hi
      · exact hlive j (by omega) hj'

/-- The search fails when no slot is dead. -/
lemma firstDestroyed_eq_none {threads : Tid → Thread} {n : ℕ} {i : ℤ} :
    firstDestroyed threads n i = none ↔
      ∀ j : ℤ, i ≤ j → j < i + n → (threads j).state ≠ .Destroyed := by
  induction n generalizing i with
  | zero => simp only [firstDestroyed, true_iff]; intro j h₁ h₂; push_cast at h₂; omega
  | succ n ih =>
    rw [firstDestroyed]
    split_ifs with hi
    · simp only [false_iff]
      intro h
      exact h i le_rfl (by push_cast; omega) hi
    · rw [ih]
      constructor
      · intro h j hj hj'
        rcases eq_or_ne j i with rfl | hne
        · exact hi
        · exact h j (by omega) (by push_cast at hj'; omega)
      · intro h j hj hj'
        exact h j (by omega) (by push_cast; omega)

/-- The slot that `thread_create` finds. -/
lemma threadNumToCreate_eq_some {num : Tid} (h : threadNumToCreate m = some num) :
    0 < num ∧ isValidThread num ∧ (m.threads num).state = .Destroyed := by
  obtain ⟨⟨h₁, h₂⟩, hdead, -⟩ := firstDestroyed_eq_some h
  have hcap : ((THREAD_MAX_THREADS - 1).toNat : ℤ) = 1023 := by decide
  have hmax : THREAD_MAX_THREADS = 1024 := rfl
  rw [hcap] at h₂
  have h₃ : (0 : ℤ) < num := lt_of_lt_of_le (by decide) h₁
  exact ⟨h₃, ⟨h₃.le, by rw [hmax]; exact h₂⟩, hdead⟩

/-- The thread that `thread_create` puts into its slot. -/
abbrev newThread (m : Machine) (fn parg : ℕ) : Thread :=
  ⟨.saved ⟨m.brk, false, [.threadStub fn parg]⟩, m.brk, .Running, -1, -SIGKILL⟩

/-- The machine behind a `thread_create` that has found the slot `num`. -/
abbrev createdAt (m : Machine) (num : Tid) (fn parg : ℕ) : Machine :=
  (((((m.interruptsSet false).afterMalloc369 THREAD_MIN_STACK).setThread num
    (newThread m fn parg)).emit (.created num fn parg)).pushReady num).interruptsSet m.interrupts

/-- After `thread_create` the new thread is parked at the start of `thread_stub`.

**Proof sketch.** The new thread is parked at the start of `thread_stub`, on the stack that has just
been allocated. It is neither the current thread nor thread 0, so what is known of these and of the
other parked threads stays. -/
lemma inside_createdAt (h : Inside m) {num : Tid} (hpos : 0 < num)
    (hdead : (m.threads num).state = .Destroyed) (fn parg : ℕ) :
    Inside (createdAt m num fn parg) := by
  have hne : num ≠ m.currentThread := fun heq => h.state (heq ▸ hdead)
  have htrace : (createdAt m num fn parg).trace =
      pushTrace m.threadQueue.entries num (.created num fn parg :: m.trace) := by
    rw [← pushTrace_eq]
    rfl
  have hq : Quiet (.created num fn parg :: m.trace) (createdAt m num fn parg).trace := by
    rw [htrace]
    exact quiet_pushTrace ..
  have hthreads : (createdAt m num fn parg).threads =
      Function.update m.threads num (newThread m fn parg) := rfl
  have hfate (t : Tid) (ht : t ≠ num) :
      fate t (createdAt m num fn parg).trace = fate t m.trace := by
    rw [hq.fate, fate, if_neg ht.symm]
  have hzero : (0 : Tid) ≠ num := hpos.ne
  refine ⟨⟨fun t ht hst => ?_, fun h0 => ?_, ?_⟩, h.admin, ?_, ?_, ?_, ?_⟩
  · rcases eq_or_ne t num with rfl | htn
    · rw [hthreads, Function.update_self]
      refine ⟨by rw [hq.fate]; simp, _, rfl, ?_⟩
      rw [hq.progress]
      simpa using Suspended.stub fn parg
    · rw [hthreads, Function.update_of_ne htn] at hst ⊢
      obtain ⟨halive, k, hk, hsus⟩ := h.parked.threads t ht hst
      refine ⟨(hfate t htn).trans halive, k, hk, ?_⟩
      rw [hq.progress, progress, if_neg htn.symm]
      exact hsus
  · rw [hthreads, Function.update_of_ne hzero]
    exact h.parked.zero h0
  · rw [hthreads, Function.update_of_ne hzero]
    exact h.parked.main
  · rw [hthreads]
    simpa [hne.symm] using h.state
  · exact (hfate _ hne.symm).trans h.alive
  · rw [hthreads]
    simpa [hne.symm] using h.rsp
  · rw [hthreads]
    simpa [hne.symm] using h.unsaved

/-- **`thread_create`**, called by user code.

**Proof sketch.** If there is a free slot, the thread is created in it (`create`) and put in the
ready queue, and the call returns its id. Otherwise the call is refused, and nothing has changed. -/
lemma Run.threadCreate_spec {fn parg : ℕ} (h : Run P v m)
    (hfree : ∀ u l, Label.free l = true → P u l)
    (hcalls : (abs m).Calls (.threadCreate fn parg))
    (hcreate : ∀ num, threadNumToCreate m = some num → P (abs m) (.create num fn parg)) :
    Lands P v (andThen (threadCreate fn parg m)
      fun r m => userReturn (.threadCreate fn parg) ⟨r, none⟩ m) := by
  have hfn : (progress m.currentThread m.trace).fn = some (.threadCreate fn parg) := by
    rw [show progress m.currentThread m.trace = _ from hcalls.progress]
  rw [threadCreate]
  dsimp only
  cases hint : m.interrupts with
  | false => exact lands_abort
  | true =>
    rw [if_neg (by decide)]
    cases hnum : threadNumToCreate (m.interruptsSet false) with
    | none =>
      have hsame : (m.interruptsSet false).interruptsSet true = m := by
        rw [← hint]
        rfl
      dsimp only
      rw [hsame]
      exact h.userReturn_spec hfree hfn trivial
    | some num =>
      obtain ⟨hpos, hvalid, hdead⟩ := threadNumToCreate_eq_some hnum
      have hi := inside_createdAt h.inside hpos hdead fn parg
      have hstep : View.Step (abs m) (.create num fn parg) (abs (createdAt m num fn parg)) := by
        have habs : abs (createdAt m num fn parg) = ((abs m).spawn num fn parg).pushReady num := by
          rw [abs_interruptsSet, abs_pushReady]
          exact congrArg (View.pushReady · num) (abs_spawn (m.interruptsSet false) num fn parg _)
        rw [habs]
        exact .create hcalls hpos hvalid hdead
      have hrun := h.step hi (hcreate num hnum) hstep
      have hq : Quiet (.created num fn parg :: m.trace) (createdAt m num fn parg).trace := by
        rw [show (createdAt m num fn parg).trace = _ from pushTrace_eq ..]
        exact quiet_pushTrace ..
      have hland := hrun.userReturn_spec (f := .threadCreate fn parg) (r := ⟨num, none⟩) hfree ?_
        trivial
      · rw [← hint]
        exact hland
      · rw [hq.progress]
        have hne : num ≠ m.currentThread := fun heq => h.inside.state (heq ▸ hdead)
        rw [progress]
        exact (if_neg hne).symm ▸ hfn

/-! ## `thread_wait` -/

/-- The machine in `thread_wait` when it calls `thread_yield`. -/
abbrev awaitingAt (m : Machine) (x : Tid) : Machine :=
  (((m.interruptsSet false).setWaiter x m.currentThread).setState m.currentThread .Sleep).emit
    (.waited m.currentThread x)

/-- The current thread has started to wait for another one and is inside its function. -/
lemma inside_awaitingAt (h : Inside m) (x : Tid) : Inside (awaitingAt m x) := by
  have hkeeps : Keeps (((m.interruptsSet false).setWaiter x m.currentThread).setState
      m.currentThread .Sleep) (awaitingAt m x) := by
    refine ⟨rfl, rfl, rfl, fun _ => rfl, fun _ => rfl, fun _ h => h, fun _ _ => rfl,
      fun t ht => ?_⟩
    exact if_neg (Ne.symm ht)
  have hst : ((m.setWaiter x m.currentThread).threads m.currentThread).state ≠ .Destroyed := by
    have hfield := congrFun (field_update_same Thread.state m.threads x
      { m.threads x with waiter := m.currentThread } rfl) m.currentThread
    exact fun hd => h.state (hfield ▸ hd)
  refine ((((keeps_interruptsSet m false).trans (keeps_setWaiter _ x m.currentThread)).trans
    (keeps_setState _ m.currentThread fun _ => hst)).trans hkeeps).inside h ?_
  simp

/-- The view of a machine in `thread_wait` when it calls `thread_yield`. -/
lemma abs_awaitingAt (m : Machine) (x : Tid) :
    abs (awaitingAt m x) = (abs m).awaiting m.currentThread x := by
  unfold awaitingAt View.awaiting
  simp only [abs_emit, abs_setState, abs_setWaiter, abs_interruptsSet]

/-- The states in `thread_wait` when it calls `thread_yield`. -/
lemma state_awaitingAt (m : Machine) (x t : Tid) (ht : t ≠ m.currentThread) :
    ((awaitingAt m x).threads t).state = (m.threads t).state :=
  (congrFun (congrArg View.state (abs_awaitingAt m x)) t).trans (Function.update_of_ne ht _ _)

/-- The ids in the state in which `thread_wait` calls `thread_yield` are ids of slots. -/
lemma valid_awaitingAt (h : (abs m).Valid) (x : Tid) : (abs (awaitingAt m x)).Valid := by
  rw [abs_awaitingAt]
  have hset := h.setWaiter x (.inr h.current)
  exact ⟨hset.current, hset.ready, hset.queues, hset.waiter, hset.null, hset.brk⟩

/-- The entries that `get_thread_any` drops there could not run before. -/
lemma useless_awaitingAt {x t : Tid} (h : Useless (awaitingAt m x) t) : Useless m t := by
  rintro ⟨hrun, hne⟩
  exact h ⟨(state_awaitingAt m x t hne).trans hrun, hne⟩

/-- `thread_wait` when no other thread can run: it goes on as if `x` had died.

**Proof sketch.** All entries of the ready queue are dropped (`discard`), and the thread comes back
from `thread_yield` at once. What it does then is one transaction, `waitNone`: it is recorded as the
waiter, stays asleep in its own slot, and returns the exit code that it finds in that of `x`. -/
lemma Run.threadWait_none {x : Tid} {c : Bool} (h : Run P v m)
    (hfree : ∀ u l, Label.free l = true → P u l) (hcalls : (abs m).Calls (.threadWait x c))
    (hsleeps : WaitSleeps m x) (hnone : ∀ u, P u (.waitNone x))
    (hall : ∀ t ∈ m.threadQueue.entries, Useless m t) {q' : Queue} (hnil : q'.entries = []) :
    Lands P v (userReturn (.threadWait x c)
      ⟨x, if c then some ((((awaitingAt m x).setThreadQueue q').threads x).exitCode) else none⟩
      (((awaitingAt m x).setThreadQueue q').interruptsSet true)) := by
  obtain ⟨hvalid, hst, hself, hwaiter⟩ := hsleeps
  have hi := inside_awaitingAt h.inside x
  have hdiscard : View.Step (abs m) (.discard m.threadQueue.entries) ((abs m).setReady []) :=
    .discard (by simp) hall
  have hstep : View.Step ((abs m).setReady []) (.waitNone x)
      ((((abs m).setReady []).awaiting m.currentThread x).back (.threadWait x c)
        ⟨x, (abs m).exitCodeOf x c⟩) :=
    .waitNone ⟨hcalls.alive, hcalls.progress⟩ hvalid hst hself hwaiter rfl
  have hback : abs (userReturn (.threadWait x c)
      ⟨x, if c then some ((((awaitingAt m x).setThreadQueue q').threads x).exitCode) else none⟩
      (((awaitingAt m x).setThreadQueue q').interruptsSet true)) =
      (((abs m).setReady []).awaiting m.currentThread x).back (.threadWait x c)
        ⟨x, (abs m).exitCodeOf x c⟩ := by
    have hcode : (((awaitingAt m x).setThreadQueue q').threads x).exitCode =
        (m.threads x).exitCode :=
      congrFun (congrArg View.exitCode (abs_awaitingAt m x)) x
    rw [hcode, abs_userReturn, abs_interruptsSet, abs_setThreadQueue, abs_awaitingAt, hnil]
    rfl
  refine .inr ⟨⟨?_, ?_⟩, ?_⟩
  · exact hback ▸ hstep.valid (hdiscard.valid h.valid)
  · exact controlOk_userReturn (((keeps_setThreadQueue _ q').trans
      (keeps_interruptsSet _ true)).inside hi hi.state) _ _
  · exact hback ▸ (h.path.tail (hfree _ _ rfl) hdiscard).tail (hnone _) hstep

/-- `thread_wait` when another thread can run: the processor goes to the first such thread in the
ready queue.

**Proof sketch.** The useless entries are dropped (`discard`), the thread is recorded as the waiter
of `x` and falls asleep, and the processor goes to `t`, all in one transaction (`wait`). It is
suspended in `thread_wait`, behind its `thread_yield`. -/
lemma Run.threadWait_switch {x t : Tid} {c : Bool} (h : Run P v m)
    (hfree : ∀ u l, Label.free l = true → P u l) (hcalls : (abs m).Calls (.threadWait x c))
    (hsleeps : WaitSleeps m x) {ds ts : List Tid} {q' : Queue}
    (hes : m.threadQueue.entries = ds ++ t :: ts) (hts : q'.entries = ts)
    (ht : isValidThread t) (hrun : ((awaitingAt m x).threads t).state = .Running)
    (hne : t ≠ m.currentThread) (hds : ∀ d ∈ ds, Useless m d) :
    Lands P v (threadYieldSwitch false t [.threadWait x c true, .user (.threadWait x c)]
      (((awaitingAt m x).interruptsSet false).setThreadQueue q')) := by
  obtain ⟨hvalid, hst, hself, hwaiter⟩ := hsleeps
  have hdiscard : View.Step (abs m) (.discard ds) ((abs m).setReady (t :: ts)) :=
    .discard hes hds
  have hrun' : (m.threads t).state = .Running := by
    rw [← state_awaitingAt m x t hne]
    exact hrun
  set m₁ := ((awaitingAt m x).interruptsSet false).setThreadQueue q' with hm₁
  have hwait : View.Step ((abs m).setReady (t :: ts)) (.wait x t)
      (abs (threadYieldSwitch false t [.threadWait x c true, .user (.threadWait x c)]
        m₁)) := by
    have habs : abs m₁ = ((abs m).awaiting m.currentThread x).setReady ts := by
      rw [hm₁, abs_setThreadQueue, abs_interruptsSet, abs_awaitingAt, hts]
    rw [abs_threadYieldSwitch, habs]
    exact View.Step.wait (v := (abs m).setReady (t :: ts)) ⟨hcalls.alive, hcalls.progress⟩
      hvalid hst hself hwaiter ⟨rfl, hrun', hne⟩
  refine .inr ⟨⟨hwait.valid (hdiscard.valid h.valid), ?_⟩,
    (h.path.tail (hfree _ _ rfl) hdiscard).tail (hfree _ _ rfl) hwait⟩
  have hi := inside_awaitingAt h.inside x
  have hi₁ : Inside m₁ := ((keeps_interruptsSet _ false).trans
    (keeps_setThreadQueue _ q')).inside hi hi.state
  refine controlOk_threadYieldSwitch (hi₁.mayLeave rfl fun a ha => ?_) ht
    (fun hd => absurd (hrun.symm.trans hd) (by decide)) hne
  have hprogress : progress m₁.currentThread m₁.trace =
      { fn := some (.threadWait x c), waits := some x } := by
    show progress m.currentThread (.waited m.currentThread x :: m.trace) = _
    rw [progress, if_pos rfl, show progress m.currentThread m.trace = _ from hcalls.progress]
  rw [hprogress]
  exact .wait ha hvalid c

/-- **`thread_wait`**, called by user code.

**Proof sketch.** The tests of the code come in turn: a refused call returns at once, and so does
one for a thread that is dead. A call that may sleep gives the processor away if there is somebody
to give it to (`Run.threadWait_switch`), and otherwise returns (`Run.threadWait_none`). -/
lemma Run.threadWait_spec {x : Tid} {c : Bool} (h : Run P v m)
    (hfree : ∀ u l, Label.free l = true → P u l) (hcalls : (abs m).Calls (.threadWait x c))
    (hsince : remade x m.currentThread m.trace = false)
    (hnone : WaitSleeps m x → (∀ t ∈ m.threadQueue.entries, Useless m t) →
      ∀ u, P u (.waitNone x)) :
    Lands P v (andThen (threadWait x c [.user (.threadWait x c)] m)
      fun r m => userReturn (.threadWait x c) r m) := by
  have hprogress : progress m.currentThread m.trace = { fn := some (.threadWait x c) } :=
    hcalls.progress
  have hfn : (progress m.currentThread m.trace).fn = some (.threadWait x c) := by rw [hprogress]
  have hrefused : Lands P v (userReturn (.threadWait x c) ⟨THREAD_INVALID, none⟩ m) :=
    h.userReturn_spec hfree hfn (.inl rfl)
  rw [threadWait]
  cases hint : m.interrupts with
  | false => exact lands_abort
  | true =>
    have hsame : (m.interruptsSet false).interruptsSet true = m := by
      rw [← hint]
      rfl
    simp only [Machine.interruptsSet_threads, Machine.interruptsSet_currentThread, hsame,
      not_true_eq_false, if_false]
    by_cases hvalid : isValidThread x
    swap
    · rw [if_pos hvalid]
      exact hrefused
    rw [if_neg (not_not.mpr hvalid)]
    by_cases hkilled : (m.threads x).state = .Destroyed ∧ (m.threads x).exitCode = -SIGKILL
    · rw [if_pos hkilled]
      exact hrefused
    rw [if_neg hkilled]
    by_cases hself : x = m.currentThread
    · rw [if_pos hself]
      exact hrefused
    rw [if_neg hself]
    by_cases hst : (m.threads x).state = .Destroyed
    swap
    · -- the call suspends its thread, unless another one is waiting for `x` already
      rw [if_pos hst]
      by_cases hwaiter : (m.threads x).waiter = -1
      swap
      · rw [if_pos hwaiter]
        exact hrefused
      rw [if_neg (not_not.mpr hwaiter)]
      have hv := valid_awaitingAt h.valid x
      show Lands P v (andThen ((threadYield THREAD_ANY [.threadWait x c true,
        .user (.threadWait x c)] (awaitingAt m x)).bind fun _ m => threadWaitAfterYield x c true m)
        fun r m => userReturn (.threadWait x c) r m)
      rcases threadYield_any_cases [.threadWait x c true, .user (.threadWait x c)] hv.current
        hv.ready with ⟨q', hnil, hall, heq⟩ | ⟨ds, t, ts, q', hes, hts, ht, hrun, hne, hds, heq⟩
      · rw [heq]
        have huse := fun t ht => useless_awaitingAt (hall t ht)
        exact h.threadWait_none hfree hcalls ⟨hvalid, hst, hself, hwaiter⟩
          (hnone ⟨hvalid, hst, hself, hwaiter⟩ huse) huse hnil
      · rw [heq]
        exact h.threadWait_switch hfree hcalls ⟨hvalid, hst, hself, hwaiter⟩ hes hts ht hrun hne
          fun d hd => useless_awaitingAt (hds d hd)
    · -- the thread is dead: its exit code is reported at once
      rw [if_neg (not_not.mpr hst)]
      have hcode : (m.threads x).exitCode ≠ -SIGKILL := fun heq => hkilled ⟨hst, heq⟩
      have hrun : Run P v ((m.interruptsSet false).interruptsSet true) := by rwa [hsame]
      refine hrun.userReturn_spec hfree hfn (.inr ⟨rfl, hvalid, .inr ⟨?_, hst, hcode, hsince⟩⟩)
      show (progress m.currentThread m.trace).waits = none
      rw [hprogress]

end UserThreads
