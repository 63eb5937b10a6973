import UserSpaceThreads.CallSpecs

set_option relaxedAutoImplicit false
set_option autoImplicit false

/-!
# Specifications of the end of a thread

The transactions of `handle_death`, `thread_kill`, `admin_mode` and `thread_exit`. A thread dies
in three places: killed by another thread, by `admin_mode` on the stack of thread 0, and, for
thread 0 itself, in `thread_exit`. `Dying` collects what `handle_death` needs in each of them.

## Main results

* `UserThreads.Dying.handleDeath_spec` — the three transactions of a death.
* `UserThreads.Run.threadKill_spec`, `UserThreads.adminMode_spec`,
  `UserThreads.Run.threadExit_spec`.
-/

namespace UserThreads

variable {P : View → Label → Prop} {v u : View} {m m' : Machine} {f : Fn}

/-! ## A buried thread -/

section Bury

variable (u : View) (t : Tid) (killed : Bool) (rsp : Addr) (heap : Heap)

/-- A burial changes the state of the dead thread only. -/
@[simp] lemma View.bury_state :
    (u.bury t killed rsp heap).state = Function.update u.state t .Destroyed := by
  unfold View.bury
  split_ifs <;> rfl

/-- A burial leaves waiters as they are. -/
@[simp] lemma View.bury_waiter : (u.bury t killed rsp heap).waiter = u.waiter := by
  unfold View.bury
  split_ifs <;> rfl

/-- A burial leaves exit codes as they are. -/
@[simp] lemma View.bury_exitCode : (u.bury t killed rsp heap).exitCode = u.exitCode := by
  unfold View.bury
  split_ifs <;> rfl

/-- A burial leaves the addresses of stacks as they are. -/
@[simp] lemma View.bury_stackStart : (u.bury t killed rsp heap).stackStart = u.stackStart := by
  unfold View.bury
  split_ifs <;> rfl

/-- A burial leaves the ready queue as it is. -/
@[simp] lemma View.bury_ready : (u.bury t killed rsp heap).ready = u.ready := by
  unfold View.bury
  split_ifs <;> rfl

/-- A burial leaves the current thread as it is. -/
@[simp] lemma View.bury_current : (u.bury t killed rsp heap).current = u.current := by
  unfold View.bury
  split_ifs <;> rfl

/-- A burial leaves wait queues as they are. -/
@[simp] lemma View.bury_queues : (u.bury t killed rsp heap).queues = u.queues := by
  unfold View.bury
  split_ifs <;> rfl

/-- A burial leaves locks as they are. -/
@[simp] lemma View.bury_locks : (u.bury t killed rsp heap).locks = u.locks := by
  unfold View.bury
  split_ifs <;> rfl

/-- A burial leaves condition variables as they are. -/
@[simp] lemma View.bury_cvs : (u.bury t killed rsp heap).cvs = u.cvs := by
  unfold View.bury
  split_ifs <;> rfl

/-- A burial leaves the break as it is. -/
@[simp] lemma View.bury_brk : (u.bury t killed rsp heap).brk = u.brk := by
  unfold View.bury
  split_ifs <;> rfl

/-- A burial frees the stack of the dead thread; thread 0 has none. -/
lemma View.bury_heap : (u.bury t killed rsp heap).heap = if t = 0 then u.heap else heap := by
  unfold View.bury
  split_ifs <;> rfl

/-- The history of a death: its stack is freed, and it is killed if it does not exit itself. -/
lemma View.bury_trace : (u.bury t killed rsp heap).trace =
    (if killed then [.killed t] else []) ++
      (if t = 0 then [] else [.freed (u.stackStart t) rsp (decide (u.heap.Live (u.stackStart t)))])
      ++ u.trace := by
  unfold View.bury
  split_ifs <;> rfl

/-- A burial is the end of the dead thread only. -/
lemma View.fate_bury {x : Tid} (hx : x ≠ t) :
    fate x (u.bury t killed rsp heap).trace = fate x u.trace := by
  rw [View.bury_trace]
  split_ifs <;> simp [hx.symm]

/-- A burial changes the progress of nobody. -/
@[simp] lemma View.progress_bury (x : Tid) :
    progress x (u.bury t killed rsp heap).trace = progress x u.trace := by
  rw [View.bury_trace]
  split_ifs <;> rfl

end Bury

/-! ## `handle_death` -/

/-- `handle_death` of a thread that nobody is waiting for. -/
lemma handleDeath_alone {t : Tid} {k : Stack}
    (hw : (m.threads t).waiter ≠ -1 → (m.threads t).waiter = t ∨
      (m.threads (m.threads t).waiter).state = .Destroyed) :
    handleDeath t k m = .ret () (m.setState t .Destroyed) := by
  rw [handleDeath]
  simp only [Machine.setState_threads, Function.update_self, Machine.interruptsSet_threads]
  by_cases hnone : (m.threads t).waiter = -1
  · rw [if_neg (not_not.mpr hnone)]
    rfl
  rw [if_pos hnone]
  rcases eq_or_ne (m.threads t).waiter t with heq | hne
  · rw [heq, Function.update_self]
    rfl
  · rw [Function.update_of_ne hne, Machine.interruptsSet_threads, (hw hnone).resolve_left hne]
    rfl

/-- The machine in which a death gives the processor to the waiter `w`. -/
abbrev releasedAt (m : Machine) (t w : Tid) : Machine :=
  ((m.setState t .Destroyed).setState w .Running).emit (.released t w)

/-- `handle_death` of a thread whose waiter is another thread and not dead.

**Proof sketch.** The code asserts that the waiter is asleep, makes it Running and yields to it. If
the waiter is the current thread, `thread_yield` returns at once; otherwise it is alive, and the
switch is made. -/
lemma handleDeath_waited {t w : Tid} {k : Stack} (hw : (m.threads t).waiter = w) (hne : w ≠ t)
    (hvalid : isValidThread w) (hst : (m.threads w).state ≠ .Destroyed) :
    handleDeath t k m =
      if (m.threads w).state = .Running then
        .jump ((m.interruptsSet false).setState t .Destroyed).abort
      else if w = m.currentThread then .ret () (releasedAt m t w)
      else .jump (threadYieldSwitch false w (.handleDeath m.interrupts :: k)
        (releasedAt (m.interruptsSet false) t w)) := by
  have hnone : w ≠ -1 := hvalid.ne.2.2.1
  rw [handleDeath]
  simp only [Machine.setState_threads, Function.update_self, Machine.interruptsSet_threads, hw,
    Function.update_of_ne hne, if_pos hnone]
  by_cases hrun : (m.threads w).state = .Running
  · rw [if_pos hrun, if_pos hrun]
  have hsleep : (m.threads w).state = .Sleep := by
    cases h : (m.threads w).state with
    | Destroyed => exact (hst h).elim
    | Running => exact (hrun h).elim
    | Sleep => rfl
  rw [if_neg hrun, if_neg hrun, if_pos hsleep, threadYield]
  simp only [Machine.interruptsSet_currentThread, Machine.emit_currentThread,
    Machine.setState_currentThread]
  by_cases hcur : w = m.currentThread
  · rw [if_pos (.inr hcur), if_pos hcur]
    rfl
  · rw [if_neg (by rintro (h | h); exacts [hvalid.ne.2.2.2 h, hcur h]), if_neg hvalid.ne.2.2.1,
      if_neg hcur]
    rw [threadYieldTo_live hvalid (by simp)]
    rfl

/-- What `handle_death` of `t`, called by `k`, relies on: the view `u` is the one before the
death, and the current thread, if it survives, can be resumed in `handle_death`. -/
structure Dying (P : View → Label → Prop) (v u : View) (t : Tid) (killed : Bool) (rsp : Addr)
    (heap : Heap) (k : Stack) (m : Machine) : Prop where
  start : v.Valid
  path : Runs.Path View.Step P v u
  dies : u.Dies t killed rsp heap
  buried : abs (m.setState t .Destroyed) = u.bury t killed rsp heap
  parked : Parked (m.setState t .Destroyed)
  admin : m.administrativeMode = false
  main : m.currentThread = 0 → m.rsp = NULL
  alive : m.currentThread ≠ t → fate m.currentThread m.trace = some .alive ∧
    m.rsp = (m.threads m.currentThread).stackStart ∧ ∀ a, isValidThread a →
      Suspended (.threadYield false a true :: .handleDeath m.interrupts :: k)
        (progress m.currentThread m.trace)

section Dying

variable {t : Tid} {killed : Bool} {rsp : Addr} {heap : Heap} {k : Stack}

/-- The machine and the view have the same current thread. -/
lemma Dying.current_eq (h : Dying P v u t killed rsp heap k m) : m.currentThread = u.current := by
  simpa using congrArg View.current h.buried

/-- The machine and the view have the same waiters. -/
lemma Dying.waiter_eq (h : Dying P v u t killed rsp heap k m) (x : Tid) :
    (m.threads x).waiter = u.waiter x := by
  have hw := congrFun (congrArg View.waiter h.buried) x
  rwa [abs_setState, View.bury_waiter] at hw

/-- The machine and the view have the same states, but for the dying thread. -/
lemma Dying.state_eq (h : Dying P v u t killed rsp heap k m) {x : Tid} (hx : x ≠ t) :
    (m.threads x).state = u.state x := by
  have hs := congrFun (congrArg View.state h.buried) x
  rwa [abs_setState, View.bury_state, View.setState_state, Function.update_of_ne hx,
    Function.update_of_ne hx] at hs

/-- After the waiter has been released, the current thread may leave. -/
lemma Dying.mayLeave (h : Dying P v u t killed rsp heap k m) {w : Tid} (hw : w ≠ t)
    (hst : (m.threads w).state = .Sleep) (hcur : w ≠ m.currentThread) :
    MayLeave (releasedAt (m.interruptsSet false) t w) false (.handleDeath m.interrupts :: k) := by
  have hkeeps : Keeps (m.setState t .Destroyed) (releasedAt (m.interruptsSet false) t w) := by
    refine ((keeps_interruptsSet _ false).trans (keeps_setState _ w fun _ => ?_)).trans
      (keeps_emit _ ⟨fun _ => rfl, fun _ => rfl⟩)
    simp [hw, hst]
  have hcurrent : (releasedAt (m.interruptsSet false) t w).currentThread = m.currentThread := rfl
  have hself (hne : ((releasedAt (m.interruptsSet false) t w).threads
      m.currentThread).state ≠ .Destroyed) : m.currentThread ≠ t := by
    intro heq
    have hcur' : m.currentThread ≠ w := Ne.symm hcur
    apply hne
    rw [Machine.emit_threads, Machine.setState_threads, Function.update_of_ne hcur', heq]
    simp
  refine ⟨hkeeps.parked h.parked, h.admin, rfl, h.main, fun hne => ?_, fun hne a ha => ?_⟩
  · rw [hcurrent] at hne ⊢
    obtain ⟨halive, hrsp, -⟩ := h.alive (hself hne)
    refine ⟨halive, ?_⟩
    rw [hkeeps.stackStart]
    refine hrsp.trans ?_
    simp [hself hne]
  · rw [hcurrent] at hne
    exact (h.alive (hself hne)).2.2 a ha

/-- What `handle_death` leaves when it returns. -/
def Died (t : Tid) (m m' : Machine) : Prop :=
  m' = m.setState t .Destroyed ∨ (m.threads m.currentThread).state = .Sleep ∧
    m.currentThread ≠ t ∧ m' = releasedAt m t m.currentThread

/-- **`handle_death`.** The thread dies; its waiter, if it is asleep, is made Running and gets
the processor.

**Proof sketch.** Without a waiter, or with one that is dead, the thread just dies (`die`). A waiter
that is Running fails the assertion. A sleeping one is the current thread, which goes on
(`dieBack`), or another thread, which gets the processor (`dieTo`). -/
lemma Dying.handleDeath_spec (h : Dying P v u t killed rsp heap k m) (hdie : P u (.die t killed))
    (hback : P u (.dieBack t killed))
    (hto : ∀ w, u.waiter t = w → isValidThread w → w ≠ t → w ≠ u.current → u.state w = .Sleep →
      P u (.dieTo t w killed)) :
    (handleDeath t k m).All (fun _ m' => Runs.Path View.Step P v (abs m') ∧ Died t m m')
      (Lands P v) := by
  have hu : u.Valid := valid_of_path h.start h.path
  by_cases halone : (m.threads t).waiter ≠ -1 → (m.threads t).waiter = t ∨
      (m.threads (m.threads t).waiter).state = .Destroyed
  · rw [handleDeath_alone halone]
    refine ⟨h.path.tail hdie ?_, .inl rfl⟩
    rw [h.buried]
    refine .die h.dies fun hw => ?_
    rw [← h.waiter_eq] at hw ⊢
    rcases eq_or_ne (m.threads t).waiter t with heq | hne
    · exact .inl heq
    · rw [← h.state_eq hne]
      exact halone hw
  · push Not at halone
    obtain ⟨hnone, hne, hst⟩ := halone
    have hvalid : isValidThread (m.threads t).waiter := by
      have := hu.waiter t
      rw [← h.waiter_eq] at this
      exact this.resolve_left hnone
    set w := (m.threads t).waiter with hw
    have hwu : u.waiter t = w := (h.waiter_eq t).symm
    rw [handleDeath_waited hw.symm hne hvalid hst]
    by_cases hrun : (m.threads w).state = .Running
    · rw [if_pos hrun]
      exact lands_abort
    rw [if_neg hrun]
    have hsleep : (m.threads w).state = .Sleep := by
      cases hs : (m.threads w).state with
      | Destroyed => exact (hst hs).elim
      | Running => exact (hrun hs).elim
      | Sleep => rfl
    have hsleepu : u.state w = .Sleep := (h.state_eq hne).symm.trans hsleep
    by_cases hcur : w = m.currentThread
    · rw [if_pos hcur]
      refine ⟨h.path.tail hback ?_, .inr ⟨hcur ▸ hsleep, hcur ▸ hne, by rw [hcur]⟩⟩
      rw [abs_emit, abs_setState, h.buried, hcur, h.current_eq]
      rw [hcur, h.current_eq] at hwu hsleepu hne
      exact .dieBack h.dies hwu hsleepu hne
    · rw [if_neg hcur]
      have hcuru : w ≠ u.current := h.current_eq ▸ hcur
      have hstep : View.Step u (.dieTo t w killed) (abs (threadYieldSwitch false w
          (.handleDeath m.interrupts :: k) (releasedAt (m.interruptsSet false) t w))) := by
        have habs : abs (releasedAt (m.interruptsSet false) t w) =
            (u.bury t killed rsp heap).release t w := by
          rw [abs_emit, abs_setState, ← h.buried]
          rfl
        rw [abs_threadYieldSwitch, habs]
        exact .dieTo h.dies hwu hvalid hsleepu hne hcuru
      refine .inr ⟨⟨hstep.valid hu, ?_⟩,
        h.path.tail (hto w hwu hvalid hne hcuru hsleepu) hstep⟩
      exact controlOk_threadYieldSwitch (h.mayLeave hne hsleep hcur) hvalid (by simp) hcur

end Dying

/-! ## `thread_kill` -/

/-- The machine in `thread_kill` when it calls `handle_death`. -/
abbrev killedAt (m : Machine) (t : Tid) (killed : Bool) (heap : Heap) : Machine :=
  let m := if t = 0 then m else m.afterFree369 (m.threads t).stackStart heap
  let m := if killed then m.emit (.killed t) else m
  m.setAdministrativeMode false

/-- The view of the machine in `thread_kill`, once the slot is free. -/
lemma abs_killedAt (m : Machine) (t : Tid) (killed : Bool) (heap : Heap) :
    abs ((killedAt m t killed heap).setState t .Destroyed) =
      (abs m).bury t killed m.rsp heap := by
  unfold killedAt View.bury
  rw [abs_setState]
  split_ifs <;> rfl

/-- Freeing the slot of a thread keeps the contexts of the others.

**Proof sketch.** The slot of `t` changes in its state only, and of the history only events about
`t` are new. -/
lemma keeps_killedAt (m : Machine) (t : Tid) (killed : Bool) (heap : Heap)
    (hadmin : m.administrativeMode = false) :
    Keeps m ((killedAt m t killed heap).setState t .Destroyed) := by
  have hthreads : ((killedAt m t killed heap).setState t .Destroyed).threads =
      Function.update m.threads t { m.threads t with state := .Destroyed } := by
    unfold killedAt
    split_ifs <;> rfl
  have htrace : ((killedAt m t killed heap).setState t .Destroyed).trace =
      ((abs m).bury t killed m.rsp heap).trace :=
    congrArg View.trace (abs_killedAt m t killed heap)
  have hstate (x : Tid) (hx : (((killedAt m t killed heap).setState t .Destroyed).threads
      x).state ≠ .Destroyed) : x ≠ t := by
    rintro rfl
    rw [hthreads, Function.update_self] at hx
    exact hx rfl
  refine ⟨?_, hadmin.symm, ?_, fun x => ?_, fun x => ?_, fun x hx => ?_, fun x hx => ?_,
    fun x _ => ?_⟩
  · unfold killedAt
    split_ifs <;> rfl
  · unfold killedAt
    split_ifs <;> rfl
  · rw [hthreads]
    exact congrFun (field_update_same Thread.ucontext m.threads t
      { m.threads t with state := .Destroyed } rfl) x
  · rw [hthreads]
    exact congrFun (field_update_same Thread.stackStart m.threads t
      { m.threads t with state := .Destroyed } rfl) x
  · have hne := hstate x hx
    rwa [hthreads, Function.update_of_ne hne] at hx
  · rw [htrace]
    exact View.fate_bury _ _ _ _ _ (hstate x hx)
  · rw [htrace]
    exact View.progress_bury ..

/-- The other thread that `thread_kill` makes dead, as `handle_death` finds it.

**Proof sketch.** The killer is alive and goes on, so it is as a suspended `thread_kill` has to be:
should `handle_death` give the processor away, its context is saved with that stack of frames. -/
lemma Run.dying_killedAt {t : Tid} (h : Run P v m) (hcalls : (abs m).Calls (.threadKill t))
    (hself : t ≠ m.currentThread) (hvalid : isValidThread t)
    (hst : (m.threads t).state ≠ .Destroyed) {heap : Heap}
    (hheap : t ≠ 0 → m.heap.free369 (m.threads t).stackStart = some heap) :
    Dying P v (abs m) t true m.rsp heap [.threadKill t m.interrupts, .user (.threadKill t)]
      (killedAt (m.interruptsSet false) t true heap) := by
  set m₁ := m.interruptsSet false with hm₁
  have hkeeps : Keeps m ((killedAt m₁ t true heap).setState t .Destroyed) :=
    (keeps_interruptsSet m false).trans (keeps_killedAt m₁ t true heap h.inside.admin)
  have hcur : (killedAt m₁ t true heap).currentThread = m.currentThread := hkeeps.current
  have hprogress : progress m.currentThread (killedAt m₁ t true heap).trace =
      { fn := some (.threadKill t) } := by
    unfold killedAt
    split_ifs <;> exact hcalls.progress
  have hfate : fate m.currentThread (killedAt m₁ t true heap).trace = some .alive := by
    have halive : fate m.currentThread m₁.trace = some .alive := h.inside.alive
    unfold killedAt
    split_ifs <;> simpa [hself] using halive
  have hrsp : (killedAt m₁ t true heap).rsp = m.rsp := hkeeps.rsp
  have hint : (killedAt m₁ t true heap).interrupts = false := by
    unfold killedAt
    split_ifs <;> rfl
  have hstack (x : Tid) : ((killedAt m₁ t true heap).threads x).stackStart =
      (m.threads x).stackStart := by
    unfold killedAt
    split_ifs <;> rfl
  refine ⟨h.start, h.path, ⟨hvalid, hst, fun _ => ⟨hcalls, hself, h.inside.rsp⟩,
    fun hf => absurd hf (by decide), hheap⟩, abs_killedAt m₁ t true heap,
    hkeeps.parked h.inside.parked, hkeeps.admin.trans h.inside.admin, fun h0 => ?_,
    fun _ => ⟨?_, ?_, fun a ha => ?_⟩⟩
  · rw [hrsp, h.inside.rsp, ← hcur, h0]
    exact h.inside.parked.main
  · rw [hcur, hfate]
  · rw [hcur, hrsp, hstack]
    exact h.inside.rsp
  · rw [hcur, hprogress, hint]
    exact .kill ha hvalid m.interrupts

/-- `thread_kill` once the stack of the other thread has been freed.

**Proof sketch.** `handle_death` either gives the processor to the waiter, and the killer is
suspended in `thread_kill`, or comes back to the killer: because nobody can be given the processor,
or because the killer is itself the waiter. Then `thread_kill` restores the mask and returns. -/
lemma Run.threadKill_rest {t : Tid} (h : Run P v m)
    (hfree : ∀ u l, Label.free l = true → P u l) (hcalls : (abs m).Calls (.threadKill t))
    (hdie : P (abs m) (.die t true)) (hback : P (abs m) (.dieBack t true))
    (hto : ∀ w, (abs m).waiter t = w → isValidThread w → w ≠ t → w ≠ m.currentThread →
      (abs m).state w = .Sleep → P (abs m) (.dieTo t w true))
    (hself : t ≠ m.currentThread) (hvalid : isValidThread t)
    (hst : (m.threads t).state ≠ .Destroyed) {heap : Heap}
    (hheap : t ≠ 0 → m.heap.free369 (m.threads t).stackStart = some heap) :
    Lands P v (andThen ((handleDeath t [.threadKill t m.interrupts, .user (.threadKill t)]
      (killedAt (m.interruptsSet false) t true heap)).bind
        fun _ m' => threadKillAfterDeath t m.interrupts m')
      fun r m => userReturn (.threadKill t) ⟨r, none⟩ m) := by
  set m₁ := m.interruptsSet false with hm₁
  have hdying := h.dying_killedAt hcalls hself hvalid hst hheap
  have hkeeps : Keeps m ((killedAt m₁ t true heap).setState t .Destroyed) :=
    (keeps_interruptsSet m false).trans (keeps_killedAt m₁ t true heap h.inside.admin)
  have hcur : (killedAt m₁ t true heap).currentThread = m.currentThread := hkeeps.current
  have hfn : (progress (killedAt m₁ t true heap).currentThread
      (killedAt m₁ t true heap).trace).fn = some (.threadKill t) := by
    have hprogress : progress m.currentThread (killedAt m₁ t true heap).trace =
        { fn := some (.threadKill t) } := by
      unfold killedAt
      split_ifs <;> exact hcalls.progress
    rw [hcur, hprogress]
  refine lands_andThen ((hdying.handleDeath_spec hdie hback hto).bind (R := fun r m' =>
    Run P v m' ∧ (progress m'.currentThread m'.trace).fn = some (.threadKill t)) ?_) ?_
  · rintro - m' ⟨hpath, hdied⟩
    rw [threadKillAfterDeath]
    have hi₁ : Inside ((killedAt m₁ t true heap).setState t .Destroyed) := by
      refine hkeeps.inside h.inside ?_
      rw [Machine.setState_threads, Function.update_of_ne (Ne.symm hself)]
      unfold killedAt
      split_ifs <;> exact h.inside.state
    rcases hdied with rfl | ⟨hsleep, hne, rfl⟩
    · exact ⟨⟨h.start, (keeps_interruptsSet ..).inside hi₁ hi₁.state, hpath⟩, hfn⟩
    · have hi₂ : Inside (releasedAt (killedAt m₁ t true heap) t
          (killedAt m₁ t true heap).currentThread) := by
        refine ((keeps_setState _ _ fun _ => hi₁.state).trans (keeps_emit _
          ⟨fun _ => rfl, fun _ => rfl⟩)).inside hi₁ ?_
        simp
      exact ⟨⟨h.start, (keeps_interruptsSet ..).inside hi₂ hi₂.state, hpath⟩, hfn⟩
  · rintro r m' ⟨hrun, hfn⟩
    exact hrun.userReturn_spec hfree hfn trivial

/-- **`thread_kill`**, called by user code.

**Proof sketch.** The tests come first, and a refused call returns at once. Thread 0 has no stack to
free; the stack of any other thread is freed, which fails only with the assertion of `free369`. The
rest is `Run.threadKill_rest`. -/
lemma Run.threadKill_spec {t : Tid} (h : Run P v m)
    (hfree : ∀ u l, Label.free l = true → P u l) (hcalls : (abs m).Calls (.threadKill t))
    (hdie : P (abs m) (.die t true)) (hback : P (abs m) (.dieBack t true))
    (hto : ∀ w, (abs m).waiter t = w → isValidThread w → w ≠ t → w ≠ m.currentThread →
      (abs m).state w = .Sleep → P (abs m) (.dieTo t w true)) :
    Lands P v (andThen (threadKill t [.user (.threadKill t)] m)
      fun r m => userReturn (.threadKill t) ⟨r, none⟩ m) := by
  have hprogress : progress m.currentThread m.trace = { fn := some (.threadKill t) } :=
    hcalls.progress
  have hrefused : Lands P v (userReturn (.threadKill t) ⟨THREAD_INVALID, none⟩ m) :=
    h.userReturn_spec hfree (by rw [hprogress]) trivial
  rw [threadKill]
  simp only [Machine.interruptsSet_currentThread, Machine.interruptsSet_administrativeMode,
    Machine.interruptsSet_threads, h.inside.admin]
  by_cases hself : t = m.currentThread
  · rw [if_pos ⟨hself, by decide⟩]
    exact hrefused
  rw [if_neg (fun hand => hself hand.1)]
  by_cases hvalid : isValidThread t
  swap
  · rw [if_pos (or_comm.mp (out_of_range_iff.mpr hvalid))]
    exact hrefused
  rw [if_neg (fun hr => out_of_range_iff.mp (or_comm.mp hr) hvalid)]
  by_cases hst : (m.threads t).state = .Destroyed
  · rw [if_pos hst]
    exact hrefused
  rw [if_neg hst]
  by_cases h0 : t = 0
  · rw [if_neg (not_not.mpr h0)]
    have hheap : t ≠ 0 → m.heap.free369 (m.threads t).stackStart = some m.heap :=
      fun hne => (hne h0).elim
    have hrest := h.threadKill_rest hfree hcalls hdie hback hto hself hvalid hst hheap
    simpa [killedAt, h0, h.inside.admin] using hrest
  · rw [if_pos h0, Machine.free369]
    cases hheap : (m.interruptsSet false).heap.free369
        ((m.interruptsSet false).threads t).stackStart with
    | none =>
      rw [show (m.threads t).stackStart = ((m.interruptsSet false).threads t).stackStart from rfl,
        hheap]
      exact lands_abort
    | some heap =>
      rw [show (m.threads t).stackStart = ((m.interruptsSet false).threads t).stackStart from rfl,
        hheap]
      have hrest := h.threadKill_rest hfree hcalls hdie hback hto hself hvalid hst fun _ => hheap
      simpa [killedAt, h0, h.inside.admin] using hrest

/-! ## A dead thread gives up the processor -/

/-- `thread_yield(THREAD_ANY)` by a dead thread that is still current: the processor goes to
another thread, or the function returns `THREAD_NONE`. -/
lemma threadYield_dead {k : Stack} (hv : v.Valid)
    (hpath : Runs.Path View.Step P v (abs m)) (hfree : ∀ u l, Label.free l = true → P u l)
    (hP : ∀ t u, u.state u.current = .Destroyed → P u (.dispatch t))
    (hdead : (m.threads m.currentThread).state = .Destroyed) (hparked : Parked m)
    (hadmin : m.administrativeMode = false) (hmain : m.currentThread = 0 → m.rsp = NULL) :
    (threadYield THREAD_ANY k m).All
      (fun r m' => r = THREAD_NONE ∧ ∃ q', m' = m.setThreadQueue q') (Lands P v) := by
  have hvm : (abs m).Valid := valid_of_path hv hpath
  rcases threadYield_any_cases k hvm.current hvm.ready with
    ⟨q', -, -, heq⟩ | ⟨ds, t, ts, q', hes, hts, ht, hrun, hne, hds, heq⟩
  · rw [heq]
    exact ⟨rfl, q', rfl⟩
  · rw [heq]
    set m₁ := (m.interruptsSet false).setThreadQueue q' with hm₁
    have hkeeps : Keeps m m₁ :=
      (keeps_interruptsSet m false).trans (keeps_setThreadQueue _ q')
    have hdead₁ : (m₁.threads m₁.currentThread).state = .Destroyed := hdead
    have hleave : MayLeave m₁ m.interrupts k := ⟨hkeeps.parked hparked, hadmin, rfl, hmain,
      fun hne => (hne hdead₁).elim, fun hne => (hne hdead₁).elim⟩
    exact lands_dispatch hv hpath hfree hes hts hds ht hrun hne (hP t _ hdead)
      (fun hne => (hne hdead).elim) hleave

/-! ## `admin_mode` -/

/-- Leaving administrative mode keeps the contexts. -/
lemma keeps_killedAt_current (m : Machine) (heap : Heap) :
    Keeps (m.setAdministrativeMode false)
      ((killedAt m m.currentThread false heap).setState m.currentThread .Destroyed) := by
  have hsame : killedAt (m.setAdministrativeMode false) m.currentThread false heap =
      killedAt m m.currentThread false heap := by
    unfold killedAt
    split_ifs <;> rfl
  have hkeeps := keeps_killedAt (m.setAdministrativeMode false) m.currentThread false heap rfl
  rwa [hsame] at hkeeps

/-- **`admin_mode`** in the context of thread 0, with the exiting thread current, does not
return.

**Proof sketch.** In `admin_mode` the exiting thread is killed in its own name, so `thread_kill`
frees its stack and calls `handle_death`. A waiter gets the processor there. Without one the thread
is dead, `thread_yield` gives the processor to somebody else (`threadYield_dead`), and if there is
nobody the process exits. -/
lemma adminMode_spec {k : Stack} (h : Exiting m k) (hint : m.interrupts = false)
    (hv : v.Valid) (hpath : Runs.Path View.Step P v (abs m))
    (hfree : ∀ u l, Label.free l = true → P u l)
    (hP : ∀ t u, u.state u.current = .Destroyed → P u (.dispatch t))
    (hdie : P (abs m) (.die m.currentThread false))
    (hback : P (abs m) (.dieBack m.currentThread false))
    (hto : ∀ w, (abs m).waiter m.currentThread = w → isValidThread w → w ≠ m.currentThread →
      (abs m).state w = .Sleep → P (abs m) (.dieTo m.currentThread w false)) :
    (adminMode k m).All (fun _ _ => False) (Lands P v) := by
  have hvm : (abs m).Valid := valid_of_path hv hpath
  have hvalid : isValidThread m.currentThread := hvm.current
  have hsame : m.interruptsSet false = m := by rw [← hint]; rfl
  rw [adminMode, hint, if_neg (by decide), threadKill]
  simp only [hint, hsame, h.admin, not_true_eq_false, and_false, if_false, ne_eq, h.ne,
    not_false_eq_true, if_true, h.state]
  rw [if_neg (fun hr => out_of_range_iff.mp (or_comm.mp hr) hvalid), Machine.free369]
  cases hheap : m.heap.free369 (m.threads m.currentThread).stackStart with
  | none => exact lands_abort
  | some heap =>
    have hkilled : killedAt m m.currentThread false heap =
        (m.afterFree369 (m.threads m.currentThread).stackStart heap).setAdministrativeMode
          false := by
      unfold killedAt
      rw [if_neg h.ne]
      rfl
    simp only [Outcome.bind_ret, Machine.afterFree369_administrativeMode, h.admin, if_true]
    rw [← hkilled]
    set m₁ := killedAt m m.currentThread false heap with hm₁
    have hkeeps := keeps_killedAt_current m heap
    have hcur : m₁.currentThread = m.currentThread := hkeeps.current
    have hfate : fate m.currentThread (abs m).trace =
        some (.exited (m.threads m.currentThread).exitCode) := h.fate
    have hdying : Dying P v (abs m) m.currentThread false m.rsp heap
        (.threadKill m.currentThread false :: .adminKill :: k) m₁ := by
      refine ⟨hv, hpath, ⟨hvalid, h.state, fun hf => absurd hf (by decide),
        fun _ => ⟨rfl, ⟨_, hfate⟩, fun _ => h.rsp⟩, fun _ => hheap⟩,
        abs_killedAt m m.currentThread false heap, hkeeps.parked ?_, rfl, fun h0 => ?_,
        fun hne => (hne hcur).elim⟩
      · exact ⟨h.parked.threads, h.parked.zero, h.parked.main⟩
      · exact (h.ne (hcur ▸ h0)).elim
    have hto' : ∀ w, (abs m).waiter m.currentThread = w → isValidThread w → w ≠ m.currentThread →
        w ≠ (abs m).current → (abs m).state w = .Sleep →
        P (abs m) (.dieTo m.currentThread w false) := fun w hw hwv hne _ hst => hto w hw hwv hne hst
    refine ((hdying.handleDeath_spec hdie hback hto').bind (R := fun _ m' =>
      m' = (m₁.setState m.currentThread .Destroyed).interruptsSet false ∧
        Runs.Path View.Step P v (abs m')) ?_).bind ?_
    · rintro - m' ⟨hpath', hdied⟩
      rcases hdied with rfl | ⟨-, hne, -⟩
      · exact ⟨rfl, hpath'⟩
      · exact (hne hcur).elim
    · rintro r m' ⟨rfl, hpath'⟩
      have hcur' : ((m₁.setState m.currentThread .Destroyed).interruptsSet false).currentThread =
          m.currentThread := hcur
      have hdead : (((m₁.setState m.currentThread .Destroyed).interruptsSet false).threads
          m.currentThread).state = .Destroyed := by simp
      rw [adminModeAfterKill]
      simp only [Machine.setThreadToDestroy_interrupts, Machine.setAdministrativeMode_interrupts,
        Machine.interruptsSet_interrupts, Machine.setThreadToDestroy_currentThread,
        Machine.setAdministrativeMode_currentThread, hcur', Machine.setThreadToDestroy_threads,
        Machine.setAdministrativeMode_threads, hdead, h.ne, ne_eq, not_false_eq_true,
        not_true_eq_false, if_false]
      rw [if_neg (by decide)]
      set m₂ := (((m₁.setState m.currentThread .Destroyed).interruptsSet
        false).setAdministrativeMode false).setThreadToDestroy (-1) with hm₂
      have hparked : Parked m₂ := by
        have hp := hkeeps.parked ⟨h.parked.threads, h.parked.zero, h.parked.main⟩
        exact ⟨hp.threads, hp.zero, hp.main⟩
      have hcur₂ : m₂.currentThread = m.currentThread := hcur
      refine (threadYield_dead (m := m₂) hv hpath' hfree hP ?_ hparked rfl ?_).bind ?_
      · rw [hcur₂]
        exact hdead
      · exact fun h0 => (h.ne (hcur₂ ▸ h0)).elim
      · rintro r m' ⟨rfl, q', rfl⟩
        rw [adminModeAfterYield, if_pos rfl]
        exact lands_exit 0

/-! ## `thread_exit` -/

/-- A thread other than thread 0 exits: the context of thread 0 is loaded.

**Proof sketch.** Thread 0 is parked at its `getcontext`, as it is not the current thread. Its
context is loaded with the exiting thread still current, which is recorded in `admin_mode`; what is
parked stays parked. -/
lemma Run.threadExit_other {c : ℤ} (h : Run P v m) (hfree : ∀ u l, Label.free l = true → P u l)
    (hcalls : (abs m).Calls f) (hexits : f = .threadExit c ∨ f = .threadReturn ∧ c = 0)
    (h0 : m.currentThread ≠ 0) :
    Lands P v (threadExitSetcontext c ((m.interruptsSet false).emit
      (.exited m.currentThread c))) := by
  obtain ⟨s, a, k, hk⟩ := h.inside.parked.zero h0
  set m₁ := ((((m.interruptsSet false).emit (.exited m.currentThread c)).setThreadToDestroy
    m.currentThread).setAdministrativeMode true).setExitCode m.currentThread c with hm₁
  have hthreads : m₁.threads = Function.update m.threads m.currentThread
      { m.threads m.currentThread with exitCode := c } := rfl
  have hload : threadExitSetcontext c ((m.interruptsSet false).emit
      (.exited m.currentThread c)) = m₁.load ⟨NULL, false, .threadYield s a true :: k⟩ := by
    rw [threadExitSetcontext]
    show m₁.setcontext (m₁.threads 0).ucontext = _
    rw [hthreads, Function.update_of_ne h0.symm, hk]
    rfl
  rw [hload]
  have hstep : View.Step (abs m) (.exit c)
      (abs (m₁.load ⟨NULL, false, .threadYield s a true :: k⟩)) := by
    have habs :
        abs m₁ = ((abs m).emit (.exited m.currentThread c)).setExitCode m.currentThread c := by
      rw [hm₁, abs_setExitCode]
      rfl
    rw [abs_load, habs]
    exact .exit hcalls hexits
  refine h.lands ⟨rfl, .inr ⟨⟨fun t ht hst => ?_, fun _ => ?_, ?_⟩, rfl, rfl, h0, ?_, rfl, ?_,
    s, a, k, rfl⟩⟩ (hfree _ _ rfl) hstep
  · have ht' : t ≠ m.currentThread := ht
    simp only [Machine.load_threads, Machine.load_trace, hthreads, Function.update_of_ne ht']
      at hst ⊢
    exact (h.inside.parked.threads t ht' hst).exited ht'
  · simp only [Machine.load_threads, hthreads, Function.update_of_ne h0.symm]
    exact ⟨s, a, k, hk⟩
  · simp only [Machine.load_threads, hthreads, Function.update_of_ne h0.symm]
    exact h.inside.parked.main
  · show (m₁.threads m.currentThread).state ≠ _
    rw [hthreads, Function.update_self]
    exact h.inside.state
  · show fate m.currentThread (.exited m.currentThread c :: m.trace) =
      some (.exited (m₁.threads m.currentThread).exitCode)
    rw [fate, if_pos rfl, hthreads, Function.update_self]

/-- Without a saved context of thread 0, `thread_exit` ends in undefined behaviour. -/
lemma threadExitSetcontext_undefined (c : ℤ) (h : ∀ c', (m.threads 0).ucontext ≠ .saved c') :
    (threadExitSetcontext c m).control = .undefined := by
  set m₁ := ((m.setThreadToDestroy m.currentThread).setAdministrativeMode true).setExitCode
    m.currentThread c with hm₁
  have hu : (m₁.threads 0).ucontext = (m.threads 0).ucontext :=
    congrFun (field_update_same Thread.ucontext m.threads m.currentThread
      { m.threads m.currentThread with exitCode := c } rfl) 0
  show (m₁.setcontext (m₁.threads 0).ucontext).control = _
  rw [hu]
  cases hc : (m.threads 0).ucontext with
  | uninit => rfl
  | spent => rfl
  | saved c' => exact (h c' hc).elim

/-- Thread 0 exits: it dies at once, and another thread runs. Without another thread the
behaviour is undefined, since thread 0 has no saved context.

**Proof sketch.** Thread 0 does not go through `admin_mode`: `handle_death` makes it dead at once
and gives the processor to its waiter, if it has one. Otherwise `thread_yield` gives it to somebody
else. If there is nobody, the code loads the context of thread 0, which has never been saved or has
been spent. -/
lemma Run.threadExit_main {c : ℤ} {k : Stack} (h : Run P v m)
    (hfree : ∀ u l, Label.free l = true → P u l) (hcalls : (abs m).Calls f)
    (hexits : f = .threadExit c ∨ f = .threadReturn ∧ c = 0) (h0 : m.currentThread = 0)
    (hP : ∀ t u, u.state u.current = .Destroyed → P u (.dispatch t))
    (hdie : ∀ u, P u (.die 0 false)) (hback : ∀ u, P u (.dieBack 0 false))
    (hto : ∀ w u, u.waiter 0 = w → isValidThread w → w ≠ 0 → u.state w = .Sleep →
      u.ready = m.threadQueue.entries → u.current = m.currentThread → u.waiter = (abs m).waiter →
      u.state = (abs m).state → P u (.dieTo 0 w false)) :
    ((handleDeath 0 (.threadExitDeath c :: k) (((m.interruptsSet false).emit
      (.exited m.currentThread c)).setExitCode m.currentThread c)).bind fun _ m =>
        threadExitAfterDeath c k m).All (fun _ _ => False) (Lands P v) := by
  set m₁ := ((m.interruptsSet false).emit (.exited m.currentThread c)).setExitCode
    m.currentThread c with hm₁
  have habs₁ : abs m₁ =
      ((abs m).emit (.exited m.currentThread c)).setExitCode m.currentThread c := by
    rw [hm₁, abs_setExitCode]
    rfl
  have hexit : View.Step (abs m) (.exit c) (abs m₁) := by
    rw [habs₁]
    exact .exit hcalls hexits
  have hcur : m₁.currentThread = 0 := h0
  have hstate : (abs m₁).state = (abs m).state := by rw [habs₁]; rfl
  have hwaiter : (abs m₁).waiter = (abs m).waiter := by rw [habs₁]; rfl
  have hthreads : (m₁.setState 0 .Destroyed).threads = Function.update (Function.update m.threads
      m.currentThread { m.threads m.currentThread with exitCode := c }) 0
      { m₁.threads 0 with state := .Destroyed } := rfl
  have hparked : Parked (m₁.setState 0 .Destroyed) := by
    refine ⟨fun t ht hst => ?_, fun hne => (hne hcur).elim, ?_⟩
    · have ht' : t ≠ m.currentThread := ht
      have ht₀ : t ≠ 0 := h0 ▸ ht'
      rw [hthreads, Function.update_of_ne ht₀, Function.update_of_ne ht'] at hst ⊢
      exact (h.inside.parked.threads t ht' hst).exited ht'
    · rw [hthreads, Function.update_self]
      show (m₁.threads 0).stackStart = NULL
      rw [hm₁, Machine.setExitCode_threads, h0, Function.update_self]
      exact h.inside.parked.main
  have hmain : m.rsp = NULL := by
    rw [h.inside.rsp, h0]
    exact h.inside.parked.main
  have hdying : Dying P v (abs m₁) 0 false NULL m.heap (.threadExitDeath c :: k) m₁ := by
    refine ⟨h.start, h.path.tail (hfree _ _ rfl) hexit, ⟨⟨le_rfl, by decide⟩, ?_,
      fun hf => absurd hf (by decide), fun _ => ⟨hcur.symm, ⟨c, ?_⟩, fun _ => rfl⟩,
      fun hne => (hne rfl).elim⟩, ?_, hparked, h.inside.admin, fun _ => hmain,
      fun hne => (hne hcur).elim⟩
    · rw [hstate, ← h0]
      exact h.inside.state
    · show fate 0 (.exited m.currentThread c :: m.trace) = _
      rw [fate, if_pos h0]
    · rw [abs_setState]
      rfl
  refine (hdying.handleDeath_spec (hdie _) (hback _) fun w hw hwv hne _ hst =>
    hto w _ hw hwv hne hst rfl rfl hwaiter hstate).bind ?_
  rintro - m' ⟨hpath, hdied⟩
  rcases hdied with rfl | ⟨-, hne, -⟩
  swap
  · exact (hne hcur).elim
  rw [threadExitAfterDeath]
  refine (threadYield_dead h.start hpath hfree hP ?_ hparked h.inside.admin
    fun _ => hmain).bind ?_
  · show ((m₁.setState 0 .Destroyed).threads m₁.currentThread).state = _
    rw [hcur]
    simp
  · -- nobody can run, and thread 0 loads a context that nobody has saved
    rintro r m' ⟨-, q', rfl⟩
    refine .inl (.inr (.inr (threadExitSetcontext_undefined c fun c' => ?_)))
    have hu := h.inside.unsaved c'
    rw [h0] at hu
    simpa [hm₁, h0] using hu

end UserThreads
