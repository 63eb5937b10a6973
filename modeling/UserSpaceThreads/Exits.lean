import Mathlib.Data.Int.Range
import UserSpaceThreads.Blocks
import UserSpaceThreads.Interrupts

set_option relaxedAutoImplicit false
set_option autoImplicit false

/-!
# Exits on the stack of thread 0

A thread other than thread 0 exits in two steps: `thread_exit` loads the saved context of thread
0 without becoming thread 0, and the `thread_yield` found there goes into `admin_mode`, which
kills the thread and gives the processor away for good. The frames of thread 0 stay where they
are, and thread 0 is resumed later as if nothing had happened. Thread 0 itself dies inside
`thread_exit`, and when no thread is left to run, the code behind its `thread_yield` loads a
context that is not there.

## Main definitions

* `UserThreads.GivenTo` — the processor goes to a thread at its saved context.
* `UserThreads.ExitsThrough` — what the exit of a thread leaves.
* `UserThreads.EndsInExit` — every run from a state ends in `exit(0)`.
* `UserThreads.Last` — the current thread is the only one that is not Destroyed.

## Main results

* `UserThreads.exit_through_main` — the exit of a thread other than thread 0 is complete, and
  invisible to thread 0.
* `UserThreads.last_exit` — the last thread's exit ends the process if and only if the thread is
  not thread 0.
-/

namespace UserThreads

variable {m m₁ m' : Machine} {K : Stack} {heap : Heap} {f : Fn} {c : ℤ}

/-! ## `admin_mode` -/

/-- The machine in `thread_kill`, called by `admin_mode`, when it calls `handle_death`. -/
abbrev freedAt (m : Machine) (heap : Heap) : Machine :=
  (m.afterFree369 (m.threads m.currentThread).stackStart heap).setAdministrativeMode false

/-- The machine in `admin_mode` when it calls `thread_yield`. -/
abbrev buriedAt (m : Machine) (heap : Heap) : Machine :=
  ((((freedAt m heap).setState m.currentThread .Destroyed).interruptsSet
    false).setAdministrativeMode false).setThreadToDestroy (-1)

/-- `admin_mode` up to `handle_death`. -/
lemma adminMode_eq (h : Exiting m K) (hint : m.interrupts = false)
    (hvalid : isValidThread m.currentThread)
    (hheap : m.heap.free369 (m.threads m.currentThread).stackStart = some heap) :
    adminMode K m = (handleDeath m.currentThread
      (.threadKill m.currentThread false :: .adminKill :: K) (freedAt m heap)).bind fun _ m =>
        adminModeAfterKill K (m.interruptsSet false) := by
  have hsame : m.interruptsSet false = m := by rw [← hint]; rfl
  rw [adminMode, hint, if_neg (by decide), threadKill]
  simp only [hint, hsame, h.admin, not_true_eq_false, and_false, if_false, ne_eq, h.ne,
    not_false_eq_true, if_true, h.state]
  rw [if_neg (fun hr => out_of_range_iff.mp (or_comm.mp hr) hvalid), Machine.free369, hheap]
  simp only [Outcome.bind_ret, Machine.afterFree369_administrativeMode, h.admin, if_true]
  cases handleDeath m.currentThread (.threadKill m.currentThread false :: .adminKill :: K)
    (freedAt m heap) <;> rfl

/-- Nobody is waiting for the exiting thread: it calls `thread_yield(THREAD_ANY)`. -/
lemma exec_alone (h : Exiting m K) (hc : m.control = .resumed K) (hint : m.interrupts = false)
    (hvalid : isValidThread m.currentThread)
    (hheap : m.heap.free369 (m.threads m.currentThread).stackStart = some heap)
    (halone : (m.threads m.currentThread).waiter ≠ -1 →
      (m.threads m.currentThread).waiter = m.currentThread ∨
      (m.threads (m.threads m.currentThread).waiter).state = .Destroyed) :
    ∃ g, exec m = andThen ((threadYield THREAD_ANY (.adminYield :: K) (buriedAt m heap)).bind
      adminModeAfterYield) g := by
  obtain ⟨g, hg⟩ := h.exec_eq hint hc
  have hdeath : handleDeath m.currentThread (.threadKill m.currentThread false :: .adminKill :: K)
      (freedAt m heap) = .ret () ((freedAt m heap).setState m.currentThread .Destroyed) :=
    handleDeath_alone halone
  refine ⟨g, ?_⟩
  rw [hg, adminMode_eq h hint hvalid hheap, hdeath, Outcome.bind_ret, adminModeAfterKill]
  have hne : (buriedAt m heap).currentThread ≠ 0 := h.ne
  have hdead : ((buriedAt m heap).threads (buriedAt m heap).currentThread).state = .Destroyed := by
    simp
  rw [if_neg (by simp), if_neg (not_not.mpr hne), if_neg (not_not.mpr hdead)]

/-- The waiter of the exiting thread is asleep: it gets the processor. -/
lemma exec_waited (h : Exiting m K) (hc : m.control = .resumed K) (hint : m.interrupts = false)
    (hvalid : isValidThread m.currentThread)
    (hheap : m.heap.free369 (m.threads m.currentThread).stackStart = some heap) {w : Tid}
    (hw : (m.threads m.currentThread).waiter = w) (hwv : isValidThread w)
    (hne : w ≠ m.currentThread) (hsleep : (m.threads w).state = .Sleep) :
    exec m = threadYieldSwitch false w (.handleDeath false ::
      .threadKill m.currentThread false :: .adminKill :: K)
        (releasedAt ((freedAt m heap).interruptsSet false) m.currentThread w) := by
  obtain ⟨g, hg⟩ := h.exec_eq hint hc
  have hlive : (m.threads w).state ≠ .Destroyed := by
    rw [hsleep]
    decide
  have hrun : ¬ (m.threads w).state = .Running := by
    rw [hsleep]
    decide
  have hdeath : handleDeath m.currentThread (.threadKill m.currentThread false :: .adminKill :: K)
      (freedAt m heap) = .jump (threadYieldSwitch false w (.handleDeath m.interrupts ::
        .threadKill m.currentThread false :: .adminKill :: K)
          (releasedAt ((freedAt m heap).interruptsSet false) m.currentThread w)) := by
    refine (handleDeath_waited (m := freedAt m heap) hw hne hwv hlive).trans ?_
    exact (if_neg hrun).trans (if_neg hne)
  rw [hg, adminMode_eq h hint hvalid hheap, hdeath, hint]
  rfl

/-! ## The waiter of a thread is another thread -/

namespace View

/-- The waiters that a transaction writes: none for a new thread, and the current thread for
another one. -/
lemma Step.waiter_eq {v v' : View} {l : Label} (hs : Step v l v') : v'.waiter = v.waiter ∨
    (∃ x, v'.waiter = Function.update v.waiter x (-1)) ∨
    ∃ x, x ≠ v.current ∧ v'.waiter = Function.update v.waiter x v.current := by
  cases hs with
  | create => exact .inr (.inl ⟨_, rfl⟩)
  | wait calls valid state ne => exact .inr (.inr ⟨_, ne, rfl⟩)
  | waitNone calls valid state ne => exact .inr (.inr ⟨_, ne, rfl⟩)
  | die => exact .inl (bury_waiter ..)
  | dieTo => exact .inl (bury_waiter ..)
  | dieBack => exact .inl (bury_waiter ..)
  | _ => exact .inl rfl

/-- No thread is its own waiter. -/
def Selfless (v : View) : Prop := ∀ t, isValidThread t → v.waiter t ≠ t

/-- No transaction makes a thread its own waiter. -/
lemma Selfless.step {v v' : View} {l : Label} (h : v.Selfless) (hs : Step v l v') :
    v'.Selfless := by
  intro t ht
  obtain heq | ⟨x, heq⟩ | ⟨x, hne, heq⟩ := hs.waiter_eq
  · rw [heq]
    exact h t ht
  · rcases eq_or_ne t x with rfl | htx
    · rw [heq, Function.update_self]
      exact ht.ne.2.2.1.symm
    · rw [heq, Function.update_of_ne htx]
      exact h t ht
  · rcases eq_or_ne t x with rfl | htx
    · rw [heq, Function.update_self]
      exact hne.symm
    · rw [heq, Function.update_of_ne htx]
      exact h t ht

end View

/-- In every run, no thread is its own waiter. -/
lemma ReachableBy.waiter_ne {ok : Machine → Action → Prop} (h : ReachableBy ok m)
    (hrun : ¬ Stopped m) {t : Tid} (ht : isValidThread t) : (m.threads t).waiter ≠ t := by
  have hinit (garbage : ℤ) : (abs (threadInit garbage)).Selfless := by
    intro u hu
    have hw : (abs (threadInit garbage)).waiter u = -1 := by
      show ((threadInit garbage).threads u).waiter = -1
      rw [threadInit]
      dsimp only
      split_ifs <;> rfl
    rw [hw]
    exact hu.ne.2.2.1.symm
  exact ((h.view hinit fun _ _ _ _ _ _ _ _ hi _ _ hs => hi.step hs).resolve_left hrun).2 t ht

/-! ## What an exit leaves -/

/-- The processor goes to the thread `t`, at the context that it had saved. -/
structure GivenTo (m m' : Machine) (t : Tid) : Prop where
  current : m'.currentThread = t
  state : (m'.threads t).state = .Running
  context : ∃ cx, (m.threads t).ucontext = .saved cx ∧ m'.control = .resumed cx.stack ∧
    m'.interrupts = cx.enabled ∧ m'.rsp = cx.rsp

/-- The first entry of `thread_queue` that names a Running thread other than the current one. -/
def firstReady (m : Machine) : Option Tid :=
  m.threadQueue.entries.find? fun t =>
    decide ((m.threads t).state = .Running ∧ t ≠ m.currentThread)

/-- The block that the event frees, and whether it was allocated. -/
def Event.frees : Event → Option (Addr × Bool)
  | .freed p _ live => some (p, live)
  | _ => none

/-- Between `m` and `m'` the library has called `free369` on the blocks `ps`, latest first. -/
def Frees (m m' : Machine) (ps : List (Addr × Bool)) : Prop :=
  ∃ es, m'.trace = es ++ m.trace ∧ es.filterMap Event.frees = ps

/-- The current thread of `m` has exited with the code `c`, and its waiter, or else the first
thread that can run, has got the processor in `m'`. -/
structure ExitsThrough (m : Machine) (c : ℤ) (m' : Machine) : Prop where
  control : (∃ K, m'.control = .resumed K) ∨ m'.control = .exited 0
  state : (m'.threads m.currentThread).state = .Destroyed
  exitCode : (m'.threads m.currentThread).exitCode = c
  frees : Frees m m' [((m.threads m.currentThread).stackStart, true)]
  admin : m'.administrativeMode = false
  main : (m'.threads 0).ucontext = (m.threads 0).ucontext
  waiter : ∀ w, (m.threads m.currentThread).waiter = w → w ≠ -1 →
    (m.threads w).state = .Sleep → GivenTo m m' w
  first : ((m.threads m.currentThread).waiter ≠ -1 →
      (m.threads (m.threads m.currentThread).waiter).state ≠ .Sleep) →
    (∀ t, firstReady m = some t → GivenTo m m' t) ∧ (firstReady m = none → m'.control = .exited 0)

/-- Later blocks come first. -/
lemma Frees.trans {m₂ : Machine} {ps qs : List (Addr × Bool)} (h : Frees m m₁ ps)
    (h' : Frees m₁ m₂ qs) : Frees m m₂ (qs ++ ps) := by
  obtain ⟨es, hes, rfl⟩ := h
  obtain ⟨es', hes', rfl⟩ := h'
  exact ⟨es' ++ es, by rw [hes', hes, List.append_assoc], List.filterMap_append⟩

/-- The context that `thread_yield` loads. -/
lemma threadYieldSwitch_eq_load {s : Bool} {t : Tid} {k : Stack} {cx : Context}
    (hne : t ≠ m.currentThread) (hcx : (m.threads t).ucontext = .saved cx) :
    threadYieldSwitch s t k m = ((((m.setUcontext m.currentThread (.saved ⟨m.rsp, m.interrupts,
      .threadYield s t true :: k⟩)).pushReady m.currentThread).setCurrentThread t).emit
        (.switched t)).load cx := by
  rw [threadYieldSwitch]
  simp only [Machine.setUcontext_threads, Machine.pushReady_threads,
    Machine.setCurrentThread_threads, Function.update_of_ne hne, hcx,
    Machine.setUcontext_currentThread]
  rfl

/-- The switch of `thread_yield` gives the processor away and frees nothing. -/
lemma givenTo_switch {s : Bool} {t : Tid} {k : Stack} {cx : Context} (hne : t ≠ m₁.currentThread)
    (hcx : (m₁.threads t).ucontext = .saved cx) (hst : (m₁.threads t).state = .Running)
    (hm : (m.threads t).ucontext = .saved cx) : GivenTo m (threadYieldSwitch s t k m₁) t := by
  rw [threadYieldSwitch_eq_load hne hcx]
  refine ⟨rfl, ?_, cx, hm, rfl, rfl, rfl⟩
  simpa [Function.update_of_ne hne] using hst

/-- What a switch keeps: the modes, and the threads but for the context of the current one. -/
lemma switch_frame {s : Bool} {t : Tid} {k : Stack} {cx : Context} (hne : t ≠ m₁.currentThread)
    (hcx : (m₁.threads t).ucontext = .saved cx) :
    let m' := threadYieldSwitch s t k m₁
    m'.administrativeMode = m₁.administrativeMode ∧ Frees m₁ m' [] ∧
      (∀ u, (m'.threads u).state = (m₁.threads u).state ∧
        (m'.threads u).exitCode = (m₁.threads u).exitCode) ∧
      ∀ u, u ≠ m₁.currentThread → (m'.threads u).ucontext = (m₁.threads u).ucontext := by
  intro m'
  have hload : m' = _ := threadYieldSwitch_eq_load hne hcx
  refine ⟨by rw [hload]; rfl, ⟨.switched t ::
    if m₁.threadQueue.pushOk m₁.currentThread then []
    else [.refused m₁.currentThread (decide (m₁.currentThread ∈ m₁.threadQueue.entries))], ?_, ?_⟩,
    fun u => ?_, fun u hu => ?_⟩
  · rw [hload]
    simp only [Machine.load_trace, Machine.emit_trace, Machine.setCurrentThread_trace,
      Machine.pushReady_trace, Machine.setUcontext_trace, Machine.setUcontext_threadQueue]
    split_ifs <;> rfl
  · split_ifs <;> rfl
  · rw [hload]
    rcases eq_or_ne u m₁.currentThread with rfl | hu
    · simp
    · simp [Function.update_of_ne hu]
  · rw [hload]
    simp [Function.update_of_ne hu]

/-- The exiting thread has a waiter that is asleep.

**Proof sketch.** `exec_waited` computes the step: the stack is freed, the thread is Destroyed, and
the processor is switched to the waiter. The rest reads the conditions of `ExitsThrough` off that
state. -/
lemma Exiting.exitsThrough_waited (h : Exiting m K) (hc : m.control = .resumed K)
    (hint : m.interrupts = false) (hvalid : isValidThread m.currentThread)
    (hheap : m.heap.free369 (m.threads m.currentThread).stackStart = some heap)
    (hlive : m.heap.Live (m.threads m.currentThread).stackStart) {w : Tid}
    (hw : (m.threads m.currentThread).waiter = w) (hwv : isValidThread w)
    (hne : w ≠ m.currentThread) (hsleep : (m.threads w).state = .Sleep) :
    ExitsThrough m (m.threads m.currentThread).exitCode (exec m) := by
  obtain ⟨-, k, hk, -⟩ := h.parked.threads w hne (by rw [hsleep]; decide)
  rw [exec_waited h hc hint hvalid hheap hw hwv hne hsleep]
  set M := releasedAt ((freedAt m heap).interruptsSet false) m.currentThread w with hM
  have hthreads : M.threads = Function.update (Function.update m.threads m.currentThread
      { m.threads m.currentThread with state := .Destroyed }) w
      { m.threads w with state := .Running } := by
    have hother : Function.update m.threads m.currentThread
        { m.threads m.currentThread with state := .Destroyed } w = m.threads w :=
      Function.update_of_ne hne ..
    rw [← hother]
    rfl
  have hfrees : Frees m M [((m.threads m.currentThread).stackStart, true)] := by
    refine ⟨[.released m.currentThread w, .freed (m.threads m.currentThread).stackStart m.rsp
      (decide (m.heap.Live (m.threads m.currentThread).stackStart))], rfl, ?_⟩
    rw [decide_eq_true hlive]
    rfl
  have hcx : (M.threads w).ucontext = .saved ⟨(m.threads w).stackStart, false, k⟩ := by
    rw [hthreads, Function.update_self]
    exact hk
  have hneM : w ≠ M.currentThread := hne
  have hself : M.threads m.currentThread =
      { m.threads m.currentThread with state := .Destroyed } := by
    rw [hthreads, Function.update_of_ne hne.symm, Function.update_self]
  obtain ⟨hadmin, hfree, hstate, hu⟩ := switch_frame (s := false) (k := .handleDeath false ::
    .threadKill m.currentThread false :: .adminKill :: K) hneM hcx
  refine ⟨.inl ⟨k, threadYieldSwitch_control hneM hcx⟩, ?_, ?_, hfrees.trans hfree, hadmin, ?_,
    fun w' hw' _ _ => ?_, fun hno => ?_⟩
  · rw [(hstate _).1, hself]
  · rw [(hstate _).2, hself]
  · rw [hu 0 h.ne.symm, hthreads]
    rcases eq_or_ne 0 w with rfl | h0w
    · rw [Function.update_self]
    · rw [Function.update_of_ne h0w, Function.update_of_ne h.ne.symm]
  · obtain rfl : w = w' := hw.symm.trans hw'
    refine givenTo_switch hneM hcx ?_ hk
    rw [hthreads, Function.update_self]
  · rw [hw] at hno
    exact (hno hwv.ne.2.2.1 hsleep).elim

/-- The exiting thread dies without a change for the entries of `thread_queue`. -/
lemma useless_buriedAt {u : Tid} : Useless (buriedAt m heap) u ↔
    ¬ ((m.threads u).state = .Running ∧ u ≠ m.currentThread) := by
  have hcur : (buriedAt m heap).currentThread = m.currentThread := rfl
  rw [Useless, hcur]
  rcases eq_or_ne u m.currentThread with rfl | hu
  · simp
  · simp [Function.update_of_ne hu]

/-- Nobody is waiting for the exiting thread.

**Proof sketch.** `exec_alone` computes the step up to the last `thread_yield`, whose two outcomes
are `threadYield_any_cases`. Either every entry of `thread_queue` is useless, and the process exits,
or the first useful one names the thread that gets the processor; `firstReady` finds the same
entry. -/
lemma Exiting.exitsThrough_alone (h : Exiting m K) (hc : m.control = .resumed K)
    (hint : m.interrupts = false) (hv : (abs m).Valid)
    (hheap : m.heap.free369 (m.threads m.currentThread).stackStart = some heap)
    (hlive : m.heap.Live (m.threads m.currentThread).stackStart)
    (halone : (m.threads m.currentThread).waiter ≠ -1 →
      (m.threads (m.threads m.currentThread).waiter).state = .Destroyed) :
    ExitsThrough m (m.threads m.currentThread).exitCode (exec m) := by
  obtain ⟨g, hg⟩ := exec_alone h hc hint hv.current hheap fun hw => .inr (halone hw)
  set M := buriedAt m heap with hM
  have hthreads : M.threads = Function.update m.threads m.currentThread
      { m.threads m.currentThread with state := .Destroyed } := rfl
  have hself : M.threads m.currentThread =
      { m.threads m.currentThread with state := .Destroyed } := by
    rw [hthreads, Function.update_self]
  have hfrees : Frees m M [((m.threads m.currentThread).stackStart, true)] := by
    refine ⟨[.freed (m.threads m.currentThread).stackStart m.rsp
      (decide (m.heap.Live (m.threads m.currentThread).stackStart))], rfl, ?_⟩
    rw [decide_eq_true hlive]
    rfl
  have hwaiter (w : Tid) (hw : (m.threads m.currentThread).waiter = w) (hne : w ≠ -1)
      (hsleep : (m.threads w).state = .Sleep) : False := by
    have hdead := halone (hw ▸ hne)
    rw [hw, hsleep] at hdead
    cases hdead
  have hzero : (M.threads 0).ucontext = (m.threads 0).ucontext := by
    rw [hthreads, Function.update_of_ne h.ne.symm]
  rcases threadYield_any_cases (.adminYield :: K) (m := M) hv.current hv.ready with
    ⟨q', -, hall, heq⟩ | ⟨ds, t, ts, q', hes, -, ht, hrun, hne, hds, heq⟩
  · -- no entry names a thread that could run: the process ends
    have hexec : exec m = (M.setThreadQueue q').exit 0 := by
      rw [hg, heq]
      rfl
    have hnone : firstReady m = none := by
      refine List.find?_eq_none.mpr fun u hu => ?_
      simpa using useless_buriedAt.mp (hall u hu)
    rw [hexec]
    refine ⟨.inr rfl, by simp [hself], by simp [hself], hfrees, rfl, hzero, fun w hw hne hsleep =>
      (hwaiter w hw hne hsleep).elim, fun _ => ⟨fun t ht => ?_, fun _ => rfl⟩⟩
    rw [hnone] at ht
    cases ht
  · -- the first entry that names one gets the processor
    have hexec : exec m = threadYieldSwitch M.interrupts t (.adminYield :: K)
        ((M.interruptsSet false).setThreadQueue q') := by
      rw [hg, heq]
      rfl
    have hne' : t ≠ m.currentThread := hne
    have hstate' : (m.threads t).state = .Running := by
      simpa [hthreads, Function.update_of_ne hne'] using hrun
    have hfirst : firstReady m = some t := by
      refine List.find?_eq_some_iff_append.mpr ⟨by simpa using ⟨hstate', hne'⟩, ds, ts, hes, ?_⟩
      intro d hd
      simpa [← imp_iff_not_or] using useless_buriedAt.mp (hds d hd)
    obtain ⟨-, k, hk, -⟩ := h.parked.threads t hne' (by rw [hstate']; decide)
    set M' := (M.interruptsSet false).setThreadQueue q' with hM'
    have hneM : t ≠ M'.currentThread := hne
    have hcx : (M'.threads t).ucontext = .saved ⟨(m.threads t).stackStart, false, k⟩ := by
      show (M.threads t).ucontext = _
      rw [hthreads, Function.update_of_ne hne', hk]
    obtain ⟨hadmin, hfree, hstate, hu⟩ := switch_frame (s := M.interrupts) (k := .adminYield :: K)
      hneM hcx
    have hfrees' : Frees m M' [((m.threads m.currentThread).stackStart, true)] := hfrees
    rw [hexec]
    have hcontrol : (threadYieldSwitch M.interrupts t (.adminYield :: K) M').control =
        .resumed k := threadYieldSwitch_control hneM hcx
    refine ⟨.inl ⟨k, hcontrol⟩, ?_, ?_, hfrees'.trans hfree, hadmin,
      (hu 0 h.ne.symm).trans hzero, fun w hw hne hsleep => (hwaiter w hw hne hsleep).elim,
      fun _ => ⟨fun t' ht' => ?_, fun hnone => ?_⟩⟩
    · rw [(hstate _).1]
      show (M.threads m.currentThread).state = _
      rw [hself]
    · rw [(hstate _).2]
      show (M.threads m.currentThread).exitCode = _
      rw [hself]
    · obtain rfl : t = t' := Option.some.inj (hfirst.symm.trans ht')
      exact givenTo_switch hneM hcx hrun hk
    · rw [hfirst] at hnone
      cases hnone

/-! ## The exit of a thread other than thread 0 -/

/-- The machine in `thread_exit` when it calls `setcontext`. -/
abbrev exitingAt (m : Machine) (f : Fn) (c : ℤ) : Machine :=
  (((((m.emit (.called m.currentThread f)).interruptsSet false).emit
    (.exited m.currentThread c)).setThreadToDestroy m.currentThread).setAdministrativeMode
      true).setExitCode m.currentThread c

/-- `thread_exit` in a thread other than thread 0 loads the context of thread 0. -/
lemma call_exits (h0 : m.currentThread ≠ 0) (hint : m.interrupts = true)
    (hf : f = .threadExit c ∨ f = .threadReturn ∧ c = 0) {cz : Context}
    (hz : (m.threads 0).ucontext = .saved cz) : call f m = (exitingAt m f c).load cz := by
  have hload : threadExitSetcontext c (((m.emit (.called m.currentThread f)).interruptsSet
      false).emit (.exited m.currentThread c)) = (exitingAt m f c).load cz := by
    have hu : ((exitingAt m f c).threads 0).ucontext = .saved cz := by
      simpa [Function.update_of_ne h0.symm] using hz
    show (exitingAt m f c).setcontext ((exitingAt m f c).threads 0).ucontext = _
    rw [hu]
    rfl
  obtain rfl | ⟨rfl, rfl⟩ := hf <;> simp [call, threadExit, hint, h0, andThen, hload]

/-- The first step of an exit changes nothing that decides who runs next.

**Proof sketch.** That step writes the exit code of the current thread and loads the context of
thread 0. States, waiters, contexts and stacks stay as they were, so the conditions on the second
step carry over. -/
lemma ExitsThrough.of_exitingAt {cz : Context} {m₁ m₂ : Machine}
    (hm₁ : m₁ = (exitingAt m f c).load cz)
    (h : ExitsThrough m₁ (m₁.threads m₁.currentThread).exitCode m₂) : ExitsThrough m c m₂ := by
  have hthreads : m₁.threads = Function.update m.threads m.currentThread
      { m.threads m.currentThread with exitCode := c } := by
    rw [hm₁]
    rfl
  have hcur : m₁.currentThread = m.currentThread := by rw [hm₁]; rfl
  have hfield {α : Type} (g : Thread → α) (hg : ∀ th, g { th with exitCode := c } = g th)
      (t : Tid) :
      g (m₁.threads t) = g (m.threads t) := by
    rw [hthreads]
    exact congrFun (field_update_same g m.threads m.currentThread _ (hg _)) t
  have hstate := hfield Thread.state fun _ => rfl
  have hwaiter := hfield Thread.waiter fun _ => rfl
  have hucontext := hfield Thread.ucontext fun _ => rfl
  have hstack := hfield Thread.stackStart fun _ => rfl
  have hgiven {t : Tid} (hg : GivenTo m₁ m₂ t) : GivenTo m m₂ t := by
    obtain ⟨cx, hcx, hrest⟩ := hg.context
    exact ⟨hg.current, hg.state, cx, (hucontext t).symm.trans hcx, hrest⟩
  have hready : firstReady m₁ = firstReady m := by
    rw [firstReady, firstReady, hcur]
    simp only [hstate]
    rw [hm₁]
    rfl
  have hquiet : Frees m m₁ [] :=
    ⟨[.exited m.currentThread c, .called m.currentThread f], by rw [hm₁]; rfl, rfl⟩
  have hcode : (m₁.threads m.currentThread).exitCode = c := by rw [hthreads, Function.update_self]
  have hfrees := hquiet.trans h.frees
  rw [hcur, hstack] at hfrees
  refine ⟨h.control, hcur ▸ h.state, ?_, hfrees, h.admin, h.main.trans (hucontext 0),
    fun w hw hne hsleep => ?_, fun hno => ?_⟩
  · have hc := h.exitCode
    rwa [hcur, hcode] at hc
  · refine hgiven (h.waiter w ?_ hne ((hstate w).trans hsleep))
    rw [hcur, hwaiter, hw]
  · obtain ⟨hsome, hnone⟩ := h.first (by
      rw [hcur, hwaiter, hstate]
      exact hno)
    rw [hready] at hsome hnone
    exact ⟨fun t ht => hgiven (hsome t ht), hnone⟩

/-- **The exit of a thread other than thread 0** takes two steps, and nothing can come between
them.

**Proof sketch.** In the first step `thread_exit` stores the code and loads the context of thread 0,
with the current thread unchanged; no other step can be taken from there. The second step is
`exitsThrough_waited` or `exitsThrough_alone`, according to the waiter. That the stack can be freed
comes from the accounts (`Stocked`). -/
theorem exit_two_steps (h : Reachable m) (hu : m.control = .user) (hint : m.interrupts = true)
    (h0 : m.currentThread ≠ 0) (hf : f = .threadExit c ∨ f = .threadReturn ∧ c = 0)
    (hw : (m.threads m.currentThread).waiter ≠ -1 →
      (m.threads (m.threads m.currentThread).waiter).state ≠ .Running) :
    ∃ m₁ m₂, step m (.call f) = some m₁ ∧ m₁.currentThread = m.currentThread ∧
      (∀ a, a ≠ .exec → step m₁ a = none) ∧ step m₁ .exec = some m₂ ∧ ExitsThrough m c m₂ := by
  have hrun : ¬ Stopped m := by simp [Stopped, hu]
  have hb := ReachableBy.base h hrun
  have hcontrol := hb.control
  rw [ControlOk, hu] at hcontrol
  obtain ⟨s, a, k, hz⟩ := hcontrol.1.parked.zero h0
  set m₁ := (exitingAt m f c).load ⟨NULL, false, .threadYield s a true :: k⟩ with hm₁
  have hstep : step m (.call f) = some m₁ := by
    rw [step, call_exits h0 hint hf hz]
    refine if_pos ⟨hu, ?_⟩
    obtain rfl | ⟨rfl, -⟩ := hf
    · trivial
    · exact h0
  have h₁ : Reachable m₁ := .step h trivial hstep
  have hrun₁ : ¬ Stopped m₁ := by simp [Stopped, hm₁]
  have hb₁ := ReachableBy.base h₁ hrun₁
  have hexiting : Exiting m₁ (.threadYield s a true :: k) := by
    have hcontrol₁ := hb₁.control
    rw [ControlOk, show m₁.control = .resumed (.threadYield s a true :: k) from rfl] at hcontrol₁
    exact hcontrol₁.2.resolve_left fun hent => absurd hent.inside.admin (by simp [hm₁])
  obtain ⟨-, -, hst⟩ := ReachableBy.stocked h₁ hrun₁
  obtain ⟨blocks, hacc, -⟩ := hst.accounts
  obtain ⟨heap, hheap⟩ := hacc.free369_isSome (m₁.threads m₁.currentThread).stackStart
  have hlive : m₁.heap.Live (m₁.threads m₁.currentThread).stackStart :=
    (hst.live_iff _).mpr ⟨_, .stack hexiting.ne hexiting.state⟩
  have hvalid : isValidThread m₁.currentThread := hb₁.valid.current
  have hothers (t : Tid) (ht : t ≠ m.currentThread) : m₁.threads t = m.threads t := by
    show Function.update m.threads m.currentThread _ t = _
    rw [Function.update_of_ne ht]
  have hwaiter : (m₁.threads m₁.currentThread).waiter = (m.threads m.currentThread).waiter := by
    show (Function.update m.threads m.currentThread _ m.currentThread).waiter = _
    rw [Function.update_self]
    rfl
  have hne := ReachableBy.waiter_ne h hrun hb.valid.current
  refine ⟨m₁, exec m₁, hstep, rfl, fun a ha => ?_, rfl, ExitsThrough.of_exitingAt hm₁ ?_⟩
  · cases a with
    | exec => exact (ha rfl).elim
    | call g => rfl
    | tick => rfl
  · set w := (m.threads m.currentThread).waiter with hwdef
    by_cases hsleep : w ≠ -1 ∧ (m.threads w).state = .Sleep
    · have hwv : isValidThread w := (hb.valid.waiter m.currentThread).resolve_left hsleep.1
      exact hexiting.exitsThrough_waited rfl rfl hvalid hheap hlive hwaiter hwv hne
        (by rw [hothers w hne, hsleep.2])
    · refine hexiting.exitsThrough_alone rfl rfl hb₁.valid hheap hlive fun hnone => ?_
      rw [hwaiter] at hnone ⊢
      rw [hothers w hne]
      cases hstate : (m.threads w).state with
      | Destroyed => rfl
      | Running => exact (hw hnone hstate).elim
      | Sleep => exact (hsleep ⟨hnone, hstate⟩).elim

/-- Thread 0 is where it was in `m`: it has the context that it had, and when it gets the
processor back, its `thread_yield` returns with the value and the mask kept there. -/
structure MainKept (m m' : Machine) : Prop where
  ucontext : (m'.threads 0).ucontext = (m.threads 0).ucontext
  resumes : m'.currentThread = 0 → ∃ s a k,
    (m.threads 0).ucontext = .saved ⟨NULL, false, .threadYield s a true :: k⟩ ∧
    m'.control = .resumed (.threadYield s a true :: k) ∧
    exec m' = unwind k ⟨a, none⟩ ((m'.setUcontext 0 .spent).interruptsSet s)

/-- The steps of the run are made by other threads than thread 0. -/
abbrev AwayFromMain : Machine → Machine → Prop :=
  Runs.Path (fun m a m' => step m a = some m') fun m (_ : Action) => m.currentThread ≠ 0

/-- A run of other threads goes through reachable states. -/
lemma AwayFromMain.reachable (h : AwayFromMain m m') (hm : Reachable m) : Reachable m' := by
  induction h with
  | refl => exact hm
  | tail _ _ hs ih => exact .step ih trivial hs

/-- The `thread_yield` in which thread 0 was suspended returns. -/
lemma exec_main (hb : Base m) (h0 : m.currentThread = 0) {s : Bool} {a : Tid} {k : Stack}
    (hc : m.control = .resumed (.threadYield s a true :: k)) :
    exec m = unwind k ⟨a, none⟩ ((m.setUcontext 0 .spent).interruptsSet s) := by
  have hcontrol := hb.control
  rw [ControlOk, hc] at hcontrol
  obtain ⟨hint, hent | hexit⟩ := hcontrol
  swap
  · exact (hexit.ne h0).elim
  have hadmin : m.administrativeMode = false := hent.inside.admin
  rw [exec, hc]
  simp [threadYieldAfterGetcontext, hint, hadmin, andThen, h0]

/-- **Thread 0 waits undisturbed** while other threads run, whatever they do. -/
lemma AwayFromMain.kept (h : AwayFromMain m m') (hm : Reachable m) (h0 : m.currentThread ≠ 0)
    (hrun : ¬ Stopped m') : MainKept m m' := by
  induction h with
  | refl => exact ⟨rfl, fun hz => (h0 hz).elim⟩
  | @tail w u a hpath hw hs ih =>
    have hwrun : ¬ Stopped w := fun hst => by
      rw [hst.step_none] at hs
      cases hs
    have hwm : Reachable w := AwayFromMain.reachable hpath hm
    have hbw := ReachableBy.base hwm hwrun
    have hu : Reachable u := .step hwm trivial hs
    have hkept := ih hwrun
    obtain ⟨hucontext, hresumed⟩ := (hbw.keepsMasks hs).untouched hrun
    have hsame : (u.threads 0).ucontext = (w.threads 0).ucontext :=
      (hucontext 0 hw.symm).resolve_right fun hnew => (lt_irrefl _ hnew.1).elim
    refine ⟨hsame.trans hkept.ucontext, fun hz => ?_⟩
    obtain ⟨cx, hcx, hc⟩ := hresumed (hz ▸ hw.symm)
    rw [hz] at hcx
    obtain ⟨s, a, k, hzero⟩ := hbw.savedMain hw
    obtain rfl := Ucontext.saved.inj (hcx.symm.trans hzero)
    exact ⟨s, a, k, hkept.ucontext.symm.trans hzero, hc,
      exec_main (ReachableBy.base hu hrun) hz hc⟩

/-- **The exit of a thread through the context of thread 0.** In every run, when a thread other
than thread 0 exits with the signal unblocked and its waiter, if it has one, is not Running: the
exit takes two steps, between which nothing else can happen, and no assertion fails; the thread
is dead with its exit code, its stack and nothing else has been freed, `administrative_mode` is
off, and the processor has gone to the waiter, to the first thread that can run, or to `exit(0)`.
Thread 0 keeps its context until it is resumed, and then returns from the `thread_yield` it was
in.

**Proof sketch.** `exit_two_steps` gives the two steps. In neither of them is thread 0 the current
thread, nor is it afterwards until it is resumed, and no other thread writes its context
(`AwayFromMain.kept`). -/
theorem exit_through_main (h : Reachable m) (hu : m.control = .user) (hint : m.interrupts = true)
    (h0 : m.currentThread ≠ 0) (hf : f = .threadExit c ∨ f = .threadReturn ∧ c = 0)
    (hw : (m.threads m.currentThread).waiter ≠ -1 →
      (m.threads (m.threads m.currentThread).waiter).state ≠ .Running) :
    ∃ m₁ m₂, step m (.call f) = some m₁ ∧ (∀ a, a ≠ .exec → step m₁ a = none) ∧
      step m₁ .exec = some m₂ ∧ ExitsThrough m c m₂ ∧
      ∀ m₃, AwayFromMain m₂ m₃ → ¬ Stopped m₃ → MainKept m m₃ := by
  obtain ⟨m₁, m₂, hs₁, hcur, honly, hs₂, hexits⟩ := exit_two_steps h hu hint h0 hf hw
  refine ⟨m₁, m₂, hs₁, honly, hs₂, hexits, fun m₃ hpath hrun => ?_⟩
  have hcall : AwayFromMain m m₁ := .tail .refl h0 hs₁
  have hbegin : AwayFromMain m m₂ := .tail hcall (hcur ▸ h0) hs₂
  exact AwayFromMain.kept (hbegin.trans hpath) h h0 hrun

/-- Thread 1 exits with 5 while thread 0, suspended in `thread_wait`, is its waiter. -/
theorem exit_through_main_waited :
    let m := after 0 [.call (.threadCreate 0 0), .call (.threadWait 1 true), .exec]
    ∃ m₁ m₂, step m (.call (.threadExit 5)) = some m₁ ∧ step m₁ .exec = some m₂ ∧
      GivenTo m m₂ 0 ∧ (m₂.threads 1).exitCode = 5 := by
  intro m
  obtain ⟨m₁, m₂, hs₁, -, hs₂, hexits, -⟩ := exit_through_main (m := m) (c := 5)
    (reachable_after (by decide +kernel)) (by decide +kernel) (by decide +kernel)
    (by decide +kernel) (.inl rfl) (by decide +kernel)
  refine ⟨m₁, m₂, hs₁, hs₂, hexits.waiter 0 (by decide +kernel) (by decide) (by decide +kernel), ?_⟩
  have hcode := hexits.exitCode
  rwa [show m.currentThread = 1 by decide +kernel] at hcode

/-! ## The last exit -/

/-- Every run that starts here ends in `exit(0)`. -/
inductive EndsInExit : Machine → Prop
  | exited {m : Machine} (h : m.control = .exited 0) : EndsInExit m
  | later {m : Machine} (hs : ∃ a m', step m a = some m')
      (h : ∀ a m', step m a = some m' → EndsInExit m') : EndsInExit m

/-- A run that has stopped otherwise does not end in `exit(0)`. -/
lemma EndsInExit.control_eq (h : EndsInExit m) (hstop : Stopped m) : m.control = .exited 0 := by
  cases h with
  | exited h => exact h
  | later hs =>
    obtain ⟨a, m', hs⟩ := hs
    rw [hstop.step_none] at hs
    cases hs

/-- The current thread is the only one that is not Destroyed. -/
def Last (m : Machine) : Prop :=
  ∀ t, isValidThread t → t ≠ m.currentThread → (m.threads t).state = .Destroyed

instance (m : Machine) : Decidable (Last m) :=
  decidable_of_iff (∀ t : ℤ, 0 ≤ t → t < THREAD_MAX_THREADS → t ≠ m.currentThread →
    (m.threads t).state = .Destroyed) ⟨fun h t ht => h t ht.1 ht.2, fun h t h0 h1 => h t ⟨h0, h1⟩⟩

/-- No other thread can run. -/
lemma Last.firstReady_eq (h : Last m) (hv : (abs m).Valid) : firstReady m = none := by
  refine List.find?_eq_none.mpr fun t ht => ?_
  simp only [decide_eq_true_eq]
  rintro ⟨hrun, hne⟩
  rw [h t (hv.ready t ht) hne] at hrun
  cases hrun

/-- The waiter of the last thread is dead. -/
lemma Last.waiter_eq (h : Last m) (hm : Reachable m) (hrun : ¬ Stopped m)
    (hw : (m.threads m.currentThread).waiter ≠ -1) :
    (m.threads (m.threads m.currentThread).waiter).state = .Destroyed := by
  have hv := (ReachableBy.base hm hrun).valid
  exact h _ ((hv.waiter _).resolve_left hw) (ReachableBy.waiter_ne hm hrun hv.current)

/-- With the timer signal blocked, `thread_exit` fails its assertion. -/
lemma call_exit_masked (hint : m.interrupts = false)
    (hf : f = .threadExit c ∨ f = .threadReturn ∧ c = 0) : (call f m).control = .aborted := by
  obtain rfl | ⟨rfl, rfl⟩ := hf <;> simp [call, threadExit, hint, andThen]

/-- Thread 0 exits last: behind its `thread_yield` it loads its own context, which has not been
saved since it was resumed, if ever.

**Proof sketch.** The waiter of thread 0 is dead, so `handle_death` makes thread 0 dead and returns.
The `thread_yield` behind it finds nobody, as no other thread is alive. The context that
`thread_exit` then loads is not there (`unsaved`). -/
lemma Last.call_exit_main (h : Last m) (hm : Reachable m) (hu : m.control = .user)
    (h0 : m.currentThread = 0) (hint : m.interrupts = true) :
    (call (.threadExit c) m).control = .undefined := by
  have hrun : ¬ Stopped m := by simp [Stopped, hu]
  have hb := ReachableBy.base hm hrun
  have hcontrol := hb.control
  rw [ControlOk, hu] at hcontrol
  set m₁ := (((m.emit (.called m.currentThread (.threadExit c))).interruptsSet false).emit
    (.exited m.currentThread c)).setExitCode m.currentThread c with hm₁
  have hthreads : m₁.threads = Function.update m.threads m.currentThread
      { m.threads m.currentThread with exitCode := c } := rfl
  have hself : m₁.threads m₁.currentThread = { m.threads m.currentThread with exitCode := c } := by
    show m₁.threads m.currentThread = _
    rw [hthreads, Function.update_self]
  have hdeath : handleDeath m₁.currentThread [.threadExitDeath c, .user (.threadExit c)] m₁ =
      .ret () (m₁.setState m₁.currentThread .Destroyed) := by
    refine handleDeath_alone fun hw => .inr ?_
    rw [hself] at hw ⊢
    have hne : (m.threads m.currentThread).waiter ≠ m.currentThread :=
      ReachableBy.waiter_ne hm hrun hb.valid.current
    show (m₁.threads (m.threads m.currentThread).waiter).state = _
    rw [hthreads, Function.update_of_ne hne]
    exact h.waiter_eq hm hrun hw
  have hcall : call (.threadExit c) m = andThen (threadExitAfterDeath c [.user (.threadExit c)]
      (m₁.setState m₁.currentThread .Destroyed)) fun _ m => m.undef := by
    have hexit : threadExit c [.user (.threadExit c)]
        (m.emit (.called m.currentThread (.threadExit c))) =
          (handleDeath m₁.currentThread [.threadExitDeath c, .user (.threadExit c)] m₁).bind
            fun _ m => threadExitAfterDeath c [.user (.threadExit c)] m := by
      rw [threadExit, if_neg (by simp [hint])]
      exact if_pos h0
    rw [call, hexit, hdeath]
    rfl
  obtain ⟨q', -, -, heq⟩ | ⟨-, t, -, -, -, -, ht, hrun', hne, -⟩ := threadYield_any_cases
    [.threadExitYield c, .user (.threadExit c)] (m := m₁.setState m₁.currentThread .Destroyed)
    hb.valid.current hb.valid.ready
  · rw [hcall, threadExitAfterDeath, heq]
    refine threadExitSetcontext_undefined c fun c' => ?_
    have hun := hcontrol.1.unsaved c'
    rw [h0] at hun
    simpa [hm₁, h0] using hun
  · have hne' : t ≠ m.currentThread := hne
    have hdead := h t ht hne'
    have hlive : (m.threads t).state = .Running := by
      simpa [hm₁, Function.update_of_ne hne'] using hrun'
    rw [hdead] at hlive
    cases hlive

/-- **The last exit.** In every run, when the only thread that is not Destroyed exits, every
continuation of the run ends in `exit(0)` if and only if the thread is not thread 0 and the
signal is not blocked.

**Proof sketch.** If the signal is blocked, the assertion of `thread_exit` fails; if it is thread 0
that exits, the behaviour is undefined (`call_exit_main`). Either way the run does not end in
`exit(0)`. Otherwise the exit takes two steps (`exit_two_steps`), and since no entry of
`thread_queue` is useful the second one is `exit(0)`. -/
theorem last_exit (h : Reachable m) (hu : m.control = .user) (hlast : Last m)
    (hf : f = .threadExit c ∨ f = .threadReturn ∧ c = 0) :
    (∃ m', step m (.call f) = some m' ∧ EndsInExit m') ↔
      m.currentThread ≠ 0 ∧ m.interrupts = true := by
  have hrun : ¬ Stopped m := by simp [Stopped, hu]
  have hb := ReachableBy.base h hrun
  constructor
  · rintro ⟨m', hs, hends⟩
    have hm' : m' = call f m := by
      rw [step] at hs
      split_ifs at hs
      exact (Option.some.inj hs).symm
    have hint : m.interrupts = true := by
      by_contra hint
      have habort := call_exit_masked (by simpa using hint) hf
      rw [← hm'] at habort
      have hexited := hends.control_eq (.inl habort)
      rw [habort] at hexited
      cases hexited
    refine ⟨fun h0 => ?_, hint⟩
    obtain rfl | ⟨rfl, -⟩ := hf
    · have hundef := hlast.call_exit_main (c := c) h hu h0 hint
      rw [← hm'] at hundef
      have hexited := hends.control_eq (.inr (.inr hundef))
      rw [hundef] at hexited
      cases hexited
    · -- thread 0 has no thread function to return from
      rw [step, if_neg fun hadm => hadm.2 h0] at hs
      cases hs
  · rintro ⟨h0, hint⟩
    have hdead := hlast.waiter_eq h hrun
    obtain ⟨m₁, m₂, hs₁, -, honly, hs₂, hexits⟩ := exit_two_steps h hu hint h0 hf fun hw => by
      rw [hdead hw]
      decide
    have hexited : m₂.control = .exited 0 := by
      refine (hexits.first fun hw => ?_).2 (hlast.firstReady_eq hb.valid)
      rw [hdead hw]
      decide
    refine ⟨m₁, hs₁, .later ⟨_, _, hs₂⟩ fun a m' hs => ?_⟩
    by_cases ha : a = .exec
    · obtain rfl : m₂ = m' := Option.some.inj (hs₂.symm.trans (ha ▸ hs))
      exact .exited hexited
    · rw [honly a ha] at hs
      cases hs

/-- Thread 1 kills thread 0 and exits. -/
theorem last_exit_thread_one :
    let m := after 0 [.call (.threadCreate 0 0), .call (.threadYield THREAD_ANY), .exec,
      .call (.threadKill 0)]
    Last m ∧ ∃ m', step m (.call (.threadExit 3)) = some m' ∧ EndsInExit m' := by
  intro m
  exact ⟨by decide +kernel, (last_exit (reachable_after (by decide +kernel)) (by decide +kernel)
    (by decide +kernel) (.inl rfl)).mpr ⟨by decide +kernel, by decide +kernel⟩⟩

/-- A run in which the only thread that is not destroyed calls `thread_exit` and loads a
context that is not there. -/
def ExitsIntoNothing (m : Machine) : Prop :=
  Reachable m ∧ m.control = .user ∧ m.interrupts = true ∧ m.currentThread = 0 ∧ Last m ∧
    ∃ m', step m (.call (.threadExit 0)) = some m' ∧ m'.control = .undefined ∧ ¬ EndsInExit m'

/-- An undefined call does not end in `exit(0)`. -/
lemma exitsIntoNothing_of {m : Machine} (hreach : Reachable m)
    (h : m.control = .user ∧ m.interrupts = true ∧ m.currentThread = 0 ∧ Last m ∧
      (call (.threadExit 0) m).control = .undefined) : ExitsIntoNothing m := by
  obtain ⟨hu, hint, h0, hlast, hundef⟩ := h
  refine ⟨hreach, hu, hint, h0, hlast, call (.threadExit 0) m, ?_, hundef, fun hends => ?_⟩
  · rw [step]
    exact if_pos ⟨hu, trivial⟩
  · have hexited := hends.control_eq (.inr (.inr hundef))
    rw [hundef] at hexited
    cases hexited

/-- Thread 0 exits last and loads a context that is not there: directly after `thread_init`,
when none has been saved, and after it has resumed from the one that it had. -/
theorem last_exit_undefined :
    ExitsIntoNothing (after 0 []) ∧
      ExitsIntoNothing (after 0 [.call (.threadCreate 0 0), .call (.threadYield THREAD_ANY), .exec,
        .call (.threadExit 5), .exec, .exec]) := by
  constructor
  · exact exitsIntoNothing_of (reachable_after (by decide +kernel)) (by decide +kernel)
  · exact exitsIntoNothing_of (reachable_after (by decide +kernel)) (by decide +kernel)

end UserThreads
