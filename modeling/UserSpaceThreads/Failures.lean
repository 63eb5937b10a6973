import UserSpaceThreads.Refine

set_option relaxedAutoImplicit false
set_option autoImplicit false

/-!
# Calls that fail

`thread_create`, `thread_yield`, `thread_kill`, `thread_wait` and `thread_sleep` answer a
negative number when they fail. A call that fails has not given up the processor: it returns in
the step in which it was made. And it has changed nothing that threads share, but that
`get_thread_any` has dropped entries of `thread_queue` which it could not use. `thread_sleep`
comes closest to breaking this: when it fails with `THREAD_NONE`, it has put its caller to sleep
and into the wait queue already, and undoes both.

## Main definitions

* `UserThreads.Unaffected` — what a call that fails leaves as it was.
* `UserThreads.Returned` — a step ends with the return of a call.

## Main results

* `UserThreads.threadYield_harmless`, `UserThreads.threadSleep_harmless`, … — the functions.
* `UserThreads.failed_call_unaffected` — all calls of all runs.
-/

namespace UserThreads

variable {m m' : Machine}

/-! ## Failure -/

/-- `thread_ret_ok`. -/
def threadRetOk (ret : Tid) : Bool := ret ≥ 0

/-- The functions that report failure by their result. -/
def Fn.fallible : Fn → Bool
  | .threadCreate _ _ => true
  | .threadYield _ => true
  | .threadKill _ => true
  | .threadWait _ _ => true
  | .threadSleep _ => true
  | _ => false

/-- The threads, the wait queues, the objects and the allocator are in `m'` as in `m`, the same
thread has the processor with the same signal mask, and `thread_queue` has lost some useless
entries at its head at most. -/
structure Unaffected (m m' : Machine) : Prop where
  current : m'.currentThread = m.currentThread
  threads : m'.threads = m.threads
  admin : m'.administrativeMode = m.administrativeMode
  queues : (abs m').queues = (abs m).queues
  locks : m'.locks = m.locks
  cvs : m'.cvs = m.cvs
  heap : m'.heap = m.heap
  interrupts : m'.interrupts = m.interrupts
  ready : ∃ ds, m.threadQueue.entries = ds ++ m'.threadQueue.entries ∧ ∀ t ∈ ds, Useless m t

/-- If `ret` is an error code, then the call that answers it and leaves `m'` has not affected
`m`; and it is `THREAD_NONE` only if no other thread could run. -/
def Harmless (m : Machine) (ret : ℤ) (m' : Machine) : Prop :=
  threadRetOk ret = false →
    Unaffected m m' ∧ (ret = THREAD_NONE → ∀ t ∈ m.threadQueue.entries, Useless m t)

/-- The wait queue `q` has room for one more entry. -/
def HasRoom (m : Machine) (q : Addr) : Prop :=
  ∀ wq, m.waitQueues q = some wq → (wq.queue.entries.length : ℤ) < QUEUE_CAPACITY

/-- Valid ids are not error codes. -/
lemma isValidThread.ret_ok {t : Tid} (h : isValidThread t) : threadRetOk t = true :=
  decide_eq_true h.1

/-- Nothing happens. -/
lemma Unaffected.refl (m : Machine) : Unaffected m m :=
  ⟨rfl, rfl, rfl, rfl, rfl, rfl, rfl, rfl, [], rfl, by simp⟩

/-- A call that succeeds may change anything. -/
lemma harmless_of_ok {ret : ℤ} (h : threadRetOk ret = true) : Harmless m ret m' := by
  intro hf
  rw [h] at hf
  cases hf

/-- A call that is refused at once, before it has done anything. -/
lemma harmless_invalid :
    Harmless m THREAD_INVALID ((m.interruptsSet false).interruptsSet m.interrupts) :=
  fun _ => ⟨.refl m, fun h => absurd h (by decide)⟩

/-! ## Leaving -/

/-- Control has not gone back to user code. -/
def Away (m : Machine) : Prop := m.control ≠ .user

/-- If the function does not return, control does not go back to user code. -/
abbrev Leaves {α : Type} (o : Outcome Machine α) : Prop := o.All (fun _ _ => True) Away

/-- Behind a failed assertion control is not with user code. -/
lemma away_abort : Away m.abort := by simp [Away]

/-- Behind `exit` control is not with user code. -/
lemma away_exit (n : ℤ) : Away (m.exit n) := by simp [Away]

/-- Behind undefined behaviour control is not with user code. -/
lemma away_undef : Away m.undef := by simp [Away]

/-- `setcontext` does not lead to user code at once. -/
lemma away_setcontext (u : Ucontext) : Away (m.setcontext u) := by
  cases u <;> simp [Away, Machine.setcontext]

/-- The switch leaves. -/
lemma away_threadYieldSwitch (s : Bool) (t : Tid) (k : Stack) : Away (threadYieldSwitch s t k m) :=
  away_setcontext _

/-- The end of `thread_exit` leaves. -/
lemma away_threadExitSetcontext (c : ℤ) : Away (threadExitSetcontext c m) := away_setcontext _

/-- Where the yield to one thread does not return, control is away from user code. -/
lemma leaves_threadYieldTo (s : Bool) (t : Tid) (k : Stack) : Leaves (threadYieldTo s t k m) := by
  rw [threadYieldTo]
  split_ifs
  · trivial
  · trivial
  · exact away_threadYieldSwitch _ _ _

/-- Where `thread_yield` does not return, control is away from user code. -/
lemma leaves_threadYield (t : Tid) (k : Stack) : Leaves (threadYield t k m) := by
  rw [threadYield]
  dsimp only
  split_ifs
  · trivial
  · trivial
  · exact leaves_threadYieldTo ..
  · exact leaves_threadYieldTo ..

/-- Where `handle_death` does not return, control is away from user code. -/
lemma leaves_handleDeath (t : Tid) (k : Stack) : Leaves (handleDeath t k m) := by
  rw [handleDeath]
  dsimp only
  split_ifs
  · exact away_abort
  · exact (leaves_threadYield ..).bind fun _ _ _ => trivial
  · trivial
  · trivial

/-- Where `free369` does not return, control is away from user code. -/
lemma leaves_free369 (p : Addr) : Leaves (m.free369 p) := by
  rw [Machine.free369]
  cases m.heap.free369 p with
  | none => exact away_abort
  | some heap => trivial

/-- Where `thread_kill` does not return, control is away from user code. -/
lemma leaves_threadKill (t : Tid) (k : Stack) : Leaves (threadKill t k m) := by
  rw [threadKill]
  dsimp only
  split_ifs
  · trivial
  · trivial
  · trivial
  · exact (leaves_free369 _).bind fun _ _ _ => (leaves_handleDeath ..).bind fun _ _ _ => trivial
  · exact (leaves_handleDeath ..).bind fun _ _ _ => trivial

/-- Where the end of `thread_sleep` does not return, control is away from user code. -/
lemma leaves_threadSleepAfterYield (q : Addr) (s : Bool) (t : Tid) :
    Leaves (threadSleepAfterYield q s t m) := by
  rw [threadSleepAfterYield]
  split_ifs
  · dsimp only
    split
    · exact away_undef
    · split_ifs
      · trivial
      · exact away_abort
  · trivial

/-- Where `thread_sleep` does not return, control is away from user code. -/
lemma leaves_threadSleep (q : Addr) (k : Stack) : Leaves (threadSleep q k m) := by
  rw [threadSleep]
  dsimp only
  split_ifs
  · trivial
  · split
    · exact away_undef
    · exact (leaves_threadYield ..).bind fun _ _ _ => leaves_threadSleepAfterYield ..

/-- Where the loop of `lock_acquire` does not return, control is away from user code. -/
lemma leaves_lockAcquireLoop (l : Addr) (s : Bool) (k : Stack) :
    Leaves (lockAcquireLoop l s k m) := by
  rw [lockAcquireLoop]
  split
  · exact away_undef
  · split_ifs
    · refine (leaves_threadSleep ..).bind fun _ _ _ => ?_
      simp [Away]
    · trivial

/-- Where `lock_acquire` does not return, control is away from user code. -/
lemma leaves_lockAcquire (l : Addr) (k : Stack) : Leaves (lockAcquire l k m) := by
  rw [lockAcquire]
  split_ifs
  · exact away_abort
  · exact leaves_lockAcquireLoop ..

/-- Where the loop of `thread_wakeup` does not return, control is away from user code. -/
lemma leaves_threadWakeupLoop (q : Addr) (all : ℤ) (n : ℕ) (wq : WaitQueue) (num : ℤ) :
    Leaves (threadWakeupLoop q all n wq num m) := by
  induction n generalizing wq num m with
  | zero => trivial
  | succ n ih =>
    rw [threadWakeupLoop]
    dsimp only
    split_ifs
    · trivial
    · exact away_abort
    · trivial
    · exact ih ..
    · exact ih ..

/-- Where `thread_wakeup` does not return, control is away from user code. -/
lemma leaves_threadWakeup (q : Addr) (all : ℤ) : Leaves (threadWakeup q all m) := by
  rw [threadWakeup]
  dsimp only
  split_ifs
  · trivial
  · split
    · exact away_undef
    · exact (leaves_threadWakeupLoop ..).bind fun _ _ _ => trivial

/-- Where `lock_release` does not return, control is away from user code. -/
lemma leaves_lockRelease (l : Addr) : Leaves (lockRelease l m) := by
  rw [lockRelease]
  dsimp only
  split_ifs
  · exact away_abort
  · split
    · exact away_undef
    · split_ifs
      · exact (leaves_threadWakeup ..).bind fun _ _ _ => trivial
      · exact away_abort

/-- Where the end of `cv_wait` does not return, control is away from user code. -/
lemma leaves_cvWaitAfterSleep (l : Addr) (s : Bool) (k : Stack) :
    Leaves (cvWaitAfterSleep l s k m) := by
  rw [cvWaitAfterSleep]
  split_ifs
  · exact away_abort
  · exact (leaves_lockAcquire ..).bind fun _ _ _ => trivial

/-- Where `cv_wait` does not return, control is away from user code. -/
lemma leaves_cvWait (c l : Addr) (k : Stack) : Leaves (cvWait c l k m) := by
  rw [cvWait]
  split_ifs
  · exact away_abort
  · exact away_abort
  · split
    · exact away_undef
    · split_ifs
      · refine (leaves_lockRelease _).bind fun _ m' _ => ?_
        split
        · exact away_undef
        · exact (leaves_threadSleep ..).bind fun _ _ _ => leaves_cvWaitAfterSleep ..
      · exact away_abort

/-- Where `cv_signal` or `cv_broadcast` does not return, control is away from user code. -/
lemma leaves_cvWakeup (all : ℤ) (c l : Addr) : Leaves (cvWakeup all c l m) := by
  rw [cvWakeup]
  dsimp only
  split_ifs
  · exact away_abort
  · exact away_abort
  · split
    · exact away_undef
    · split_ifs
      · split
        · exact away_undef
        · exact (leaves_threadWakeup ..).bind fun _ _ _ => trivial
      · exact away_abort

/-- `thread_exit` leaves, and does not return. -/
lemma threadExit_away (c : ℤ) (k : Stack) : (threadExit c k m).All (fun _ _ => False) Away := by
  rw [threadExit]
  dsimp only
  split_ifs
  · refine (leaves_handleDeath ..).bind fun _ m' _ => ?_
    rw [threadExitAfterDeath]
    exact (leaves_threadYield ..).bind fun _ _ _ => away_threadExitSetcontext _
  · exact away_threadExitSetcontext _
  · exact away_abort

/-- `admin_mode` leaves, and does not return. -/
lemma adminMode_away (k : Stack) : (adminMode k m).All (fun _ _ => False) Away := by
  rw [adminMode]
  split_ifs
  · exact away_abort
  · refine (leaves_threadKill ..).bind fun _ m' _ => ?_
    rw [adminModeAfterKill]
    split_ifs
    · exact away_abort
    rotate_left
    · exact away_abort
    · exact away_abort
    · refine (leaves_threadYield ..).bind fun r m' _ => ?_
      rw [adminModeAfterYield]
      split_ifs
      · exact away_exit 0
      · exact away_abort

/-! ## The functions -/

/-- **`thread_yield`**.

**Proof sketch.** `THREAD_ANY` fails only when every entry of `thread_queue` is useless, and then it
has dropped useless entries and nothing else. A yield to the thread itself returns its id, one to a
live thread switches, and any other is refused at the start. -/
lemma threadYield_harmless (hv : (abs m).Valid) (t : Tid) (k : Stack) :
    (threadYield t k m).All (Harmless m) Away := by
  by_cases hany : t = THREAD_ANY
  · subst hany
    rcases threadYield_any_cases k hv.current hv.ready with
      ⟨q', hnil, huse, heq⟩ | ⟨ds, t, ts, q', hes, hts, ht, hrun, hne, hds, heq⟩
    · -- all entries of the ready queue have been dropped
      rw [heq]
      refine fun _ => ⟨⟨rfl, rfl, rfl, rfl, rfl, rfl, rfl, rfl, m.threadQueue.entries, ?_, huse⟩,
        fun _ => huse⟩
      rw [Machine.setThreadQueue_threadQueue, hnil, List.append_nil]
    · rw [heq]
      exact away_threadYieldSwitch _ _ _
  rw [threadYield]
  dsimp only
  rw [if_neg hany]
  by_cases hself : t = THREAD_SELF ∨ t = (m.interruptsSet false).currentThread
  · rw [if_pos hself]
    exact harmless_of_ok hv.current.ret_ok
  rw [if_neg hself]
  by_cases hlive : isValidThread t ∧ (m.threads t).state ≠ .Destroyed
  · rw [threadYieldTo_live hlive.1 (by simpa using hlive.2)]
    exact away_threadYieldSwitch _ _ _
  · rw [threadYieldTo_dead (m := m.interruptsSet false) (by
      rw [Machine.interruptsSet_threads]
      tauto)]
    exact harmless_invalid

/-- **`thread_create`**. -/
lemma threadCreate_harmless (fn parg : ℕ) : (threadCreate fn parg m).All (Harmless m) Away := by
  rw [threadCreate]
  dsimp only
  split_ifs with hint
  swap
  · exact away_abort
  · cases hnum : threadNumToCreate (m.interruptsSet false) with
    | none => exact fun _ => ⟨.refl m, fun h => absurd h (by decide)⟩
    | some num => exact harmless_of_ok (threadNumToCreate_eq_some hnum).2.1.ret_ok

/-- **`thread_kill`**. -/
lemma threadKill_harmless (t : Tid) (k : Stack) : (threadKill t k m).All (Harmless m) Away := by
  rw [threadKill]
  dsimp only
  split_ifs with hself hrange hdead h0
  · exact harmless_invalid
  · exact harmless_invalid
  · exact harmless_invalid
  all_goals
    have ht : isValidThread t := by
      by_contra hnot
      exact hrange (or_comm.mp (out_of_range_iff.mpr hnot))
  · refine (leaves_free369 _).bind fun _ _ _ => (leaves_handleDeath ..).bind fun _ _ _ => ?_
    exact harmless_of_ok ht.ret_ok
  · exact (leaves_handleDeath ..).bind fun _ _ _ => harmless_of_ok ht.ret_ok

/-- **`thread_wait`**.

**Proof sketch.** All refusals come before anything is written. Behind the `thread_yield` the
function does not fail. -/
lemma threadWait_harmless (x : Tid) (c : Bool) (k : Stack) :
    (threadWait x c k m).All (fun r m' => Harmless m r.value m') Away := by
  rw [threadWait]
  by_cases hint : m.interrupts = true
  swap
  · rw [if_pos hint]
    exact away_abort
  rw [if_neg (not_not.mpr hint)]
  by_cases hx : isValidThread x
  swap
  · rw [if_pos hx]
    exact harmless_invalid
  rw [if_neg (not_not.mpr hx)]
  dsimp only
  split_ifs
  · exact harmless_invalid
  · exact harmless_invalid
  · exact harmless_invalid
  · -- the thread `x` is alive, and no one is waiting for it
    refine (leaves_threadYield ..).bind fun _ m' _ => ?_
    rw [threadWaitAfterYield]
    split_ifs
    · exact away_abort
    · exact harmless_of_ok hx.ret_ok
  · exact harmless_of_ok hx.ret_ok

/-- Setting the state that a thread has already changes nothing. -/
lemma setState_self {t : Tid} {s s' : State} (h : (m.threads t).state = s') :
    ((m.setState t s).setState t s').threads = m.threads := by
  funext u
  rcases eq_or_ne u t with rfl | hne
  · simp [← h]
  · simp [hne]

/-- **`thread_sleep`** by a Running thread, when the wait queue is not full.

**Proof sketch.** A failed sleep has pushed an entry and taken it back, which leaves the wait queue
as it was since there was room, and has put its caller back into the state Running, in which
it was. -/
lemma threadSleep_harmless (hv : (abs m).Valid)
    (hrun : (m.threads m.currentThread).state = .Running)
    {q : Addr} (hroom : HasRoom m q) (k : Stack) : (threadSleep q k m).All (Harmless m) Away := by
  by_cases hq0 : q = NULL
  · rw [threadSleep, if_pos hq0]
    exact harmless_invalid
  cases hq : m.waitQueues q with
  | none =>
    rw [threadSleep, if_neg hq0]
    simp only [Machine.interruptsSet_waitQueues, hq]
    exact away_undef
  | some wq =>
    rcases threadSleep_cases hv hq k with
      ⟨q', hnil, huse, heq⟩ | ⟨ds, t, ts, q', hes, hts, ht, hrun, hne, hds, heq⟩
    swap
    · rw [heq]
      exact away_threadYieldSwitch _ _ _
    obtain ⟨hlast, hrest⟩ := Queue.popLast_push_of_room (t := m.currentThread) (hroom wq hq)
    rw [heq, if_pos hlast]
    refine fun _ => ⟨⟨rfl, setState_self hrun, rfl, ?_, rfl, rfl, rfl, rfl, m.threadQueue.entries,
      ?_, huse⟩, fun _ => huse⟩
    · -- the entry has been taken back
      funext p
      rcases eq_or_ne p q with rfl | hne
      · simp [hq, absQueue, hrest]
      · simp [hne]
    · show m.threadQueue.entries = m.threadQueue.entries ++ q'.entries
      rw [hnil, List.append_nil]

/-! ## Runs -/

/-- The step from `m` to `m'` ends with the return of the call `f` to user code. -/
def Returned (m m' : Machine) (f : Fn) (r : Ret) : Prop :=
  m'.control = .user ∧
    ∃ tr, m'.trace = .returned m'.currentThread f r :: tr ∧ m.trace <:+ tr

/-- If the step from `m` to `m'` ends with a return, then the call has not failed. -/
def Succeeds (m m' : Machine) : Prop :=
  ∀ f r, Returned m m' f r → f.fallible = true → threadRetOk r.value = true

/-- A step after which control is away from user code has returned no failure. -/
lemma succeeds_of_away (h : Away m') : Succeeds m m' := fun _ _ hret _ => (h hret.1).elim

/-- A step that has left no trace does not end with a return. -/
lemma succeeds_of_trace (h : m'.trace = m.trace) : Succeeds m m' := by
  rintro f r ⟨-, tr, htr, hsuffix⟩ -
  have hlength := hsuffix.length_le
  rw [← h, htr, List.length_cons] at hlength
  omega

/-- A return of a value that is not an error code, or of a function that does not fail. -/
lemma succeeds_userReturn {f : Fn} {r : Ret} {m₁ : Machine}
    (h : f.fallible = true → threadRetOk r.value = true) : Succeeds m (userReturn f r m₁) := by
  rintro g r' ⟨-, tr, htr, -⟩ hg
  obtain ⟨⟨rfl, rfl⟩, -⟩ : (f = g ∧ r = r') ∧ m₁.trace = tr := by
    simpa [userReturn] using htr
  exact h hg

/-- What follows a function that leaves unless it returns. -/
lemma succeeds_andThen {α : Type} {o : Outcome Machine α} {Q : α → Machine → Prop}
    {g : α → Machine → Machine} (h : o.All Q Away) (hg : ∀ a m₁, Q a m₁ → Succeeds m (g a m₁)) :
    Succeeds m (andThen o g) := by
  cases o with
  | ret a m₁ => exact hg a m₁ h
  | jump m₁ => exact succeeds_of_away h

/-- The callers of the loop of `lock_acquire` do not fail. -/
lemma LoopCaller.succeeds {l : Addr} {s : Bool} {k : Stack} {f : Fn} (h : LoopCaller l s k f)
    {m₁ : Machine} : Succeeds m (unwind k ⟨0, none⟩ m₁) := by
  cases h with
  | acquire s =>
    rw [unwind]
    exact succeeds_userReturn fun hf => by cases hf
  | cvWait c s =>
    rw [unwind, unwind]
    exact succeeds_userReturn fun hf => by cases hf

/-- **A thread that has been resumed does not fail** in the call that it was suspended in.

**Proof sketch.** By the place where the thread was suspended. A `thread_yield` that has been
resumed returns the id of the thread that was given the processor, which is no error code;
`thread_kill`, `thread_sleep` and `thread_wait` return the id of a thread, and the others return
nothing that can fail. -/
lemma Suspended.succeeds {s : Bool} {a : Tid} {k : Stack} {p : Progress}
    (h : Suspended (.threadYield s a true :: k) p) {m₁ : Machine} (htrace : m₁.trace = m.trace) :
    Succeeds m (unwind k ⟨a, none⟩ m₁) := by
  cases h with
  | yield _ ha t =>
    rw [unwind]
    exact succeeds_userReturn fun _ => ha.ret_ok
  | tick ha what =>
    rw [unwind]
    exact succeeds_of_trace htrace
  | kill ha ht b =>
    rw [unwind, unwind]
    exact succeeds_userReturn fun _ => ht.ret_ok
  | sleep ha q b =>
    rw [unwind, threadSleepAfterYield, if_neg ha.ne.2.1]
    exact succeeds_userReturn fun _ => ha.ret_ok
  | wait ha hx c =>
    rw [unwind, threadWaitAfterYield]
    split_ifs
    · exact succeeds_of_away away_abort
    · exact succeeds_userReturn fun _ => hx.ret_ok
  | acquire ha q l b =>
    rw [unwind, threadSleepAfterYield, if_neg ha.ne.2.1]
    show Succeeds m (andThen (lockAcquireLoop l b [.user (.lockAcquire l)] (m₁.interruptsSet false))
      fun _ m => unwind [.user (.lockAcquire l)] ⟨0, none⟩ m)
    exact succeeds_andThen (leaves_lockAcquireLoop ..) fun _ _ _ =>
      LoopCaller.succeeds (.acquire b)
  | cvSleep ha q c l b =>
    rw [unwind, threadSleepAfterYield, if_neg ha.ne.2.1]
    show Succeeds m (andThen (cvWaitAfterSleep l b [.user (.cvWait c l)] (m₁.interruptsSet false))
      fun _ m => userReturn (.cvWait c l) ⟨0, none⟩ m)
    exact succeeds_andThen (leaves_cvWaitAfterSleep ..) fun _ _ _ =>
      succeeds_userReturn fun hf => by cases hf
  | cvAcquire ha q c l b =>
    rw [unwind, threadSleepAfterYield, if_neg ha.ne.2.1]
    show Succeeds m (andThen
      (lockAcquireLoop l false [.cvWaitAcquire b, .user (.cvWait c l)] (m₁.interruptsSet false))
      fun _ m => unwind [.cvWaitAcquire b, .user (.cvWait c l)] ⟨0, none⟩ m)
    exact succeeds_andThen (leaves_lockAcquireLoop ..) fun _ _ _ =>
      LoopCaller.succeeds (.cvWait c b)

/-- The create and destroy functions do not fail. -/
lemma allocate_succeeds (p : AllocPoint) {m₁ : Machine} : Succeeds m (allocate p m₁) := by
  have hdestroy {f : Fn} (hf : f.fallible = false) (q : Addr) (g : Machine → Machine) :
      Succeeds m (andThen (m₁.free369 q) fun _ m => userReturn f ⟨0, none⟩ (g m)) :=
    succeeds_andThen (leaves_free369 q) fun _ _ _ => succeeds_userReturn fun h => by
      rw [hf] at h
      cases h
  cases p with
  | waitQueueCreate | lockCreateQueue l | cvCreateQueue c =>
    exact succeeds_userReturn fun hf => by cases hf
  | lockCreate | cvCreate => exact succeeds_of_away (by simp [allocate, Away])
  | waitQueueDestroy q => exact hdestroy rfl q fun m => m.setWaitQueue q none
  | lockDestroy l => exact hdestroy rfl l fun m => m.setLock l none
  | cvDestroy c => exact hdestroy rfl c fun m => m.setCv c none
  | lockDestroyQueue l =>
    rw [allocate]
    split
    · exact succeeds_of_away away_undef
    · exact succeeds_andThen (leaves_free369 _) fun _ _ _ => succeeds_of_away (by simp [Away])
  | cvDestroyQueue c =>
    rw [allocate]
    split
    · exact succeeds_of_away away_undef
    · exact succeeds_andThen (leaves_free369 _) fun _ _ _ => succeeds_of_away (by simp [Away])

/-- A thread that enters its saved context does not fail in the call that it was suspended in. -/
lemma Entering.exec_succeeds {k : Stack} (h : Entering m k) (hint : m.interrupts = false)
    (hcontrol : m.control = .resumed k) : Succeeds m (exec m) := by
  rcases h.exec_cases hint hcontrol with ⟨fn, parg, rfl, heq⟩ | ⟨s, a, k', rfl, -, heq⟩
  · rintro f r ⟨-, tr, htr, -⟩ -
    rw [heq] at htr
    simp at htr
  · rw [heq]
    exact h.suspended.succeeds rfl

/-- **The library going on does not end with the failure of a call.**

**Proof sketch.** By the place where the library goes on; in each of them the call that comes to its
end returns no error code. -/
lemma exec_succeeds (hb : Base m) (hs : step m .exec = some m') : Succeeds m m' := by
  have hc := hb.control
  rw [ControlOk] at hc
  rw [step] at hs
  cases hcontrol : m.control with
  | user | aborted | exited n | undefined =>
    rw [hcontrol] at hs
    cases hs
  | alloc p =>
    rw [hcontrol] at hs
    cases hs
    unfold exec
    rw [hcontrol]
    exact allocate_succeeds p
  | lockLoop l s k =>
    rw [hcontrol] at hs hc
    cases hs
    obtain ⟨-, -, f, hcaller, -⟩ := hc
    unfold exec
    rw [hcontrol]
    exact succeeds_andThen (leaves_lockAcquireLoop ..) fun _ _ _ => hcaller.succeeds
  | resumed k =>
    rw [hcontrol] at hs hc
    cases hs
    obtain ⟨hint, h | h⟩ := hc
    · exact h.exec_succeeds hint hcontrol
    · obtain ⟨g, heq⟩ := h.exec_eq hint hcontrol
      rw [heq]
      exact succeeds_andThen (Q := fun _ _ => False) (adminMode_away _) fun _ _ hf => hf.elim

/-- The step goes back to user code, if at all, with the return of `f` and a result as `Q` says. -/
def Gives (m' : Machine) (f : Fn) (Q : Ret → Machine → Prop) : Prop :=
  Away m' ∨ ∃ r m₁, m' = userReturn f r m₁ ∧ Q r m₁

/-- What a call gives that returns the value of a function. -/
lemma gives_andThen {α : Type} {f : Fn} {o : Outcome Machine α} {ρ : α → Ret}
    {Q : Ret → Machine → Prop} (h : o.All (fun a m₁ => Q (ρ a) m₁) Away) :
    Gives (andThen o fun a m₁ => userReturn f (ρ a) m₁) f Q := by
  cases o with
  | ret a m₁ => exact .inr ⟨ρ a, m₁, rfl, h⟩
  | jump m₁ => exact .inl h

/-- The result of a call of a function that can fail, made by a Running thread. -/
def CallHarmless (m : Machine) (f : Fn) (r : Ret) (m₁ : Machine) : Prop :=
  f.fallible = true → (m.threads m.currentThread).state = .Running →
    (∀ q, f = .threadSleep q → HasRoom m q) → Harmless m r.value m₁

/-- **What a call of user code gives.**

**Proof sketch.** A call that leaves user code at once proves nothing here (`Away`). The five calls
that can fail have a lemma each, such as `threadYield_harmless`; the others return no error code
(`Leaves`). Only `thread_sleep` needs its caller to be Running and room in the wait queue. -/
lemma call_gives (hv : (abs m).Valid) (f : Fn) :
    Gives (call f m) f (CallHarmless (calledAt m f) f) := by
  have hv' : (abs (calledAt m f)).Valid := hv.retrace ..
  have hsafe {α : Type} {o : Outcome Machine α} {ρ : α → Ret} (hf : f.fallible = false)
      (ho : Leaves o) : o.All (fun a m₁ => CallHarmless (calledAt m f) f (ρ a) m₁) Away :=
    ho.mono (fun _ _ _ h => by rw [hf] at h; cases h) fun _ h => h
  have hnever {o : Outcome Machine Unit} (ho : o.All (fun _ _ => False) Away) :
      Gives (andThen o fun _ m => m.undef) f (CallHarmless (calledAt m f) f) := by
    cases o with
    | ret a m₁ => exact ho.elim
    | jump m₁ => exact .inl ho
  unfold call
  cases f with
  | threadCreate fn parg =>
    exact gives_andThen ((threadCreate_harmless fn parg).mono (fun _ _ h _ _ _ => h) fun _ h => h)
  | threadYield t =>
    exact gives_andThen ((threadYield_harmless hv' t _).mono (fun _ _ h _ _ _ => h) fun _ h => h)
  | threadExit c => exact hnever (threadExit_away ..)
  | threadReturn => exact hnever (threadExit_away ..)
  | threadKill t =>
    exact gives_andThen ((threadKill_harmless t _).mono (fun _ _ h _ _ _ => h) fun _ h => h)
  | waitQueueCreate | lockCreate | cvCreate | waitQueueDestroy q => exact .inl (by simp [Away,
      waitQueueCreate, waitQueueDestroy, lockCreate, cvCreate])
  | threadSleep q =>
    refine gives_andThen ?_
    by_cases hok : (m.threads m.currentThread).state = .Running ∧ HasRoom m q
    · exact (threadSleep_harmless hv' hok.1 hok.2 _).mono (fun _ _ h _ _ _ => h) fun _ h => h
    · exact (leaves_threadSleep ..).mono (fun _ _ _ _ hrun hroom => (hok ⟨hrun, hroom q rfl⟩).elim)
        fun _ h => h
  | threadWakeup q all => exact gives_andThen (hsafe rfl (leaves_threadWakeup ..))
  | threadWait x c =>
    exact @gives_andThen _ _ _ id _
      ((threadWait_harmless x c _).mono (fun _ _ h _ _ _ => h) fun _ h => h)
  | lockDestroy l =>
    refine .inl ?_
    dsimp only
    rw [lockDestroy]
    split_ifs
    · exact away_abort
    · split
      · exact away_undef
      · split_ifs
        · simp [Away]
        · exact away_abort
  | lockAcquire l => exact gives_andThen (hsafe rfl (leaves_lockAcquire ..))
  | lockRelease l => exact gives_andThen (hsafe rfl (leaves_lockRelease ..))
  | cvDestroy c =>
    refine .inl ?_
    dsimp only
    rw [cvDestroy]
    split_ifs
    · exact away_abort
    · simp [Away]
  | cvWait c l => exact gives_andThen (hsafe rfl (leaves_cvWait ..))
  | cvSignal c l => exact gives_andThen (hsafe rfl (leaves_cvWakeup ..))
  | cvBroadcast c l => exact gives_andThen (hsafe rfl (leaves_cvWakeup ..))
  | interruptsSet b => exact .inr ⟨_, _, rfl, fun h => by cases h⟩

/-- The return to user code changes nothing either. -/
lemma Unaffected.of_call {f : Fn} {r : Ret} {m₁ : Machine} (h : Unaffected (calledAt m f) m₁) :
    Unaffected m (userReturn f r m₁) :=
  ⟨h.current, h.threads, h.admin, h.queues, h.locks, h.cvs, h.heap, h.interrupts, h.ready⟩

/-- **A failed call changes nothing.** In every run, when `thread_create`, `thread_yield`,
`thread_kill`, `thread_wait` or `thread_sleep` returns an error code, it does so in the step in
which it was called. If its caller was Running, and the wait queue of a `thread_sleep` was not
full, then the call has not affected anything but useless entries of `thread_queue`; and
`THREAD_NONE` says that no other thread in `thread_queue` was Running.

**Proof sketch.** The step cannot be `exec`: a thread that has been resumed does not fail
(`exec_succeeds`). It cannot be a tick: the handler returns to where the signal came, so the history
has no return of a call in it. It is a call, then, and it has returned at once; `call_gives` says
what a failed one leaves as it was. -/
theorem failed_call_unaffected {a : Action} {f : Fn} {r : Ret} (h : Reachable m)
    (hs : step m a = some m') (hf : f.fallible = true) (hret : Returned m m' f r)
    (herr : threadRetOk r.value = false) :
    a = .call f ∧ ((m.threads m.currentThread).state = .Running →
      (∀ q, f = .threadSleep q → HasRoom m q) →
      Unaffected m m' ∧ (r.value = THREAD_NONE → ∀ t ∈ m.threadQueue.entries, Useless m t)) := by
  have hrun : ¬ Stopped m := fun hst => by
    rw [hst.step_none] at hs
    cases hs
  have hb := ReachableBy.base h hrun
  have hsucceeds (hok : Succeeds m m') : False := by
    have hgood := hok f r hret hf
    rw [herr] at hgood
    cases hgood
  cases a with
  | exec => exact (hsucceeds (exec_succeeds hb hs)).elim
  | tick =>
    refine (hsucceeds ?_).elim
    have htick (what : Interrupted) : Succeeds m (interruptHandler what m) := by
      refine succeeds_andThen (Q := fun _ m₁ => m₁.trace = m.trace) ?_ fun _ _ htrace =>
        succeeds_of_trace htrace
      rcases threadYield_any_cases (m := m.interruptsSet false) [.interruptHandler what]
        hb.valid.current hb.valid.ready with ⟨q', -, -, heq⟩ |
        ⟨ds, t, ts, q', -, -, -, -, -, -, heq⟩
      · rw [heq]
        rfl
      · rw [heq]
        exact away_threadYieldSwitch _ _ _
    rw [step] at hs
    split_ifs at hs
    cases hcontrol : m.control with
    | user | alloc p =>
      rw [hcontrol] at hs
      cases hs
      exact htick _
    | resumed k | lockLoop l s k | aborted | exited n | undefined =>
      rw [hcontrol] at hs
      cases hs
  | call g =>
    rw [step] at hs
    split_ifs at hs
    cases hs
    obtain haway | ⟨r', m₁, heq, hharmless⟩ := call_gives hb.valid g
    · exact (haway hret.1).elim
    obtain ⟨-, tr, htr, -⟩ := hret
    rw [heq] at htr ⊢
    obtain ⟨⟨rfl, rfl⟩, -⟩ : (g = f ∧ r' = r) ∧ m₁.trace = tr := by simpa [userReturn] using htr
    refine ⟨rfl, fun hstate hroom => ?_⟩
    obtain ⟨hsame, hnone⟩ := hharmless hf hstate hroom herr
    exact ⟨hsame.of_call, hnone⟩

/-- The only thread goes to sleep, with the entry of a dead thread in `thread_queue`. -/
theorem failed_call_unaffected_sleep :
    let m := after 0 [.call .waitQueueCreate, .exec, .call (.threadCreate 0 0),
      .call (.threadKill 1)]
    let m' := call (.threadSleep 1) m
    Unaffected m m' ∧ ∀ t ∈ m.threadQueue.entries, Useless m t := by
  intro m m'
  have hs : step m (.call (.threadSleep 1)) = some m' := by
    rw [step]
    exact if_pos ⟨by decide +kernel, by decide +kernel⟩
  have hret : Returned m m' (.threadSleep 1) ⟨THREAD_NONE, none⟩ :=
    ⟨by decide +kernel, m'.trace.tail, by decide +kernel, by decide +kernel⟩
  have h := failed_call_unaffected (reachable_after (by decide +kernel)) hs rfl hret rfl
  refine (h.2 (by decide +kernel) fun q hq wq hwq => ?_).imp_right fun hnone => hnone rfl
  cases hq
  have hroom : ∀ wq, m.waitQueues 1 = some wq → wq.queue.size = 0 := by
    rintro _ ⟨rfl⟩
    rfl
  rw [Queue.length_entries, hroom wq hwq]
  decide

end UserThreads
