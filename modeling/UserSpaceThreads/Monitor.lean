import UserSpaceThreads.Lib.Logged
import UserSpaceThreads.Step

set_option relaxedAutoImplicit false
set_option autoImplicit false

/-!
# The functions of `thread.c`, write by write

The functions a second time, statement by statement, with a log: every write to what threads
share, and every `setcontext`, leaves an entry that tells whether the timer signal was blocked
at that moment. Between two statements with the signal unblocked the timer could strike, so the
log is what decides whether an update of a queue can be seen half done. Erasing the log gives
back the functions of `UserSpaceThreads.Thread` and the steps of `UserSpaceThreads.Step`.

The create and destroy functions of wait queues, locks and condition variables have no log.

## Main definitions

* `UserThreads.SharedAccess` — a log entry; `UserThreads.Monitored` — a computation with a log.
* `UserThreads.Monitored.threadYield`, …, `UserThreads.Monitored.cvWakeup` — the functions.
* `UserThreads.accesses` — the log of a step.

## Main results

* `UserThreads.Monitored.state_erase_perform` — erasing the log of a step leaves the step.
-/

namespace UserThreads

/-- What a logged access is made to. -/
inductive Target
  /-- an element of `threads` -/
  | threads
  | threadQueue
  /-- the `queue` of a `struct wait_queue` -/
  | waitQueue
  | currentThread
  | threadToDestroy
  | administrativeMode
  /-- the field `current` of a `struct lock` -/
  | lock
  /-- a call of `setcontext` -/
  | setcontext
  deriving DecidableEq, Repr

/-- A write or a `setcontext`, and whether the timer signal was blocked. -/
structure SharedAccess where
  target : Target
  masked : Bool
  deriving DecidableEq, Repr

/-- A computation of the library that logs its accesses. -/
abbrev Monitored (α : Type) := Logged Machine SharedAccess α

namespace Monitored

variable {α : Type}

/-! ## Statements -/

/-- Log an access. -/
def access (target : Target) : Monitored Unit := Logged.tell fun m => ⟨target, !m.interrupts⟩

/-- A write to `target` that does `f`. -/
def write (target : Target) (f : Machine → Machine) : Monitored Unit := do
  access target
  Logged.modify f

/-- `interrupts_set(enable)`. -/
def interruptsSet (enable : Bool) : Monitored Bool := do
  let m ← Logged.get
  Logged.modify (·.interruptsSet enable)
  return m.interrupts

/-- `assert(p)`. -/
def assert (p : Machine → Prop) [DecidablePred p] : Monitored Unit := do
  let m ← Logged.get
  if p m then return () else Logged.leave Machine.abort

/-- Append to the history. -/
def record (e : Machine → Event) : Monitored Unit := Logged.modify fun m => m.emit (e m)

/-- `current_thread`. -/
def currentThread : Monitored Tid := do
  let m ← Logged.get
  return m.currentThread

/-- `setcontext(u)`. -/
def setcontext (u : Machine → Ucontext) : Monitored α := do
  access .setcontext
  Logged.leave fun m => m.setcontext (u m)

/-! ## `thread_create` and `thread_yield` -/

/-- `thread_create`. -/
def threadCreate (fn parg : ℕ) : Monitored Tid := do
  let signalState ← interruptsSet false
  assert fun _ => signalState = true
  let m ← Logged.get
  match threadNumToCreate m with
  | none =>
    let _ ← interruptsSet signalState
    return THREAD_NOMORE
  | some num =>
    let stackPointer := m.malloc369
    Logged.modify (·.afterMalloc369 THREAD_MIN_STACK)
    let newThread : Thread :=
      { ucontext := .saved ⟨stackPointer, m.interrupts, [.threadStub fn parg]⟩
        stackStart := stackPointer
        state := .Running
        waiter := -1
        exitCode := -SIGKILL }
    write .threads (·.setThread num newThread)
    record fun _ => .created num fn parg
    write .threadQueue (·.pushReady num)
    let _ ← interruptsSet signalState
    return num

/-- `get_thread_any` after at most `n` rounds of its loop. -/
def getThreadAnyLoop (current : Tid) : ℕ → Monitored Tid
  | 0 => return THREAD_NONE
  | n + 1 => do
    let m ← Logged.get
    let result := m.threadQueue.pop.1
    write .threadQueue (·.setThreadQueue m.threadQueue.pop.2)
    if result = ERR_EMPTY then return THREAD_NONE
    else if (m.threads result).state = .Running ∧ result ≠ current then return result
    else getThreadAnyLoop current n

/-- `get_thread_any`. -/
def getThreadAny (current : Tid) : Monitored Tid := do
  let m ← Logged.get
  getThreadAnyLoop current (m.threadQueue.size + 1)

/-- The switch of `thread_yield`, from `switched = true` on. -/
def threadYieldSwitch (signalState : Bool) (actualTid : Tid) (k : Stack) : Monitored α := do
  let m ← Logged.get
  let context : Context := ⟨m.rsp, m.interrupts, .threadYield signalState actualTid true :: k⟩
  write .threads fun m => m.setUcontext m.currentThread (.saved context)
  write .threadQueue fun m => m.pushReady m.currentThread
  write .currentThread (·.setCurrentThread actualTid)
  record fun _ => .switched actualTid
  setcontext fun m => (m.threads actualTid).ucontext

/-- `thread_yield` once `actual_tid` is chosen. -/
def threadYieldTo (signalState : Bool) (actualTid : Tid) (k : Stack) : Monitored Tid := do
  if actualTid ≥ THREAD_MAX_THREADS ∨ actualTid < 0 then
    let _ ← interruptsSet signalState
    return THREAD_INVALID
  else
    let m ← Logged.get
    if (m.threads actualTid).state = .Destroyed then
      let _ ← interruptsSet signalState
      return THREAD_INVALID
    else threadYieldSwitch signalState actualTid k

/-- `thread_yield`, called by `k`. -/
def threadYield (wantTid : Tid) (k : Stack) : Monitored Tid := do
  let signalState ← interruptsSet false
  let current ← currentThread
  if wantTid = THREAD_SELF ∨ wantTid = current then
    let _ ← interruptsSet signalState
    return current
  else if wantTid = THREAD_ANY then
    let result ← getThreadAny current
    if result = THREAD_NONE then
      let _ ← interruptsSet signalState
      return THREAD_NONE
    else threadYieldTo signalState result k
  else threadYieldTo signalState wantTid k

/-! ## The end of a thread -/

/-- `handle_death` behind its `thread_yield`. -/
def handleDeathAfterYield (signalState : Bool) : Monitored Unit := do
  let _ ← interruptsSet signalState

/-- `handle_death`, called by `k`. -/
def handleDeath (threadToDie : Tid) (k : Stack) : Monitored Unit := do
  let signalState ← interruptsSet false
  write .threads (·.setState threadToDie .Destroyed)
  let m ← Logged.get
  let waiter := (m.threads threadToDie).waiter
  if waiter ≠ -1 then
    assert fun m => (m.threads waiter).state ≠ .Running
    let m ← Logged.get
    if (m.threads waiter).state = .Sleep then
      write .threads (·.setState waiter .Running)
      record fun _ => .released threadToDie waiter
      let _ ← threadYield waiter (.handleDeath signalState :: k)
      handleDeathAfterYield signalState
    else
      let _ ← interruptsSet signalState
  else
    let _ ← interruptsSet signalState

/-- `thread_kill` behind its `handle_death`. -/
def threadKillAfterDeath (tid : Tid) (signalState : Bool) : Monitored Tid := do
  let _ ← interruptsSet signalState
  return tid

/-- `free369(p)`. -/
def free369 (p : Machine → Addr) : Monitored Unit := do
  let m ← Logged.get
  match m.heap.free369 (p m) with
  | none => Logged.leave Machine.abort
  | some heap => Logged.modify fun m => m.afterFree369 (p m) heap

/-- `free369(threads[tid].stack_start)`, except in thread 0. -/
def freeStack (tid : Tid) : Monitored Unit :=
  if tid ≠ 0 then free369 fun m => (m.threads tid).stackStart else pure ()

/-- `thread_kill`, called by `k`. -/
def threadKill (tid : Tid) (k : Stack) : Monitored Tid := do
  let signalState ← interruptsSet false
  let m ← Logged.get
  if tid = m.currentThread ∧ ¬ m.administrativeMode then
    let _ ← interruptsSet signalState
    return THREAD_INVALID
  else if tid < 0 ∨ tid ≥ THREAD_MAX_THREADS then
    let _ ← interruptsSet signalState
    return THREAD_INVALID
  else if (m.threads tid).state = .Destroyed then
    let _ ← interruptsSet signalState
    return THREAD_INVALID
  else
    freeStack tid
    Logged.modify fun m => if m.administrativeMode then m else m.emit (.killed tid)
    write .administrativeMode (·.setAdministrativeMode false)
    handleDeath tid (.threadKill tid signalState :: k)
    threadKillAfterDeath tid signalState

/-- `admin_mode` behind its `thread_yield`. -/
def adminModeAfterYield (result : Tid) : Monitored Unit := do
  if THREAD_NONE = result then Logged.leave (·.exit 0) else Logged.leave Machine.abort

/-- `admin_mode` behind its `thread_kill`. -/
def adminModeAfterKill (k : Stack) : Monitored Unit := do
  write .administrativeMode (·.setAdministrativeMode false)
  write .threadToDestroy (·.setThreadToDestroy (-1))
  assert fun m => m.interrupts = false
  assert fun m => m.currentThread ≠ 0
  assert fun m => (m.threads m.currentThread).state = .Destroyed
  let result ← threadYield THREAD_ANY (.adminYield :: k)
  adminModeAfterYield result

/-- `admin_mode`, called by `k`. -/
def adminMode (k : Stack) : Monitored Unit := do
  assert fun m => m.interrupts = false
  let current ← currentThread
  let _ ← threadKill current (.adminKill :: k)
  adminModeAfterKill k

/-- `thread_yield` behind its `getcontext`, when the context saved there has been loaded. -/
def threadYieldAfterGetcontext (signalState : Bool) (actualTid : Tid) (switched : Bool)
    (k : Stack) : Monitored Tid := do
  if switched then
    assert fun m => m.interrupts = false
    let m ← Logged.get
    if m.administrativeMode then
      assert fun m => m.currentThread = m.threadToDestroy
      adminMode (.threadYield signalState actualTid switched :: k)
      threadYieldSwitch signalState actualTid k
    else
      Logged.modify fun m => m.setUcontext m.currentThread .spent
      let _ ← interruptsSet signalState
      return actualTid
  else threadYieldSwitch signalState actualTid k

/-- `thread_exit` from `thread_to_destroy = current_thread` on. -/
def threadExitSetcontext (exitCode : ℤ) : Monitored α := do
  write .threadToDestroy fun m => m.setThreadToDestroy m.currentThread
  write .administrativeMode (·.setAdministrativeMode true)
  write .threads fun m => m.setExitCode m.currentThread exitCode
  setcontext fun m => (m.threads 0).ucontext

/-- `thread_exit` in thread 0, behind its `handle_death`. -/
def threadExitAfterDeath (exitCode : ℤ) (k : Stack) : Monitored Unit := do
  let _ ← threadYield THREAD_ANY (.threadExitYield exitCode :: k)
  threadExitSetcontext exitCode

/-- `thread_exit`, called by `k`. -/
def threadExit (exitCode : ℤ) (k : Stack) : Monitored Unit := do
  assert fun m => m.interrupts = true
  let _ ← interruptsSet false
  record fun m => .exited m.currentThread exitCode
  let current ← currentThread
  if current = 0 then
    write .threads fun m => m.setExitCode m.currentThread exitCode
    handleDeath current (.threadExitDeath exitCode :: k)
    threadExitAfterDeath exitCode k
  else threadExitSetcontext exitCode

/-! ## Wait queues -/

/-- The wait queue at `q`, which has not been destroyed. -/
def waitQueue (q : Addr) : Monitored WaitQueue := do
  let m ← Logged.get
  match m.waitQueues q with
  | none => Logged.leave Machine.undef
  | some wq => return wq

/-- `thread_sleep` behind its `thread_yield`, which has answered `threadNum`. -/
def threadSleepAfterYield (queue : Addr) (enabled : Bool) (threadNum : Tid) : Monitored Tid := do
  if threadNum = THREAD_NONE then
    write .threads fun m => m.setState m.currentThread .Running
    let wq ← waitQueue queue
    write .waitQueue (·.setWaitQueue queue (some { wq with queue := wq.queue.popLast.2 }))
    assert fun m => wq.queue.popLast.1 = m.currentThread
    record fun m => .sleptNone m.currentThread queue
    let _ ← interruptsSet enabled
    return THREAD_NONE
  else
    let _ ← interruptsSet enabled
    return threadNum

/-- `thread_sleep`, called by `k`. -/
def threadSleep (queue : Addr) (k : Stack) : Monitored Tid := do
  let enabled ← interruptsSet false
  if queue = NULL then
    let _ ← interruptsSet enabled
    return THREAD_INVALID
  else
    let wq ← waitQueue queue
    write .threads fun m => m.setState m.currentThread .Sleep
    write .waitQueue fun m =>
      m.setWaitQueue queue (some { wq with queue := wq.queue.push m.currentThread })
    record fun m => .slept m.currentThread queue
    let threadNum ← threadYield THREAD_ANY (.threadSleep queue enabled :: k)
    threadSleepAfterYield queue enabled threadNum

/-- `n` rounds of the loop of `thread_wakeup` on the wait queue `wq` at `queue`. -/
def threadWakeupLoop (queue : Addr) (all : ℤ) : ℕ → WaitQueue → ℤ → Monitored ℤ
  | 0, _, num => return num
  | n + 1, wq, num => do
    let id := wq.queue.pop.1
    let wq := { wq with queue := wq.queue.pop.2 }
    write .waitQueue (·.setWaitQueue queue (some wq))
    if id = ERR_EMPTY then return num
    else
      let m ← Logged.get
      let state := (m.threads id).state
      if state = .Running then Logged.leave Machine.abort
      else if state = .Sleep then
        write .threads (·.setState id .Running)
        record fun _ => .woken id queue
        write .threadQueue (·.pushReady id)
        if all = 0 then return num + 1 else threadWakeupLoop queue all n wq (num + 1)
      else threadWakeupLoop queue all n wq num

/-- `thread_wakeup`. -/
def threadWakeup (queue : Addr) (all : ℤ) : Monitored ℤ := do
  if queue = NULL then return 0
  else
    let enabled ← interruptsSet false
    let wq ← waitQueue queue
    let num ← threadWakeupLoop queue all (wq.queue.size + 1) wq 0
    let _ ← interruptsSet enabled
    return num

/-! ## `thread_wait` -/

/-- `thread_wait` from `if (exit_code != NULL)` on. -/
def threadWaitFinish (tid : Tid) (exitCode : Bool) (signal : Bool) : Monitored Ret := do
  let m ← Logged.get
  let _ ← interruptsSet signal
  return ⟨tid, if exitCode then some (m.threads tid).exitCode else none⟩

/-- `thread_wait` behind its `thread_yield`, whose result it ignores. -/
def threadWaitAfterYield (tid : Tid) (exitCode : Bool) (signal : Bool) : Monitored Ret := do
  assert fun m => m.interrupts = false
  threadWaitFinish tid exitCode signal

/-- `thread_wait`, called by `k`. -/
def threadWait (tid : Tid) (exitCode : Bool) (k : Stack) : Monitored Ret := do
  let signal ← interruptsSet false
  assert fun _ => signal = true
  let m ← Logged.get
  if ¬ isValidThread tid then
    let _ ← interruptsSet signal
    return ⟨THREAD_INVALID, none⟩
  else if (m.threads tid).state = .Destroyed ∧ (m.threads tid).exitCode = -SIGKILL then
    let _ ← interruptsSet signal
    return ⟨THREAD_INVALID, none⟩
  else if tid = m.currentThread then
    let _ ← interruptsSet signal
    return ⟨THREAD_INVALID, none⟩
  else if (m.threads tid).state ≠ .Destroyed then
    if (m.threads tid).waiter ≠ -1 then
      let _ ← interruptsSet signal
      return ⟨THREAD_INVALID, none⟩
    else
      write .threads fun m => m.setWaiter tid m.currentThread
      write .threads fun m => m.setState m.currentThread .Sleep
      record fun m => .waited m.currentThread tid
      let _ ← threadYield THREAD_ANY (.threadWait tid exitCode signal :: k)
      threadWaitAfterYield tid exitCode signal
  else threadWaitFinish tid exitCode signal

/-! ## Locks and condition variables -/

/-- The lock at `l`, which has not been destroyed. -/
def lockAt (l : Addr) : Monitored Lock := do
  let m ← Logged.get
  match m.locks l with
  | none => Logged.leave Machine.undef
  | some lock => return lock

/-- The condition variable at `c`, which has not been destroyed. -/
def cvAt (c : Addr) : Monitored Cv := do
  let m ← Logged.get
  match m.cvs c with
  | none => Logged.leave Machine.undef
  | some cv => return cv

/-- `lock_acquire`, called by `k`, from the test of its loop on. -/
def lockAcquireLoop (lock : Addr) (signals : Bool) (k : Stack) : Monitored Unit := do
  let l ← lockAt lock
  if l.current ≠ -1 then
    let _ ← threadSleep l.queue (.lockAcquire lock signals :: k)
    Logged.leave (·.setControl (.lockLoop lock signals k))
  else
    write .lock fun m => m.setLock lock (some { l with current := m.currentThread })
    let _ ← interruptsSet signals

/-- `lock_acquire`, called by `k`. -/
def lockAcquire (lock : Addr) (k : Stack) : Monitored Unit := do
  let signals ← interruptsSet false
  assert fun _ => lock ≠ NULL
  lockAcquireLoop lock signals k

/-- `lock_release`. -/
def lockRelease (lock : Addr) : Monitored Unit := do
  assert fun _ => lock ≠ NULL
  let signals ← interruptsSet false
  let l ← lockAt lock
  assert fun m => l.current = m.currentThread
  write .lock (·.setLock lock (some { l with current := -1 }))
  let _ ← threadWakeup l.queue 1
  let _ ← interruptsSet signals

/-- `cv_wait` behind its `lock_acquire`. -/
def cvWaitAfterAcquire (signal : Bool) : Monitored Unit := do
  let _ ← interruptsSet signal

/-- `cv_wait`, called by `k`, behind its `thread_sleep`. -/
def cvWaitAfterSleep (lock : Addr) (signal : Bool) (k : Stack) : Monitored Unit := do
  assert fun m => m.interrupts = false
  lockAcquire lock (.cvWaitAcquire signal :: k)
  cvWaitAfterAcquire signal

/-- `cv_wait`, called by `k`. -/
def cvWait (cv lock : Addr) (k : Stack) : Monitored Unit := do
  let signal ← interruptsSet false
  assert fun _ => cv ≠ NULL
  assert fun _ => lock ≠ NULL
  let l ← lockAt lock
  assert fun m => l.current = m.currentThread
  lockRelease lock
  let c ← cvAt cv
  let _ ← threadSleep c.queue (.cvWaitSleep lock signal :: k)
  cvWaitAfterSleep lock signal k

/-- The common body of `cv_signal` and `cv_broadcast`. -/
def cvWakeup (all : ℤ) (cv lock : Addr) : Monitored Unit := do
  assert fun _ => cv ≠ NULL
  assert fun _ => lock ≠ NULL
  let signal ← interruptsSet false
  let l ← lockAt lock
  assert fun m => l.current = m.currentThread
  let c ← cvAt cv
  let _ ← threadWakeup c.queue all
  let _ ← interruptsSet signal

/-- `cv_signal`. -/
def cvSignal (cv lock : Addr) : Monitored Unit := cvWakeup 0 cv lock

/-- `cv_broadcast`. -/
def cvBroadcast (cv lock : Addr) : Monitored Unit := cvWakeup 1 cv lock

/-! ## Steps -/

/-- `UserThreads.unwind`. -/
def unwind : Stack → Ret → Monitored Unit
  | [], _ => Logged.leave Machine.undef
  | .user f :: _, r => Logged.modify (userReturn f r)
  | .interruptHandler what :: _, _ => Logged.modify (handlerReturn what)
  | .threadStub _ _ :: _, _ => Logged.leave Machine.undef
  | .threadYield _ _ _ :: _, _ => Logged.leave Machine.undef
  | .adminKill :: k, _ => do
    adminModeAfterKill k
    Logged.leave Machine.undef
  | .adminYield :: _, r => do
    adminModeAfterYield r.value
    Logged.leave Machine.undef
  | .threadExitDeath c :: k, _ => do
    threadExitAfterDeath c k
    Logged.leave Machine.undef
  | .threadExitYield c :: _, _ => threadExitSetcontext c
  | .handleDeath s :: k, _ => do
    handleDeathAfterYield s
    unwind k ⟨0, none⟩
  | .threadKill t s :: k, _ => do
    let v ← threadKillAfterDeath t s
    unwind k ⟨v, none⟩
  | .threadSleep q e :: k, r => do
    let v ← threadSleepAfterYield q e r.value
    unwind k ⟨v, none⟩
  | .threadWait t c s :: k, _ => do
    let r ← threadWaitAfterYield t c s
    unwind k r
  | .lockAcquire l s :: k, _ => do
    lockAcquireLoop l s k
    unwind k ⟨0, none⟩
  | .cvWaitSleep l s :: k, _ => do
    cvWaitAfterSleep l s k
    unwind k ⟨0, none⟩
  | .cvWaitAcquire s :: k, _ => do
    cvWaitAfterAcquire s
    unwind k ⟨0, none⟩

/-- `UserThreads.exec`. -/
def exec : Monitored Unit := do
  let m ← Logged.get
  match m.control with
  | .resumed (.threadStub fn parg :: _) =>
    Logged.modify fun m => m.setUcontext m.currentThread .spent
    let _ ← interruptsSet true
    record fun m => .started m.currentThread fn parg
    Logged.modify (·.setControl .user)
  | .resumed (.threadYield s a sw :: k) =>
    let v ← threadYieldAfterGetcontext s a sw k
    unwind k ⟨v, none⟩
  | .lockLoop l s k =>
    lockAcquireLoop l s k
    unwind k ⟨0, none⟩
  | .alloc p => Logged.modify (allocate p)
  | _ => Logged.leave Machine.undef

/-- The function `f`, called by user code with the stack `k`, and the return of its value. -/
def run (f : Fn) (k : Stack) : Monitored Unit :=
  let back (r : Ret) : Monitored Unit := Logged.modify (userReturn f r)
  match f with
  | .threadCreate fn parg => do
    let v ← threadCreate fn parg
    back ⟨v, none⟩
  | .threadYield tid => do
    let v ← threadYield tid k
    back ⟨v, none⟩
  | .threadExit c => do
    threadExit c k
    Logged.leave Machine.undef
  | .threadReturn => do
    threadExit 0 k
    Logged.leave Machine.undef
  | .threadKill tid => do
    let v ← threadKill tid k
    back ⟨v, none⟩
  | .waitQueueCreate => Logged.modify waitQueueCreate
  | .waitQueueDestroy wq => Logged.modify (waitQueueDestroy wq)
  | .threadSleep q => do
    let v ← threadSleep q k
    back ⟨v, none⟩
  | .threadWakeup q all => do
    let v ← threadWakeup q all
    back ⟨v, none⟩
  | .threadWait tid c => do
    let r ← threadWait tid c k
    back r
  | .lockCreate => Logged.modify lockCreate
  | .lockDestroy l => Logged.modify (lockDestroy l)
  | .lockAcquire l => do
    lockAcquire l k
    back ⟨0, none⟩
  | .lockRelease l => do
    lockRelease l
    back ⟨0, none⟩
  | .cvCreate => Logged.modify cvCreate
  | .cvDestroy c => Logged.modify (cvDestroy c)
  | .cvWait c l => do
    cvWait c l k
    back ⟨0, none⟩
  | .cvSignal c l => do
    cvSignal c l
    back ⟨0, none⟩
  | .cvBroadcast c l => do
    cvBroadcast c l
    back ⟨0, none⟩
  | .interruptsSet b => do
    let old ← interruptsSet b
    back ⟨if old then 1 else 0, none⟩

/-- `UserThreads.call`. -/
def call (f : Fn) : Monitored Unit := do
  record fun m => .called m.currentThread f
  run f [.user f]

/-- `interrupt_handler`. -/
def interruptHandler (what : Interrupted) : Monitored Unit := do
  let _ ← interruptsSet false
  let _ ← threadYield THREAD_ANY [.interruptHandler what]
  Logged.modify (handlerReturn what)

/-- What a step executes. -/
def perform : Action → Monitored Unit
  | .exec => exec
  | .call f => call f
  | .tick => do
    let m ← Logged.get
    match m.control with
    | .user => interruptHandler .user
    | .alloc p => interruptHandler (.alloc p)
    | _ => Logged.leave Machine.undef

/-! ## Erasing the log -/

section Erase

variable (m : Machine)

/-- A noted access does nothing else. -/
@[simp] lemma erase_access (target : Target) : (access target).erase m = .ret () m := rfl

/-- A noted write is the write. -/
@[simp] lemma erase_write (target : Target) (f : Machine → Machine) :
    (write target f).erase m = .ret () (f m) := rfl

/-- `interrupts_set` notes nothing: the mask belongs to the thread. -/
@[simp] lemma erase_interruptsSet (enable : Bool) :
    (interruptsSet enable).erase m = .ret m.interrupts (m.interruptsSet enable) := rfl

/-- An event is recorded. -/
@[simp] lemma erase_record (e : Machine → Event) :
    (record e).erase m = .ret () (m.emit (e m)) := rfl

/-- `current_thread` is read. -/
@[simp] lemma erase_currentThread : currentThread.erase m = .ret m.currentThread m := rfl

/-- `setcontext` is that of the library. -/
@[simp] lemma erase_setcontext (u : Machine → Ucontext) :
    (setcontext u : Monitored α).erase m = .jump (m.setcontext (u m)) := rfl

/-- An assertion is that of the library. -/
@[simp] lemma erase_assert (p : Machine → Prop) [DecidablePred p] :
    (assert p).erase m = if p m then .ret () m else .jump m.abort := by
  simp [assert]

/-- `thread_create` is that of the library. -/
@[simp] lemma erase_threadCreate (fn parg : ℕ) :
    (threadCreate fn parg).erase m = UserThreads.threadCreate fn parg m := by
  unfold threadCreate UserThreads.threadCreate
  cases hs : m.interrupts
  · simp [hs]
  · cases hnum : threadNumToCreate (m.interruptsSet false) <;> simp [hs, hnum]

/-- The loop of `get_thread_any` is that of the library. -/
@[simp] lemma erase_getThreadAnyLoop (current : Tid) (n : ℕ) :
    (getThreadAnyLoop current n).erase m =
      .ret (UserThreads.getThreadAnyLoop m.threads current n m.threadQueue).1
        (m.setThreadQueue (UserThreads.getThreadAnyLoop m.threads current n m.threadQueue).2) := by
  induction n generalizing m with
  | zero => rfl
  | succ n ih =>
    rw [getThreadAnyLoop, UserThreads.getThreadAnyLoop]
    simp only [Logged.erase_bind, Logged.erase_get, erase_write, Outcome.bind_ret, Logged.erase_ite,
      Logged.erase_pure, ih]
    split_ifs <;> rfl

/-- `get_thread_any` is that of the library. -/
@[simp] lemma erase_getThreadAny (current : Tid) :
    (getThreadAny current).erase m = .ret (UserThreads.getThreadAny current m).1
      (m.setThreadQueue (UserThreads.getThreadAny current m).2) := by
  simp [getThreadAny, UserThreads.getThreadAny]

/-- The switch of `thread_yield` is that of the library. -/
@[simp] lemma erase_threadYieldSwitch (s : Bool) (a : Tid) (k : Stack) :
    (threadYieldSwitch s a k : Monitored α).erase m =
      .jump (UserThreads.threadYieldSwitch s a k m) :=
  rfl

/-- The yield to one thread is that of the library. -/
@[simp] lemma erase_threadYieldTo (s : Bool) (a : Tid) (k : Stack) :
    (threadYieldTo s a k).erase m = UserThreads.threadYieldTo s a k m := by
  simp [threadYieldTo, UserThreads.threadYieldTo]

/-- `thread_yield` is that of the library. -/
@[simp] lemma erase_threadYield (t : Tid) (k : Stack) :
    (threadYield t k).erase m = UserThreads.threadYield t k m := by
  simp [threadYield, UserThreads.threadYield]

/-- The end of `handle_death` is that of the library. -/
@[simp] lemma erase_handleDeathAfterYield (s : Bool) :
    (handleDeathAfterYield s).erase m = .ret () (UserThreads.handleDeathAfterYield s m) :=
  rfl

/-- `handle_death` is that of the library. -/
@[simp] lemma erase_handleDeath (t : Tid) (k : Stack) :
    (handleDeath t k).erase m = UserThreads.handleDeath t k m := by
  simp [handleDeath, UserThreads.handleDeath]

/-- The end of `thread_kill` is that of the library. -/
@[simp] lemma erase_threadKillAfterDeath (t : Tid) (s : Bool) :
    (threadKillAfterDeath t s).erase m = UserThreads.threadKillAfterDeath t s m :=
  rfl

/-- `free369` is that of the library. -/
@[simp] lemma erase_free369 (p : Machine → Addr) : (free369 p).erase m = m.free369 (p m) := by
  rw [Machine.free369]
  cases h : m.heap.free369 (p m) <;> simp [free369, h]

/-- `thread_kill` is that of the library. -/
@[simp] lemma erase_threadKill (t : Tid) (k : Stack) :
    (threadKill t k).erase m = UserThreads.threadKill t k m := by
  simp [threadKill, UserThreads.threadKill, freeStack]

/-- The end of `admin_mode` is that of the library. -/
@[simp] lemma erase_adminModeAfterYield (r : Tid) :
    (adminModeAfterYield r).erase m = UserThreads.adminModeAfterYield r m := by
  simp [adminModeAfterYield, UserThreads.adminModeAfterYield]

/-- `admin_mode` behind its `thread_kill` is that of the library. -/
@[simp] lemma erase_adminModeAfterKill (k : Stack) :
    (adminModeAfterKill k).erase m = UserThreads.adminModeAfterKill k m := by
  rw [adminModeAfterKill, UserThreads.adminModeAfterKill]
  cases hi : m.interrupts <;> simp [hi]

/-- `admin_mode` is that of the library. -/
@[simp] lemma erase_adminMode (k : Stack) :
    (adminMode k).erase m = UserThreads.adminMode k m := by
  rw [adminMode, UserThreads.adminMode]
  cases hi : m.interrupts <;> simp [hi]

/-- `thread_yield` behind its `getcontext` is that of the library. -/
@[simp] lemma erase_threadYieldAfterGetcontext (s : Bool) (a : Tid) (sw : Bool) (k : Stack) :
    (threadYieldAfterGetcontext s a sw k).erase m =
      UserThreads.threadYieldAfterGetcontext s a sw k m := by
  rw [threadYieldAfterGetcontext, UserThreads.threadYieldAfterGetcontext]
  cases hi : m.interrupts <;> simp [hi]

/-- The `setcontext` of `thread_exit` is that of the library. -/
@[simp] lemma erase_threadExitSetcontext (c : ℤ) :
    (threadExitSetcontext c : Monitored α).erase m =
      .jump (UserThreads.threadExitSetcontext c m) :=
  rfl

/-- `thread_exit` behind its `handle_death` is that of the library. -/
@[simp] lemma erase_threadExitAfterDeath (c : ℤ) (k : Stack) :
    (threadExitAfterDeath c k).erase m = UserThreads.threadExitAfterDeath c k m := by
  simp [threadExitAfterDeath, UserThreads.threadExitAfterDeath]

/-- `thread_exit` is that of the library. -/
@[simp] lemma erase_threadExit (c : ℤ) (k : Stack) :
    (threadExit c k).erase m = UserThreads.threadExit c k m := by
  rw [threadExit, UserThreads.threadExit]
  cases hi : m.interrupts <;> simp [hi]

/-- The end of `thread_sleep` is that of the library. -/
@[simp] lemma erase_threadSleepAfterYield (q : Addr) (e : Bool) (r : Tid) :
    (threadSleepAfterYield q e r).erase m = UserThreads.threadSleepAfterYield q e r m := by
  rw [threadSleepAfterYield, UserThreads.threadSleepAfterYield]
  cases hq : m.waitQueues q <;> simp [waitQueue, hq]

/-- `thread_sleep` is that of the library. -/
@[simp] lemma erase_threadSleep (q : Addr) (k : Stack) :
    (threadSleep q k).erase m = UserThreads.threadSleep q k m := by
  rw [threadSleep, UserThreads.threadSleep]
  cases hq : m.waitQueues q <;> simp [waitQueue, hq]

/-- The loop of `thread_wakeup` is that of the library. -/
@[simp] lemma erase_threadWakeupLoop (q : Addr) (all : ℤ) (n : ℕ) (wq : WaitQueue) (num : ℤ) :
    (threadWakeupLoop q all n wq num).erase m =
      UserThreads.threadWakeupLoop q all n wq num m := by
  induction n generalizing m wq num with
  | zero => rfl
  | succ n ih =>
    rw [threadWakeupLoop, UserThreads.threadWakeupLoop]
    simp [ih]

/-- `thread_wakeup` is that of the library. -/
@[simp] lemma erase_threadWakeup (q : Addr) (all : ℤ) :
    (threadWakeup q all).erase m = UserThreads.threadWakeup q all m := by
  rw [threadWakeup, UserThreads.threadWakeup]
  cases hq : m.waitQueues q <;> simp [waitQueue, hq]

/-- The last lines of `thread_wait` are those of the library. -/
@[simp] lemma erase_threadWaitFinish (t : Tid) (c s : Bool) :
    (threadWaitFinish t c s).erase m = UserThreads.threadWaitFinish t c s m :=
  rfl

/-- `thread_wait` behind its `thread_yield` is that of the library. -/
@[simp] lemma erase_threadWaitAfterYield (t : Tid) (c s : Bool) :
    (threadWaitAfterYield t c s).erase m = UserThreads.threadWaitAfterYield t c s m := by
  rw [threadWaitAfterYield, UserThreads.threadWaitAfterYield]
  cases hi : m.interrupts <;> simp [hi]

/-- `thread_wait` is that of the library. -/
@[simp] lemma erase_threadWait (t : Tid) (c : Bool) (k : Stack) :
    (threadWait t c k).erase m = UserThreads.threadWait t c k m := by
  rw [threadWait, UserThreads.threadWait]
  cases hi : m.interrupts <;> simp [hi]

/-- The loop of `lock_acquire` is that of the library. -/
@[simp] lemma erase_lockAcquireLoop (l : Addr) (s : Bool) (k : Stack) :
    (lockAcquireLoop l s k).erase m = UserThreads.lockAcquireLoop l s k m := by
  rw [lockAcquireLoop, UserThreads.lockAcquireLoop]
  cases hl : m.locks l <;> simp [lockAt, hl]

/-- `lock_acquire` is that of the library. -/
@[simp] lemma erase_lockAcquire (l : Addr) (k : Stack) :
    (lockAcquire l k).erase m = UserThreads.lockAcquire l k m := by
  simp [lockAcquire, UserThreads.lockAcquire]

/-- `lock_release` is that of the library. -/
@[simp] lemma erase_lockRelease (l : Addr) :
    (lockRelease l).erase m = UserThreads.lockRelease l m := by
  rw [lockRelease, UserThreads.lockRelease]
  cases hl : m.locks l <;> simp [lockAt, hl]

/-- The end of `cv_wait` is that of the library. -/
@[simp] lemma erase_cvWaitAfterAcquire (s : Bool) :
    (cvWaitAfterAcquire s).erase m = .ret () (UserThreads.cvWaitAfterAcquire s m) :=
  rfl

/-- `cv_wait` behind its `thread_sleep` is that of the library. -/
@[simp] lemma erase_cvWaitAfterSleep (l : Addr) (s : Bool) (k : Stack) :
    (cvWaitAfterSleep l s k).erase m = UserThreads.cvWaitAfterSleep l s k m := by
  rw [cvWaitAfterSleep, UserThreads.cvWaitAfterSleep]
  cases hi : m.interrupts <;> simp [hi]

/-- A condition variable is read, if it is there. It is stated for what follows, as the state in
which `cv_wait` reads it is the one behind `lock_release`. -/
@[simp] lemma bind_cvAt (c : Addr) (f : Cv → Machine → Outcome Machine α) :
    ((cvAt c).erase m).bind f =
      match m.cvs c with
      | none => .jump m.undef
      | some cv => f cv m := by
  cases hc : m.cvs c <;> simp [cvAt, hc]

/-- `cv_wait` is that of the library. -/
@[simp] lemma erase_cvWait (c l : Addr) (k : Stack) :
    (cvWait c l k).erase m = UserThreads.cvWait c l k m := by
  rw [cvWait, UserThreads.cvWait]
  cases hl : m.locks l with
  | none => simp [lockAt, hl]
  | some lock =>
    -- both sides are brought into a normal form, and these are the same by definition
    apply Eq.trans
    · simp [lockAt, hl]
      rfl
    · apply Eq.symm
      apply Eq.trans
      · simp [hl]
        rfl
      · rfl

/-- `cv_signal` and `cv_broadcast` are those of the library. -/
@[simp] lemma erase_cvWakeup (all : ℤ) (c l : Addr) :
    (cvWakeup all c l).erase m = UserThreads.cvWakeup all c l m := by
  rw [cvWakeup, UserThreads.cvWakeup]
  cases hl : m.locks l <;> cases hc : m.cvs c <;> simp [lockAt, hl, hc]

/-- Sequencing goes on with the state at the end of a return. -/
lemma state_bind {β : Type} (o : Outcome Machine α) (f : α → Machine → Outcome Machine β) :
    (o.bind f).state = andThen o fun a m => (f a m).state := by
  cases o <;> rfl

/-- The return through the calls in progress is that of the library. -/
@[simp] lemma state_erase_unwind (k : Stack) (r : Ret) :
    ((unwind k r).erase m).state = UserThreads.unwind k r m := by
  fun_induction unwind k r generalizing m <;> simp [UserThreads.unwind, state_bind, *]

/-- A step of the library is one of `UserThreads.exec`. -/
lemma state_erase_exec : (exec.erase m).state = UserThreads.exec m := by
  rw [UserThreads.exec]
  simp only [exec, Logged.erase_bind, Logged.erase_get, Outcome.bind_ret]
  split <;> simp [state_bind, *]

/-- A call by user code is that of `UserThreads.call`. -/
lemma state_erase_call (f : Fn) : ((call f).erase m).state = UserThreads.call f m := by
  cases f <;> simp [call, run, UserThreads.call, state_bind, cvSignal, UserThreads.cvSignal,
    cvBroadcast, UserThreads.cvBroadcast, UserThreads.andThen]

/-- `interrupt_handler` is that of the library. -/
lemma state_erase_interruptHandler (what : Interrupted) :
    ((interruptHandler what).erase m).state = UserThreads.interruptHandler what m := by
  simp [interruptHandler, UserThreads.interruptHandler, state_bind]

/-- **Erasing the log of a step leaves the step.** -/
theorem state_erase_perform {m' : Machine} {a : Action} (hs : step m a = some m') :
    ((perform a).erase m).state = m' := by
  cases a with
  | exec =>
    rw [perform, state_erase_exec]
    rw [step] at hs
    split at hs <;> simp_all
  | call f =>
    rw [perform, state_erase_call]
    rw [step] at hs
    split_ifs at hs
    simpa using hs
  | tick =>
    simp only [perform, Logged.erase_bind, Logged.erase_get, Outcome.bind_ret]
    rw [step] at hs
    split_ifs at hs
    split at hs <;> simp_all [state_erase_interruptHandler]

end Erase

end Monitored

/-- The log of a step. -/
def accesses (m : Machine) (a : Action) : List SharedAccess := (Monitored.perform a).log m

end UserThreads
