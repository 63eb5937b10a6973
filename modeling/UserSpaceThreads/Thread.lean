import Mathlib.Tactic.Simps.Basic
import UserSpaceThreads.Lib.Outcome
import UserSpaceThreads.Machine

set_option relaxedAutoImplicit false
set_option autoImplicit false

/-!
# The functions of `thread.c`

Every function as the code computes it on the machine, under its own name. A function that can
give up the processor takes the stack `k` of its callers and answers an `Outcome`: it returns,
or control has left. When it leaves inside `thread_yield`, the calls in progress are saved as
frames; the part of a function behind such a call is a definition of its own, named after the
call (`threadSleepAfterYield` is `thread_sleep` behind its `thread_yield`), and
`UserThreads.unwind` runs these parts when the context is loaded again.

Interrupts are off in all of these functions from their `interrupts_set(false)` on. What comes
before it and behind the final `interrupts_set` touches nothing that threads share, so a timer
signal there is one in user code. The exceptions are the create and destroy functions of wait
queues, locks and condition variables, which never mask the signal: they run up to their next
call of the allocator and stop there (`Control.alloc`).

## Main definitions

* `UserThreads.threadInit` — the state that `thread_init` leaves.
* `UserThreads.threadYield`, …, `UserThreads.cvBroadcast` — the functions.
-/

namespace UserThreads

namespace Machine

/-! ## Updates of the state -/

/-- Append to the history. -/
@[simps] def emit (m : Machine) (e : Event) : Machine := { m with trace := e :: m.trace }

/-- `interrupts_set(enable)`; the previous state of the mask is read before. -/
@[simps] def interruptsSet (m : Machine) (enable : Bool) : Machine :=
  { m with interrupts := enable }

/-- Write the entry `t` of `threads`. -/
@[simps] def setThread (m : Machine) (t : Tid) (th : Thread) : Machine :=
  { m with threads := Function.update m.threads t th }

/-- `threads[t].state = s`. -/
@[simps!] def setState (m : Machine) (t : Tid) (s : State) : Machine :=
  m.setThread t { m.threads t with state := s }

/-- `threads[t].waiter = w`. -/
@[simps!] def setWaiter (m : Machine) (t w : Tid) : Machine :=
  m.setThread t { m.threads t with waiter := w }

/-- `threads[t].exit_code = c`. -/
@[simps!] def setExitCode (m : Machine) (t : Tid) (c : ℤ) : Machine :=
  m.setThread t { m.threads t with exitCode := c }

/-- `threads[t].ucontext = u`. -/
@[simps!] def setUcontext (m : Machine) (t : Tid) (u : Ucontext) : Machine :=
  m.setThread t { m.threads t with ucontext := u }

/-- Write the wait queue at `q`; `none` stands for a destroyed one. -/
@[simps] def setWaitQueue (m : Machine) (q : Addr) (wq : Option WaitQueue) : Machine :=
  { m with waitQueues := Function.update m.waitQueues q wq }

/-- Write the lock at `l`; `none` stands for a destroyed one. -/
@[simps] def setLock (m : Machine) (l : Addr) (lock : Option Lock) : Machine :=
  { m with locks := Function.update m.locks l lock }

/-- Write the condition variable at `c`; `none` stands for a destroyed one. -/
@[simps] def setCv (m : Machine) (c : Addr) (cv : Option Cv) : Machine :=
  { m with cvs := Function.update m.cvs c cv }

/-- `thread_queue = queue`. -/
@[simps] def setThreadQueue (m : Machine) (queue : Queue) : Machine :=
  { m with threadQueue := queue }

/-- `current_thread = t`. -/
@[simps] def setCurrentThread (m : Machine) (t : Tid) : Machine := { m with currentThread := t }

/-- `administrative_mode = b`. -/
@[simps] def setAdministrativeMode (m : Machine) (b : Bool) : Machine :=
  { m with administrativeMode := b }

/-- `thread_to_destroy = t`. -/
@[simps] def setThreadToDestroy (m : Machine) (t : Tid) : Machine := { m with threadToDestroy := t }

/-- The processor goes on at `c`. -/
@[simps] def setControl (m : Machine) (c : Control) : Machine := { m with control := c }

/-- `queue_push(&thread_queue, t)`, whose result every caller ignores. -/
@[simps] def pushReady (m : Machine) (t : Tid) : Machine :=
  { m with
    threadQueue := m.threadQueue.push t
    trace :=
      if m.threadQueue.pushOk t then m.trace
      else .refused t (decide (t ∈ m.threadQueue.entries)) :: m.trace }

/-- A failed assertion. -/
@[simps!] def abort (m : Machine) : Machine := m.setControl .aborted

/-- `exit(status)`. -/
@[simps!] def exit (m : Machine) (status : ℤ) : Machine := m.setControl (.exited status)

/-- Undefined behaviour. -/
@[simps!] def undef (m : Machine) : Machine := m.setControl .undefined

/-- `malloc369(size)`: the block. -/
def malloc369 (m : Machine) : Addr := m.brk

/-- `malloc369(size)`: the state after it. -/
@[simps] def afterMalloc369 (m : Machine) (size : BitVec 64) : Machine :=
  { m with heap := m.heap.malloc369 size m.brk, brk := m.brk + 1 }

/-- `free369(p)` when it returns and leaves the allocator in the state `heap`. -/
@[simps] def afterFree369 (m : Machine) (p : Addr) (heap : Heap) : Machine :=
  { m with heap := heap, trace := .freed p m.rsp (decide (m.heap.Live p)) :: m.trace }

/-- `free369(p)`. -/
def free369 (m : Machine) (p : Addr) : Outcome Machine Unit :=
  match m.heap.free369 p with
  | none => .jump m.abort
  | some heap => .ret () (m.afterFree369 p heap)

/-- Load the saved processor state `c`. -/
@[simps] def load (m : Machine) (c : Context) : Machine :=
  { m with rsp := c.rsp, interrupts := c.enabled, control := .resumed c.stack }

/-- `setcontext(u)`. -/
def setcontext (m : Machine) (u : Ucontext) : Machine :=
  match u with
  | .saved c => m.load c
  | .uninit => m.undef
  | .spent => m.undef

end Machine

/-! ## Initialisation -/

/-- A slot of `threads` that holds no thread. -/
def uncreatedThread : Thread :=
  { ucontext := .uninit, stackStart := NULL, state := .Destroyed, waiter := -1,
    exitCode := -SIGKILL }

/-- `thread_init`, after `init_csc369_malloc`. The local `main_thread` is not initialised, so
`threads[0].exit_code` starts with the value `garbage` that happens to be there. -/
def threadInit (garbage : ℤ) : Machine where
  threads t :=
    if t = 0 then { uncreatedThread with state := .Running, exitCode := garbage }
    else uncreatedThread
  threadQueue := Queue.empty
  currentThread := 0
  threadToDestroy := -1
  administrativeMode := false
  waitQueues _ := none
  locks _ := none
  cvs _ := none
  heap := initCsc369Malloc
  brk := 1
  interrupts := true
  rsp := NULL
  control := .user
  trace := []

/-- `is_valid_thread`. -/
def isValidThread (tid : Tid) : Prop := tid ≥ 0 ∧ tid < THREAD_MAX_THREADS

instance (tid : Tid) : Decidable (isValidThread tid) := inferInstanceAs (Decidable (_ ∧ _))

/-! ## `thread_create` -/

/-- The loop of `thread_create`: the first dead slot from `i` on, among the next `n`. -/
def firstDestroyed (threads : Tid → Thread) : ℕ → Tid → Option Tid
  | 0, _ => none
  | n + 1, i => if (threads i).state = .Destroyed then some i else firstDestroyed threads n (i + 1)

/-- The slot that `thread_create` finds: the first dead one above `0`. -/
def threadNumToCreate (m : Machine) : Option Tid :=
  firstDestroyed m.threads (THREAD_MAX_THREADS - 1).toNat 1

/-- `thread_create`. -/
def threadCreate (fn parg : ℕ) (m : Machine) : Outcome Machine Tid :=
  let signalState := m.interrupts
  let m := m.interruptsSet false
  if ¬ signalState then .jump m.abort
  else
    match threadNumToCreate m with
    | none => .ret THREAD_NOMORE (m.interruptsSet signalState)
    | some num =>
      let stackPointer := m.malloc369
      let m := m.afterMalloc369 THREAD_MIN_STACK
      let newThread : Thread :=
        { ucontext := .saved ⟨stackPointer, m.interrupts, [.threadStub fn parg]⟩
          stackStart := stackPointer
          state := .Running
          waiter := -1
          exitCode := -SIGKILL }
      let m := ((m.setThread num newThread).emit (.created num fn parg)).pushReady num
      .ret num (m.interruptsSet signalState)

/-! ## `thread_yield` -/

/-- `get_thread_any` after at most `n` rounds of its loop: the result and the queue after it. -/
def getThreadAnyLoop (threads : Tid → Thread) (current : Tid) : ℕ → Queue → Tid × Queue
  | 0, queue => (THREAD_NONE, queue)
  | n + 1, queue =>
    let result := queue.pop.1
    let queue := queue.pop.2
    if result = ERR_EMPTY then (THREAD_NONE, queue)
    else if (threads result).state = .Running ∧ result ≠ current then (result, queue)
    else getThreadAnyLoop threads current n queue

/-- `get_thread_any`. Every round but the last removes an entry, so one round more than there
are entries is enough. -/
def getThreadAny (current : Tid) (m : Machine) : Tid × Queue :=
  getThreadAnyLoop m.threads current (m.threadQueue.size + 1) m.threadQueue

/-- The switch of `thread_yield`, from `switched = true` on: save the context taken by
`getcontext`, with the frame of `thread_yield` on top, and load the one of `actualTid`. -/
def threadYieldSwitch (signalState : Bool) (actualTid : Tid) (k : Stack) (m : Machine) :
    Machine :=
  let context : Context := ⟨m.rsp, m.interrupts, .threadYield signalState actualTid true :: k⟩
  let m := m.setUcontext m.currentThread (.saved context)
  let m := m.pushReady m.currentThread
  let m := m.setCurrentThread actualTid
  (m.emit (.switched actualTid)).setcontext (m.threads actualTid).ucontext

/-- `thread_yield` once `actual_tid` is chosen. -/
def threadYieldTo (signalState : Bool) (actualTid : Tid) (k : Stack) (m : Machine) :
    Outcome Machine Tid :=
  if actualTid ≥ THREAD_MAX_THREADS ∨ actualTid < 0 then
    .ret THREAD_INVALID (m.interruptsSet signalState)
  else if (m.threads actualTid).state = .Destroyed then
    .ret THREAD_INVALID (m.interruptsSet signalState)
  else .jump (threadYieldSwitch signalState actualTid k m)

/-- `thread_yield`, called by `k`. -/
def threadYield (wantTid : Tid) (k : Stack) (m : Machine) : Outcome Machine Tid :=
  let signalState := m.interrupts
  let m := m.interruptsSet false
  if wantTid = THREAD_SELF ∨ wantTid = m.currentThread then
    .ret m.currentThread (m.interruptsSet signalState)
  else if wantTid = THREAD_ANY then
    let result := (getThreadAny m.currentThread m).1
    let m := m.setThreadQueue (getThreadAny m.currentThread m).2
    if result = THREAD_NONE then .ret THREAD_NONE (m.interruptsSet signalState)
    else threadYieldTo signalState result k m
  else threadYieldTo signalState wantTid k m

/-! ## The end of a thread -/

/-- `handle_death` behind its `thread_yield`. -/
def handleDeathAfterYield (signalState : Bool) (m : Machine) : Machine :=
  m.interruptsSet signalState

/-- `handle_death`, called by `k`. -/
def handleDeath (threadToDie : Tid) (k : Stack) (m : Machine) : Outcome Machine Unit :=
  let signalState := m.interrupts
  let m := m.interruptsSet false
  let m := m.setState threadToDie .Destroyed
  let waiter := (m.threads threadToDie).waiter
  if waiter ≠ -1 then
    if (m.threads waiter).state = .Running then .jump m.abort
    else if (m.threads waiter).state = .Sleep then
      let m := (m.setState waiter .Running).emit (.released threadToDie waiter)
      (threadYield waiter (.handleDeath signalState :: k) m).bind fun _ m =>
        .ret () (handleDeathAfterYield signalState m)
    else .ret () (m.interruptsSet signalState)
  else .ret () (m.interruptsSet signalState)

/-- `thread_kill` behind its `handle_death`. -/
def threadKillAfterDeath (tid : Tid) (signalState : Bool) (m : Machine) :
    Outcome Machine Tid :=
  .ret tid (m.interruptsSet signalState)

/-- `thread_kill`, called by `k`. -/
def threadKill (tid : Tid) (k : Stack) (m : Machine) : Outcome Machine Tid :=
  let signalState := m.interrupts
  let m := m.interruptsSet false
  if tid = m.currentThread ∧ ¬ m.administrativeMode then
    .ret THREAD_INVALID (m.interruptsSet signalState)
  else if tid < 0 ∨ tid ≥ THREAD_MAX_THREADS then
    .ret THREAD_INVALID (m.interruptsSet signalState)
  else if (m.threads tid).state = .Destroyed then
    .ret THREAD_INVALID (m.interruptsSet signalState)
  else
    (if tid ≠ 0 then m.free369 (m.threads tid).stackStart else .ret () m).bind fun _ m =>
      let m := if m.administrativeMode then m else m.emit (.killed tid)
      let m := m.setAdministrativeMode false
      (handleDeath tid (.threadKill tid signalState :: k) m).bind fun _ m =>
        threadKillAfterDeath tid signalState m

/-- `admin_mode` behind its `thread_yield`. The `printf` is left out. -/
def adminModeAfterYield (result : Tid) (m : Machine) : Outcome Machine Unit :=
  if THREAD_NONE = result then .jump (m.exit 0) else .jump m.abort

/-- `admin_mode` behind its `thread_kill`. -/
def adminModeAfterKill (k : Stack) (m : Machine) : Outcome Machine Unit :=
  let m := (m.setAdministrativeMode false).setThreadToDestroy (-1)
  if m.interrupts then .jump m.abort
  else if ¬ (m.currentThread ≠ 0) then .jump m.abort
  else if ¬ ((m.threads m.currentThread).state = .Destroyed) then .jump m.abort
  else (threadYield THREAD_ANY (.adminYield :: k) m).bind adminModeAfterYield

/-- `admin_mode`, called by `k`. -/
def adminMode (k : Stack) (m : Machine) : Outcome Machine Unit :=
  if m.interrupts then .jump m.abort
  else (threadKill m.currentThread (.adminKill :: k) m).bind fun _ m => adminModeAfterKill k m

/-- `thread_yield` behind its `getcontext`, when the context saved there has been loaded. -/
def threadYieldAfterGetcontext (signalState : Bool) (actualTid : Tid) (switched : Bool)
    (k : Stack) (m : Machine) : Outcome Machine Tid :=
  if switched then
    if m.interrupts then .jump m.abort
    else if m.administrativeMode then
      if ¬ (m.currentThread = m.threadToDestroy) then .jump m.abort
      else
        (adminMode (.threadYield signalState actualTid switched :: k) m).bind fun _ m =>
          .jump (threadYieldSwitch signalState actualTid k m)
    else
      .ret actualTid ((m.setUcontext m.currentThread .spent).interruptsSet signalState)
  else .jump (threadYieldSwitch signalState actualTid k m)

/-- `thread_exit` from `thread_to_destroy = current_thread` on. -/
def threadExitSetcontext (exitCode : ℤ) (m : Machine) : Machine :=
  let m := (m.setThreadToDestroy m.currentThread).setAdministrativeMode true
  let m := m.setExitCode m.currentThread exitCode
  m.setcontext (m.threads 0).ucontext

/-- `thread_exit` in thread 0, behind its `handle_death`. -/
def threadExitAfterDeath (exitCode : ℤ) (k : Stack) (m : Machine) : Outcome Machine Unit :=
  (threadYield THREAD_ANY (.threadExitYield exitCode :: k) m).bind fun _ m =>
    .jump (threadExitSetcontext exitCode m)

/-- `thread_exit`, called by `k`. -/
def threadExit (exitCode : ℤ) (k : Stack) (m : Machine) : Outcome Machine Unit :=
  if ¬ m.interrupts then .jump m.abort
  else
    let m := (m.interruptsSet false).emit (.exited m.currentThread exitCode)
    if m.currentThread = 0 then
      let m := m.setExitCode m.currentThread exitCode
      (handleDeath m.currentThread (.threadExitDeath exitCode :: k) m).bind fun _ m =>
        threadExitAfterDeath exitCode k m
    else .jump (threadExitSetcontext exitCode m)

/-! ## Wait queues -/

/-- `thread_sleep` behind its `thread_yield`, which has answered `threadNum`. -/
def threadSleepAfterYield (queue : Addr) (enabled : Bool) (threadNum : Tid) (m : Machine) :
    Outcome Machine Tid :=
  if threadNum = THREAD_NONE then
    let m := m.setState m.currentThread .Running
    match m.waitQueues queue with
    | none => .jump m.undef
    | some wq =>
      let m := m.setWaitQueue queue (some { wq with queue := wq.queue.popLast.2 })
      if ¬ (wq.queue.popLast.1 = m.currentThread) then .jump m.abort
      else
        .ret THREAD_NONE ((m.emit (.sleptNone m.currentThread queue)).interruptsSet enabled)
  else .ret threadNum (m.interruptsSet enabled)

/-- `thread_sleep`, called by `k`. -/
def threadSleep (queue : Addr) (k : Stack) (m : Machine) : Outcome Machine Tid :=
  let enabled := m.interrupts
  let m := m.interruptsSet false
  if queue = NULL then .ret THREAD_INVALID (m.interruptsSet enabled)
  else
    match m.waitQueues queue with
    | none => .jump m.undef
    | some wq =>
      let m := m.setState m.currentThread .Sleep
      let m := m.setWaitQueue queue (some { wq with queue := wq.queue.push m.currentThread })
      let m := m.emit (.slept m.currentThread queue)
      (threadYield THREAD_ANY (.threadSleep queue enabled :: k) m).bind
        (threadSleepAfterYield queue enabled)

/-- `n` rounds of the loop of `thread_wakeup` on the wait queue `wq` at `queue`. -/
def threadWakeupLoop (queue : Addr) (all : ℤ) : ℕ → WaitQueue → ℤ → Machine → Outcome Machine ℤ
  | 0, _, num, m => .ret num m
  | n + 1, wq, num, m =>
    let id := wq.queue.pop.1
    let wq := { wq with queue := wq.queue.pop.2 }
    let m := m.setWaitQueue queue (some wq)
    if id = ERR_EMPTY then .ret num m
    else
      let state := (m.threads id).state
      if state = .Running then .jump m.abort
      else if state = .Sleep then
        let m := ((m.setState id .Running).emit (.woken id queue)).pushReady id
        if all = 0 then .ret (num + 1) m else threadWakeupLoop queue all n wq (num + 1) m
      else threadWakeupLoop queue all n wq num m

/-- `thread_wakeup`. Every round but the last removes an entry, so one round more than there
are entries is enough. -/
def threadWakeup (queue : Addr) (all : ℤ) (m : Machine) : Outcome Machine ℤ :=
  if queue = NULL then .ret 0 m
  else
    let enabled := m.interrupts
    let m := m.interruptsSet false
    match m.waitQueues queue with
    | none => .jump m.undef
    | some wq =>
      (threadWakeupLoop queue all (wq.queue.size + 1) wq 0 m).bind fun num m =>
        .ret num (m.interruptsSet enabled)

/-! ## `thread_wait` -/

/-- `thread_wait` from `if (exit_code != NULL)` on. -/
def threadWaitFinish (tid : Tid) (exitCode : Bool) (signal : Bool) (m : Machine) :
    Outcome Machine Ret :=
  .ret ⟨tid, if exitCode then some (m.threads tid).exitCode else none⟩ (m.interruptsSet signal)

/-- `thread_wait` behind its `thread_yield`, whose result it ignores. -/
def threadWaitAfterYield (tid : Tid) (exitCode : Bool) (signal : Bool) (m : Machine) :
    Outcome Machine Ret :=
  if m.interrupts then .jump m.abort else threadWaitFinish tid exitCode signal m

/-- `thread_wait`, called by `k`. -/
def threadWait (tid : Tid) (exitCode : Bool) (k : Stack) (m : Machine) : Outcome Machine Ret :=
  let signal := m.interrupts
  let m := m.interruptsSet false
  if ¬ signal then .jump m.abort
  else if ¬ isValidThread tid then .ret ⟨THREAD_INVALID, none⟩ (m.interruptsSet signal)
  else if (m.threads tid).state = .Destroyed ∧ (m.threads tid).exitCode = -SIGKILL then
    .ret ⟨THREAD_INVALID, none⟩ (m.interruptsSet signal)
  else if tid = m.currentThread then .ret ⟨THREAD_INVALID, none⟩ (m.interruptsSet signal)
  else if (m.threads tid).state ≠ .Destroyed then
    if (m.threads tid).waiter ≠ -1 then .ret ⟨THREAD_INVALID, none⟩ (m.interruptsSet signal)
    else
      let m := m.setWaiter tid m.currentThread
      let m := m.setState m.currentThread .Sleep
      let m := m.emit (.waited m.currentThread tid)
      (threadYield THREAD_ANY (.threadWait tid exitCode signal :: k) m).bind fun _ m =>
        threadWaitAfterYield tid exitCode signal m
  else threadWaitFinish tid exitCode signal m

/-! ## Locks -/

/-- `lock_acquire`, called by `k`, from the test of its loop on. When `thread_sleep` returns
without having given up the processor, the loop test is executed again. -/
def lockAcquireLoop (lock : Addr) (signals : Bool) (k : Stack) (m : Machine) :
    Outcome Machine Unit :=
  match m.locks lock with
  | none => .jump m.undef
  | some l =>
    if l.current ≠ -1 then
      (threadSleep l.queue (.lockAcquire lock signals :: k) m).bind fun _ m =>
        .jump (m.setControl (.lockLoop lock signals k))
    else
      .ret () ((m.setLock lock (some { l with current := m.currentThread })).interruptsSet signals)

/-- `lock_acquire`, called by `k`. -/
def lockAcquire (lock : Addr) (k : Stack) (m : Machine) : Outcome Machine Unit :=
  let signals := m.interrupts
  let m := m.interruptsSet false
  if lock = NULL then .jump m.abort else lockAcquireLoop lock signals k m

/-- `lock_release`. -/
def lockRelease (lock : Addr) (m : Machine) : Outcome Machine Unit :=
  if lock = NULL then .jump m.abort
  else
    let signals := m.interrupts
    let m := m.interruptsSet false
    match m.locks lock with
    | none => .jump m.undef
    | some l =>
      if ¬ (l.current = m.currentThread) then .jump m.abort
      else
        (threadWakeup l.queue 1 (m.setLock lock (some { l with current := -1 }))).bind fun _ m =>
          .ret () (m.interruptsSet signals)

/-! ## Condition variables -/

/-- `cv_wait` behind its `lock_acquire`. -/
def cvWaitAfterAcquire (signal : Bool) (m : Machine) : Machine := m.interruptsSet signal

/-- `cv_wait`, called by `k`, behind its `thread_sleep`. -/
def cvWaitAfterSleep (lock : Addr) (signal : Bool) (k : Stack) (m : Machine) :
    Outcome Machine Unit :=
  if m.interrupts then .jump m.abort
  else
    (lockAcquire lock (.cvWaitAcquire signal :: k) m).bind fun _ m =>
      .ret () (cvWaitAfterAcquire signal m)

/-- `cv_wait`, called by `k`. -/
def cvWait (cv lock : Addr) (k : Stack) (m : Machine) : Outcome Machine Unit :=
  let signal := m.interrupts
  let m := m.interruptsSet false
  if cv = NULL then .jump m.abort
  else if lock = NULL then .jump m.abort
  else
    match m.locks lock with
    | none => .jump m.undef
    | some l =>
      if ¬ (l.current = m.currentThread) then .jump m.abort
      else
        (lockRelease lock m).bind fun _ m =>
          match m.cvs cv with
          | none => .jump m.undef
          | some c =>
            (threadSleep c.queue (.cvWaitSleep lock signal :: k) m).bind fun _ m =>
              cvWaitAfterSleep lock signal k m

/-- The common body of `cv_signal` and `cv_broadcast`, which differ in the argument `all` of
their `thread_wakeup`. -/
def cvWakeup (all : ℤ) (cv lock : Addr) (m : Machine) : Outcome Machine Unit :=
  if cv = NULL then .jump m.abort
  else if lock = NULL then .jump m.abort
  else
    let signal := m.interrupts
    let m := m.interruptsSet false
    match m.locks lock with
    | none => .jump m.undef
    | some l =>
      if ¬ (l.current = m.currentThread) then .jump m.abort
      else
        match m.cvs cv with
        | none => .jump m.undef
        | some c =>
          (threadWakeup c.queue all m).bind fun _ m => .ret () (m.interruptsSet signal)

/-- `cv_signal`. -/
def cvSignal (cv lock : Addr) (m : Machine) : Outcome Machine Unit := cvWakeup 0 cv lock m

/-- `cv_broadcast`. -/
def cvBroadcast (cv lock : Addr) (m : Machine) : Outcome Machine Unit := cvWakeup 1 cv lock m

/-! ## Creating and destroying objects -/

/-- `wait_queue_create`, up to its `malloc369`. -/
def waitQueueCreate (m : Machine) : Machine := m.setControl (.alloc .waitQueueCreate)

/-- `wait_queue_destroy`, up to its `free369`. -/
def waitQueueDestroy (wq : Addr) (m : Machine) : Machine :=
  m.setControl (.alloc (.waitQueueDestroy wq))

/-- `lock_create`, up to its `malloc369`. -/
def lockCreate (m : Machine) : Machine := m.setControl (.alloc .lockCreate)

/-- `lock_destroy`, up to its first `free369`. -/
def lockDestroy (lock : Addr) (m : Machine) : Machine :=
  if lock = NULL then m.abort
  else
    match m.locks lock with
    | none => m.undef
    | some l =>
      if ¬ (l.current = -1) then m.abort
      else m.setControl (.alloc (.lockDestroyQueue lock))

/-- `cv_create`, up to its `malloc369`. -/
def cvCreate (m : Machine) : Machine := m.setControl (.alloc .cvCreate)

/-- `cv_destroy`, up to its first `free369`. -/
def cvDestroy (cv : Addr) (m : Machine) : Machine :=
  if cv = NULL then m.abort else m.setControl (.alloc (.cvDestroyQueue cv))

end UserThreads
