import UserSpaceThreads.Queue
import UserSpaceThreads.Malloc369

set_option relaxedAutoImplicit false
set_option autoImplicit false

/-!
# The machine that `thread.c` runs on

The state of a process that uses the thread library: the globals of `thread.c`, the objects
it has handed out, the allocator, the processor (signal mask, stack pointer, what it executes)
and a history of what has happened.

A computation of the library is a stack of *frames*: the calls it is in the middle of, inner
call first, each with the locals that the rest of the call reads. A thread that is not running
has such a stack in its saved context. The only place where the processor changes stacks is
`setcontext`, and every saved context was taken inside `thread_yield`, or is the start of
`thread_stub`.

Three things are made explicit that the C code leaves to its environment. Reading an object
that has been destroyed, and loading a context that was never saved or whose `thread_yield`
has returned since, is undefined behaviour and ends the run (`Control.undefined`). Blocks of
memory have names that are never used twice. A wait queue records which object holds the
pointer to it, since `struct lock` and `struct cv` are private to `thread.c`.

## Main definitions

* `UserThreads.Thread` — the thread control block.
* `UserThreads.Frame`, `UserThreads.Stack` — a suspended computation.
* `UserThreads.Fn` — the functions that user code calls.
* `UserThreads.Event` — one entry of the history.
* `UserThreads.Machine` — the state.
-/

namespace UserThreads

/-- `Tid`. -/
abbrev Tid := ℤ

/-- `THREAD_ANY`. -/
def THREAD_ANY : Tid := -1

/-- `THREAD_SELF`. -/
def THREAD_SELF : Tid := -2

/-- `THREAD_INVALID`. -/
def THREAD_INVALID : Tid := -3

/-- `THREAD_NONE`. -/
def THREAD_NONE : Tid := -4

/-- `THREAD_NOMORE`. -/
def THREAD_NOMORE : Tid := -5

/-- `THREAD_MIN_STACK`, the size of the stack of a thread. -/
def THREAD_MIN_STACK : BitVec 64 := 32768#64

/-- `sizeof(struct wait_queue)`: three `int`s and the array. -/
def SIZEOF_WAIT_QUEUE : BitVec 64 := 122892#64

/-- `sizeof(struct lock)`. -/
def SIZEOF_LOCK : BitVec 64 := 16#64

/-- `sizeof(struct cv)`. -/
def SIZEOF_CV : BitVec 64 := 8#64

/-- `SIGKILL`. -/
def SIGKILL : ℤ := 9

/-- `state_t`. -/
inductive State
  | Destroyed
  | Running
  | Sleep
  deriving DecidableEq, Repr

/-- A thread that is neither dead nor asleep is Running. -/
lemma State.eq_running {s : State} (hd : s ≠ .Destroyed) (hs : s ≠ .Sleep) : s = .Running := by
  cases s with
  | Destroyed => exact (hd rfl).elim
  | Running => rfl
  | Sleep => exact (hs rfl).elim

/-! ## Suspended computations -/

/-- A call of the library by user code, with its arguments. `threadReturn` is the return of a
thread function to `thread_stub`, and `interruptsSet` stands for `interrupts_on`,
`interrupts_off` and `interrupts_set`. -/
inductive Fn
  | threadCreate (fn parg : ℕ)
  | threadYield (wantTid : Tid)
  | threadExit (exitCode : ℤ)
  | threadReturn
  | threadKill (tid : Tid)
  | waitQueueCreate
  | waitQueueDestroy (wq : Addr)
  | threadSleep (queue : Addr)
  | threadWakeup (queue : Addr) (all : ℤ)
  | threadWait (tid : Tid) (exitCode : Bool)
  | lockCreate
  | lockDestroy (lock : Addr)
  | lockAcquire (lock : Addr)
  | lockRelease (lock : Addr)
  | cvCreate
  | cvDestroy (cv : Addr)
  | cvWait (cv lock : Addr)
  | cvSignal (cv lock : Addr)
  | cvBroadcast (cv lock : Addr)
  | interruptsSet (enable : Bool)
  deriving DecidableEq, Repr

/-- The calls of `malloc369` and `free369` that the library makes with the signal mask of its
caller. The timer can strike while the processor is inside one of them. -/
inductive AllocPoint
  /-- `malloc369` in `wait_queue_create` -/
  | waitQueueCreate
  /-- `free369(wq)` in `wait_queue_destroy` -/
  | waitQueueDestroy (wq : Addr)
  /-- `malloc369(sizeof(struct lock))` in `lock_create` -/
  | lockCreate
  /-- `malloc369` in the `wait_queue_create` that `lock_create` calls for `lock` -/
  | lockCreateQueue (lock : Addr)
  /-- `free369(lock->queue)` in `lock_destroy` -/
  | lockDestroyQueue (lock : Addr)
  /-- `free369(lock)` in `lock_destroy` -/
  | lockDestroy (lock : Addr)
  /-- `malloc369(sizeof(struct cv))` in `cv_create` -/
  | cvCreate
  /-- `malloc369` in the `wait_queue_create` that `cv_create` calls for `cv` -/
  | cvCreateQueue (cv : Addr)
  /-- `free369(cv->queue)` in `cv_destroy` -/
  | cvDestroyQueue (cv : Addr)
  /-- `free369(cv)` in `cv_destroy` -/
  | cvDestroy (cv : Addr)
  deriving DecidableEq, Repr

/-- The function that makes the call of the allocator. -/
def AllocPoint.fn : AllocPoint → Fn
  | .waitQueueCreate => .waitQueueCreate
  | .waitQueueDestroy wq => .waitQueueDestroy wq
  | .lockCreate => .lockCreate
  | .lockCreateQueue _ => .lockCreate
  | .lockDestroyQueue l => .lockDestroy l
  | .lockDestroy l => .lockDestroy l
  | .cvCreate => .cvCreate
  | .cvCreateQueue _ => .cvCreate
  | .cvDestroyQueue c => .cvDestroy c
  | .cvDestroy c => .cvDestroy c

/-- The lock or condition variable of which, at this call, one block exists and the other one
does not. -/
def AllocPoint.block : AllocPoint → Option Addr
  | .lockCreateQueue l => some l
  | .lockDestroy l => some l
  | .cvCreateQueue c => some c
  | .cvDestroy c => some c
  | _ => none

/-- What the timer signal has interrupted. -/
inductive Interrupted
  | user
  | alloc (p : AllocPoint)
  deriving DecidableEq, Repr

/-- A call in progress, with the locals that the rest of it reads. -/
inductive Frame
  /-- `thread_stub`, about to start -/
  | threadStub (fn parg : ℕ)
  /-- `thread_yield`, at its `getcontext` -/
  | threadYield (signalState : Bool) (actualTid : Tid) (switched : Bool)
  /-- `handle_death`, at its `thread_yield` -/
  | handleDeath (signalState : Bool)
  /-- `thread_exit` in thread 0, at its `handle_death` -/
  | threadExitDeath (exitCode : ℤ)
  /-- `thread_exit` in thread 0, at its `thread_yield` -/
  | threadExitYield (exitCode : ℤ)
  /-- `thread_kill`, at its `handle_death` -/
  | threadKill (tid : Tid) (signalState : Bool)
  /-- `admin_mode`, at its `thread_kill` -/
  | adminKill
  /-- `admin_mode`, at its `thread_yield` -/
  | adminYield
  /-- `thread_sleep`, at its `thread_yield` -/
  | threadSleep (queue : Addr) (enabled : Bool)
  /-- `thread_wait`, at its `thread_yield`; `exitCode` tells whether the pointer is not null -/
  | threadWait (tid : Tid) (exitCode : Bool) (signal : Bool)
  /-- `lock_acquire`, at its `thread_sleep` -/
  | lockAcquire (lock : Addr) (signals : Bool)
  /-- `cv_wait`, at its `thread_sleep` -/
  | cvWaitSleep (lock : Addr) (signal : Bool)
  /-- `cv_wait`, at its `lock_acquire` -/
  | cvWaitAcquire (signal : Bool)
  /-- `interrupt_handler`, at its `thread_yield` -/
  | interruptHandler (what : Interrupted)
  /-- user code, inside a call of the library -/
  | user (f : Fn)
  deriving DecidableEq, Repr

/-- The calls in progress on a stack, inner call first. -/
abbrev Stack := List Frame

/-- A saved processor state: the stack that the stack pointer points into (`NULL` for the stack
of the process), whether the timer signal is unblocked, and the calls in progress. -/
structure Context where
  rsp : Addr
  enabled : Bool
  stack : Stack
  deriving DecidableEq, Repr

/-- The field `ucontext` of a thread. A saved context is *spent* once the `thread_yield` that
saved it has returned: the frame it points to is gone. -/
inductive Ucontext
  | uninit
  | saved (c : Context)
  | spent
  deriving DecidableEq, Repr

/-- `thread_t`. The field `is_main`, which nothing reads, is left out. -/
structure Thread where
  /-- `ucontext` -/
  ucontext : Ucontext
  /-- `stack_start` -/
  stackStart : Addr
  /-- `state` -/
  state : State
  /-- `waiter` -/
  waiter : Tid
  /-- `exit_code` -/
  exitCode : ℤ
  deriving DecidableEq, Repr

/-! ## Objects -/

/-- Who holds the pointer to a wait queue: user code, or a lock or a condition variable. -/
inductive Owner
  | user
  | lock (lock : Addr)
  | cv (cv : Addr)
  deriving DecidableEq, Repr

/-- `struct wait_queue`. -/
structure WaitQueue where
  /-- `queue` -/
  queue : Queue
  /-- the holder of the pointer -/
  owner : Owner

/-- `struct lock`. -/
structure Lock where
  /-- `queue` -/
  queue : Addr
  /-- `current` -/
  current : Tid
  deriving DecidableEq, Repr

/-- `struct cv`. -/
structure Cv where
  /-- `queue` -/
  queue : Addr
  deriving DecidableEq, Repr

/-! ## The history -/

/-- What a call answers: its value, and what `thread_wait` has stored through `exit_code`. -/
structure Ret where
  value : ℤ
  exitCode : Option ℤ := none
  deriving DecidableEq, Repr

/-- One entry of the history. The history is not part of the program: no function reads it. -/
inductive Event
  /-- user code of `t` calls `f` -/
  | called (t : Tid) (f : Fn)
  /-- the call `f` returns to user code of `t` -/
  | returned (t : Tid) (f : Fn) (r : Ret)
  /-- `thread_create` makes `t`, to run `fn(parg)` -/
  | created (t : Tid) (fn parg : ℕ)
  /-- `t` starts to run `fn(parg)` -/
  | started (t : Tid) (fn parg : ℕ)
  /-- `t` calls `thread_exit(code)` -/
  | exited (t : Tid) (code : ℤ)
  /-- `t` is killed by another thread -/
  | killed (t : Tid)
  /-- the death of `t` makes its waiter `w` Running -/
  | released (t w : Tid)
  /-- `t` goes to sleep on the wait queue `q` -/
  | slept (t : Tid) (q : Addr)
  /-- `thread_sleep` of `t` on `q` fails with `THREAD_NONE` -/
  | sleptNone (t : Tid) (q : Addr)
  /-- `t` starts to wait for `x` -/
  | waited (t x : Tid)
  /-- `thread_wakeup` of `q` makes `t` Running -/
  | woken (t : Tid) (q : Addr)
  /-- the processor is given to `t` -/
  | switched (t : Tid)
  /-- `queue_push` onto the full `thread_queue` is refused; `present` tells whether `t` has
  another entry there -/
  | refused (t : Tid) (present : Bool)
  /-- `t` is between the two calls of the allocator that make or destroy the lock or the
  condition variable at `p` -/
  | halfway (t : Tid) (p : Addr)
  /-- `wait_queue_create` makes the wait queue `q` -/
  | queueCreated (q : Addr)
  /-- the library calls `free369(p)` with the stack pointer in the block `rsp`; `live` tells
  whether the block at `p` is allocated -/
  | freed (p rsp : Addr) (live : Bool)
  deriving DecidableEq, Repr

/-! ## The machine -/

/-- What the processor executes. -/
inductive Control
  /-- user code of the current thread -/
  | user
  /-- a call of the allocator made with the caller's signal mask -/
  | alloc (p : AllocPoint)
  /-- the loop test of `lock_acquire`, called by `k` -/
  | lockLoop (lock : Addr) (signals : Bool) (k : Stack)
  /-- the context that `setcontext` has just loaded -/
  | resumed (k : Stack)
  /-- an assertion has failed -/
  | aborted
  /-- the process has called `exit` -/
  | exited (status : ℤ)
  /-- the behaviour of the process is undefined -/
  | undefined
  deriving DecidableEq, Repr

/-- The state of a process that uses the thread library. -/
structure Machine where
  /-- `threads` -/
  threads : Tid → Thread
  /-- `thread_queue` -/
  threadQueue : Queue
  /-- `current_thread` -/
  currentThread : Tid
  /-- `thread_to_destroy` -/
  threadToDestroy : Tid
  /-- `administrative_mode` -/
  administrativeMode : Bool
  /-- the `struct wait_queue`s -/
  waitQueues : Addr → Option WaitQueue
  /-- the `struct lock`s -/
  locks : Addr → Option Lock
  /-- the `struct cv`s -/
  cvs : Addr → Option Cv
  /-- the allocator -/
  heap : Heap
  /-- the next block that `malloc` answers -/
  brk : Addr
  /-- whether the timer signal is unblocked -/
  interrupts : Bool
  /-- the stack that the stack pointer points into -/
  rsp : Addr
  /-- what the processor executes -/
  control : Control
  /-- what has happened, newest first -/
  trace : List Event

end UserThreads
