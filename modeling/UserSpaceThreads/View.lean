import Mathlib.Tactic.Simps.Basic
import UserSpaceThreads.History
import UserSpaceThreads.Lib.Runs
import UserSpaceThreads.Thread

set_option relaxedAutoImplicit false
set_option autoImplicit false

/-!
# What the threads share

The abstract model of the library. It forgets the processor: saved contexts, stacks, the signal
mask and the flags of the exit protocol. What remains is what threads share — their states,
links and exit codes, the ready queue and the wait queues as lists, the objects, the allocator —
and the history. Its steps are whole transactions, each of which the code executes with the
timer signal masked: a thread goes to sleep *and* gives up the processor, a thread dies *and*
its waiter is released and runs.

`UserThreads.abs` in `Abstraction` maps a machine to its view, and `Refine` shows that every
step of the machine is a sequence of these transactions.

## Main definitions

* `UserThreads.View` — the shared state.
* `UserThreads.Label`, `UserThreads.View.Step` — the transactions.
-/

namespace UserThreads

/-- `queue_push` on the list of entries. -/
def pushEntry (es : List Tid) (t : Tid) : List Tid :=
  if (es.length : ℤ) = QUEUE_CAPACITY then es else es ++ [t]

/-- The history after a `queue_push` of `t` onto a ready queue with the entries `es`. -/
def pushTrace (es : List Tid) (t : Tid) (tr : List Event) : List Event :=
  if (es.length : ℤ) = QUEUE_CAPACITY then .refused t (decide (t ∈ es)) :: tr else tr

/-- What the threads share. -/
structure View where
  state : Tid → State
  waiter : Tid → Tid
  exitCode : Tid → ℤ
  stackStart : Tid → Addr
  /-- the entries of `thread_queue`, oldest first -/
  ready : List Tid
  current : Tid
  /-- the wait queues: the holder of the pointer, and the entries, oldest first -/
  queues : Addr → Option (Owner × List Tid)
  locks : Addr → Option Lock
  cvs : Addr → Option Cv
  heap : Heap
  brk : Addr
  trace : List Event

namespace View

/-! ## Updates -/

/-- Append to the history. -/
@[simps] def emit (v : View) (e : Event) : View := { v with trace := e :: v.trace }

/-- Write the state of `t`. -/
@[simps] def setState (v : View) (t : Tid) (s : State) : View :=
  { v with state := Function.update v.state t s }

/-- Write the waiter of `t`. -/
@[simps] def setWaiter (v : View) (t w : Tid) : View :=
  { v with waiter := Function.update v.waiter t w }

/-- Write the exit code of `t`. -/
@[simps] def setExitCode (v : View) (t : Tid) (c : ℤ) : View :=
  { v with exitCode := Function.update v.exitCode t c }

/-- Write the wait queue at `q`. -/
@[simps] def setQueue (v : View) (q : Addr) (x : Option (Owner × List Tid)) : View :=
  { v with queues := Function.update v.queues q x }

/-- Write the lock at `l`. -/
@[simps] def setLock (v : View) (l : Addr) (x : Option Lock) : View :=
  { v with locks := Function.update v.locks l x }

/-- Write the condition variable at `c`. -/
@[simps] def setCv (v : View) (c : Addr) (x : Option Cv) : View :=
  { v with cvs := Function.update v.cvs c x }

/-- Write the ready queue. -/
@[simps] def setReady (v : View) (es : List Tid) : View := { v with ready := es }

/-- Push `t` onto the ready queue. -/
@[simps] def pushReady (v : View) (t : Tid) : View :=
  { v with
    ready := pushEntry v.ready t
    trace := pushTrace v.ready t v.trace }

/-- Give the processor to `t`; the thread that had it goes to the end of the ready queue. -/
@[simps] def switchTo (v : View) (t : Tid) : View :=
  { v with
    ready := pushEntry v.ready v.current
    current := t
    trace := .switched t :: pushTrace v.ready v.current v.trace }

/-- `malloc369(size)`. -/
@[simps] def malloc (v : View) (size : BitVec 64) : View :=
  { v with heap := v.heap.malloc369 size v.brk, brk := v.brk + 1 }

/-- `free369(p)`, which leaves the allocator in the state `heap`. -/
@[simps] def free (v : View) (p rsp : Addr) (heap : Heap) : View :=
  { v with heap := heap, trace := .freed p rsp (decide (v.heap.Live p)) :: v.trace }

/-- Fill the slot `num` with a new thread. -/
@[simps] def spawn (v : View) (num : Tid) (fn parg : ℕ) : View :=
  { v with
    state := Function.update v.state num .Running
    waiter := Function.update v.waiter num (-1)
    exitCode := Function.update v.exitCode num (-SIGKILL)
    stackStart := Function.update v.stackStart num v.brk
    heap := v.heap.malloc369 THREAD_MIN_STACK v.brk
    brk := v.brk + 1
    trace := .created num fn parg :: v.trace }

/-- The thread `t` goes to sleep on the wait queue `q`, whose holder is `o`. -/
@[simps!] def asleep (v : View) (t : Tid) (q : Addr) (o : Owner) (es : List Tid) : View :=
  ((v.setState t .Sleep).setQueue q (some (o, pushEntry es t))).emit (.slept t q)

/-- The thread `t` starts to wait for `x`. -/
@[simps!] def awaiting (v : View) (t x : Tid) : View :=
  ((v.setWaiter x t).setState t .Sleep).emit (.waited t x)

/-- The slot of `t` becomes free; `killed` tells how `t` ended. -/
def bury (v : View) (t : Tid) (killed : Bool) (rsp : Addr) (heap : Heap) : View :=
  let v := if t = 0 then v else v.free (v.stackStart t) rsp heap
  let v := if killed then v.emit (.killed t) else v
  v.setState t .Destroyed

/-- The death of `t` makes its waiter `w` Running. -/
@[simps!] def release (v : View) (t w : Tid) : View :=
  (v.setState w .Running).emit (.released t w)

/-- The function has returned `r` to the current thread. -/
@[simps!] def back (v : View) (f : Fn) (r : Ret) : View := v.emit (.returned v.current f r)

/-- `wait_queue_create` makes a wait queue for the holder `o`. -/
@[simps!] def newQueue (v : View) (o : Owner) : View :=
  ((v.malloc SIZEOF_WAIT_QUEUE).setQueue v.brk (some (o, []))).emit (.queueCreated v.brk)

/-! ## Transactions -/

/-- The wait queue `q` is reached through the holder `o` of its pointer. -/
def Access (v : View) (q : Addr) : Owner → Prop
  | .user => Gave .waitQueueCreate q v.trace
  | .lock l => ∃ lock, v.locks l = some lock ∧ lock.queue = q
  | .cv c => ∃ cv, v.cvs c = some cv ∧ cv.queue = q

/-- What `thread_wait` stores through `exit_code`. -/
def exitCodeOf (v : View) (x : Tid) (exitCode : Bool) : Option ℤ :=
  if exitCode then some (v.exitCode x) else none

/-- What is true when the call `f` of the current thread returns `r`. -/
def Completes (v : View) (f : Fn) (r : Ret) : Prop :=
  match f with
  | .threadWait x c =>
    r = ⟨THREAD_INVALID, none⟩ ∨
      r = ⟨x, v.exitCodeOf x c⟩ ∧ isValidThread x ∧
        ((progress v.current v.trace).waits = some x ∨
          (progress v.current v.trace).waits = none ∧ v.state x = .Destroyed ∧
            v.exitCode x ≠ -SIGKILL ∧ remade x v.current v.trace = false)
  | .lockAcquire l => ∃ lock, v.locks l = some lock ∧ lock.current = v.current
  | .lockRelease l => ∃ lock, v.locks l = some lock ∧ lock.current = -1
  | .cvWait _ l => ∃ lock, v.locks l = some lock ∧ lock.current = v.current
  | .waitQueueCreate => False
  | .lockCreate => False
  | .cvCreate => False
  | _ => True

/-- The current thread is in the call `f`, at its beginning or back from a sleep. -/
structure Calls (v : View) (f : Fn) : Prop where
  alive : fate v.current v.trace = some .alive
  progress : progress v.current v.trace = { fn := some f }

/-- The current thread is alive and is not in the middle of a `thread_wait`. -/
structure Awake (v : View) : Prop where
  alive : fate v.current v.trace = some .alive
  waits : (progress v.current v.trace).waits = none

/-- The ready queue is `t :: ts`, and `thread_yield(THREAD_ANY)` chooses `t`. -/
structure Picks (v : View) (t : Tid) (ts : List Tid) : Prop where
  ready : v.ready = t :: ts
  running : v.state t = .Running
  ne : t ≠ v.current

/-- The thread `t` can die, killed by the current thread or by itself on its way out. -/
structure Dies (v : View) (t : Tid) (killed : Bool) (rsp : Addr) (heap : Heap) : Prop where
  valid : isValidThread t
  state : v.state t ≠ .Destroyed
  byOther : killed = true →
    v.Calls (.threadKill t) ∧ t ≠ v.current ∧ rsp = v.stackStart v.current
  bySelf : killed = false →
    t = v.current ∧ (∃ c, fate t v.trace = some (.exited c)) ∧ (t ≠ 0 → rsp = NULL)
  heap : t ≠ 0 → v.heap.free369 (v.stackStart t) = some heap

end View

/-- The names of the transactions. -/
inductive Label
  | called (f : Fn)
  | returned (f : Fn) (r : Ret)
  | started (fn parg : ℕ)
  | exit (c : ℤ)
  | create (num : Tid) (fn parg : ℕ)
  | discard (ts : List Tid)
  | dispatch (t : Tid)
  | yieldTo (t : Tid)
  | sleep (q : Addr) (o : Owner) (t : Tid)
  | sleepNone (q : Addr)
  | wait (x t : Tid)
  | waitNone (x : Tid)
  | wake (q : Addr) (t : Tid)
  | skip (q : Addr) (t : Tid)
  | die (t : Tid) (killed : Bool)
  | dieTo (t w : Tid) (killed : Bool)
  | dieBack (t : Tid) (killed : Bool)
  | take (l : Addr)
  | give (l : Addr)
  | newQueue
  | newLock (l : Addr)
  | newCv (c : Addr)
  | newHalf (size : BitVec 64)
  | dropQueue (q : Addr)
  | dropHalf (p q : Addr)
  | dropLock (l : Addr)
  | dropCv (c : Addr)

namespace View

/-- The transactions. -/
inductive Step : View → Label → View → Prop
  /-- User code calls `f`. -/
  | called {v : View} {f : Fn} (alive : fate v.current v.trace = some .alive)
      (idle : progress v.current v.trace = {})
      (destroy : ∀ l, f = .lockDestroy l → ∃ lock, v.locks l = some lock ∧ lock.current = -1) :
      Step v (.called f) (v.emit (.called v.current f))
  /-- The call returns. -/
  | returned {v : View} {f : Fn} {r : Ret} (alive : fate v.current v.trace = some .alive)
      (fn : (progress v.current v.trace).fn = some f) (done : v.Completes f r) :
      Step v (.returned f r) (v.back f r)
  /-- A new thread starts. -/
  | started {v : View} {fn parg : ℕ} (alive : fate v.current v.trace = some .alive)
      (unstarted : progress v.current v.trace = { start := some (fn, parg) }) :
      Step v (.started fn parg) (v.emit (.started v.current fn parg))
  /-- The current thread calls `thread_exit`. -/
  | exit {v : View} {f : Fn} {c : ℤ} (calls : v.Calls f)
      (exits : f = .threadExit c ∨ f = .threadReturn ∧ c = 0) :
      Step v (.exit c) ((v.emit (.exited v.current c)).setExitCode v.current c)
  /-- A thread is created. -/
  | create {v : View} {num : Tid} {fn parg : ℕ} (calls : v.Calls (.threadCreate fn parg))
      (pos : 0 < num) (valid : isValidThread num) (dead : v.state num = .Destroyed) :
      Step v (.create num fn parg) ((v.spawn num fn parg).pushReady num)
  /-- `get_thread_any` drops entries that it cannot use. -/
  | discard {v : View} {ds es : List Tid} (ready : v.ready = ds ++ es)
      (useless : ∀ t ∈ ds, ¬ (v.state t = .Running ∧ t ≠ v.current)) :
      Step v (.discard ds) (v.setReady es)
  /-- `thread_yield(THREAD_ANY)` gives the processor away. -/
  | dispatch {v : View} {t : Tid} {ts : List Tid} (picks : v.Picks t ts)
      (awake : v.state v.current ≠ .Destroyed → v.Awake) :
      Step v (.dispatch t) ((v.setReady ts).switchTo t)
  /-- `thread_yield(t)` gives the processor away. -/
  | yieldTo {v : View} {t : Tid} (calls : v.Calls (.threadYield t)) (valid : isValidThread t)
      (state : v.state t ≠ .Destroyed) (ne : t ≠ v.current) :
      Step v (.yieldTo t) (v.switchTo t)
  /-- The current thread goes to sleep on `q`. -/
  | sleep {v : View} {f : Fn} {q : Addr} {o o' : Owner} {t : Tid} {es ts : List Tid}
      (calls : v.Calls f) (sleeps : f.sleepsOn o = true)
      (access : v.Access q o) (queue : v.queues q = some (o', es))
      (lock : ∀ l lock, o = .lock l → v.locks l = some lock → lock.current ≠ -1)
      (picks : v.Picks t ts) :
      Step v (.sleep q o t) (((v.asleep v.current q o' es).setReady ts).switchTo t)
  /-- The current thread cannot go to sleep, since no other thread could run. -/
  | sleepNone {v : View} {f : Fn} {q : Addr} {o o' : Owner} {es es' : List Tid}
      (calls : v.Calls f) (sleeps : f.sleepsOn o = true)
      (access : v.Access q o) (queue : v.queues q = some (o', es))
      (lock : ∀ l lock, o = .lock l → v.locks l = some lock → lock.current ≠ -1)
      (ready : v.ready = []) (last : pushEntry es v.current = es' ++ [v.current]) :
      Step v (.sleepNone q) ((((v.asleep v.current q o' es).setState v.current .Running).setQueue q
        (some (o', es'))).emit (.sleptNone v.current q))
  /-- The current thread waits for `x`. -/
  | wait {v : View} {x t : Tid} {c : Bool} {ts : List Tid}
      (calls : v.Calls (.threadWait x c)) (valid : isValidThread x)
      (state : v.state x ≠ .Destroyed) (ne : x ≠ v.current) (waiter : v.waiter x = -1)
      (picks : v.Picks t ts) :
      Step v (.wait x t) (((v.awaiting v.current x).setReady ts).switchTo t)
  /-- The current thread starts to wait for `x` but keeps the processor, since no other thread
  can run, and returns from `thread_wait` as if `x` had died. -/
  | waitNone {v : View} {x : Tid} {c : Bool} (calls : v.Calls (.threadWait x c))
      (valid : isValidThread x) (state : v.state x ≠ .Destroyed) (ne : x ≠ v.current)
      (waiter : v.waiter x = -1)
      (ready : v.ready = []) :
      Step v (.waitNone x) ((v.awaiting v.current x).back (.threadWait x c) ⟨x, v.exitCodeOf x c⟩)
  /-- `thread_wakeup` makes the first entry of `q` Running. -/
  | wake {v : View} {f : Fn} {q : Addr} {o o' : Owner} {t : Tid} {es : List Tid}
      (calls : v.Calls f) (wakes : f.wakesOn o = true) (access : v.Access q o)
      (queue : v.queues q = some (o', t :: es)) (state : v.state t = .Sleep) :
      Step v (.wake q t) ((((v.setQueue q (some (o', es))).setState t .Running).emit
        (.woken t q)).pushReady t)
  /-- `thread_wakeup` drops the first entry of `q`, whose thread is dead. -/
  | skip {v : View} {f : Fn} {q : Addr} {o o' : Owner} {t : Tid} {es : List Tid}
      (calls : v.Calls f) (wakes : f.wakesOn o = true) (access : v.Access q o)
      (queue : v.queues q = some (o', t :: es)) (state : v.state t = .Destroyed) :
      Step v (.skip q t) (v.setQueue q (some (o', es)))
  /-- A thread dies, and no one is waiting for it. -/
  | die {v : View} {t : Tid} {killed : Bool} {rsp : Addr} {heap : Heap}
      (dies : v.Dies t killed rsp heap)
      (waiter : v.waiter t ≠ -1 → v.waiter t = t ∨ v.state (v.waiter t) = .Destroyed) :
      Step v (.die t killed) (v.bury t killed rsp heap)
  /-- A thread dies, and its waiter gets the processor. -/
  | dieTo {v : View} {t w : Tid} {killed : Bool} {rsp : Addr} {heap : Heap}
      (dies : v.Dies t killed rsp heap) (waiter : v.waiter t = w) (valid : isValidThread w)
      (state : v.state w = .Sleep) (ne : w ≠ t) (other : w ≠ v.current) :
      Step v (.dieTo t w killed) (((v.bury t killed rsp heap).release t w).switchTo w)
  /-- A thread is killed, and the killer is its waiter. -/
  | dieBack {v : View} {t : Tid} {killed : Bool} {rsp : Addr} {heap : Heap}
      (dies : v.Dies t killed rsp heap) (waiter : v.waiter t = v.current)
      (state : v.state v.current = .Sleep) (ne : v.current ≠ t) :
      Step v (.dieBack t killed) ((v.bury t killed rsp heap).release t v.current)
  /-- The current thread takes the free lock `l`. -/
  | take {v : View} {l : Addr} {lock : Lock} {f : Fn} (calls : v.Calls f)
      (acquires : f.acquires l = true) (lockAt : v.locks l = some lock) (free : lock.current = -1) :
      Step v (.take l) (v.setLock l (some { lock with current := v.current }))
  /-- The current thread gives up the lock `l`, whose sleepers have been woken. -/
  | give {v : View} {l : Addr} {lock : Lock} {f : Fn} (calls : v.Calls f)
      (releases : f.releases l = true) (lockAt : v.locks l = some lock)
      (owner : lock.current = v.current) (released : holds v.current l v.trace = false)
      (empty : ∀ o es, v.queues lock.queue = some (o, es) → es = []) :
      Step v (.give l) (v.setLock l (some { lock with current := -1 }))
  /-- `wait_queue_create`. -/
  | newQueue {v : View} (calls : v.Calls .waitQueueCreate) :
      Step v .newQueue ((v.newQueue .user).back .waitQueueCreate ⟨v.brk, none⟩)
  /-- The first half of `lock_create` or `cv_create`. -/
  | newHalf {v : View} {f : Fn} {size : BitVec 64} (calls : v.Calls f)
      (creates : f = .lockCreate ∧ size = SIZEOF_LOCK ∨ f = .cvCreate ∧ size = SIZEOF_CV) :
      Step v (.newHalf size) ((v.malloc size).emit (.halfway v.current v.brk))
  /-- The second half of `lock_create`. -/
  | newLock {v : View} {l : Addr} (alive : fate v.current v.trace = some .alive)
      (fn : progress v.current v.trace = { fn := some .lockCreate, block := some l }) :
      Step v (.newLock l) (((v.newQueue (.lock l)).setLock l (some ⟨v.brk, -1⟩)).back .lockCreate
        ⟨l, none⟩)
  /-- The second half of `cv_create`. -/
  | newCv {v : View} {c : Addr} (alive : fate v.current v.trace = some .alive)
      (fn : progress v.current v.trace = { fn := some .cvCreate, block := some c }) :
      Step v (.newCv c) (((v.newQueue (.cv c)).setCv c (some ⟨v.brk⟩)).back .cvCreate ⟨c, none⟩)
  /-- `wait_queue_destroy`. -/
  | dropQueue {v : View} {q : Addr} {heap : Heap} (calls : v.Calls (.waitQueueDestroy q))
      (free : v.heap.free369 q = some heap) :
      Step v (.dropQueue q) (((v.free q (v.stackStart v.current) heap).setQueue q none).back
        (.waitQueueDestroy q) ⟨0, none⟩)
  /-- The first half of `lock_destroy` or `cv_destroy` of the object `p`. -/
  | dropHalf {v : View} {f : Fn} {p q : Addr} {heap : Heap} (calls : v.Calls f)
      (destroys : f = .lockDestroy p ∧ v.Access q (.lock p) ∨
        f = .cvDestroy p ∧ v.Access q (.cv p))
      (free : v.heap.free369 q = some heap) :
      Step v (.dropHalf p q) (((v.free q (v.stackStart v.current) heap).setQueue q none).emit
        (.halfway v.current p))
  /-- The second half of `lock_destroy`. -/
  | dropLock {v : View} {l : Addr} {heap : Heap} (alive : fate v.current v.trace = some .alive)
      (fn : progress v.current v.trace = { fn := some (.lockDestroy l), block := some l })
      (free : v.heap.free369 l = some heap) :
      Step v (.dropLock l) (((v.free l (v.stackStart v.current) heap).setLock l none).back
        (.lockDestroy l) ⟨0, none⟩)
  /-- The second half of `cv_destroy`. -/
  | dropCv {v : View} {c : Addr} {heap : Heap} (alive : fate v.current v.trace = some .alive)
      (fn : progress v.current v.trace = { fn := some (.cvDestroy c), block := some c })
      (free : v.heap.free369 c = some heap) :
      Step v (.dropCv c) (((v.free c (v.stackStart v.current) heap).setCv c none).back
        (.cvDestroy c) ⟨0, none⟩)

/-! ## Ids -/

/-- All ids in the shared state are ids of slots, and no wait queue is at the null pointer. -/
structure Valid (v : View) : Prop where
  current : isValidThread v.current
  ready : ∀ t ∈ v.ready, isValidThread t
  queues : ∀ q o es, v.queues q = some (o, es) → ∀ t ∈ es, isValidThread t
  waiter : ∀ t, v.waiter t = -1 ∨ isValidThread (v.waiter t)
  null : v.queues NULL = none
  brk : NULL < v.brk

variable {v v' : View} {l : Label}

/-- The entries after a push. -/
lemma mem_pushEntry {es : List Tid} {t u : Tid} (h : u ∈ pushEntry es t) : u ∈ es ∨ u = t := by
  unfold pushEntry at h
  split_ifs at h
  · exact .inl h
  · rcases List.mem_append.mp h with h | h
    · exact .inl h
    · exact .inr (List.mem_singleton.mp h)

/-- Entries stay entries. -/
lemma mem_pushEntry_of_mem {es : List Tid} {t u : Tid} (h : u ∈ es) : u ∈ pushEntry es t := by
  unfold pushEntry
  split_ifs
  · exact h
  · exact List.mem_append_left _ h

/-- A push of a valid id. -/
lemma valid_pushEntry {es : List Tid} {t : Tid} (hes : ∀ u ∈ es, isValidThread u)
    (ht : isValidThread t) : ∀ u ∈ pushEntry es t, isValidThread u := by
  intro u hu
  rcases mem_pushEntry hu with hu | rfl
  · exact hes u hu
  · exact ht

/-- The history and the locks hold no ids of slots. -/
lemma Valid.retrace (hv : v.Valid) (tr : List Event) (locks : Addr → Option Lock) :
    View.Valid { v with trace := tr, locks := locks } :=
  ⟨hv.current, hv.ready, hv.queues, hv.waiter, hv.null, hv.brk⟩

/-- Writing a wait queue with valid entries. -/
lemma Valid.setQueue (hv : v.Valid) (q : Addr) {x : Option (Owner × List Tid)}
    (hx : ∀ o es, x = some (o, es) → q ≠ NULL ∧ ∀ t ∈ es, isValidThread t) :
    (v.setQueue q x).Valid := by
  refine ⟨hv.current, hv.ready, fun p o es hp => ?_, hv.waiter, ?_, hv.brk⟩
  · rcases eq_or_ne p q with rfl | hne
    · exact (hx o es (by simpa using hp)).2
    · exact hv.queues p o es (by simpa [hne] using hp)
  · rcases eq_or_ne NULL q with rfl | hne
    · cases x with
      | none => simp
      | some x => exact ((hx x.1 x.2 rfl).1 rfl).elim
    · simpa [hne] using hv.null

/-- A wait queue is not at the null pointer. -/
lemma Valid.ne_null (hv : v.Valid) {q : Addr} {x : Owner × List Tid} (hq : v.queues q = some x) :
    q ≠ NULL := by
  rintro rfl
  rw [hv.null] at hq
  cases hq

/-- The switch to a valid id. -/
lemma Valid.switchTo (hv : v.Valid) {t : Tid} (ht : isValidThread t) : (v.switchTo t).Valid :=
  ⟨ht, valid_pushEntry hv.ready hv.current, hv.queues, hv.waiter, hv.null, hv.brk⟩

/-- A push of a valid id. -/
lemma Valid.pushReady (hv : v.Valid) {t : Tid} (ht : isValidThread t) : (v.pushReady t).Valid :=
  ⟨hv.current, valid_pushEntry hv.ready ht, hv.queues, hv.waiter, hv.null, hv.brk⟩

/-- The end of a thread does not touch ids. -/
lemma Valid.bury (hv : v.Valid) (t : Tid) (killed : Bool) (rsp : Addr) (heap : Heap) :
    (v.bury t killed rsp heap).Valid := by
  unfold View.bury
  split_ifs <;> exact ⟨hv.current, hv.ready, hv.queues, hv.waiter, hv.null, hv.brk⟩

/-- The entry that `thread_yield(THREAD_ANY)` picks is valid. -/
lemma Picks.valid {t : Tid} {ts : List Tid} (h : v.Picks t ts) (hv : v.Valid) :
    isValidThread t ∧ ∀ u ∈ ts, isValidThread u := by
  have hr := hv.ready
  rw [h.ready] at hr
  exact ⟨hr t (List.mem_cons_self ..), fun u hu => hr u (List.mem_cons_of_mem _ hu)⟩

/-- Writing the waiter of one thread. -/
lemma Valid.setWaiter (hv : v.Valid) (t : Tid) {w : Tid} (hw : w = -1 ∨ isValidThread w) :
    (v.setWaiter t w).Valid := by
  refine ⟨hv.current, hv.ready, hv.queues, fun u => ?_, hv.null, hv.brk⟩
  rcases eq_or_ne u t with rfl | hne
  · simpa using hw
  · simpa [hne] using hv.waiter u

/-- Going to sleep. -/
lemma Valid.asleep (hv : v.Valid) {q : Addr} {o : Owner} {es : List Tid}
    (hq : v.queues q = some (o, es)) : (v.asleep v.current q o es).Valid := by
  have hes := valid_pushEntry (hv.queues q o es hq) hv.current
  have h := (⟨hv.current, hv.ready, hv.queues, hv.waiter, hv.null, hv.brk⟩ :
    (v.setState v.current .Sleep).Valid).setQueue q (x := some (o, pushEntry es v.current))
    fun _ _ heq => by cases heq; exact ⟨hv.ne_null hq, hes⟩
  exact ⟨h.current, h.ready, h.queues, h.waiter, h.null, h.brk⟩

/-- Every transaction keeps the ids valid.

**Proof sketch.** An id is written to the shared state in three ways: a thread puts its own id
there, `thread_create` that of the slot that it has chosen, and the others move ids that are there
already. `brk` only grows. -/
theorem Step.valid (h : Step v l v') (hv : v.Valid) : v'.Valid := by
  have htail {q : Addr} {o : Owner} {t : Tid} {es : List Tid}
      (hq : v.queues q = some (o, t :: es)) : isValidThread t ∧
      (v.setQueue q (some (o, es))).Valid :=
    ⟨hv.queues q o _ hq t (List.mem_cons_self ..), hv.setQueue q fun _ _ heq => by
      cases heq
      exact ⟨hv.ne_null hq, fun u hu => hv.queues q o _ hq u (List.mem_cons_of_mem _ hu)⟩⟩
  cases h with
  | called => exact ⟨hv.current, hv.ready, hv.queues, hv.waiter, hv.null, hv.brk⟩
  | returned => exact ⟨hv.current, hv.ready, hv.queues, hv.waiter, hv.null, hv.brk⟩
  | started => exact ⟨hv.current, hv.ready, hv.queues, hv.waiter, hv.null, hv.brk⟩
  | exit => exact ⟨hv.current, hv.ready, hv.queues, hv.waiter, hv.null, hv.brk⟩
  | @create num _ _ _ _ hnum _ =>
    refine Valid.pushReady ?_ hnum
    have h := hv.setWaiter num (.inl rfl)
    exact ⟨h.current, h.ready, h.queues, h.waiter, h.null, Nat.lt_succ_of_lt h.brk⟩
  | discard hr _ =>
    refine ⟨hv.current, fun t ht => hv.ready t ?_, hv.queues, hv.waiter, hv.null, hv.brk⟩
    rw [hr]
    exact List.mem_append_right _ ht
  | dispatch hp _ =>
    refine Valid.switchTo ?_ (hp.valid hv).1
    exact ⟨hv.current, (hp.valid hv).2, hv.queues, hv.waiter, hv.null, hv.brk⟩
  | yieldTo _ ht _ _ => exact hv.switchTo ht
  | sleep _ _ _ hq _ hp =>
    have h := hv.asleep hq
    refine Valid.switchTo ?_ (hp.valid hv).1
    exact ⟨h.current, (hp.valid hv).2, h.queues, h.waiter, h.null, h.brk⟩
  | @sleepNone _ q _ o es es' _ _ _ hq _ _ hlast =>
    have h := hv.asleep hq
    have hes' : ∀ t ∈ es', isValidThread t := fun t ht =>
      valid_pushEntry (hv.queues q o es hq) hv.current t (by rw [hlast]; simp [ht])
    have h' := h.setQueue q (x := some (o, es')) fun _ _ heq => by
      cases heq
      exact ⟨hv.ne_null hq, hes'⟩
    exact ⟨h'.current, h'.ready, h'.queues, h'.waiter, h'.null, h'.brk⟩
  | @wait x _ _ _ _ _ _ _ _ hp =>
    have h := hv.setWaiter x (.inr hv.current)
    refine Valid.switchTo ?_ (hp.valid hv).1
    exact ⟨h.current, (hp.valid hv).2, h.queues, h.waiter, h.null, h.brk⟩
  | @waitNone x =>
    have h := hv.setWaiter x (.inr hv.current)
    exact ⟨h.current, h.ready, h.queues, h.waiter, h.null, h.brk⟩
  | wake _ _ _ hq _ =>
    obtain ⟨ht, h⟩ := htail hq
    refine Valid.pushReady ?_ ht
    exact ⟨h.current, h.ready, h.queues, h.waiter, h.null, h.brk⟩
  | skip _ _ _ hq _ => exact (htail hq).2
  | die => exact hv.bury ..
  | @dieTo t _ killed rsp heap _ _ hw _ _ _ =>
    have h := hv.bury t killed rsp heap
    refine Valid.switchTo ?_ hw
    exact ⟨h.current, h.ready, h.queues, h.waiter, h.null, h.brk⟩
  | @dieBack t killed rsp heap =>
    have h := hv.bury t killed rsp heap
    exact ⟨h.current, h.ready, h.queues, h.waiter, h.null, h.brk⟩
  | take => exact ⟨hv.current, hv.ready, hv.queues, hv.waiter, hv.null, hv.brk⟩
  | give => exact ⟨hv.current, hv.ready, hv.queues, hv.waiter, hv.null, hv.brk⟩
  | newQueue =>
    have h := hv.setQueue v.brk (x := some (.user, [])) fun _ _ heq => by
      cases heq
      exact ⟨hv.brk.ne', by simp⟩
    exact ⟨h.current, h.ready, h.queues, h.waiter, h.null, Nat.lt_succ_of_lt h.brk⟩
  | newHalf =>
    exact ⟨hv.current, hv.ready, hv.queues, hv.waiter, hv.null, Nat.lt_succ_of_lt hv.brk⟩
  | @newLock l =>
    have h := hv.setQueue v.brk (x := some (.lock l, [])) fun _ _ heq => by
      cases heq
      exact ⟨hv.brk.ne', by simp⟩
    exact ⟨h.current, h.ready, h.queues, h.waiter, h.null, Nat.lt_succ_of_lt h.brk⟩
  | @newCv c =>
    have h := hv.setQueue v.brk (x := some (.cv c, [])) fun _ _ heq => by
      cases heq
      exact ⟨hv.brk.ne', by simp⟩
    exact ⟨h.current, h.ready, h.queues, h.waiter, h.null, Nat.lt_succ_of_lt h.brk⟩
  | @dropQueue q =>
    have h := hv.setQueue q (x := none) fun _ _ heq => by cases heq
    exact ⟨h.current, h.ready, h.queues, h.waiter, h.null, h.brk⟩
  | @dropHalf _ _ q =>
    have h := hv.setQueue q (x := none) fun _ _ heq => by cases heq
    exact ⟨h.current, h.ready, h.queues, h.waiter, h.null, h.brk⟩
  | dropLock => exact ⟨hv.current, hv.ready, hv.queues, hv.waiter, hv.null, hv.brk⟩
  | dropCv => exact ⟨hv.current, hv.ready, hv.queues, hv.waiter, hv.null, hv.brk⟩

end View

end UserThreads
