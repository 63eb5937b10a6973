import UserSpaceThreads.Abstraction

set_option relaxedAutoImplicit false
set_option autoImplicit false

/-!
# Saved contexts

Which computations a run can suspend. Only `thread_yield` saves a context, and it is reached
from user code on few paths; so the stack of a live thread that is not running has one of nine
shapes, and its shape agrees with the call that the history says the thread is in. This is the
part of the state that the view forgets, and `Base` is the invariant that describes it.

## Main definitions

* `UserThreads.Suspended` — the stacks of live threads that are not running.
* `UserThreads.Parked` — every live thread but the current one has such a stack.
* `UserThreads.Base` — the invariant of the processor, the saved contexts and the ids.

## Main results

* `UserThreads.Keeps.inside` — updates that do not touch contexts keep the invariant.
-/

namespace UserThreads

/-! ## Suspended computations -/

/-- The call that an interrupted computation is in. -/
def Interrupted.progress : Interrupted → Progress
  | .user => {}
  | .alloc p => { fn := some p.fn, block := p.block }

/-- The stacks that the saved context of a live thread can have, with the call that the thread
is in. The flags that a frame restores are those with which its call was made. -/
inductive Suspended : Stack → Progress → Prop
  | stub (fn parg : ℕ) : Suspended [.threadStub fn parg] { start := some (fn, parg) }
  | yield (s : Bool) {a : Tid} (ha : isValidThread a) (t : Tid) :
      Suspended [.threadYield s a true, .user (.threadYield t)] { fn := some (.threadYield t) }
  | tick {a : Tid} (ha : isValidThread a) (what : Interrupted) :
      Suspended [.threadYield false a true, .interruptHandler what] what.progress
  | kill {a : Tid} (ha : isValidThread a) {t : Tid} (ht : isValidThread t) (s : Bool) :
      Suspended [.threadYield false a true, .handleDeath false, .threadKill t s,
        .user (.threadKill t)] { fn := some (.threadKill t) }
  | sleep {a : Tid} (ha : isValidThread a) (q : Addr) (s : Bool) :
      Suspended [.threadYield false a true, .threadSleep q s, .user (.threadSleep q)]
        { fn := some (.threadSleep q) }
  | wait {a : Tid} (ha : isValidThread a) {x : Tid} (hx : isValidThread x) (c : Bool) :
      Suspended [.threadYield false a true, .threadWait x c true, .user (.threadWait x c)]
        { fn := some (.threadWait x c), waits := some x }
  | acquire {a : Tid} (ha : isValidThread a) (q l : Addr) (s : Bool) :
      Suspended [.threadYield false a true, .threadSleep q false, .lockAcquire l s,
        .user (.lockAcquire l)] { fn := some (.lockAcquire l) }
  | cvSleep {a : Tid} (ha : isValidThread a) (q c l : Addr) (s : Bool) :
      Suspended [.threadYield false a true, .threadSleep q false, .cvWaitSleep l s,
        .user (.cvWait c l)] { fn := some (.cvWait c l) }
  | cvAcquire {a : Tid} (ha : isValidThread a) (q c l : Addr) (s : Bool) :
      Suspended [.threadYield false a true, .threadSleep q false, .lockAcquire l false,
        .cvWaitAcquire s, .user (.cvWait c l)] { fn := some (.cvWait c l) }

/-- The callers of the loop of `lock_acquire`, with the call of user code that they are in. -/
inductive LoopCaller (l : Addr) : Bool → Stack → Fn → Prop
  | acquire (s : Bool) : LoopCaller l s [.user (.lockAcquire l)] (.lockAcquire l)
  | cvWait (c : Addr) (s : Bool) :
      LoopCaller l false [.cvWaitAcquire s, .user (.cvWait c l)] (.cvWait c l)

/-- The loop of `lock_acquire` can be suspended in `thread_sleep`. -/
lemma LoopCaller.suspended {l : Addr} {s : Bool} {k : Stack} {f : Fn} (h : LoopCaller l s k f)
    {a : Tid} (ha : isValidThread a) (q : Addr) :
    Suspended (.threadYield false a true :: .threadSleep q false :: .lockAcquire l s :: k)
      { fn := some f } := by
  cases h with
  | acquire s => exact .acquire ha q l s
  | cvWait c s => exact .cvAcquire ha q c l s

/-- The slot `th` of the thread `t` holds a live thread that waits to be resumed on its own
stack, with the timer signal blocked. -/
structure ParkedAt (t : Tid) (th : Thread) (tr : List Event) : Prop where
  alive : fate t tr = some .alive
  saved : ∃ k, th.ucontext = .saved ⟨th.stackStart, false, k⟩ ∧ Suspended k (progress t tr)

/-- Every live thread but the current one is parked, and thread 0, dead or alive, has a saved
context inside `thread_yield` while another thread is current. -/
structure Parked (m : Machine) : Prop where
  threads : ∀ t, t ≠ m.currentThread → (m.threads t).state ≠ .Destroyed →
    ParkedAt t (m.threads t) m.trace
  zero : m.currentThread ≠ 0 →
    ∃ s a k, (m.threads 0).ucontext = .saved ⟨NULL, false, .threadYield s a true :: k⟩
  main : (m.threads 0).stackStart = NULL

/-- The processor executes the current thread, which is alive, on its own stack. -/
structure Inside (m : Machine) : Prop where
  parked : Parked m
  admin : m.administrativeMode = false
  state : (m.threads m.currentThread).state ≠ .Destroyed
  alive : fate m.currentThread m.trace = some .alive
  rsp : m.rsp = (m.threads m.currentThread).stackStart
  unsaved : ∀ c, (m.threads m.currentThread).ucontext ≠ .saved c

/-- The context `k` that has just been loaded is that of the current thread. -/
structure Entering (m : Machine) (k : Stack) : Prop where
  inside : Inside (m.setUcontext m.currentThread .spent)
  suspended : Suspended k (progress m.currentThread m.trace)

/-- The context `k` that has just been loaded is that of thread 0, for the current thread to
exit on it. -/
structure Exiting (m : Machine) (k : Stack) : Prop where
  parked : Parked m
  admin : m.administrativeMode = true
  toDestroy : m.threadToDestroy = m.currentThread
  ne : m.currentThread ≠ 0
  state : (m.threads m.currentThread).state ≠ .Destroyed
  rsp : m.rsp = NULL
  fate : fate m.currentThread m.trace = some (.exited (m.threads m.currentThread).exitCode)
  frame : ∃ s a k', k = .threadYield s a true :: k'

/-- Where the processor is. -/
def ControlOk (m : Machine) : Prop :=
  match m.control with
  | .user => Inside m ∧ progress m.currentThread m.trace = {}
  | .alloc p => Inside m ∧ progress m.currentThread m.trace = { fn := some p.fn, block := p.block }
  | .lockLoop l s k => Inside m ∧ m.interrupts = false ∧
      ∃ f, LoopCaller l s k f ∧ progress m.currentThread m.trace = { fn := some f }
  | .resumed k => m.interrupts = false ∧ (Entering m k ∨ Exiting m k)
  | .aborted => False
  | .exited _ => False
  | .undefined => False

/-- The invariant of the processor, the saved contexts and the ids. -/
structure Base (m : Machine) : Prop where
  valid : (abs m).Valid
  control : ControlOk m

/-- The live threads other than the current one are parked. -/
lemma Base.parkedAt {m : Machine} (hb : Base m) {t : Tid} (ht : t ≠ m.currentThread)
    (hst : (m.threads t).state ≠ .Destroyed) : ParkedAt t (m.threads t) m.trace := by
  have hc := hb.control
  rw [ControlOk] at hc
  cases hcontrol : m.control <;> rw [hcontrol] at hc
  case user => exact hc.1.parked.threads t ht hst
  case alloc => exact hc.1.parked.threads t ht hst
  case lockLoop => exact hc.1.parked.threads t ht hst
  case resumed =>
    obtain ⟨-, h | h⟩ := hc
    · have hp := h.inside.parked.threads t
      simp only [Machine.setUcontext_threads, Machine.setUcontext_currentThread,
        Function.update_of_ne ht] at hp
      exact hp ht hst
    · exact h.parked.threads t ht hst
  all_goals exact hc.elim

/-- While another thread is current, thread 0 has a saved context inside `thread_yield`. -/
lemma Base.savedMain {m : Machine} (hb : Base m) (h0 : m.currentThread ≠ 0) :
    ∃ s a k, (m.threads 0).ucontext = .saved ⟨NULL, false, .threadYield s a true :: k⟩ := by
  have hc := hb.control
  rw [ControlOk] at hc
  cases hcontrol : m.control <;> rw [hcontrol] at hc
  case user => exact hc.1.parked.zero h0
  case alloc => exact hc.1.parked.zero h0
  case lockLoop => exact hc.1.parked.zero h0
  case resumed =>
    obtain ⟨-, h | h⟩ := hc
    · have hz := h.inside.parked.zero h0
      rwa [Machine.setUcontext_threads, Function.update_of_ne h0.symm] at hz
    · exact h.parked.zero h0
  all_goals exact hc.elim

/-- The run is over. -/
def Stopped (m : Machine) : Prop :=
  m.control = .aborted ∨ (∃ n, m.control = .exited n) ∨ m.control = .undefined

instance (m : Machine) : Decidable (Stopped m) :=
  match h : m.control with
  | .aborted => isTrue (.inl h)
  | .exited n => isTrue (.inr (.inl ⟨n, h⟩))
  | .undefined => isTrue (.inr (.inr h))
  | .user => isFalse (by simp [Stopped, h])
  | .alloc _ => isFalse (by simp [Stopped, h])
  | .lockLoop _ _ _ => isFalse (by simp [Stopped, h])
  | .resumed _ => isFalse (by simp [Stopped, h])

/-! ## Updates that keep the contexts -/

/-- `m'` has the processor and the saved contexts of `m`, and of the threads that are alive in
it the history says what it said in `m`. -/
structure Keeps (m m' : Machine) : Prop where
  current : m'.currentThread = m.currentThread
  admin : m'.administrativeMode = m.administrativeMode
  rsp : m'.rsp = m.rsp
  ucontext : ∀ t, (m'.threads t).ucontext = (m.threads t).ucontext
  stackStart : ∀ t, (m'.threads t).stackStart = (m.threads t).stackStart
  state : ∀ t, (m'.threads t).state ≠ .Destroyed → (m.threads t).state ≠ .Destroyed
  fate : ∀ t, (m'.threads t).state ≠ .Destroyed → fate t m'.trace = fate t m.trace
  progress : ∀ t, t ≠ m.currentThread → progress t m'.trace = progress t m.trace

variable {m m' m'' : Machine}

/-- Everything is kept if nothing is done. -/
lemma Keeps.refl (m : Machine) : Keeps m m :=
  ⟨rfl, rfl, rfl, fun _ => rfl, fun _ => rfl, fun _ h => h, fun _ _ => rfl, fun _ _ => rfl⟩

/-- What two updates keep, they keep one after the other: a thread that is alive behind both was
alive between them. -/
lemma Keeps.trans (h : Keeps m m') (h' : Keeps m' m'') : Keeps m m'' where
  current := h'.current.trans h.current
  admin := h'.admin.trans h.admin
  rsp := h'.rsp.trans h.rsp
  ucontext t := (h'.ucontext t).trans (h.ucontext t)
  stackStart t := (h'.stackStart t).trans (h.stackStart t)
  state t ht := h.state t (h'.state t ht)
  fate t ht := (h'.fate t ht).trans (h.fate t (h'.state t ht))
  progress t ht := (h'.progress t (h.current.symm ▸ ht)).trans (h.progress t ht)

/-- The threads parked in `m` are parked in `m'`. -/
lemma Keeps.parked (h : Keeps m m') (hp : Parked m) : Parked m' where
  threads t ht hst := by
    rw [h.current] at ht
    obtain ⟨halive, k, hk, hsus⟩ := hp.threads t ht (h.state t hst)
    refine ⟨(h.fate t hst).trans halive, k, ?_, ?_⟩
    · rw [h.ucontext, h.stackStart, hk]
    · rwa [h.progress t ht]
  zero hne := by
    rw [h.current] at hne
    rw [h.ucontext]
    exact hp.zero hne
  main := (h.stackStart 0).trans hp.main

/-- The processor executes the current thread in `m'` if it does so in `m`. -/
lemma Keeps.inside (h : Keeps m m') (hi : Inside m)
    (hst : (m'.threads m.currentThread).state ≠ .Destroyed) : Inside m' where
  parked := h.parked hi.parked
  admin := h.admin.trans hi.admin
  state := by rwa [h.current]
  alive := by
    rw [h.current, h.fate _ hst]
    exact hi.alive
  rsp := by
    rw [h.rsp, h.current, h.stackStart]
    exact hi.rsp
  unsaved c := by
    rw [h.current, h.ucontext]
    exact hi.unsaved c

/-- The history does not change what is known about a thread. -/
structure Quiet (tr tr' : List Event) : Prop where
  fate : ∀ t, fate t tr' = fate t tr
  progress : ∀ t, progress t tr' = progress t tr

/-- A refused push is a quiet event. -/
lemma quiet_pushTrace (es : List Tid) (t : Tid) (tr : List Event) :
    Quiet tr (pushTrace es t tr) := by
  unfold pushTrace
  split_ifs <;> exact ⟨fun _ => rfl, fun _ => rfl⟩

/-- A machine that differs from `m` in what threads share only, and keeps the dead dead. -/
lemma keeps_of_quiet (hcur : m'.currentThread = m.currentThread)
    (hadmin : m'.administrativeMode = m.administrativeMode) (hrsp : m'.rsp = m.rsp)
    (hu : ∀ t, (m'.threads t).ucontext = (m.threads t).ucontext)
    (hs : ∀ t, (m'.threads t).stackStart = (m.threads t).stackStart)
    (hst : ∀ t, (m'.threads t).state ≠ .Destroyed → (m.threads t).state ≠ .Destroyed)
    (hq : Quiet m.trace m'.trace) : Keeps m m' :=
  ⟨hcur, hadmin, hrsp, hu, hs, hst, fun t _ => hq.fate t, fun t _ => hq.progress t⟩

end UserThreads
