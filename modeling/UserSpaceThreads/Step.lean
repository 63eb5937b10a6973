import UserSpaceThreads.Lib.Runs
import UserSpaceThreads.History
import UserSpaceThreads.Thread

set_option relaxedAutoImplicit false
set_option autoImplicit false

/-!
# Runs of a process

The steps of a process that uses the thread library. User code is arbitrary: where it runs, it
may call any function of the library with any arguments (`Action.call`), and the timer may
strike wherever the signal is unblocked (`Action.tick`). All other steps execute the library
(`Action.exec`): they go on from a context that has just been loaded, from the loop test of
`lock_acquire`, or from a call of the allocator.

## Main definitions

* `UserThreads.unwind` — return through the calls in progress.
* `UserThreads.exec`, `UserThreads.call`, `UserThreads.interruptHandler` — the steps.
* `UserThreads.step` — the step function; `UserThreads.Reachable` — the states of its runs.
-/

namespace UserThreads

/-- Go on with `f` after a call that returns. -/
def andThen {α : Type} (o : Outcome Machine α) (f : α → Machine → Machine) : Machine :=
  match o with
  | .ret a m => f a m
  | .jump m => m

/-- The call `f` returns `r` to user code. -/
def userReturn (f : Fn) (r : Ret) (m : Machine) : Machine :=
  (m.emit (.returned m.currentThread f r)).setControl .user

/-- Where a timer signal has interrupted the processor. -/
def Interrupted.control : Interrupted → Control
  | .user => .user
  | .alloc p => .alloc p

/-- `interrupt_handler` returns. The return restores the mask. -/
def handlerReturn (what : Interrupted) (m : Machine) : Machine :=
  (m.interruptsSet true).setControl what.control

/-- Return `r` to the innermost call on the stack and execute the rest of it, and so on until
user code is reached or control leaves. `admin_mode` does not return, and `thread_stub` calls
nothing that could return to it this way. -/
def unwind : Stack → Ret → Machine → Machine
  | [], _, m => m.undef
  | .user f :: _, r, m => userReturn f r m
  | .interruptHandler what :: _, _, m => handlerReturn what m
  | .threadStub _ _ :: _, _, m => m.undef
  | .threadYield _ _ _ :: _, _, m => m.undef
  | .adminKill :: k, _, m => andThen (adminModeAfterKill k m) fun _ m => m.undef
  | .adminYield :: _, r, m => andThen (adminModeAfterYield r.value m) fun _ m => m.undef
  | .threadExitDeath c :: k, _, m => andThen (threadExitAfterDeath c k m) fun _ m => m.undef
  | .threadExitYield c :: _, _, m => threadExitSetcontext c m
  | .handleDeath s :: k, _, m => unwind k ⟨0, none⟩ (handleDeathAfterYield s m)
  | .threadKill t s :: k, _, m =>
    andThen (threadKillAfterDeath t s m) fun v m => unwind k ⟨v, none⟩ m
  | .threadSleep q e :: k, r, m =>
    andThen (threadSleepAfterYield q e r.value m) fun v m => unwind k ⟨v, none⟩ m
  | .threadWait t c s :: k, _, m => andThen (threadWaitAfterYield t c s m) fun r m => unwind k r m
  | .lockAcquire l s :: k, _, m =>
    andThen (lockAcquireLoop l s k m) fun _ m => unwind k ⟨0, none⟩ m
  | .cvWaitSleep l s :: k, _, m =>
    andThen (cvWaitAfterSleep l s k m) fun _ m => unwind k ⟨0, none⟩ m
  | .cvWaitAcquire s :: k, _, m => unwind k ⟨0, none⟩ (cvWaitAfterAcquire s m)

/-! ## The allocator calls of the create and destroy functions -/

/-- `wait_queue_create` behind its `malloc369`. -/
def initWaitQueue (owner : Owner) (m : Machine) : Machine :=
  ((m.afterMalloc369 SIZEOF_WAIT_QUEUE).setWaitQueue m.malloc369
    (some ⟨Queue.empty, owner⟩)).emit (.queueCreated m.malloc369)

/-- The call of the allocator at `p`, up to the next one or to the return to user code.

A second `wait_queue_destroy` of one pointer returns as if nothing had happened, unlike other uses
of objects that have been destroyed: the function reads nothing, and `free369` finds the block freed
already and hands it to `free`, which would abort in the C library and is taken to return. -/
def allocate (p : AllocPoint) (m : Machine) : Machine :=
  match p with
  | .waitQueueCreate =>
    userReturn .waitQueueCreate ⟨m.malloc369, none⟩ (initWaitQueue .user m)
  | .waitQueueDestroy wq =>
    andThen (m.free369 wq) fun _ m =>
      userReturn (.waitQueueDestroy wq) ⟨0, none⟩ (m.setWaitQueue wq none)
  | .lockCreate =>
    ((m.afterMalloc369 SIZEOF_LOCK).emit (.halfway m.currentThread m.malloc369)).setControl
      (.alloc (.lockCreateQueue m.malloc369))
  | .lockCreateQueue lock =>
    userReturn .lockCreate ⟨lock, none⟩
      ((initWaitQueue (.lock lock) m).setLock lock (some ⟨m.malloc369, -1⟩))
  | .lockDestroyQueue lock =>
    match m.locks lock with
    | none => m.undef
    | some l =>
      andThen (m.free369 l.queue) fun _ m =>
        ((m.setWaitQueue l.queue none).emit (.halfway m.currentThread lock)).setControl
          (.alloc (.lockDestroy lock))
  | .lockDestroy lock =>
    andThen (m.free369 lock) fun _ m =>
      userReturn (.lockDestroy lock) ⟨0, none⟩ (m.setLock lock none)
  | .cvCreate =>
    ((m.afterMalloc369 SIZEOF_CV).emit (.halfway m.currentThread m.malloc369)).setControl
      (.alloc (.cvCreateQueue m.malloc369))
  | .cvCreateQueue cv =>
    userReturn .cvCreate ⟨cv, none⟩
      ((initWaitQueue (.cv cv) m).setCv cv (some ⟨m.malloc369⟩))
  | .cvDestroyQueue cv =>
    match m.cvs cv with
    | none => m.undef
    | some c =>
      andThen (m.free369 c.queue) fun _ m =>
        ((m.setWaitQueue c.queue none).emit (.halfway m.currentThread cv)).setControl
          (.alloc (.cvDestroy cv))
  | .cvDestroy cv =>
    andThen (m.free369 cv) fun _ m =>
      userReturn (.cvDestroy cv) ⟨0, none⟩ (m.setCv cv none)

/-! ## Steps -/

/-- Execute the library from where the processor is. -/
def exec (m : Machine) : Machine :=
  match m.control with
  | .resumed (.threadStub fn parg :: _) =>
    (((m.setUcontext m.currentThread .spent).interruptsSet true).emit
      (.started m.currentThread fn parg)).setControl .user
  | .resumed (.threadYield s a sw :: k) =>
    andThen (threadYieldAfterGetcontext s a sw k m) fun v m => unwind k ⟨v, none⟩ m
  | .lockLoop l s k => andThen (lockAcquireLoop l s k m) fun _ m => unwind k ⟨0, none⟩ m
  | .alloc p => allocate p m
  | _ => m.undef

/-- User code calls `f`. -/
def call (f : Fn) (m : Machine) : Machine :=
  let m := m.emit (.called m.currentThread f)
  let k : Stack := [.user f]
  match f with
  | .threadCreate fn parg => andThen (threadCreate fn parg m) fun v m => userReturn f ⟨v, none⟩ m
  | .threadYield tid => andThen (threadYield tid k m) fun v m => userReturn f ⟨v, none⟩ m
  | .threadExit c => andThen (threadExit c k m) fun _ m => m.undef
  | .threadReturn => andThen (threadExit 0 k m) fun _ m => m.undef
  | .threadKill tid => andThen (threadKill tid k m) fun v m => userReturn f ⟨v, none⟩ m
  | .waitQueueCreate => waitQueueCreate m
  | .waitQueueDestroy wq => waitQueueDestroy wq m
  | .threadSleep q => andThen (threadSleep q k m) fun v m => userReturn f ⟨v, none⟩ m
  | .threadWakeup q all => andThen (threadWakeup q all m) fun v m => userReturn f ⟨v, none⟩ m
  | .threadWait tid c => andThen (threadWait tid c k m) fun r m => userReturn f r m
  | .lockCreate => lockCreate m
  | .lockDestroy l => lockDestroy l m
  | .lockAcquire l => andThen (lockAcquire l k m) fun _ m => userReturn f ⟨0, none⟩ m
  | .lockRelease l => andThen (lockRelease l m) fun _ m => userReturn f ⟨0, none⟩ m
  | .cvCreate => cvCreate m
  | .cvDestroy c => cvDestroy c m
  | .cvWait c l => andThen (cvWait c l k m) fun _ m => userReturn f ⟨0, none⟩ m
  | .cvSignal c l => andThen (cvSignal c l m) fun _ m => userReturn f ⟨0, none⟩ m
  | .cvBroadcast c l => andThen (cvBroadcast c l m) fun _ m => userReturn f ⟨0, none⟩ m
  | .interruptsSet b =>
    userReturn f ⟨if m.interrupts then 1 else 0, none⟩ (m.interruptsSet b)

/-- `interrupt_handler`. The signal is blocked while the handler runs. Re-arming the timer and
the output of a loud handler are left out. -/
def interruptHandler (what : Interrupted) (m : Machine) : Machine :=
  andThen (threadYield THREAD_ANY [.interruptHandler what] (m.interruptsSet false)) fun _ m =>
    handlerReturn what m

/-- What drives a step: the library goes on, user code calls a function, the timer strikes. -/
inductive Action
  | exec
  | call (f : Fn)
  | tick
  deriving DecidableEq, Repr

/-- User code has the pointer `p` from `f`, or it is null. -/
def Pointer (m : Machine) (f : Fn) (p : Addr) : Prop := p = NULL ∨ Gave f p m.trace

instance (m : Machine) (f : Fn) (p : Addr) : Decidable (Pointer m f p) :=
  inferInstanceAs (Decidable (_ ∨ _))

/-- The calls that user code can make: the pointers it passes are null or what the create
function of their type has returned, and thread 0 has no thread function to return from. -/
def Fn.Admissible (m : Machine) : Fn → Prop
  | .threadReturn => m.currentThread ≠ 0
  | .waitQueueDestroy q => Pointer m .waitQueueCreate q
  | .threadSleep q => Pointer m .waitQueueCreate q
  | .threadWakeup q _ => Pointer m .waitQueueCreate q
  | .lockDestroy l => Pointer m .lockCreate l
  | .lockAcquire l => Pointer m .lockCreate l
  | .lockRelease l => Pointer m .lockCreate l
  | .cvDestroy c => Pointer m .cvCreate c
  | .cvWait c l => Pointer m .cvCreate c ∧ Pointer m .lockCreate l
  | .cvSignal c l => Pointer m .cvCreate c ∧ Pointer m .lockCreate l
  | .cvBroadcast c l => Pointer m .cvCreate c ∧ Pointer m .lockCreate l
  | _ => True

instance (m : Machine) (f : Fn) : Decidable (f.Admissible m) := by
  cases f <;> unfold Fn.Admissible <;> infer_instance

/-- One step of the process. -/
def step (m : Machine) : Action → Option Machine
  | .exec =>
    match m.control with
    | .resumed _ => some (exec m)
    | .lockLoop _ _ _ => some (exec m)
    | .alloc _ => some (exec m)
    | _ => none
  | .call f => if m.control = .user ∧ f.Admissible m then some (call f m) else none
  | .tick =>
    if m.interrupts then
      match m.control with
      | .user => some (interruptHandler .user m)
      | .alloc p => some (interruptHandler (.alloc p) m)
      | _ => none
    else none

/-- The states in which a run may start. -/
def Initial (m : Machine) : Prop := ∃ garbage, m = threadInit garbage

/-- The states of the runs whose steps all meet the guard `ok`. -/
abbrev ReachableBy (ok : Machine → Action → Prop) : Machine → Prop :=
  Runs.Reachable step ok Initial

/-- The states of all runs. -/
abbrev Reachable : Machine → Prop := ReachableBy fun _ _ => True

/-! ## Concrete runs -/

/-- The state after the actions `as`, when all of them are possible. -/
def after (garbage : ℤ) (as : List Action) : Machine :=
  (Runs.follow step (threadInit garbage) as).getD (threadInit garbage)

variable {garbage : ℤ} {as : List Action} {ok : Machine → Action → Prop}

/-- The state after a list of possible actions is reachable. -/
lemma reachable_after (h : (Runs.follow step (threadInit garbage) as).isSome = true) :
    Reachable (after garbage as) := by
  obtain ⟨m, hm⟩ := Option.isSome_iff_exists.mp h
  rw [after, hm]
  exact Runs.Reachable.follow (.init ⟨garbage, rfl⟩) hm

/-- The state after a list of actions that meet a guard is reachable under it. -/
lemma reachableBy_after [∀ m a, Decidable (ok m a)]
    (h : (Runs.followOk step ok (threadInit garbage) as).isSome = true) :
    ReachableBy ok (after garbage as) := by
  obtain ⟨m, hm⟩ := Option.isSome_iff_exists.mp h
  rw [after, Runs.follow_of_followOk hm]
  exact Runs.Reachable.followOk (.init ⟨garbage, rfl⟩) hm

end UserThreads
