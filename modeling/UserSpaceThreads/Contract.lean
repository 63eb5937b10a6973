import UserSpaceThreads.Crashes
import UserSpaceThreads.Waiters

set_option relaxedAutoImplicit false
set_option autoImplicit false

/-!
# A contract for user code

The library trusts its callers: it asserts what it can and dereferences what it is given. The
contract here asks of each call only what user code can know: which objects it has been given and
has destroyed, who holds a lock, whether the signal is blocked, which threads are alive and
asleep. Under it no assertion fails, no object is used after its end and the process does not end
with an error, whatever the timer does.

Two clauses are about more than the arguments of a call. A lock is destroyed only while it is free
and no live thread is on its way to it, for `lock_destroy` asserts the first and `lock_acquire`
reads the lock again after each sleep. Thread 0 exits only if another thread is left to run, for
without one `thread_exit` loads the context of thread 0 itself, which has never been saved.

`malloc369` is taken not to fail: the `exit(-1)` that it calls then is left out.

## Main definitions

* `UserThreads.Usable` — an object is there for user code.
* `UserThreads.Fn.Proper`, `UserThreads.Contract` — what is asked of a call, and of a step.
* `UserThreads.View.Honoured` — what a history under the contract says about objects.

## Main results

* `UserThreads.no_crash_under_contract` — under the contract the process does not crash.
* `UserThreads.call_healthy_iff_pre` — in careful runs a call crashes if and only if it breaks
  its precondition.
-/

namespace UserThreads

open History (Always)

variable {m m' : Machine} {f : Fn} {a : Action} {q l c : Addr} {t : Tid} {tr : List Event}

/-! ## The contract -/

instance (tr : List Event) : (f : Fn) → Decidable (f.Given tr)
  | .waitQueueDestroy _ | .lockDestroy _ | .cvDestroy _ => inferInstanceAs (Decidable (_ ∧ _))
  | .threadCreate _ _ | .threadYield _ | .threadExit _ | .threadReturn | .threadKill _
  | .waitQueueCreate | .threadSleep _ | .threadWakeup _ _ | .threadWait _ _ | .lockCreate
  | .lockAcquire _ | .lockRelease _ | .cvCreate | .cvWait _ _ | .cvSignal _ _ | .cvBroadcast _ _
  | .interruptsSet _ => isFalse id

/-- User code has been given the object that `f` destroys, and has not called `f`. -/
def Usable (f : Fn) (tr : List Event) : Prop := f.Given tr ∧ ¬ Called f tr

instance (f : Fn) (tr : List Event) : Decidable (Usable f tr) := inferInstanceAs (Decidable (_ ∧ _))

/-- No live thread is in a call that takes the lock `l`. -/
def Unsought (m : Machine) (l : Addr) : Prop :=
  ∀ t : ℤ, 0 ≤ t → t < THREAD_MAX_THREADS → (m.threads t).state ≠ .Destroyed →
    (progress t m.trace).fn.bind Fn.acquired ≠ some l

instance (m : Machine) (l : Addr) : Decidable (Unsought m l) := by
  unfold Unsought
  infer_instance

/-- What is asked of a call of the library. -/
def Fn.Proper (m : Machine) : Fn → Prop
  | .threadCreate _ _ => m.interrupts = true
  | .threadWait _ _ => m.interrupts = true
  | .threadReturn => m.interrupts = true
  | .threadExit _ => m.interrupts = true ∧ (m.currentThread = 0 → Replaceable m)
  | .waitQueueDestroy q => Usable (.waitQueueDestroy q) m.trace
  | .threadSleep q => q = NULL ∨ Usable (.waitQueueDestroy q) m.trace
  | .threadWakeup q _ => q = NULL ∨ Usable (.waitQueueDestroy q) m.trace
  | .lockDestroy l => Usable (.lockDestroy l) m.trace ∧ (∀ lock ∈ m.locks l, lock.current = -1) ∧
      Unsought m l
  | .lockAcquire l => Usable (.lockDestroy l) m.trace
  | .lockRelease l => Usable (.lockDestroy l) m.trace ∧ OwnsLock m l
  | .cvDestroy c => Usable (.cvDestroy c) m.trace
  | .cvWait c l => Usable (.cvDestroy c) m.trace ∧ Usable (.lockDestroy l) m.trace ∧ OwnsLock m l
  | .cvSignal c l => Usable (.cvDestroy c) m.trace ∧ Usable (.lockDestroy l) m.trace ∧ OwnsLock m l
  | .cvBroadcast c l => Usable (.cvDestroy c) m.trace ∧ Usable (.lockDestroy l) m.trace ∧
      OwnsLock m l
  | _ => True

instance (m : Machine) : (f : Fn) → Decidable (f.Proper m)
  | .threadCreate _ _ | .threadWait _ _ | .threadReturn => inferInstanceAs (Decidable (_ = true))
  | .threadSleep _ | .threadWakeup _ _ => inferInstanceAs (Decidable (_ ∨ _))
  | .waitQueueDestroy _ | .lockAcquire _ | .cvDestroy _ => inferInstanceAs (Decidable (Usable _ _))
  | .threadExit _ | .lockDestroy _ | .lockRelease _ | .cvWait _ _ | .cvSignal _ _
  | .cvBroadcast _ _ => inferInstanceAs (Decidable (_ ∧ _))
  | .threadYield _ | .threadKill _ | .waitQueueCreate | .lockCreate | .cvCreate
  | .interruptsSet _ => isTrue trivial

/-- User code keeps the contract, and calls the library carefully. -/
def Contract (m : Machine) : Action → Prop
  | .call f => Careful m (.call f) ∧ f.Proper m
  | _ => True

instance (m : Machine) : (a : Action) → Decidable (Contract m a)
  | .call _ => inferInstanceAs (Decidable (_ ∧ _))
  | .exec | .tick => isTrue trivial

/-- Under the contract user code calls the library carefully. -/
lemma Contract.careful (h : Contract m a) : Careful m a := by
  cases a with
  | call f => exact h.1
  | exec | tick => trivial

/-- What is destroyed has been given to user code, and not destroyed before. -/
lemma Fn.Proper.usable (h : f.Proper m) (hf : f.destroys ≠ none) : Usable f m.trace := by
  cases f with
  | waitQueueDestroy q | cvDestroy q => exact h
  | lockDestroy l => exact h.1
  | _ => exact (hf rfl).elim

/-- The lock that a call takes has not been destroyed. -/
lemma Fn.Proper.lock_usable (h : f.Proper m) (hf : f.acquired = some l) :
    Usable (.lockDestroy l) m.trace := by
  cases f with
  | lockAcquire l' | cvWait c l' =>
    obtain rfl : l' = l := by simpa [Fn.acquired] using hf
    first | exact h | exact h.2.1
  | _ => cases hf

/-- Under the contract nothing is destroyed twice. -/
lemma Contract.once (h : Contract m a) : Once m a := by
  cases a with
  | call f => exact fun hf => (h.2.usable hf.1).2
  | exec | tick => trivial

/-! ## The history of objects -/

namespace View

variable {v v' : View} {k : Label}

/-- What user code has been given stays given. -/
lemma Step.given (hs : Step v k v') (h : f.Given v.trace) : f.Given v'.trace := by
  cases f with
  | waitQueueDestroy q | lockDestroy q | cvDestroy q => exact ⟨h.1, hs.gave h.2⟩
  | _ => exact h

/-- An object stays usable until user code calls its destroy function. -/
lemma Step.usable (hs : Step v k v') (hk : k ≠ .called f) (h : Usable f v.trace) :
    Usable f v'.trace :=
  ⟨hs.given h.1, fun hc => (hs.called_of hc).elim h.2 hk⟩

/-- A thread that is in a call has been in it, or makes it in this transaction.

**Proof sketch.** By the events that the transaction adds: only a call brings a thread into a
call. -/
lemma Step.fn_of (hs : Step v k v') (ht : fate t v'.trace = some .alive)
    (hf : (UserThreads.progress t v'.trace).fn = some f) :
    fate t v.trace = some .alive ∧ (UserThreads.progress t v.trace).fn = some f ∨
      k = .called f := by
  refine hs.writes.invariant (I := fun tr => fate t tr = some .alive →
    (UserThreads.progress t tr).fn = some f → fate t v.trace = some .alive ∧
      (UserThreads.progress t v.trace).fn = some f ∨ k = .called f)
    (fun ht hf => .inl ⟨ht, hf⟩) (fun e tr he ih ht hf => ?_) ht hf
  cases e with
  | called u g =>
    rw [UserThreads.progress] at hf
    split_ifs at hf with hu
    · obtain rfl : g = f := by simpa using hf
      exact .inr he.2
    · exact ih ht hf
  | waited u x | halfway u x =>
    refine ih ht ?_
    rw [UserThreads.progress] at hf
    split_ifs at hf <;> exact hf
  | returned u g r | created u g r | started u g r =>
    rw [UserThreads.progress] at hf
    split_ifs at hf with hu
    exact ih (by simpa [hu] using ht) hf
  | exited u x | killed u =>
    rw [fate] at ht
    split_ifs at ht
    · simp at ht
    · exact ih ht hf
  | _ => exact ih ht hf

/-- What has been destroyed had been given to user code, and the locks that live threads are about
to take have not been destroyed. -/
structure Honoured (v : View) : Prop where
  given : ∀ f, Called f v.trace → f.destroys ≠ none → f.Given v.trace
  claimed : ∀ t f l, fate t v.trace = some .alive → (progress t v.trace).fn = some f →
    f.acquired = some l → Usable (.lockDestroy l) v.trace

/-- **Every transaction of a step under the contract honours it.**

**Proof sketch.** A call is in the history before the step, or it is the one that the step makes,
and then the contract says the two things about it. What has been usable stays usable until its
destroy function is called (`Step.usable`). -/
theorem Honoured.step (h : v.Honoured)
    (hgiven : ∀ f, k = .called f → f.destroys ≠ none → f.Given v.trace)
    (htakes : ∀ f l, k = .called f → f.acquired = some l → Usable (.lockDestroy l) v.trace)
    (hclaimed : ∀ l, k = .called (.lockDestroy l) → ∀ t f, fate t v.trace = some .alive →
      (progress t v.trace).fn = some f → f.acquired ≠ some l)
    (hs : Step v k v') : v'.Honoured where
  given f hc hf := hs.given <| (hs.called_of hc).elim (fun hc => h.given f hc hf)
    fun hk => hgiven f hk hf
  claimed t f l ht hfn hl := by
    rcases hs.fn_of ht hfn with ⟨ht', hfn'⟩ | rfl
    · exact hs.usable (fun hk => hclaimed l hk t f ht' hfn' hl) (h.claimed t f l ht' hfn' hl)
    · refine hs.usable (fun hk => ?_) (htakes f l rfl hl)
      obtain rfl : f = .lockDestroy l := by simpa using hk
      cases hl

/-- The contract is about the transactions of a step. -/
lemma Honoured.of_contract (h : v.Honoured) (hlife : v.Life) (ho : v.Orderly) (hok : Contract m a)
    (hp : Permits m a v k) (hs : Step v k v') : v'.Honoured := by
  -- a call is made in the state in which the contract is checked
  have hcalled (f : Fn) (hk : k = .called f) : f.Proper m ∧ v = abs m := by
    subst hk
    obtain ⟨rfl, hv, -⟩ := hp
    exact ⟨hok.2, hv⟩
  refine h.step (fun f hk hf => ?_) (fun f l hk hl => ?_) (fun l hk t f ht hfn hl => ?_) hs
  · obtain ⟨hproper, rfl⟩ := hcalled f hk
    exact (hproper.usable hf).1
  · obtain ⟨hproper, rfl⟩ := hcalled f hk
    exact hproper.lock_usable hl
  · obtain ⟨⟨-, -, hunsought⟩, rfl⟩ := hcalled _ hk
    have hst := hlife.alive t ht
    obtain ⟨h0, h1⟩ := ho.valid t hst
    have hfn' : (progress t m.trace).fn = some f := hfn
    exact hunsought t h0 h1 hst (by rw [hfn']; exact hl)

end View

/-! ## Reachable states -/

/-- At the start nothing has been made and nobody is in a call. -/
lemma honoured_threadInit (garbage : ℤ) : (abs (threadInit garbage)).Honoured := by
  refine ⟨fun f hc => ?_, fun t f l _ hf => ?_⟩
  · obtain ⟨e, he, -⟩ := hc
    cases he
  · cases hf

/-- At the start nobody waits for a thread. -/
lemma attended_threadInit (garbage : ℤ) : (abs (threadInit garbage)).Attended := by
  refine ⟨fun x _ hw => (hw ?_).elim, trivial⟩
  rw [abs_waiter, threadInit]
  dsimp only
  split_ifs <;> rfl

/-- The invariant of careful runs. -/
structure View.Tended (v : View) : Prop where
  life : v.Life
  orderly : v.Orderly
  awake : v.state v.current ≠ .Sleep
  attended : v.Attended

/-- The invariant of careful runs holds at the start. -/
lemma tended_threadInit (garbage : ℤ) : (abs (threadInit garbage)).Tended :=
  ⟨life_threadInit garbage, orderly_threadInit garbage, by simp [threadInit],
    attended_threadInit garbage⟩

/-- **Every transaction of a careful step keeps the invariant.** -/
lemma View.Tended.step {v v' : View} {k : Label} (h : v.Tended) (hok : Careful m a) (hv : v.Valid)
    (hp : Permits m a v k) (hs : View.Step v k v') : v'.Tended := by
  have horders := View.orders_of_disciplined h.orderly hok.disciplined hp hs
  obtain ⟨ho', hcur'⟩ := h.orderly.step h.awake h.life hv horders hs
  exact ⟨h.life.step hs, ho', hcur', h.attended.step h.orderly h.life h.awake horders
    (View.spares_of_careful h.orderly hok hp hs) hs⟩

/-- **Careful runs are fit for calls and for the timer.**

**Proof sketch.** Each clause is read off the invariants of careful runs: `Orderly` gives the wait
queues, `Attended` the waiters, the accounts the allocator, and `Pointed` that a lock and a
condition variable have different wait queues. -/
theorem ReachableBy.fit (h : ReachableBy Careful m) (hrun : ¬ Stopped m) : Fit m := by
  obtain ⟨hb, ht⟩ := (h.view tended_threadInit fun _ _ _ _ _ _ _ hok hi hv hp hs =>
    hi.step hok hv hp hs).resolve_left hrun
  obtain ⟨-, hpointed, hst⟩ := ReachableBy.stocked h hrun
  have hqueues {q : Addr} {wq : WaitQueue} (hwq : m.waitQueues q = some wq) :
      ∃ o, (abs m).queues q = some (o, wq.queue.entries) :=
    ⟨wq.owner, Option.map_eq_some_iff.mpr ⟨wq, hwq, rfl⟩⟩
  refine ⟨hb, fun q wq hwq => ?_, fun q wq hwq => ?_, fun t w hst hw hne => ?_, fun p => ?_,
    fun c cv l lock hc hl heq => ?_⟩
  · obtain ⟨o, hq⟩ := hqueues hwq
    refine ⟨ht.orderly.nodup q o _ hq, fun t hmem hrunning => ?_⟩
    have hlive : (abs m).state t ≠ .Destroyed := by simp [hrunning]
    have hsleep := (ht.orderly.entries q o _ hq t hmem hlive).1
    rw [abs_state, hrunning] at hsleep
    cases hsleep
  · obtain ⟨o, hq⟩ := hqueues hwq
    exact (Queue.popLast_of_append ((Queue.entries_push_eq ..).trans
      (ht.orderly.pushEntry hb.valid hq m.currentThread))).1
  · subst hw
    have hlive := (ht.attended.waiter t hst hne).1
    exact ⟨(hb.valid.waiter t).resolve_left hne,
      ReachableBy.waiter_ne h hrun (ht.orderly.valid t hst),
      ht.orderly.waiter_ne_current ht.awake ht.attended hst hne,
      (ht.orderly.waiters t hst hne hlive).1⟩
  · obtain ⟨blocks, hacc, -⟩ := hst.accounts
    exact hacc.free369_isSome p
  · have hcv : (abs m).Refers lock.queue (.queue (.cv c)) := heq ▸ .cvQueue hc
    cases hpointed.unique _ _ _ hcv (.lockQueue hl)

/-- Under the contract, the history honours it. -/
lemma ReachableBy.honoured (h : ReachableBy Contract m) (hrun : ¬ Stopped m) :
    (abs m).Honoured := by
  have hview := h.view (I := fun v => v.Tended ∧ v.Honoured)
    (fun g => ⟨tended_threadInit g, honoured_threadInit g⟩) ?_
  · exact (hview.resolve_left hrun).2.2
  · rintro s a v k v' - - hok ⟨ht, hh⟩ hv hp hs
    exact ⟨ht.step hok.careful hv hp hs, hh.of_contract ht.life ht.orderly hok hp hs⟩

/-- The runs under the contract are careful. -/
lemma ReachableBy.careful (h : ReachableBy Contract m) : ReachableBy Careful m :=
  h.mono fun _ _ _ hok => hok.careful

/-- Under the contract nothing is destroyed twice, so what is usable is whole. -/
lemma ReachableBy.whole (h : ReachableBy Contract m) (hrun : ¬ Stopped m)
    (hf : Usable f m.trace) : (abs m).Whole f := by
  have honce : ReachableBy Once m := h.mono fun _ _ _ hok => hok.once
  exact (honce.tidy hrun).2.intact.untouched f hf.1 hf.2

/-- A lock that is usable is there, with its wait queue. -/
lemma ReachableBy.lockThere (h : ReachableBy Contract m) (hrun : ¬ Stopped m)
    (hl : Usable (.lockDestroy l) m.trace) :
    l ≠ NULL ∧ ∃ lock, m.locks l = some lock ∧ QueueAt m lock.queue := by
  obtain ⟨lock, es, hlock, hq⟩ := h.whole hrun hl
  obtain ⟨wq, hwq, -⟩ := waitQueue_of_abs hq
  exact ⟨hl.1.1, lock, hlock, .inr (by simp [hwq])⟩

/-- A condition variable that is usable is there, with its wait queue. -/
lemma ReachableBy.cvThere (h : ReachableBy Contract m) (hrun : ¬ Stopped m)
    (hc : Usable (.cvDestroy c) m.trace) : CvThere m c := by
  obtain ⟨cv, es, hcv, hq⟩ := h.whole hrun hc
  obtain ⟨wq, hwq, -⟩ := waitQueue_of_abs hq
  exact ⟨hc.1.1, cv, hcv, .inr (by simp [hwq])⟩

/-- A wait queue that is usable is there. -/
lemma ReachableBy.queueAt (h : ReachableBy Contract m) (hrun : ¬ Stopped m)
    (hq : q = NULL ∨ Usable (.waitQueueDestroy q) m.trace) : QueueAt m q := by
  refine hq.imp_right fun hq => ?_
  obtain ⟨es, hqueue⟩ := h.whole hrun hq
  obtain ⟨wq, hwq, -⟩ := waitQueue_of_abs hqueue
  simp [hwq]

/-- A lock that is usable and belongs to the current thread can be released. -/
lemma ReachableBy.releasable (h : ReachableBy Contract m) (hrun : ¬ Stopped m)
    (hl : Usable (.lockDestroy l) m.trace) (hown : OwnsLock m l) : Releasable m l := by
  obtain ⟨hl0, lock, hlock, hq⟩ := h.lockThere hrun hl
  obtain ⟨lock', hlock', hcur⟩ := hown
  obtain rfl := Option.some.inj (hlock.symm.trans hlock')
  exact ⟨hl0, lock, hlock, hcur, hq⟩

/-- **A call under the contract meets its precondition.**

**Proof sketch.** By the function. An object that was given out and has not been destroyed is there
(`lockThere`, `cvThere`, `queueAt`), and a thread that holds a lock is its owner (`releasable`). -/
theorem Fn.Proper.pre (hf : f.Proper m) (h : ReachableBy Contract m) (hrun : ¬ Stopped m) :
    f.Pre m := by
  cases f with
  | threadCreate | threadWait | threadReturn | threadExit => exact hf
  | threadSleep q | threadWakeup q all => exact h.queueAt hrun hf
  | lockDestroy l =>
    obtain ⟨husable, hfree, -⟩ := hf
    obtain ⟨hl0, lock, hlock, -⟩ := h.lockThere hrun husable
    exact ⟨hl0, lock, hlock, hfree lock hlock⟩
  | lockAcquire l =>
    obtain ⟨hl0, lock, hlock, hq⟩ := h.lockThere hrun hf
    exact ⟨hl0, lock, hlock, .inr hq⟩
  | lockRelease l => exact h.releasable hrun hf.1 hf.2
  | cvDestroy c => exact hf.1.1
  | cvWait c l => exact ⟨h.cvThere hrun hf.1, h.releasable hrun hf.2.1 hf.2.2⟩
  | cvSignal c l | cvBroadcast c l => exact ⟨h.cvThere hrun hf.1, hf.2.1.1.1, hf.2.2⟩
  | threadYield | threadKill | waitQueueCreate | waitQueueDestroy | lockCreate | cvCreate
  | interruptsSet => trivial

/-- **Under the contract the library is equipped to go on.**

**Proof sketch.** A careful run is fit. The lock that the current thread is about to take is usable,
as it was when the call was made (`Honoured`), so it is there. A destroy function between its check
and its first `free369` still has its object (`Intact`). -/
theorem ReachableBy.equipped (h : ReachableBy Contract m) (hrun : ¬ Stopped m) : Equipped m := by
  have hhonoured := h.honoured hrun
  refine ⟨h.careful.fit hrun, fun ht l hl => ?_, fun p hp => ?_⟩
  · obtain ⟨f, hf, hacquired⟩ := Option.bind_eq_some_iff.mp hl
    obtain ⟨hl0, lock, hlock, hq⟩ := h.lockThere hrun (hhonoured.claimed _ f l ht hf hacquired)
    exact ⟨hl0, lock, hlock, .inr hq⟩
  · have hb := ReachableBy.base h hrun
    have hcontrol := hb.control
    rw [ControlOk, hp] at hcontrol
    obtain ⟨hi, hprogress⟩ := hcontrol
    have hfn : (progress m.currentThread m.trace).fn = some p.fn := by rw [hprogress]
    have honce : ReachableBy Once m := h.mono fun _ _ _ hok => hok.once
    -- between the check of a destroy function and its first `free369`, the object is whole
    have hleft (hd : p.fn.destroys ≠ none) : (abs m).Left p.fn p.block :=
      (honce.tidy hrun).2.intact.destroying _ _ _ (hhonoured.given _ (called_of_fn hfn) hd) hi.alive
        hprogress
    cases p with
    | lockDestroyQueue l =>
      obtain ⟨lock, es, hlock, -⟩ := hleft (Option.some_ne_none l)
      exact Option.isSome_iff_exists.mpr ⟨lock, hlock⟩
    | cvDestroyQueue c =>
      obtain ⟨cv, es, hcv, -⟩ := hleft (Option.some_ne_none c)
      exact Option.isSome_iff_exists.mpr ⟨cv, hcv⟩
    | _ => trivial

/-- **A step under the contract does not crash.**

**Proof sketch.** By the action: `call_healthy` with the precondition that the contract ensures
(`Fn.Proper.pre`), `exec_healthy`, and `tick_healthy`. -/
theorem Contract.step_healthy (hok : Contract m a) (h : ReachableBy Contract m)
    (hs : step m a = some m') : Healthy m' := by
  have hrun : ¬ Stopped m := fun hstop => by
    rw [hstop.step_none] at hs
    cases hs
  have hequipped := h.equipped hrun
  cases a with
  | call f =>
    rw [step] at hs
    split_ifs at hs with hcond
    cases hs
    exact (hequipped.call_healthy hcond.1 hcond.2).mpr (Fn.Proper.pre hok.2 h hrun)
  | exec => exact hequipped.exec_healthy hs
  | tick => exact hequipped.tick_healthy hs

/-- **Under the contract the process does not crash**: no assertion fails, nothing is used that is
not there, and the process exits with status 0 only. The contract includes that a destroyed lock is
free and that thread 0 exits only if another thread is left to run; `malloc369` is taken not to
fail.

**Proof sketch.** By the last step of the run (`Contract.step_healthy`). In every state that a run
under the contract reaches, the objects that the history says are there are there
(`ReachableBy.equipped`), so a call that keeps the contract meets its precondition (`Fn.Proper.pre`)
and does not crash; the steps of the library and the timer never do. -/
theorem no_crash_under_contract (h : ReachableBy Contract m) : Healthy m := by
  cases h with
  | init hm =>
    obtain ⟨g, rfl⟩ := hm
    rfl
  | step hm hok hs => exact hok.step_healthy hm hs

/-- Two threads take a lock in turn, one ends, and the other destroys the lock; the timer
interrupts it there. -/
def lockRun : List Action :=
  [.call .lockCreate, .exec, .exec, .call (.threadCreate 7 8), .call (.lockAcquire 1),
    .call (.threadYield 1), .exec, .call (.lockAcquire 1), .exec, .call (.lockRelease 1),
    .call (.threadYield THREAD_ANY), .exec, .call (.lockRelease 1), .call .threadReturn, .exec,
    .exec, .call (.lockDestroy 1), .tick, .exec, .exec]

/-- The run of the two threads. -/
theorem no_crash_under_contract_lock : Healthy (after 42 lockRun) :=
  no_crash_under_contract (reachableBy_after (by decide +kernel))

/-- **A call crashes if and only if it breaks its precondition**, in careful runs; `malloc369` is
taken not to fail.

**Proof sketch.** A careful run keeps the process fit (`ReachableBy.fit`): no entry of a wait queue
is of a Running thread, the waiter of a live thread is asleep, and every suspended thread has a
saved context. In a fit state `Fit.call_healthy` goes through the functions, each with its own
lemma. -/
theorem call_healthy_iff_pre (h : ReachableBy Careful m) (hs : step m (.call f) = some m') :
    Healthy m' ↔ f.Pre m := by
  have hrun : ¬ Stopped m := fun hstop => by
    rw [hstop.step_none] at hs
    cases hs
  rw [step] at hs
  split_ifs at hs with hcond
  cases hs
  exact (h.fit hrun).call_healthy hcond.1 hcond.2

/-- A thread releases a lock that another thread holds. -/
theorem call_healthy_iff_pre_lockRelease :
    let m := after 42 (lockRun.take 7)
    Healthy (call (.lockRelease 1) m) ↔ (Fn.lockRelease 1).Pre m :=
  call_healthy_iff_pre (reachableBy_after (by decide +kernel)) rfl

end UserThreads
