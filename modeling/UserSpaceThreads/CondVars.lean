import UserSpaceThreads.Failures
import UserSpaceThreads.Frees
import UserSpaceThreads.Interrupts
import UserSpaceThreads.Locks
import UserSpaceThreads.Ready
import UserSpaceThreads.Wakeups

set_option relaxedAutoImplicit false
set_option autoImplicit false

/-!
# Condition variables

`cv_wait` releases the lock, goes to sleep on the wait queue of the condition variable and takes
the lock again. The first two happen in one step, so no wakeup falls between them. In runs of
threads that are created, return, yield to any thread and use locks and condition variables, a
thread in `cv_wait` stays in its wait queue until a `cv_signal` or a `cv_broadcast` takes it out.

## Main definitions

* `UserThreads.Synchronises` — the guard.
* `UserThreads.View.Synchronised` — the invariant.
* `UserThreads.Waiting` — a thread is asleep on a condition variable.

## Main results

* `UserThreads.View.Synchronised.step` — every transaction of such a run keeps the invariant.
* `UserThreads.ReachableBy.cvWait_step`, `UserThreads.ReachableBy.cvSignal_step`,
  `UserThreads.ReachableBy.cvBroadcast_step` — what the three calls do.
* `UserThreads.ReachableBy.waits_until` — a thread waits until it is signalled.
* `UserThreads.ReachableBy.cvWait_owns` — `cv_wait` returns with the lock.
-/

namespace UserThreads

open History (Adds)

/-! ## The guard -/

/-- The functions of threads that synchronise by locks and condition variables. -/
def Fn.synchronises : Fn → Bool
  | .threadCreate _ _ => true
  | .threadReturn => true
  | .threadYield tid => tid = THREAD_ANY
  | .lockCreate => true
  | .cvCreate => true
  | .lockAcquire _ => true
  | .lockRelease _ => true
  | .cvWait _ _ => true
  | .cvSignal _ _ => true
  | .cvBroadcast _ _ => true
  | _ => false

/-- `lock->current == current_thread` -/
def OwnsLock (m : Machine) (l : Addr) : Prop := ∃ lock ∈ m.locks l, lock.current = m.currentThread

instance (m : Machine) (l : Addr) : Decidable (OwnsLock m l) :=
  inferInstanceAs (Decidable (∃ lock ∈ m.locks l, _))

/-- The assertions with which the functions begin. -/
def Asserted (m : Machine) : Fn → Prop
  | .threadCreate _ _ => m.interrupts = true
  | .threadReturn => m.interrupts = true
  | .lockAcquire l => l ≠ NULL
  | .lockRelease l => l ≠ NULL ∧ OwnsLock m l
  | .cvWait c l => c ≠ NULL ∧ l ≠ NULL ∧ OwnsLock m l
  | .cvSignal c l => c ≠ NULL ∧ l ≠ NULL ∧ OwnsLock m l
  | .cvBroadcast c l => c ≠ NULL ∧ l ≠ NULL ∧ OwnsLock m l
  | _ => True

instance (m : Machine) : (f : Fn) → Decidable (Asserted m f)
  | .threadCreate _ _ | .threadReturn => inferInstanceAs (Decidable (m.interrupts = true))
  | .lockAcquire l => inferInstanceAs (Decidable (l ≠ NULL))
  | .lockRelease l => inferInstanceAs (Decidable (l ≠ NULL ∧ OwnsLock m l))
  | .cvWait c l | .cvSignal c l | .cvBroadcast c l =>
    inferInstanceAs (Decidable (c ≠ NULL ∧ l ≠ NULL ∧ OwnsLock m l))
  | .threadYield _ | .threadExit _ | .threadKill _ | .waitQueueCreate | .waitQueueDestroy _
  | .threadSleep _ | .threadWakeup _ _ | .threadWait _ _ | .lockCreate | .lockDestroy _
  | .cvCreate | .cvDestroy _ | .interruptsSet _ => isTrue trivial

/-- User code calls only functions by which threads synchronise, as their assertions ask. -/
def Synchronises (m : Machine) : Action → Prop
  | .call f => f.synchronises = true ∧ Asserted m f
  | _ => True

instance (m : Machine) : (a : Action) → Decidable (Synchronises m a)
  | .call _ => inferInstanceAs (Decidable (_ ∧ _))
  | .exec | .tick => isTrue trivial

/-! ## The invariant -/

/-- The transactions of threads that synchronise. -/
def Label.synchronises : Label → Bool
  | .called f => f.synchronises
  | .yieldTo _ => false
  | .wait _ _ => false
  | .waitNone _ => false
  | .skip _ _ => false
  | .die _ killed => !killed
  | .dieTo _ _ _ => false
  | .dieBack _ _ => false
  | .newQueue => false
  | .dropQueue _ => false
  | .dropHalf _ _ => false
  | .dropLock _ => false
  | .dropCv _ => false
  | _ => true

namespace View

variable {v v' : View} {l : Label}

/-- Only functions by which threads synchronise have been called; every entry of a wait queue
is of a live thread, and nobody waits for the end of a thread. -/
structure Synchronised (v : View) : Prop where
  life : v.Life
  orderly : v.Orderly
  awake : v.state v.current ≠ .Sleep
  roster : v.Roster
  calls : ∀ f, Called f v.trace → f.synchronises = true
  alive : ∀ q o es, v.queues q = some (o, es) → ∀ t ∈ es, v.state t ≠ .Destroyed
  waiter : ∀ t, v.waiter t = -1

/-- The call that a thread is in is one by which threads synchronise. -/
lemma Synchronised.fn (h : v.Synchronised) {t : Tid} {f : Fn}
    (hf : (UserThreads.progress t v.trace).fn = some f) : f.synchronises = true :=
  h.calls f (called_of_fn hf)

/-- A current thread that is not dead is Running. -/
lemma Synchronised.running (h : v.Synchronised) (hst : v.state v.current ≠ .Destroyed) :
    v.state v.current = .Running :=
  State.eq_running hst h.awake

/-- A valid id is not the waiter of a thread. -/
lemma Synchronised.waiter_ne (h : v.Synchronised) {t w : Tid} (hw : isValidThread w) :
    v.waiter t ≠ w := by
  rw [h.waiter t]
  exact hw.ne.2.2.1.symm

/-- The transactions that can happen.

**Proof sketch.** The other transactions belong to a call that these threads do not make, drop the
entry of a dead thread, which no wait queue has, or release a waiter, which no thread has. -/
lemma Synchronised.label (h : v.Synchronised) (hv : v.Valid)
    (hcalled : ∀ f, l = .called f → f.synchronises = true) (hs : Step v l v') :
    l.synchronises = true := by
  have hno {f : Fn} (hc : v.Calls f) (hf : f.synchronises = false) : False := by
    have htrue := h.fn (congrArg Progress.fn hc.progress)
    rw [hf] at htrue
    cases htrue
  cases hs with
  | called => exact hcalled _ rfl
  | yieldTo calls valid =>
    refine (hno calls ?_).elim
    simpa [Fn.synchronises] using valid.ne.2.2.1
  | wait calls => exact (hno calls rfl).elim
  | waitNone calls => exact (hno calls rfl).elim
  | skip calls wakes access queue state =>
    exact (h.alive _ _ _ queue _ (List.mem_cons_self ..) state).elim
  | @die t killed rsp heap dies =>
    cases killed with
    | false => rfl
    | true => exact (hno (dies.byOther rfl).1 rfl).elim
  | dieTo dies waiter valid => exact (h.waiter_ne valid waiter).elim
  | dieBack dies waiter => exact (h.waiter_ne hv.current waiter).elim
  | newQueue calls => exact (hno calls rfl).elim
  | dropQueue calls => exact (hno calls rfl).elim
  | dropHalf calls destroys =>
    obtain ⟨rfl, -⟩ | ⟨rfl, -⟩ := destroys <;> exact (hno calls rfl).elim
  | dropLock alive fn =>
    have htrue := h.fn (congrArg Progress.fn fn)
    cases htrue
  | dropCv alive fn =>
    have htrue := h.fn (congrArg Progress.fn fn)
    cases htrue
  | _ => rfl

/-- New threads get ids that are not in use. -/
lemma Synchronised.orders (h : v.Synchronised) (hl : l.synchronises = true) (hs : Step v l v') :
    v.Orders l := by
  cases hs with
  | @create num fn parg calls pos valid dead =>
    exact ⟨fun q o es hq hmem => h.alive q o es hq num hmem dead, fun x _ => h.waiter_ne valid⟩
  | yieldTo => cases hl
  | waitNone => cases hl
  | _ => trivial

/-- A call in the history is an old one, or the transaction is that call. -/
lemma Step.called_of (hs : Step v l v') {f : Fn} (hf : Called f v'.trace) :
    Called f v.trace ∨ l = .called f := by
  obtain ⟨e, he, hcalls⟩ := hf
  rcases hs.writes.mem_or he with hnew | hold
  · right
    cases e with
    | called t g =>
      obtain rfl : g = f := by simpa [Event.calls] using hcalls
      exact hnew.2
    | _ => cases hcalls
  · exact .inl ⟨e, hold, hcalls⟩

/-- The entries of wait queues stay those of live threads.

**Proof sketch.** In these runs no thread is killed, so the thread that dies is the current one,
which has no entry. The entry that a sleep adds is that of its caller, and all other transactions
leave entries and lives alone. -/
lemma Synchronised.alive_step (h : v.Synchronised) (hv : v.Valid) (hl : l.synchronises = true)
    (hs : Step v l v') :
    ∀ q o es, v'.queues q = some (o, es) → ∀ t ∈ es, v'.state t ≠ .Destroyed := by
  intro p o₁ es₁ hp u hu
  cases hs with
  | @create num fn parg calls pos valid dead =>
    have hst := h.alive p o₁ es₁ hp u hu
    have hne : u ≠ num := fun heq => hst (heq ▸ dead)
    simpa [hne] using hst
  | @sleep f q o o' t es ts calls sleeps access queue lock picks =>
    rcases eq_or_ne u v.current with rfl | hne
    · simp
    · rcases eq_or_ne p q with rfl | hpq
      · obtain ⟨-, rfl⟩ : o' = o₁ ∧ pushEntry es v.current = es₁ := by simpa using hp
        simpa [hne] using h.alive p o' es queue u ((mem_pushEntry hu).resolve_right hne)
      · simpa [hne] using h.alive p o₁ es₁ (by simpa [hpq] using hp) u hu
  | @sleepNone f q o o' es es' calls sleeps access queue lock ready last =>
    have hrunning := h.running (h.life.alive _ calls.alive)
    have hstill := h.orderly.sleptNone hv hrunning queue last
    rw [hstill.queues] at hp
    rw [hstill.state]
    exact h.alive p o₁ es₁ hp u hu
  | @wake f q o o' t es calls wakes access queue state =>
    rcases eq_or_ne u t with rfl | hne
    · simp
    · obtain ⟨es₀, hp₀, ⟨-, rfl⟩ | ⟨-, rfl⟩⟩ := tail_cases queue hp
      · simpa [hne] using h.alive p o₁ _ hp₀ u (List.mem_cons_of_mem _ hu)
      · simpa [hne] using h.alive p o₁ _ hp₀ u hu
  | @die t killed rsp heap dies =>
    -- the thread that ends is the current one, which has no entry
    obtain rfl : killed = false := by simpa [Label.synchronises] using hl
    obtain ⟨rfl, -⟩ := dies.bySelf rfl
    rw [bury_queues] at hp
    have hne : u ≠ v.current := fun heq =>
      h.orderly.not_mem (h.running dies.state) hp (heq ▸ hu)
    simpa [hne] using h.alive p o₁ es₁ hp u hu
  | @newLock a | @newCv a =>
    rcases eq_or_ne p v.brk with rfl | hne
    · obtain ⟨-, rfl⟩ : _ = o₁ ∧ [] = es₁ := by simpa using hp
      cases hu
    · exact h.alive p o₁ es₁ (by simpa [hne] using hp) u hu
  | called | returned | started | exit | discard | dispatch | take | give | newHalf =>
    exact h.alive p o₁ es₁ hp u hu
  | _ => cases hl

/-- Nobody starts to wait for the end of a thread. -/
lemma Synchronised.waiter_step (h : v.Synchronised) (hl : l.synchronises = true)
    (hs : Step v l v') (t : Tid) : v'.waiter t = -1 := by
  cases hs with
  | @create num =>
    rcases eq_or_ne t num with rfl | hne
    · simp
    · simpa [hne] using h.waiter t
  | die => simpa using h.waiter t
  | wait => cases hl
  | waitNone => cases hl
  | dieTo => cases hl
  | dieBack => cases hl
  | _ => exact h.waiter t

/-- **Every transaction of threads that synchronise keeps the invariant.** -/
theorem Synchronised.step (h : v.Synchronised) (hv : v.Valid)
    (hcalled : ∀ f, l = .called f → f.synchronises = true) (hs : Step v l v') :
    v'.Synchronised := by
  have hl := h.label hv hcalled hs
  have horders := h.orders hl hs
  obtain ⟨ho, hawake⟩ := h.orderly.step h.awake h.life hv horders hs
  exact ⟨h.life.step hs, ho, hawake, h.orderly.roster h.roster h.awake h.life hv horders hs,
    fun f hf => (hs.called_of hf).elim (h.calls f) (hcalled f), h.alive_step hv hl hs,
    h.waiter_step hl hs⟩

end View

/-! ## Reachable states -/

variable {m m' : Machine} {a : Action} {c l : Addr} {t : Tid}

/-- At the start nothing has been called. -/
lemma synchronised_threadInit (garbage : ℤ) : (abs (threadInit garbage)).Synchronised := by
  refine ⟨life_threadInit _, orderly_threadInit _, by simp [threadInit],
    by simp [View.Roster, threadInit], fun f hf => ?_, fun q o es hq => ?_, fun t => ?_⟩
  · obtain ⟨e, he, -⟩ := hf
    cases he
  · cases hq
  · rw [abs_waiter, threadInit]
    dsimp only
    split_ifs <;> rfl

/-- A step that meets the guard calls functions by which threads synchronise only. -/
lemma Synchronises.called (h : Synchronises m a) {v : View} {k : Label} (hp : Permits m a v k)
    (f : Fn) (hk : k = .called f) : f.synchronises = true := by
  subst hk
  obtain ⟨rfl, -⟩ := hp
  exact h.1

/-- Runs that meet the guard keep the invariant. -/
lemma ReachableBy.synchronised (h : ReachableBy Synchronises m) (hrun : ¬ Stopped m) :
    Base m ∧ (abs m).Synchronised :=
  (h.view synchronised_threadInit fun _ _ _ _ _ _ _ hok hi hv hp hs =>
    hi.step hv (hok.called hp) hs).resolve_left hrun

/-- In runs that meet the guard, nothing is destroyed. -/
lemma ReachableBy.tidy_of_synchronises (h : ReachableBy Synchronises m) (hrun : ¬ Stopped m) :
    (abs m).Tidy := by
  refine (ReachableBy.tidy (h.mono fun s a _ hok => ?_) hrun).2
  cases a with
  | call f =>
    intro hf
    have hsync := hok.1
    cases f <;> first | exact (hf.1 rfl).elim | cases hsync
  | _ => trivial

/-! ## Threads that wait -/

namespace View

variable {v v' : View} {k : Label} {q : Addr} {cv : Cv}

/-- The thread `t` is asleep and has an entry in the wait queue `q`. -/
def AsleepOn (v : View) (q : Addr) (t : Tid) : Prop :=
  v.state t = .Sleep ∧ ∃ o es, v.queues q = some (o, es) ∧ t ∈ es

/-- **A sleeper stays in its wait queue until it is woken there.**

**Proof sketch.** By the transaction. The sleeper is not the current thread, so what that one does
to itself does not concern it. A wakeup of this thread is the one excepted: by `entries` it is the
entry in `q` that is taken out. No thread is killed, and no wait queue is freed. -/
lemma Synchronised.asleepOn_step (h : v.Synchronised) (hv : v.Valid) (hk : k.synchronises = true)
    (hs : Step v k v') (ht : v.AsleepOn q t) : v'.AsleepOn q t ∨ k = .wake q t := by
  obtain ⟨hsleep, o, es, hq, hmem⟩ := ht
  have hcur : t ≠ v.current := fun heq => h.awake (heq ▸ hsleep)
  cases hs with
  | @create num fn parg calls pos valid dead =>
    have hne : t ≠ num := by
      rintro rfl
      rw [dead] at hsleep
      cases hsleep
    exact .inl ⟨by simpa [hne] using hsleep, o, es, hq, hmem⟩
  | @sleep f p o₁ o₂ u es₁ ts calls sleeps access queue lock picks =>
    refine .inl ⟨by simpa [hcur] using hsleep, ?_⟩
    rcases eq_or_ne q p with rfl | hne
    · obtain ⟨rfl, rfl⟩ : o = o₂ ∧ es = es₁ := by simpa using hq.symm.trans queue
      exact ⟨o, pushEntry es v.current, by simp, mem_pushEntry_of_mem hmem⟩
    · exact ⟨o, es, by simpa [hne] using hq, hmem⟩
  | @sleepNone f p o₁ o₂ es₁ es₂ calls sleeps access queue lock ready last =>
    have hrunning := h.running (h.life.alive _ calls.alive)
    have hstill := h.orderly.sleptNone hv hrunning queue last
    exact .inl ⟨(congrFun hstill.state t).trans hsleep, o, es, (congrFun hstill.queues q).trans hq,
      hmem⟩
  | @wake f p o₁ o₂ u es₁ calls wakes access queue state =>
    rcases eq_or_ne u t with rfl | hne
    · -- the entry that is taken out is the one in `q`
      have hlive : v.state u ≠ .Destroyed := by
        rw [hsleep]
        decide
      have hdormant := (h.orderly.entries q o es hq u hmem hlive).2
      have hdormant' := (h.orderly.entries p _ _ queue u (List.mem_cons_self ..) hlive).2
      rw [hdormant] at hdormant'
      cases hdormant'
      exact .inr rfl
    · refine .inl ⟨by simpa [hne.symm] using hsleep, ?_⟩
      rcases eq_or_ne q p with rfl | hqp
      · obtain ⟨rfl, rfl⟩ : o = o₂ ∧ es = u :: es₁ := by simpa using hq.symm.trans queue
        exact ⟨o, es₁, by simp, (List.mem_cons.mp hmem).resolve_left hne.symm⟩
      · exact ⟨o, es, by simpa [hqp] using hq, hmem⟩
  | @die u killed rsp heap dies =>
    obtain rfl : killed = false := by simpa [Label.synchronises] using hk
    obtain ⟨rfl, -⟩ := dies.bySelf rfl
    exact .inl ⟨by simpa [hcur] using hsleep, o, es, by simpa using hq, hmem⟩
  | newLock | newCv =>
    have hne : q ≠ v.brk := (h.orderly.bound q o es hq).ne
    exact .inl ⟨hsleep, o, es, by simpa [hne] using hq, hmem⟩
  | called | returned | started | exit | discard | dispatch | take | give | newHalf =>
    exact .inl ⟨hsleep, o, es, hq, hmem⟩
  | _ => cases hk

/-- A condition variable keeps its wait queue. -/
lemma Pointed.cv_step (hp : v.Pointed) (hk : k.synchronises = true) (hs : Step v k v')
    (hc : v.cvs c = some cv) : v'.cvs c = some cv := by
  cases hs with
  | @newCv b alive fn =>
    have hne : c ≠ b := by
      rintro rfl
      have hhalf := hp.making v.current .cvCreate c alive fn rfl
      cases hp.unique c _ _ hhalf (.cv (hp.cvs c cv hc))
    simpa [hne] using hc
  | die => simpa using hc
  | dieTo => cases hk
  | dieBack => cases hk
  | dropCv => cases hk
  | _ => exact hc

end View

/-- The entries of the wait queue of the condition variable `c`. -/
def cvQueue (m : Machine) (c : Addr) : List Tid :=
  ((m.cvs c).bind fun cv => m.waitQueues cv.queue).elim [] fun wq => wq.queue.entries

/-- The threads asleep on the condition variable `c` according to the history, the one asleep
longest first. -/
def cvSleepers (m : Machine) (c : Addr) : List Tid :=
  (m.cvs c).elim [] fun cv => sleepers cv.queue m.trace

/-- The thread `t` is asleep and has exactly one entry in the wait queue of `c`. -/
structure Waiting (m : Machine) (c : Addr) (t : Tid) : Prop where
  state : (m.threads t).state = .Sleep
  entry : (cvQueue m c).count t = 1

/-- The condition variable `c`, its wait queue, and the entries there. -/
structure CvAt (m : Machine) (c : Addr) (cv : Cv) (wq : WaitQueue) : Prop where
  cvAt : m.cvs c = some cv
  queueAt : m.waitQueues cv.queue = some wq

section CvAt

variable {cv : Cv} {wq : WaitQueue}

/-- The entries of the wait queue of the condition variable. -/
lemma CvAt.cvQueue_eq (h : CvAt m c cv wq) : cvQueue m c = wq.queue.entries := by
  simp [cvQueue, h.cvAt, h.queueAt]

/-- The wait queue of the condition variable, in the view. -/
lemma CvAt.queues_eq (h : CvAt m c cv wq) :
    (abs m).queues cv.queue = some (wq.owner, wq.queue.entries) := by
  simp [h.queueAt, absQueue]

/-- A thread with an entry has it in a wait queue. -/
lemma cvAt_of_mem (h : t ∈ cvQueue m c) : ∃ cv wq, CvAt m c cv wq := by
  cases hc : m.cvs c with
  | none => simp [cvQueue, hc] at h
  | some cv =>
    cases hq : m.waitQueues cv.queue with
    | none => simp [cvQueue, hc, hq] at h
    | some wq => exact ⟨cv, wq, hc, hq⟩

/-- The sleepers with an entry are waiting. -/
lemma CvAt.waiting_iff (h : CvAt m c cv wq) (ho : (abs m).Orderly) :
    Waiting m c t ↔ (abs m).AsleepOn cv.queue t := by
  have hq := h.queues_eq
  constructor
  · rintro ⟨hst, hcount⟩
    rw [h.cvQueue_eq] at hcount
    exact ⟨hst, _, _, hq, List.count_pos_iff.mp (by omega)⟩
  · rintro ⟨hst, o, es, hq', hmem⟩
    obtain ⟨-, rfl⟩ : wq.owner = o ∧ wq.queue.entries = es := by simpa using hq.symm.trans hq'
    refine ⟨hst, ?_⟩
    rw [h.cvQueue_eq]
    exact List.count_eq_one_of_mem (ho.nodup _ _ _ hq) hmem

end CvAt

/-! ## What ends the wait -/

/-- The threads that `thread_wakeup` makes Running have entries. -/
lemma mem_wakeList {all : ℤ} {state : Tid → State} {es : List Tid}
    (h : t ∈ wakeList all state es) : t ∈ es := by
  induction es generalizing state with
  | nil => simp [wakeList] at h
  | cons u es ih =>
    rw [wakeList] at h
    cases hst : state u with
    | Running => simp [hst] at h
    | Destroyed =>
      rw [hst] at h
      exact List.mem_cons_of_mem _ (ih h)
    | Sleep =>
      rw [hst] at h
      dsimp only at h
      split_ifs at h
      · simpa using Or.inl (List.mem_singleton.mp h)
      · rcases List.mem_cons.mp h with rfl | hmem
        · exact List.mem_cons_self ..
        · exact List.mem_cons_of_mem _ (ih hmem)

/-- A sleeper that `thread_wakeup(q, ..)` makes Running is asleep on `q`. -/
lemma asleepOn_of_mem_wakes {q : Addr} {all : ℤ} (ht : (m.threads t).state = .Sleep)
    (h : t ∈ wakes m q all) : (abs m).AsleepOn q t := by
  rw [wakes] at h
  cases hq : m.waitQueues q with
  | none =>
    rw [hq] at h
    cases h
  | some wq =>
    rw [hq] at h
    exact ⟨ht, wq.owner, wq.queue.entries, by simp [hq, absQueue], mem_wakeList h⟩

/-- A thread is asleep on one wait queue at most. -/
lemma View.AsleepOn.unique {v : View} {p q : Addr} (ho : v.Orderly) (hp : v.AsleepOn p t)
    (hq : v.AsleepOn q t) : p = q := by
  obtain ⟨hsleep, o, es, hp, hmem⟩ := hp
  obtain ⟨-, o', es', hq, hmem'⟩ := hq
  have hlive : v.state t ≠ .Destroyed := by
    rw [hsleep]
    decide
  have hdormant := (ho.entries p o es hp t hmem hlive).2
  rw [(ho.entries q o' es' hq t hmem' hlive).2] at hdormant
  cases hdormant
  rfl

/-- **A thread that waits goes on waiting, unless the step pushes it onto `thread_queue`.**

**Proof sketch.** Along the transactions of the step, the thread stays asleep on the wait queue
until it is woken there (`asleepOn_step`), and whom a step wakes it pushes. -/
lemma ReachableBy.waiting_step (h : ReachableBy Synchronises m) (hok : Synchronises m a)
    (hs : step m a = some m') (hrun : ¬ Stopped m') (ht : Waiting m c t) :
    Waiting m' c t ∨ t ∈ pushes m a := by
  have hrunm : ¬ Stopped m := fun hst => by
    rw [hst.step_none] at hs
    cases hs
  obtain ⟨hb, hsync⟩ := h.synchronised hrunm
  obtain ⟨hpointed, -⟩ := ReachableBy.locking h hrunm
  obtain ⟨cv, wq, hat⟩ := cvAt_of_mem (t := t) (List.count_pos_iff.mp (by rw [ht.entry]; omega))
  obtain ⟨-, hpath⟩ := (step_refines hb hs).resolve_left hrun
  have hend := hpath.invariant (I := fun v => v.Synchronised ∧ v.Valid ∧ v.Pointed ∧
      v.cvs c = some cv ∧ (v.AsleepOn cv.queue t ∨ t ∈ pushes m a)) ?_
    ⟨hsync, hb.valid, hpointed, hat.cvAt, .inl ((hat.waiting_iff hsync.orderly).mp ht)⟩
  · obtain ⟨hsync', -, -, hc, hmay⟩ := hend
    refine hmay.imp_left fun ⟨hst, o, es, hq, hmem⟩ => ?_
    obtain ⟨wq', hwq', -⟩ := waitQueue_of_abs hq
    exact (CvAt.waiting_iff ⟨hc, hwq'⟩ hsync'.orderly).mpr ⟨hst, o, es, hq, hmem⟩
  · rintro v k v' ⟨hv, hvalid, hp, hc, hmay⟩ hperm hs
    have hk := hv.label hvalid (hok.called hperm) hs
    refine ⟨hv.step hvalid (hok.called hperm) hs, hs.valid hvalid,
      hp.step hv.life (View.entitled_of_permits hperm) hs, hp.cv_step hk hs hc, ?_⟩
    rcases hmay with hasleep | hpushed
    · refine (hv.asleepOn_step hvalid hk hs hasleep).imp_right fun hwake => ?_
      subst hwake
      obtain ⟨before, after, heq, -⟩ := hperm
      rw [heq]
      simp
    · exact .inr hpushed

/-- The action is a `cv_signal` or a `cv_broadcast` on `c`. -/
def Action.signals (c : Addr) : Action → Bool
  | .call (.cvSignal c' _) => c' = c
  | .call (.cvBroadcast c' _) => c' = c
  | _ => false

/-- Different condition variables have different wait queues. -/
lemma View.Pointed.cv_unique {v : View} (hp : v.Pointed) {c' : Addr} {cv cv' : Cv}
    (hc : v.cvs c = some cv) (hc' : v.cvs c' = some cv') (hq : cv.queue = cv'.queue) : c = c' := by
  have hrefers' : v.Refers cv.queue (.queue (.cv c')) := hq ▸ Refers.cvQueue hc'
  cases hp.unique _ _ _ (.cvQueue hc) hrefers'
  rfl

/-- **Only a signal or a broadcast on the condition variable pushes a thread that waits there.**

**Proof sketch.** What a step pushes is the new thread of `thread_create`, which was dead, or the
threads that a wakeup takes out of a wait queue. A waiting thread has its only entry in the queue of
`c`, so it is that queue; a lock has another one (`hpointed.unique`). -/
lemma ReachableBy.signals_of_pushes (h : ReachableBy Synchronises m) (hrun : ¬ Stopped m)
    (hok : Synchronises m a) (ht : Waiting m c t) (hpush : t ∈ pushes m a) :
    a.signals c = true := by
  obtain ⟨-, hsync⟩ := h.synchronised hrun
  obtain ⟨hpointed, -⟩ := ReachableBy.locking h hrun
  obtain ⟨cv, wq, hat⟩ := cvAt_of_mem (t := t) (List.count_pos_iff.mp (by rw [ht.entry]; omega))
  have hasleep := (hat.waiting_iff hsync.orderly).mp ht
  -- the wait queue of a lock is another one
  have hlock {l : Addr} (hmem : t ∈ (m.locks l).elim [] fun lock => wakes m lock.queue 1) :
      False := by
    cases hl : m.locks l with
    | none => simp [hl] at hmem
    | some lock =>
      rw [hl] at hmem
      have hq := (asleepOn_of_mem_wakes ht.state hmem).unique hsync.orderly hasleep
      have hrefers : (abs m).Refers lock.queue (.queue (.cv c)) :=
        hq ▸ View.Refers.cvQueue hat.cvAt
      cases hpointed.unique _ _ _ (.lockQueue hl) hrefers
  have hcv {b : Addr} {all : ℤ} (hmem : t ∈ (m.cvs b).elim [] fun cv => wakes m cv.queue all) :
      b = c := by
    cases hb : m.cvs b with
    | none => simp [hb] at hmem
    | some cv' =>
      rw [hb] at hmem
      exact hpointed.cv_unique hb hat.cvAt
        ((asleepOn_of_mem_wakes ht.state hmem).unique hsync.orderly hasleep)
  cases a with
  | tick => cases hpush
  | exec =>
    rw [pushes, deathPushes, heir, show (m.threads m.currentThread).waiter = -1 from
      hsync.waiter _] at hpush
    simp at hpush
  | call f =>
    have hf := hok.1
    cases f with
    | threadCreate fn parg =>
      have hnum : threadNumToCreate m = some t := by simpa [pushes] using hpush
      obtain ⟨-, -, hdead⟩ := threadNumToCreate_eq_some hnum
      rw [ht.state] at hdead
      cases hdead
    | threadYield tid =>
      obtain rfl : tid = THREAD_ANY := by simpa [Fn.synchronises] using hf
      have hnot : ¬ NamesOther m THREAD_ANY := fun hn => absurd hn.2.1 (by decide)
      rw [pushes, if_neg hnot] at hpush
      cases hpush
    | lockRelease l => exact (hlock hpush).elim
    | cvWait b l => exact (hlock hpush).elim
    | cvSignal b l => exact decide_eq_true (hcv hpush)
    | cvBroadcast b l => exact decide_eq_true (hcv hpush)
    | threadReturn => cases hpush
    | lockCreate => cases hpush
    | cvCreate => cases hpush
    | lockAcquire => cases hpush
    | _ => cases hf

/-! ## `cv_signal` and `cv_broadcast` -/

/-- The entries of wait queues are asleep. -/
lemma View.Synchronised.asleep {v : View} (h : v.Synchronised) {q : Addr} {o : Owner}
    {es : List Tid} (hq : v.queues q = some (o, es)) (ht : t ∈ es) : v.state t = .Sleep :=
  (h.orderly.entries q o es hq t ht (h.alive q o es hq t ht)).1

/-- User code has only pointers to condition variables that are there. -/
lemma ReachableBy.cvAt (h : ReachableBy Synchronises m) (hrun : ¬ Stopped m) (hc : c ≠ NULL)
    (hgave : Pointer m .cvCreate c) : ∃ cv wq, CvAt m c cv wq := by
  have hgiven : Fn.Given m.trace (.cvDestroy c) := ⟨hc, hgave.resolve_left hc⟩
  obtain ⟨-, hsync⟩ := h.synchronised hrun
  have hnot : ¬ Called (.cvDestroy c) m.trace := fun hcalled => by
    have hf := hsync.calls _ hcalled
    cases hf
  obtain ⟨cv, es, hcv, hq⟩ := (h.tidy_of_synchronises hrun).intact.untouched _ hgiven hnot
  obtain ⟨wq, hwq, -⟩ := waitQueue_of_abs hq
  exact ⟨cv, wq, hcv, hwq⟩

/-- The same for locks. -/
lemma ReachableBy.lockAt (h : ReachableBy Synchronises m) (hrun : ¬ Stopped m) (hl : l ≠ NULL)
    (hgave : Gave .lockCreate l m.trace) :
    ∃ lock wq, m.locks l = some lock ∧ m.waitQueues lock.queue = some wq := by
  obtain ⟨-, hsync⟩ := h.synchronised hrun
  have hnot : ¬ Called (.lockDestroy l) m.trace := fun hcalled => by
    have hf := hsync.calls _ hcalled
    cases hf
  obtain ⟨lock, es, hlock, hq⟩ :=
    (h.tidy_of_synchronises hrun).intact.untouched _ (show Fn.Given m.trace (.lockDestroy l) from
      ⟨hl, hgave⟩) hnot
  obtain ⟨wq, hwq, -⟩ := waitQueue_of_abs hq
  exact ⟨lock, wq, hlock, hwq⟩

/-- The entries are the threads asleep on the condition variable, in their order. -/
lemma CvAt.cvSleepers_eq {cv : Cv} {wq : WaitQueue} (h : CvAt m c cv wq)
    (hs : (abs m).Synchronised) : cvSleepers m c = cvQueue m c := by
  have hroster := hs.roster _ _ _ h.queues_eq
  rw [h.cvQueue_eq, cvSleepers, h.cvAt]
  refine Eq.trans hroster (List.filter_eq_self.mpr fun u hu => ?_)
  simpa using hs.alive _ _ _ h.queues_eq u hu

/-- The threads that a wakeup of the condition variable makes Running: the one asleep longest,
or all of them. -/
lemma CvAt.wakes_eq {cv : Cv} {wq : WaitQueue} (h : CvAt m c cv wq) (hs : (abs m).Synchronised)
    (all : ℤ) :
    wakes m cv.queue all = if all = 0 then (cvSleepers m c).take 1 else cvSleepers m c := by
  have hq := h.queues_eq
  have hrun : ∀ u ∈ wq.queue.entries, (m.threads u).state ≠ .Running := fun u hu => by
    rw [show (m.threads u).state = .Sleep from hs.asleep hq hu]
    decide
  have hlive : wq.queue.entries.filter (fun u => (m.threads u).state ≠ .Destroyed) =
      wq.queue.entries := List.filter_eq_self.mpr fun u hu => by simpa using hs.alive _ _ _ hq u hu
  rw [wakes, h.queueAt]
  dsimp only
  rw [wakeList_eq (hs.orderly.nodup _ _ _ hq) hrun, hlive, h.cvSleepers_eq hs, h.cvQueue_eq]

/-- The waiting threads of a condition variable are those asleep on it. -/
lemma CvAt.waiting_iff_mem {cv : Cv} {wq : WaitQueue} (h : CvAt m c cv wq)
    (hs : (abs m).Synchronised) : Waiting m c t ↔ t ∈ cvSleepers m c := by
  rw [h.cvSleepers_eq hs]
  constructor
  · exact fun ht => List.count_pos_iff.mp (by rw [ht.entry]; omega)
  · intro ht
    rw [h.cvQueue_eq] at ht
    exact (h.waiting_iff hs.orderly).mpr ⟨hs.asleep h.queues_eq ht, _, _, h.queues_eq, ht⟩

/-- The step from `m` to `m'` makes the threads `ws` Running, of those that wait on `c`, and
returns to its caller. -/
structure Rouses (m : Machine) (c : Addr) (ws : List Tid) (m' : Machine) : Prop where
  control : m'.control = .user
  current : m'.currentThread = m.currentThread
  waiting : ∀ t, Waiting m c t ↔ t ∈ cvSleepers m c
  state : ∀ t, (m'.threads t).state = if t ∈ ws then .Running else (m.threads t).state

/-- **`cv_signal` and `cv_broadcast`** wake the thread asleep longest, or all.

**Proof sketch.** The assertions hold, and `thread_wakeup` returns (`threadWakeup_returns`), since
all entries are of sleeping threads. For the same reason what it wakes are the first of the
sleepers, or all of them (`wakes_eq`). -/
lemma ReachableBy.cvWakeup_rouses (h : ReachableBy Synchronises m) (hrun : ¬ Stopped m) {f : Fn}
    (hc : c ≠ NULL) (hl : l ≠ NULL) (hown : OwnsLock m l) (hgave : Pointer m .cvCreate c)
    (all : ℤ) :
    Rouses m c (if all = 0 then (cvSleepers m c).take 1 else cvSleepers m c)
      (andThen (cvWakeup all c l (calledAt m f)) fun _ m => userReturn f ⟨0, none⟩ m) := by
  obtain ⟨hb, hsync⟩ := h.synchronised hrun
  obtain ⟨cv, wq, hat⟩ := h.cvAt hrun hc hgave
  obtain ⟨lock, hlock, hcur⟩ := hown
  have hq := hat.queues_eq
  set m₀ := (calledAt m f).interruptsSet false with hm₀
  have hstate : ∀ u ∈ wq.queue.entries, (m₀.threads u).state ≠ .Running := fun u hu => by
    rw [show (m₀.threads u).state = .Sleep from hsync.asleep hq hu]
    decide
  obtain ⟨m₁, hm₁, hwoken⟩ := threadWakeup_returns (m := m₀) (hb.valid.retrace ..) hat.queueAt
    (hsync.orderly.nodup _ _ _ hq) hstate all
  rw [show wakes m₀ cv.queue all = _ from hat.wakes_eq hsync all] at hwoken
  have hret : cvWakeup all c l (calledAt m f) =
      .ret () (m₁.interruptsSet m.interrupts) := by
    rw [cvWakeup, if_neg hc, if_neg hl]
    simp only [Machine.interruptsSet_locks, Machine.emit_locks,
      show m.locks l = some lock from hlock,
      Machine.interruptsSet_currentThread, Machine.emit_currentThread, if_neg (not_not.mpr hcur),
      Machine.interruptsSet_cvs, Machine.emit_cvs, hat.cvAt]
    rw [← hm₀, hm₁]
    rfl
  rw [hret]
  exact ⟨rfl, hwoken.keeps.current, fun t => hat.waiting_iff_mem hsync, hwoken.state⟩

/-! ## `cv_wait` -/

/-- The event does not give the processor to a thread. -/
def Event.stays : Event → Bool
  | .switched _ => false
  | _ => true

/-- Nobody has been given the processor between the two histories. -/
abbrev Stayed (tr tr' : List Event) : Prop := Adds (fun e => e.stays = true) tr tr'

/-- The loop of `thread_wakeup` gives the processor to nobody. -/
lemma threadWakeupLoop_stayed (q : Addr) (all : ℤ) {tr : List Event} (n : ℕ) :
    ∀ (wq : WaitQueue) (num : ℤ) (m : Machine), Stayed tr m.trace →
      (threadWakeupLoop q all n wq num m).All (fun _ m' => Stayed tr m'.trace) fun _ => True := by
  induction n with
  | zero => exact fun _ _ _ h => h
  | succ n ih =>
    intro wq num m h
    have hwoken (t : Tid) (wq' : WaitQueue) : Stayed tr (wokenOne m q wq' t).trace := by
      rw [wokenOne, Machine.pushReady_trace, pushTrace_eq]
      exact adds_pushTrace (h.cons rfl) fun _ _ => rfl
    rw [threadWakeupLoop]
    dsimp only
    split_ifs
    · exact h
    · trivial
    · exact hwoken _ _
    · exact ih _ _ _ (hwoken _ _)
    · exact ih _ _ _ h

/-- `thread_wakeup` gives the processor to nobody. -/
lemma threadWakeup_stayed (q : Addr) (all : ℤ) (m : Machine) :
    (threadWakeup q all m).All (fun _ m' => Stayed m.trace m'.trace) fun _ => True := by
  rw [threadWakeup]
  split_ifs
  · exact Adds.refl _ _
  · dsimp only
    split
    · trivial
    · next wq _ =>
      have hloop := threadWakeupLoop_stayed q all (wq.queue.size + 1) wq 0
        (m.interruptsSet false) (Adds.refl _ m.trace)
      exact hloop.bind fun _ _ h => h

/-- **`lock_release`** by the owner of the lock wakes its sleepers and gives the processor to
nobody. -/
lemma lockRelease_returns {lock : Lock} {wq : WaitQueue} (hv : (abs m).Valid) (hl0 : l ≠ NULL)
    (hl : m.locks l = some lock) (hown : lock.current = m.currentThread)
    (hq : m.waitQueues lock.queue = some wq) (hnodup : wq.queue.entries.Nodup)
    (hrun : ∀ u ∈ wq.queue.entries, (m.threads u).state ≠ .Running) :
    ∃ m₁, lockRelease l m = .ret () (m₁.interruptsSet m.interrupts) ∧
      Stayed m.trace m₁.trace ∧
      Woken lock.queue 1 (wakes m lock.queue 1)
        ((m.interruptsSet false).setLock l (some { lock with current := -1 })) m₁ := by
  set m₀ := (m.interruptsSet false).setLock l (some { lock with current := -1 }) with hm₀
  have hqueue : (abs m).queues lock.queue = some (wq.owner, wq.queue.entries) := by
    simp [hq, absQueue]
  have hv₀ : (abs m₀).Valid := hv.retrace ..
  obtain ⟨m₁, hm₁, hwoken⟩ := threadWakeup_returns hv₀ hq hnodup hrun 1
  refine ⟨m₁, ?_, ?_, hwoken⟩
  · rw [lockRelease, if_neg hl0]
    simp only [Machine.interruptsSet_locks, hl, Machine.interruptsSet_currentThread,
      if_neg (not_not.mpr hown)]
    rw [← hm₀, hm₁]
    rfl
  · have hstayed := threadWakeup_stayed lock.queue 1 m₀
    rw [hm₁] at hstayed
    exact hstayed

/-- The machine `m₁` in a `cv_wait` of the current thread of `m`, between its `lock_release` and
its `thread_sleep`. -/
structure Between (m : Machine) (c l : Addr) (cv : Cv) (wq : WaitQueue) (m₁ : Machine) : Prop where
  valid : (abs m₁).Valid
  current : m₁.currentThread = m.currentThread
  interrupts : m₁.interrupts = false
  stayed : Stayed m.trace m₁.trace
  state : ∀ t, (m₁.threads t).state =
    if t ∈ pushes m (.call (.cvWait c l)) then .Running else (m.threads t).state
  alive : ∀ t, (m₁.threads t).state ≠ .Destroyed → (m.threads t).state ≠ .Destroyed
  ucontext : ∀ t, (m₁.threads t).ucontext = (m.threads t).ucontext
  ready : m₁.threadQueue.entries = pushAll m.threadQueue.entries (pushes m (.call (.cvWait c l)))
  lock : ∃ lock, m₁.locks l = some lock ∧ lock.current = -1
  cvAt : CvAt m₁ c cv wq

/-- **`cv_wait`** releases the lock and comes to its `thread_sleep`.

**Proof sketch.** The assertions hold, so the call comes to its `lock_release`, which returns
(`lockRelease_returns`): the entries of a wait queue are sleeping threads. It frees the lock and
wakes its first sleeper. The wait queue of the condition variable is not that of the lock, so it is
as it was. -/
lemma ReachableBy.cvWait_between (h : ReachableBy Synchronises m) (hrun : ¬ Stopped m)
    (hok : Asserted m (.cvWait c l)) (hu : m.control = .user)
    (hadm : (Fn.cvWait c l).Admissible m) :
    ∃ cv wq m₁, CvAt m c cv wq ∧ Between m c l cv wq m₁ ∧
      call (.cvWait c l) m = andThen ((threadSleep cv.queue
        [.cvWaitSleep l m.interrupts, .user (.cvWait c l)] m₁).bind fun _ m' =>
          cvWaitAfterSleep l m.interrupts [.user (.cvWait c l)] m')
        fun _ m' => userReturn (.cvWait c l) ⟨0, none⟩ m' := by
  obtain ⟨hc0, hl0, lock, hlock, hcur⟩ := hok
  obtain ⟨hb, hsync⟩ := h.synchronised hrun
  obtain ⟨hpointed, -⟩ := ReachableBy.locking h hrun
  obtain ⟨cv, wq, hat⟩ := h.cvAt hrun hc0 hadm.1
  obtain ⟨lock', lwq, hlock', hlwq⟩ := h.lockAt hrun hl0 (hadm.2.resolve_left hl0)
  obtain rfl : lock = lock' := Option.some.inj (Eq.trans (Eq.symm hlock) hlock')
  have hcontrol := hb.control
  rw [ControlOk, hu] at hcontrol
  obtain ⟨hi, hprogress⟩ := hcontrol
  set m₀ := (calledAt m (.cvWait c l)).interruptsSet false with hm₀
  have hi₀ : Inside m₀ := (keeps_interruptsSet ..).inside
    ((keeps_calledAt m (.cvWait c l)).inside hi hi.state) hi.state
  have hrun₀ : Run (fun _ _ => True) (abs m₀) m₀ := ⟨hb.valid.retrace .., hi₀, .refl⟩
  have hq : (abs m).queues lock.queue = some (lwq.owner, lwq.queue.entries) := by
    simp [hlwq, absQueue]
  have hstate : ∀ u ∈ lwq.queue.entries, (m₀.threads u).state ≠ .Running := fun u hu => by
    rw [show (m₀.threads u).state = .Sleep from hsync.asleep hq hu]
    decide
  obtain ⟨m₁, hm₁, hstayed, hwoken⟩ := lockRelease_returns (m := m₀) hrun₀.valid hl0 hlock hcur hlwq
    (hsync.orderly.nodup _ _ _ hq) hstate
  have hback := hrun₀.lockRelease_spec (f := .cvWait c l) (l := l) (fun _ _ _ => trivial)
    (calls_calledAt hi _) (by simp [Fn.wakesOn]) (by simp [Fn.releases])
    (by simp [hm₀, Fn.releases])
    fun _ _ _ _ _ _ _ _ => trivial
  rw [hm₁] at hback
  have hpushes : pushes m (.call (.cvWait c l)) = wakes m lock.queue 1 := by
    rw [pushes, show m.locks l = some lock from hlock]
    rfl
  -- the wait queue of the condition variable is another one
  have hne : cv.queue ≠ lock.queue := fun heq => by
    have hrefers : (abs m).Refers lock.queue (.queue (.cv c)) := heq ▸ View.Refers.cvQueue hat.cvAt
    cases hpointed.unique _ _ _ (.lockQueue hlock) hrefers
  refine ⟨cv, wq, m₁.interruptsSet false, hat, ⟨hback.1.run.valid, hwoken.keeps.current, rfl,
    ?_, fun t => ?_, hwoken.keeps.state, fun t => (hwoken.keeps.ucontext t).trans rfl, ?_,
    hback.2.1, ?_⟩, ?_⟩
  · exact hstayed.invariant (I := Stayed m.trace) ((Adds.refl _ _).cons rfl)
      fun _ _ he hold => hold.cons he
  · rw [hpushes]
    exact hwoken.state t
  · rw [hpushes]
    exact hwoken.ready
  · exact ⟨(congrFun hwoken.cvs c).trans hat.cvAt, (hwoken.others _ hne).trans hat.queueAt⟩
  · show andThen (cvWait c l [.user (.cvWait c l)] (calledAt m (.cvWait c l))) _ = _
    rw [cvWait, if_neg hc0, if_neg hl0]
    simp only [Machine.interruptsSet_locks, Machine.emit_locks,
      show m.locks l = some lock from hlock, Machine.interruptsSet_currentThread,
      Machine.emit_currentThread, if_neg (not_not.mpr hcur)]
    rw [← hm₀, hm₁]
    simp only [Outcome.bind_ret, Machine.interruptsSet_cvs,
      show m₁.cvs c = some cv from (congrFun hwoken.cvs c).trans hat.cvAt]
    rfl

/-- The entry that `thread_sleep` makes is the last one. -/
lemma CvAt.popLast_push {cv : Cv} {wq : WaitQueue} (h : CvAt m c cv wq) (hb : Base m)
    (ho : (abs m).Orderly) (t : Tid) :
    (wq.queue.push t).popLast.1 = t ∧ (wq.queue.push t).popLast.2.entries = wq.queue.entries :=
  Queue.popLast_of_append ((Queue.entries_push_eq ..).trans (ho.pushEntry hb.valid h.queues_eq t))

/-- What `cv_wait` leaves when it gives the processor away: its caller is asleep behind the other
entries of the condition variable, and up to the entry nobody has been given the processor. -/
structure FallsAsleep (m : Machine) (c : Addr) (m' : Machine) : Prop where
  running : ¬ Stopped m'
  current : m'.currentThread ≠ m.currentThread
  waiting : Waiting m' c m.currentThread
  queue : cvQueue m' c = cvQueue m c ++ [m.currentThread]
  atomic : ∃ cv tr, m.cvs c = some cv ∧ Stayed m.trace tr ∧
    ∃ later, m'.trace = later ++ .slept m.currentThread cv.queue :: tr

/-- What `cv_wait` leaves when its `thread_sleep` fails: the entry is gone, its caller goes on with
the lock, Running threads stay so, and none of the entries of `thread_queue` was of another one. -/
structure GoesOn (m : Machine) (c l : Addr) (m' : Machine) : Prop where
  control : m'.control = .user
  current : m'.currentThread = m.currentThread
  owns : OwnsLock m' l
  awake : (m'.threads m.currentThread).state = .Running
  others : ∀ t, (m.threads t).state = .Running → (m'.threads t).state = .Running
  queue : cvQueue m' c = cvQueue m c
  useless : ∀ t ∈ pushAll m.threadQueue.entries (pushes m (.call (.cvWait c l))),
    t ≠ m.currentThread → (m'.threads t).state ≠ .Running
  ready : m'.threadQueue.entries = []

/-- The processor goes to another thread.

**Proof sketch.** The state is that of the `thread_sleep` of the call behind its switch to `t`. `t`
was alive before the call, so its context is saved and the switch succeeds. The caller has been
pushed to the end of the wait queue, once. -/
lemma Between.fallsAsleep {cv : Cv} {wq : WaitQueue} {m₁ : Machine} {q' : Queue} {k : Stack}
    (h : Between m c l cv wq m₁) (hat : CvAt m c cv wq) (hb : Base m) (hsync : (abs m).Synchronised)
    (hne : t ≠ m₁.currentThread) (hrunning : (m₁.threads t).state = .Running)
    (hm' : m' = threadYieldSwitch false t k
      (((asleepAt m₁ cv.queue wq).interruptsSet false).setThreadQueue q')) :
    FallsAsleep m c m' := by
  set m₂ := ((asleepAt m₁ cv.queue wq).interruptsSet false).setThreadQueue q' with hm₂
  have habs : abs m' = (((abs m₁).asleep m₁.currentThread cv.queue wq.owner
      wq.queue.entries).setReady q'.entries).switchTo t := by
    rw [hm', abs_threadYieldSwitch, hm₂, abs_setThreadQueue, abs_interruptsSet, abs_asleepAt]
  have hne' : t ≠ m.currentThread := h.current ▸ hne
  have hlive : (m.threads t).state ≠ .Destroyed := h.alive t (by rw [hrunning]; decide)
  obtain ⟨-, kt, hkt, -⟩ := hb.parkedAt hne' hlive
  have hcontrol : m'.control = .resumed kt := by
    rw [hm']
    refine threadYieldSwitch_control (m := m₂) (c := ⟨(m.threads t).stackStart, false, kt⟩) hne ?_
    have hslot : (m₂.threads t).ucontext = (m₁.threads t).ucontext := by simp [hm₂, hne]
    rw [hslot, h.ucontext, hkt]
  have hcv : m'.cvs c = some cv := (congrFun (congrArg View.cvs habs) c).trans h.cvAt.cvAt
  have hqueue :
      (abs m').queues cv.queue = some (wq.owner, wq.queue.entries ++ [m.currentThread]) := by
    rw [habs, ← h.current, ← hsync.orderly.pushEntry hb.valid hat.queues_eq]
    simp
  obtain ⟨wq', hwq', -, hentries⟩ := waitQueue_of_abs hqueue
  have hat' : CvAt m' c cv wq' := ⟨hcv, hwq'⟩
  have hadd : cvQueue m' c = cvQueue m c ++ [m.currentThread] := by
    rw [hat'.cvQueue_eq, hat.cvQueue_eq]
    exact hentries
  refine ⟨?_, ?_, ⟨?_, ?_⟩, hadd, ?_⟩
  · unfold Stopped
    simp [hcontrol]
  · have hcur : m'.currentThread = t := congrArg View.current habs
    rwa [hcur]
  · have hstate := congrFun (congrArg View.state habs) m.currentThread
    simpa [h.current] using hstate
  · -- a thread that runs has no entry
    have hnot : m.currentThread ∉ cvQueue m c := fun hmem => by
      rw [hat.cvQueue_eq] at hmem
      exact hsync.awake (hsync.asleep hat.queues_eq hmem)
    rw [hadd, List.count_append, List.count_eq_zero_of_not_mem hnot]
    simp
  · refine ⟨cv, m₁.trace, hat.cvAt, h.stayed, ?_⟩
    have htrace : m'.trace = .switched t :: pushTrace q'.entries m₁.currentThread
        (.slept m₁.currentThread cv.queue :: m₁.trace) := congrArg View.trace habs
    rw [htrace, h.current, pushTrace]
    split_ifs
    · exact ⟨[_, _], rfl⟩
    · exact ⟨[_], rfl⟩

/-- The processor stays where it is.

**Proof sketch.** The `thread_sleep` finds no thread and takes its entry back (`popLast_push`). The
`lock_acquire` behind it finds the lock free, since no other thread has run, and `cv_wait` returns
with it. -/
lemma Between.goesOn {cv : Cv} {wq : WaitQueue} {m₁ : Machine} {q' : Queue} {s : Bool}
    (h : Between m c l cv wq m₁) (hat : CvAt m c cv wq) (hb : Base m) (hsync : (abs m).Synchronised)
    (hl : l ≠ NULL) (hnil : q'.entries = []) (huse : ∀ t ∈ m₁.threadQueue.entries, Useless m₁ t)
    (hm' : m' = andThen (cvWaitAfterSleep l s [.user (.cvWait c l)]
      (sleptNoneAt m₁ cv.queue wq q')) fun _ m' => userReturn (.cvWait c l) ⟨0, none⟩ m') :
    GoesOn m c l m' := by
  obtain ⟨lock, hlock, hfree⟩ := h.lock
  set m₂ := sleptNoneAt m₁ cv.queue wq q' with hm₂
  have hint : m₂.interrupts = false := h.interrupts
  have hlock₂ : m₂.locks l = some lock := hlock
  have hret : cvWaitAfterSleep l s [.user (.cvWait c l)] m₂ =
      .ret () ((((m₂.interruptsSet false).setLock l
        (some { lock with current := m₂.currentThread })).interruptsSet m₂.interrupts).interruptsSet
          s) := by
    rw [cvWaitAfterSleep, hint, if_neg (by decide), lockAcquire, if_neg hl, lockAcquireLoop]
    simp only [Machine.interruptsSet_locks, hlock₂, hfree, hint]
    rfl
  rw [hret] at hm'
  obtain ⟨-, hrest⟩ := hat.popLast_push hb hsync.orderly m₁.currentThread
  have hat' : CvAt m' c cv { wq with queue := (wq.queue.push m₁.currentThread).popLast.2 } := by
    rw [hm']
    exact ⟨h.cvAt.cvAt, Function.update_self ..⟩
  have hthreads : m'.threads = m₂.threads := by
    rw [hm']
    rfl
  have hcur : m'.currentThread = m.currentThread := by
    rw [hm']
    exact h.current
  have hstate {u : Tid} (hne : u ≠ m₁.currentThread) :
      (m'.threads u).state = (m₁.threads u).state := by
    rw [hthreads]
    simp [hm₂, hne]
  have hawake : (m'.threads m.currentThread).state = .Running := by
    rw [hthreads, ← h.current]
    simp [hm₂]
  refine ⟨by rw [hm']; rfl, hcur, ?_, hawake, fun u hu => ?_, ?_, fun u hu hne => ?_, ?_⟩
  · refine ⟨{ lock with current := m₂.currentThread }, ?_, ?_⟩
    · rw [hm']
      exact Function.update_self ..
    · exact h.current.trans hcur.symm
  · rcases eq_or_ne u m.currentThread with rfl | hne
    · exact hawake
    · rw [hstate (by rwa [h.current]), h.state, hu, ite_self]
  · rw [hat'.cvQueue_eq, hat.cvQueue_eq]
    exact hrest
  · rw [← h.ready] at hu
    rw [← h.current] at hne
    rw [hstate hne]
    exact fun hrunning => huse u hu ⟨hrunning, hne⟩
  · rw [hm']
    exact hnil

/-- The entry `t` of `thread_queue` is of another thread, which is Running or is made so by the
`lock_release` in `cv_wait`. -/
def Eligible (m : Machine) (c l : Addr) (t : Tid) : Prop :=
  t ≠ m.currentThread ∧ (t ∈ pushes m (.call (.cvWait c l)) ∨ (m.threads t).state = .Running)

/-- A call of `cv_wait` by the owner of the lock, and what decides whether it sleeps.

**Proof sketch.** `cvWait_between` brings the call to its `thread_sleep`, which switches to an
eligible thread (`fallsAsleep`), or finds none and returns (`goesOn`). -/
lemma ReachableBy.cvWait_cases (h : ReachableBy Synchronises m)
    (hok : Synchronises m (.call (.cvWait c l))) (hs : step m (.call (.cvWait c l)) = some m') :
    (∃ t ∈ pushAll m.threadQueue.entries (pushes m (.call (.cvWait c l))), Eligible m c l t) ∧
      FallsAsleep m c m' ∨ GoesOn m c l m' := by
  have hrun : ¬ Stopped m := fun hst => by
    rw [hst.step_none] at hs
    cases hs
  obtain ⟨hb, hsync⟩ := h.synchronised hrun
  rw [step] at hs
  split_ifs at hs with hcan
  obtain ⟨cv, wq, m₁, hat, hbtw, hcall⟩ := h.cvWait_between hrun hok.2 hcan.1 hcan.2
  have hm' := (Option.some.inj hs).symm.trans hcall
  rcases threadSleep_cases hbtw.valid hbtw.cvAt.queueAt
      [.cvWaitSleep l m.interrupts, .user (.cvWait c l)] with
    ⟨q', hnil, huse, heq⟩ | ⟨ds, t, ts, q', hes, -, -, hrunning, hne, -, heq⟩
  · right
    obtain ⟨hlast, -⟩ := hat.popLast_push hb hsync.orderly m₁.currentThread
    rw [heq, if_pos hlast] at hm'
    exact hbtw.goesOn hat hb hsync hok.2.2.1 hnil huse hm'
  · left
    rw [heq] at hm'
    refine ⟨⟨t, ?_, hbtw.current ▸ hne, ?_⟩, hbtw.fallsAsleep hat hb hsync hne hrunning hm'⟩
    · rw [← hbtw.ready, hes]
      simp
    · rw [hbtw.state] at hrunning
      split_ifs at hrunning with hpush
      · exact .inl hpush
      · exact .inr hrunning

/-- **A call of `cv_wait`** by the owner of the lock puts its caller to sleep on the condition
variable, or goes on with the lock. -/
theorem ReachableBy.cvWait_step (h : ReachableBy Synchronises m)
    (hok : Synchronises m (.call (.cvWait c l))) (hs : step m (.call (.cvWait c l)) = some m') :
    FallsAsleep m c m' ∨ GoesOn m c l m' :=
  (h.cvWait_cases hok hs).imp_left And.right

/-- **A call of `cv_signal`** makes the thread that has waited longest Running. -/
theorem ReachableBy.cvSignal_step (h : ReachableBy Synchronises m)
    (hok : Synchronises m (.call (.cvSignal c l))) (hs : step m (.call (.cvSignal c l)) = some m') :
    Rouses m c ((cvSleepers m c).take 1) m' := by
  obtain ⟨hc0, hl0, hown⟩ := hok.2
  rw [step] at hs
  split_ifs at hs with hcan
  have hrun : ¬ Stopped m := by simp [Stopped, hcan.1]
  rw [← Option.some.inj hs]
  exact h.cvWakeup_rouses hrun hc0 hl0 hown hcan.2.1 0

/-- **A call of `cv_broadcast`** makes all waiting threads Running. -/
theorem ReachableBy.cvBroadcast_step (h : ReachableBy Synchronises m)
    (hok : Synchronises m (.call (.cvBroadcast c l)))
    (hs : step m (.call (.cvBroadcast c l)) = some m') : Rouses m c (cvSleepers m c) m' := by
  obtain ⟨hc0, hl0, hown⟩ := hok.2
  rw [step] at hs
  split_ifs at hs with hcan
  have hrun : ¬ Stopped m := by simp [Stopped, hcan.1]
  rw [← Option.some.inj hs]
  exact h.cvWakeup_rouses hrun hc0 hl0 hown hcan.2.1 1

/-- **A signal or a broadcast ends the wait of the threads that it pushes.**

**Proof sketch.** A signal or a broadcast it is by `signals_of_pushes`. What these make Running is
`cvSignal_step` and `cvBroadcast_step`, and a Running thread has no entry. -/
lemma ReachableBy.awakened (h : ReachableBy Synchronises m) (hok : Synchronises m a)
    (hs : step m a = some m') (hrun : ¬ Stopped m') (ht : Waiting m c t) (hpush : t ∈ pushes m a) :
    a.signals c = true ∧ (m'.threads t).state = .Running ∧ t ∉ cvQueue m' c := by
  have hrunm : ¬ Stopped m := fun hst => by
    rw [hst.step_none] at hs
    cases hs
  have hsignals := h.signals_of_pushes hrunm hok ht hpush
  have hrunning : (m'.threads t).state = .Running := by
    obtain ⟨hb, hsync⟩ := h.synchronised hrunm
    obtain ⟨cv, wq, hat⟩ := cvAt_of_mem (t := t) (List.count_pos_iff.mp (by rw [ht.entry]; omega))
    cases a with
    | call f =>
      cases f with
      | cvSignal b l =>
        obtain rfl : b = c := by simpa [Action.signals] using hsignals
        have hmem : t ∈ (cvSleepers m b).take 1 := by
          rw [pushes, hat.cvAt] at hpush
          have hwakes := hat.wakes_eq hsync 0
          rw [if_pos rfl] at hwakes
          rw [← hwakes]
          exact hpush
        rw [(h.cvSignal_step hok hs).state, if_pos hmem]
      | cvBroadcast b l =>
        obtain rfl : b = c := by simpa [Action.signals] using hsignals
        have hmem : t ∈ cvSleepers m b := (hat.waiting_iff_mem hsync).mp ht
        rw [(h.cvBroadcast_step hok hs).state, if_pos hmem]
      | _ => cases hsignals
    | _ => cases hsignals
  refine ⟨hsignals, hrunning, fun hmem => ?_⟩
  obtain ⟨-, hsync'⟩ := ReachableBy.synchronised (h.step hok hs) hrun
  obtain ⟨cv, wq, hat⟩ := cvAt_of_mem hmem
  rw [hat.cvQueue_eq] at hmem
  have hsleep := hsync'.asleep hat.queues_eq hmem
  rw [abs_state, hrunning] at hsleep
  cases hsleep

/-! ## Runs -/

/-- The runs of threads that synchronise, with steps that meet `P` as well. -/
abbrev Synchronising (P : Machine → Prop) : Machine → Machine → Prop :=
  Runs.Path (fun m a m' => step m a = some m') fun m a => Synchronises m a ∧ P m

/-- In a run from `m` to `m'`, the thread `t` waits on `c` until a signal or a broadcast on `c`
makes it Running and takes its entry. -/
structure Signalled (m : Machine) (c : Addr) (t : Tid) (m' : Machine) : Prop where
  ends : ∃ u a u', Synchronising (Waiting · c t) m u ∧ Waiting u c t ∧ Synchronises u a ∧
    step u a = some u' ∧ (a.signals c = true ∧ (u'.threads t).state = .Running ∧ t ∉ cvQueue u' c) ∧
      Synchronising (fun _ => True) u' m'

/-- **A thread waits until it is signalled**, in every run.

**Proof sketch.** One step leaves the thread waiting (`waiting_step`), or it is a signal or a
broadcast that makes the thread Running (`awakened`). The general rule for "until" gives the run. -/
theorem ReachableBy.waits_until (h : ReachableBy Synchronises m) (ht : Waiting m c t)
    (hpath : Synchronising (fun _ => True) m m') (hrun : ¬ Stopped m') :
    Synchronising (Waiting · c t) m m' ∧ Waiting m' c t ∨ Signalled m c t m' := by
  have hreach {u : Machine} (hu : Synchronising (fun _ => True) m u) : ReachableBy Synchronises u :=
    hu.invariant (I := ReachableBy Synchronises) (fun _ _ _ hr hok hs => hr.step hok.1 hs) h
  have huntil := hpath.until (I := (Waiting · c t)) (L := (¬ Stopped ·))
    (E := fun _ a u' => a.signals c = true ∧ (u'.threads t).state = .Running ∧ t ∉ cvQueue u' c)
    ?_ ?_ ht hrun
  · refine huntil.imp (fun hkept => ⟨hkept.1.mono fun _ _ hp => ⟨hp.1.1, hp.2⟩, hkept.2⟩) ?_
    rintro ⟨u, a, u', hkept, hu, hok, hs, hends, hrest⟩
    exact ⟨u, a, u', hkept.mono fun _ _ hp => ⟨hp.1.1, hp.2⟩, hu, hok.1, hs, hends, hrest⟩
  · intro u a u' hs hst
    rw [hst.step_none] at hs
    cases hs
  · intro u a u' hpath hu hok hs hrun'
    exact ((hreach hpath).waiting_step hok.1 hs hrun' hu).imp_right
      ((hreach hpath).awakened hok.1 hs hrun' hu)

/-- Locks are not destroyed. -/
lemma View.locks_step {v v' : View} {k : Label} {lock : Lock} (hk : k.synchronises = true)
    (hs : View.Step v k v') (hl : v.locks l = some lock) : ∃ lock', v'.locks l = some lock' := by
  have hupdate (b : Addr) (x : Lock) :
      ∃ lock', Function.update v.locks b (some x) l = some lock' := by
    rcases eq_or_ne l b with rfl | hne
    · exact ⟨x, Function.update_self ..⟩
    · exact ⟨lock, by rw [Function.update_of_ne hne, hl]⟩
  cases hs with
  | take | give | newLock => exact hupdate _ _
  | die => exact ⟨lock, by simpa using hl⟩
  | dieTo => cases hk
  | dieBack => cases hk
  | dropLock => cases hk
  | _ => exact ⟨lock, hl⟩

/-- The lock of a `cv_wait` that has returned is there. -/
lemma ReachableBy.lock_of_returned (h : ReachableBy Synchronises m) (hrun : ¬ Stopped m) {r : Ret}
    (hret : .returned t (.cvWait c l) r ∈ m.trace) : ∃ lock, m.locks l = some lock := by
  have hview := h.view (I := fun v => v.Synchronised ∧ ∀ t c l r,
    .returned t (.cvWait c l) r ∈ v.trace → ∃ lock, v.locks l = some lock) ?_ ?_
  · obtain ⟨-, -, hlocks⟩ := hview.resolve_left hrun
    exact hlocks t c l r hret
  · exact fun g => ⟨synchronised_threadInit g, fun _ _ _ _ hmem => by cases hmem⟩
  · rintro m a v k v' - - hok ⟨hv, hlocks⟩ hvalid hperm hs
    have hk := hv.label hvalid (hok.called hperm) hs
    refine ⟨hv.step hvalid (hok.called hperm) hs, fun t c l r hmem => ?_⟩
    rcases hs.writes.mem_or hmem with ⟨-, hnew⟩ | hold
    · obtain rfl : k = .returned (.cvWait c l) r := by simpa [Fn.creates, Fn.destroys] using hnew
      cases hs with
      | returned alive fn done =>
        obtain ⟨lock, hl, -⟩ := done
        exact ⟨lock, hl⟩
    · obtain ⟨lock, hl⟩ := hlocks t c l r hold
      exact View.locks_step hk hs hl

/-- **When `cv_wait` has returned**, the lock belongs to its caller. -/
theorem ReachableBy.cvWait_owns (h : ReachableBy Synchronises m) (hrun : ¬ Stopped m) {r : Ret}
    {tr : List Event} (htrace : m.trace = .returned t (.cvWait c l) r :: tr) :
    ∃ lock, m.locks l = some lock ∧ lock.current = t := by
  obtain ⟨lock, hl⟩ := h.lock_of_returned (t := t) (c := c) (l := l) (r := r) hrun
    (by simp [htrace])
  obtain ⟨-, hlocking⟩ := ReachableBy.locking h hrun
  refine ⟨lock, hl, hlocking.owner t l lock hl ?_⟩
  rw [abs_trace, htrace]
  simp [Fn.acquires]

end UserThreads
