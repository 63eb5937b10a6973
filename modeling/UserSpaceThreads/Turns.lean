import UserSpaceThreads.Refine

set_option relaxedAutoImplicit false
set_option autoImplicit false

/-!
# Runs of `thread_yield(THREAD_ANY)`

Runs in which threads do nothing but yield: each step is a `thread_yield(THREAD_ANY)` of the
current thread, a timer signal, which makes one, or lets the library go on with a call in which
a thread was suspended. In such a run threads get the processor as their entries come to the
head of `thread_queue`: an entry is passed over only if its thread is not Running or has the
processor already.

## Main definitions

* `UserThreads.Turns` — the runs, with the threads that have been given the processor.
* `UserThreads.Handover` — a `thread_yield(THREAD_ANY)` that gives the processor away.
* `UserThreads.Drained` — how far `thread_queue` has been worked off.

## Main results

* `UserThreads.turn_of_step` — what one step does.
* `UserThreads.Turns.drained` — the invariant of the runs.
-/

namespace UserThreads

variable {m m' m'' m₁ : Machine}

/-! ## What a step does -/

/-- The current thread keeps the processor, the other threads do not change, and `thread_queue` has
lost useless entries at its head at most. -/
structure Stays (m m' : Machine) : Prop where
  current : m'.currentThread = m.currentThread
  ready : ∃ ds, m.threadQueue.entries = ds ++ m'.threadQueue.entries ∧ ∀ d ∈ ds, Useless m d
  admin : m'.administrativeMode = m.administrativeMode
  state : ∀ x, x ≠ m.currentThread → (m'.threads x).state = (m.threads x).state

/-- A `thread_yield(THREAD_ANY)` gives the processor to `u`: the entries `ds` before it are useless
and dropped, and the thread that had the processor is pushed behind the others. -/
structure Handover (m m' : Machine) (ds : List Tid) (u : Tid) (ts : List Tid) : Prop where
  before : m.threadQueue.entries = ds ++ u :: ts
  useless : ∀ d ∈ ds, Useless m d
  useful : ¬ Useless m u
  after : m'.threadQueue.entries = pushEntry ts m.currentThread
  current : m'.currentThread = u
  admin : m'.administrativeMode = m.administrativeMode
  state : ∀ x, x ≠ m.currentThread → (m'.threads x).state = (m.threads x).state

/-- What a step of the library does: it ends the run, keeps the processor, or gives it to the first
useful entry of `thread_queue`. -/
inductive Turn (m m' : Machine) : Prop
  | stopped (stopped : Stopped m')
  | stays (stays : Stays m m')
  | handover {ds ts : List Tid} {u : Tid} (handover : Handover m m' ds u ts)

/-- A part of the state that does not concern threads is written. -/
lemma stays_of_eq (hc : m'.currentThread = m.currentThread) (hq : m'.threadQueue = m.threadQueue)
    (ha : m'.administrativeMode = m.administrativeMode)
    (ht : ∀ x, x ≠ m.currentThread → m'.threads x = m.threads x) : Stays m m' :=
  ⟨hc, ⟨[], by rw [hq]; rfl, by simp⟩, ha, fun x hx => by rw [ht x hx]⟩

/-- The same entries are useless. -/
lemma Stays.useless_iff (h : Stays m m') (t : Tid) : Useless m' t ↔ Useless m t := by
  unfold Useless
  rw [h.current]
  by_cases ht : t = m.currentThread
  · simp [ht]
  · rw [h.state t ht]

/-- The current thread stays for one stretch and for the next. -/
lemma Stays.trans (h : Stays m m') (h' : Stays m' m'') : Stays m m'' := by
  obtain ⟨ds, hds, huse⟩ := h.ready
  obtain ⟨ds', hds', huse'⟩ := h'.ready
  refine ⟨h'.current.trans h.current, ⟨ds ++ ds', ?_, fun d hd => ?_⟩, h'.admin.trans h.admin,
    fun x hx => (h'.state x (h.current.symm ▸ hx)).trans (h.state x hx)⟩
  · rw [hds, hds', List.append_assoc]
  · rcases List.mem_append.mp hd with hd | hd
    · exact huse d hd
    · exact (h.useless_iff d).mp (huse' d hd)

/-- A step that follows updates which keep the processor. -/
lemma Stays.turn (h : Stays m m₁) (ht : Turn m₁ m') : Turn m m' := by
  cases ht with
  | stopped hs => exact .stopped hs
  | stays hs => exact .stays (h.trans hs)
  | @handover ds ts u hh =>
    obtain ⟨ds₀, hds₀, huse⟩ := h.ready
    refine @Turn.handover _ _ (ds₀ ++ ds) ts u ⟨?_, fun d hd => ?_, fun hu => ?_, ?_, hh.current,
      hh.admin.trans h.admin, fun x hx => ?_⟩
    · rw [hds₀, hh.before, List.append_assoc]
    · rcases List.mem_append.mp hd with hd | hd
      · exact huse d hd
      · exact (h.useless_iff d).mp (hh.useless d hd)
    · exact hh.useful ((h.useless_iff u).mpr hu)
    · rw [hh.after, h.current]
    · exact (hh.state x (h.current.symm ▸ hx)).trans (h.state x hx)

/-- A function that returns has kept the processor; when control leaves, it may have given the
processor away. -/
def Continues {α : Type} (m : Machine) (o : Outcome Machine α) : Prop :=
  o.All (fun _ m' => Stays m m') (Turn m)

/-- What follows a function that returns. -/
lemma turn_andThen {α : Type} {o : Outcome Machine α} {g : α → Machine → Machine}
    (h : Continues m o) (hg : ∀ a m', Stays m' (g a m')) : Turn m (andThen o g) := by
  cases o with
  | ret a m' => exact .stays (Stays.trans h (hg a m'))
  | jump m' => exact h

/-! ## The functions -/

/-- `setcontext` does not touch the administrative mode. -/
lemma setcontext_admin (u : Ucontext) :
    (m.setcontext u).administrativeMode = m.administrativeMode := by
  cases u <;> rfl

/-- The switch of `thread_yield` does not touch the administrative mode. -/
lemma threadYieldSwitch_admin (s : Bool) (t : Tid) (k : Stack) :
    (threadYieldSwitch s t k m).administrativeMode = m.administrativeMode := setcontext_admin _

/-- **`thread_yield(THREAD_ANY)`**. -/
lemma threadYield_any_turns (hv : (abs m).Valid) (k : Stack) :
    (threadYield THREAD_ANY k m).All
      (fun r m' => r = THREAD_NONE ∧ (∀ t ∈ m.threadQueue.entries, Useless m t) ∧
        m'.threadQueue.entries = [] ∧ ∃ q', m' = m.setThreadQueue q')
      (fun m' => ∃ ds u ts, Handover m m' ds u ts) := by
  rcases threadYield_any_cases k hv.current hv.ready with
    ⟨q', hnil, huse, heq⟩ | ⟨ds, t, ts, q', hes, hts, -, hrun, hne, hds, heq⟩
  · rw [heq]
    exact ⟨rfl, huse, hnil, q', rfl⟩
  · rw [heq]
    have habs := abs_threadYieldSwitch m.interrupts t k ((m.interruptsSet false).setThreadQueue q')
    refine ⟨ds, t, ts, hes, hds, not_not.mpr ⟨hrun, hne⟩, ?_, ?_, threadYieldSwitch_admin .., ?_⟩
    · rw [← hts]
      exact congrArg View.ready habs
    · exact congrArg View.current habs
    · intro x _
      exact congrFun (congrArg View.state habs) x

/-- A `thread_yield(THREAD_ANY)` that finds no other thread has emptied `thread_queue`. -/
lemma stays_of_none {q' : Queue} (huse : ∀ t ∈ m.threadQueue.entries, Useless m t)
    (hnil : q'.entries = []) : Stays m (m.setThreadQueue q') :=
  ⟨rfl, ⟨m.threadQueue.entries, by simp [hnil], huse⟩, rfl, fun _ _ => rfl⟩

/-- The current thread has gone to sleep, which does not matter for `get_thread_any`. -/
lemma stays_asleepAt (q : Addr) (wq : WaitQueue) : Stays m (asleepAt m q wq) := by
  refine stays_of_eq rfl rfl rfl fun x hx => ?_
  simp [hx]

/-- **`thread_sleep`**.

**Proof sketch.** A refusal leaves the processor where it is. A sleep that finds nobody has dropped
useless entries and is undone; any other one hands the processor over to the first useful entry
(`threadSleep_cases`). -/
lemma threadSleep_continues (hv : (abs m).Valid) (q : Addr) (k : Stack) :
    Continues m (threadSleep q k m) := by
  by_cases hq0 : q = NULL
  · rw [threadSleep, if_pos hq0]
    exact stays_of_eq rfl rfl rfl fun _ _ => rfl
  cases hq : m.waitQueues q with
  | none =>
    rw [threadSleep, if_neg hq0]
    simp only [Machine.interruptsSet_waitQueues, hq]
    exact .stopped (.inr (.inr rfl))
  | some wq =>
    have hstays := stays_asleepAt (m := m) q wq
    rcases threadSleep_cases hv hq k with
      ⟨q', hnil, huse, heq⟩ | ⟨ds, t, ts, q', hes, hts, ht, hrun, hne, hds, heq⟩
    · -- the sleep is undone
      have hnone : Stays m ((asleepAt m q wq).setThreadQueue q') :=
        hstays.trans (stays_of_none (fun t ht => (hstays.useless_iff t).mpr (huse t ht)) hnil)
      rw [heq]
      split_ifs
      · exact hnone.trans (stays_of_eq rfl rfl rfl fun x hx => Function.update_of_ne hx _ _)
      · exact .stopped (.inl rfl)
    · -- the processor goes to `t`
      rw [heq]
      have habs := abs_threadYieldSwitch false t (.threadSleep q m.interrupts :: k)
        (((asleepAt m q wq).interruptsSet false).setThreadQueue q')
      refine .handover ⟨hes, hds, not_not.mpr ⟨hrun, hne⟩, ?_, congrArg View.current habs,
        threadYieldSwitch_admin .., fun x hx => ?_⟩
      · rw [← hts]
        exact congrArg View.ready habs
      · have hstate := congrFun (congrArg View.state habs) x
        exact hstate.trans (hstays.state x hx)

/-- **The loop of `lock_acquire`**. -/
lemma lockAcquireLoop_continues (hv : (abs m).Valid) (l : Addr) (s : Bool) (k : Stack) :
    Continues m (lockAcquireLoop l s k m) := by
  rw [lockAcquireLoop]
  cases m.locks l with
  | none => exact .stopped (.inr (.inr rfl))
  | some lock =>
    dsimp only
    split_ifs
    · refine (threadSleep_continues hv ..).bind fun _ m' h => ?_
      exact .stays (Stays.trans h (stays_of_eq rfl rfl rfl fun _ _ => rfl))
    · exact stays_of_eq rfl rfl rfl fun _ _ => rfl

/-- A return to user code switches to nobody. -/
lemma stays_userReturn (f : Fn) (r : Ret) : Stays m (userReturn f r m) :=
  stays_of_eq rfl rfl rfl fun _ _ => rfl

/-- Setting the mask switches to nobody. -/
lemma stays_interruptsSet (b : Bool) : Stays m (m.interruptsSet b) :=
  stays_of_eq rfl rfl rfl fun _ _ => rfl

/-- The callers of the loop of `lock_acquire` return to user code. -/
lemma LoopCaller.stays {l : Addr} {s : Bool} {k : Stack} {f : Fn} (h : LoopCaller l s k f) :
    Stays m (unwind k ⟨0, none⟩ m) := by
  cases h with
  | acquire s =>
    rw [unwind]
    exact stays_userReturn ..
  | cvWait c s =>
    rw [unwind, unwind]
    exact (stays_interruptsSet s).trans (stays_userReturn ..)

/-- **A suspended call goes on.**

**Proof sketch.** By the place where the thread was suspended. Most calls return, which leaves the
processor where it is. A thread in `lock_acquire` or `cv_wait` tests the lock, and if it has to
sleep again it gives the processor to the first useful entry (`lockAcquireLoop_continues`). -/
lemma Suspended.turn {s : Bool} {a : Tid} {k : Stack} {p : Progress} (hv : (abs m).Valid)
    (h : Suspended (.threadYield s a true :: k) p) : Turn m (unwind k ⟨a, none⟩ m) := by
  have hv' (b : Bool) : (abs (m.interruptsSet b)).Valid := hv
  cases h with
  | yield _ ha t =>
    rw [unwind]
    exact .stays (stays_userReturn ..)
  | tick ha what =>
    rw [unwind]
    exact .stays (stays_of_eq rfl rfl rfl fun _ _ => rfl)
  | kill ha ht b =>
    rw [unwind, unwind]
    exact .stays (((stays_interruptsSet false).trans (stays_interruptsSet b)).trans
      (stays_userReturn ..))
  | sleep ha q b =>
    rw [unwind, threadSleepAfterYield, if_neg ha.ne.2.1]
    exact .stays ((stays_interruptsSet b).trans (stays_userReturn ..))
  | wait ha hx c =>
    rw [unwind, threadWaitAfterYield]
    split_ifs
    · exact .stopped (.inl rfl)
    · exact .stays ((stays_interruptsSet true).trans (stays_userReturn ..))
  | acquire ha q l b =>
    rw [unwind, threadSleepAfterYield, if_neg ha.ne.2.1]
    show Turn m (andThen (lockAcquireLoop l b [.user (.lockAcquire l)] (m.interruptsSet false))
      fun _ m => unwind [.user (.lockAcquire l)] ⟨0, none⟩ m)
    exact (stays_interruptsSet false).turn (turn_andThen (lockAcquireLoop_continues (hv' false) ..)
      fun _ _ => LoopCaller.stays (.acquire b))
  | cvSleep ha q c l b =>
    rw [unwind, threadSleepAfterYield, if_neg ha.ne.2.1]
    refine (stays_interruptsSet false).turn ?_
    refine turn_andThen (o := cvWaitAfterSleep l b [.user (.cvWait c l)] (m.interruptsSet false)) ?_
      fun _ _ => stays_userReturn ..
    have hint : ¬ (m.interruptsSet false).interrupts = true := Bool.false_ne_true
    rw [cvWaitAfterSleep, if_neg hint, lockAcquire]
    split_ifs
    · exact .stopped (.inl rfl)
    · refine ((lockAcquireLoop_continues (hv' false) ..).bind fun _ m' h => ?_)
      exact Stays.trans h (stays_interruptsSet b)
  | cvAcquire ha q c l b =>
    rw [unwind, threadSleepAfterYield, if_neg ha.ne.2.1]
    show Turn m (andThen
      (lockAcquireLoop l false [.cvWaitAcquire b, .user (.cvWait c l)] (m.interruptsSet false))
      fun _ m => unwind [.cvWaitAcquire b, .user (.cvWait c l)] ⟨0, none⟩ m)
    exact (stays_interruptsSet false).turn (turn_andThen (lockAcquireLoop_continues (hv' false) ..)
      fun _ _ => LoopCaller.stays (.cvWait c b))

/-- The create and destroy functions keep the processor.

**Proof sketch.** The allocator touches neither `thread_queue` nor the states of threads, and the
other writes of these functions are to their own object. -/
lemma turn_allocate (p : AllocPoint) : Turn m (allocate p m) := by
  have hfree (q : Addr) {g : Unit → Machine → Machine} (hg : ∀ m', Stays m' (g () m')) :
      Turn m (andThen (m.free369 q) g) := by
    rw [Machine.free369]
    cases m.heap.free369 q with
    | none => exact .stopped (.inl rfl)
    | some heap =>
      have hfreed : Stays m (m.afterFree369 q heap) := stays_of_eq rfl rfl rfl fun _ _ => rfl
      exact .stays (hfreed.trans (hg _))
  have hinit (o : Owner) : Stays m (initWaitQueue o m) := by
    refine stays_of_eq ?_ ?_ ?_ fun _ _ => rfl <;> simp [initWaitQueue]
  cases p with
  | lockCreate | cvCreate =>
    rw [allocate]
    refine .stays (stays_of_eq ?_ ?_ ?_ fun _ _ => rfl) <;> simp
  | waitQueueCreate => exact .stays ((hinit .user).trans (stays_userReturn ..))
  | lockCreateQueue l =>
    rw [allocate]
    have hlock (m : Machine) (lock : Option Lock) : Stays m (m.setLock l lock) :=
      stays_of_eq rfl rfl rfl fun _ _ => rfl
    exact .stays (((hinit (.lock l)).trans (hlock ..)).trans (stays_userReturn ..))
  | cvCreateQueue c =>
    rw [allocate]
    have hcv (m : Machine) (cv : Option Cv) :
        Stays m (m.setCv c cv) := stays_of_eq rfl rfl rfl fun _ _ => rfl
    exact .stays (((hinit (.cv c)).trans (hcv ..)).trans (stays_userReturn ..))
  | waitQueueDestroy q | lockDestroy l | cvDestroy c =>
    exact hfree _ fun _ => stays_of_eq rfl rfl rfl fun _ _ => rfl
  | lockDestroyQueue l =>
    rw [allocate]
    cases m.locks l with
    | none => exact .stopped (.inr (.inr rfl))
    | some lock => exact hfree _ fun _ => stays_of_eq rfl rfl rfl fun _ _ => rfl
  | cvDestroyQueue c =>
    rw [allocate]
    cases m.cvs c with
    | none => exact .stopped (.inr (.inr rfl))
    | some cv => exact hfree _ fun _ => stays_of_eq rfl rfl rfl fun _ _ => rfl

/-! ## The steps -/

/-- A thread that enters its saved context. -/
lemma Entering.turn {k : Stack} (h : Entering m k) (hv : (abs m).Valid)
    (hint : m.interrupts = false)
    (hcontrol : m.control = .resumed k) : Turn m (exec m) := by
  have hspent : Stays m (m.setUcontext m.currentThread .spent) :=
    stays_of_eq rfl rfl rfl fun x hx => by simp [hx]
  rcases h.exec_cases hint hcontrol with ⟨fn, parg, rfl, heq⟩ | ⟨s, a, k', rfl, -, heq⟩
  · rw [heq]
    exact .stays (hspent.trans (stays_of_eq rfl rfl rfl fun _ _ => rfl))
  · rw [heq]
    refine (hspent.trans (stays_interruptsSet s)).turn (h.suspended.turn ?_)
    rw [abs_interruptsSet, abs_setUcontext]
    exact hv

/-- **The library goes on**, while no thread is on its way out.

**Proof sketch.** By the place where the library goes on. A thread on its way out does not occur
here, since `administrative_mode` is off. -/
lemma turn_exec (hb : Base m) (hadmin : m.administrativeMode = false)
    (hs : step m .exec = some m') : Turn m m' := by
  have hc := hb.control
  rw [ControlOk] at hc
  rw [step] at hs
  cases hcontrol : m.control with
  | user | aborted | exited n | undefined =>
    rw [hcontrol] at hs
    cases hs
  | alloc p =>
    rw [hcontrol] at hs
    cases hs
    unfold exec
    rw [hcontrol]
    exact turn_allocate p
  | lockLoop l s k =>
    rw [hcontrol] at hs hc
    cases hs
    obtain ⟨-, -, f, hcaller, -⟩ := hc
    unfold exec
    rw [hcontrol]
    exact turn_andThen (lockAcquireLoop_continues hb.valid ..) fun _ _ => hcaller.stays
  | resumed k =>
    rw [hcontrol] at hs hc
    cases hs
    obtain ⟨hint, h | h⟩ := hc
    · exact h.turn hb.valid hint hcontrol
    · have hexit := h.admin
      rw [hadmin] at hexit
      cases hexit

/-- The timer strikes.

**Proof sketch.** The handler is a `thread_yield(THREAD_ANY)`: it finds nobody and returns, or hands
the processor over (`threadYield_any_turns`). -/
lemma turn_tick (hb : Base m) (hs : step m .tick = some m') : Turn m m' := by
  have htick (what : Interrupted) : Turn m (interruptHandler what m) := by
    have hv : (abs (m.interruptsSet false)).Valid := hb.valid
    have hyield := threadYield_any_turns hv [.interruptHandler what]
    refine (stays_interruptsSet false).turn ?_
    unfold interruptHandler
    cases hy : threadYield THREAD_ANY [.interruptHandler what] (m.interruptsSet false) with
    | ret r m₁ =>
      rw [hy] at hyield
      obtain ⟨-, huse, hnil, q', rfl⟩ := hyield
      exact .stays ((stays_of_none huse hnil).trans (stays_of_eq rfl rfl rfl fun _ _ => rfl))
    | jump m₁ =>
      rw [hy] at hyield
      obtain ⟨ds, u, ts, h⟩ := hyield
      exact .handover h
  rw [step] at hs
  split_ifs at hs
  cases hcontrol : m.control with
  | user | alloc p =>
    rw [hcontrol] at hs
    cases hs
    exact htick _
  | resumed k | lockLoop l s k | aborted | exited n | undefined =>
    rw [hcontrol] at hs
    cases hs

/-- User code calls `thread_yield(THREAD_ANY)`. -/
lemma turn_call (hb : Base m) (hs : step m (.call (.threadYield THREAD_ANY)) = some m') :
    Turn m m' := by
  rw [step] at hs
  split_ifs at hs
  cases hs
  have hcalled :
      Stays m (calledAt m (.threadYield THREAD_ANY)) := stays_of_eq rfl rfl rfl fun _ _ => rfl
  have hv : (abs (calledAt m (.threadYield THREAD_ANY))).Valid := hb.valid.retrace ..
  have hyield := threadYield_any_turns hv [.user (.threadYield THREAD_ANY)]
  refine hcalled.turn ?_
  show Turn _ (andThen (threadYield THREAD_ANY [.user (.threadYield THREAD_ANY)]
    (calledAt m (.threadYield THREAD_ANY)))
    fun v m => userReturn (.threadYield THREAD_ANY) ⟨v, none⟩ m)
  cases hy : threadYield THREAD_ANY [.user (.threadYield THREAD_ANY)]
      (calledAt m (.threadYield THREAD_ANY)) with
  | ret r m₁ =>
    rw [hy] at hyield
    obtain ⟨-, huse, hnil, q', rfl⟩ := hyield
    exact .stays ((stays_of_none huse hnil).trans (stays_of_eq rfl rfl rfl fun _ _ => rfl))
  | jump m₁ =>
    rw [hy] at hyield
    obtain ⟨ds, u, ts, h⟩ := hyield
    exact .handover h

/-- What drives the steps of these runs. -/
def Yielding (a : Action) : Prop := a = .exec ∨ a = .tick ∨ a = .call (.threadYield THREAD_ANY)

instance (a : Action) : Decidable (Yielding a) := inferInstanceAs (Decidable (_ ∨ _))

/-- **One step** of a run in which threads only yield. -/
theorem turn_of_step {a : Action} (hb : Base m) (hadmin : m.administrativeMode = false)
    (ha : Yielding a) (hs : step m a = some m') : Turn m m' := by
  obtain rfl | rfl | rfl := ha
  · exact turn_exec hb hadmin hs
  · exact turn_tick hb hs
  · exact turn_call hb hs

/-! ## Runs -/

/-- The run from `m` to `m'` in which threads only yield; `cs` lists the threads that have been
given the processor, one for each call of `thread_yield` that gave it away. -/
inductive Turns (m : Machine) : List Tid → Machine → Prop
  | start : Turns m [] m
  | step {cs : List Tid} {m₁ m₂ : Machine} {a : Action} : Turns m cs m₁ → Yielding a →
      step m₁ a = some m₂ →
      Turns m (cs ++ if m₂.currentThread = m₁.currentThread then [] else [m₂.currentThread]) m₂

/-- The threads that are given the processor while the actions `as` are executed. -/
def turnsOf (m : Machine) : List Action → List Tid
  | [] => []
  | a :: as =>
    match step m a with
    | none => []
    | some m' =>
      (if m'.currentThread = m.currentThread then [] else [m'.currentThread]) ++ turnsOf m' as

/-- Executing a list of actions, all of them yields. -/
lemma Turns.follow {cs : List Tid} {as : List Action} {m₂ : Machine} (h : Turns m cs m₁)
    (has : ∀ a ∈ as, Yielding a) (hf : Runs.follow UserThreads.step m₁ as = some m₂) :
    Turns m (cs ++ turnsOf m₁ as) m₂ := by
  induction as generalizing cs m₁ with
  | nil =>
    obtain rfl : m₁ = m₂ := Option.some.inj hf
    rwa [turnsOf, List.append_nil]
  | cons a as ih =>
    rw [Runs.follow] at hf
    rw [turnsOf]
    cases hs : UserThreads.step m₁ a with
    | none => simp [hs] at hf
    | some m' =>
      rw [hs, Option.bind_some] at hf
      have hnext := ih (h.step (has a (List.mem_cons_self ..)) hs)
        (fun b hb => has b (List.mem_cons_of_mem _ hb)) hf
      rwa [List.append_assoc] at hnext

/-- The run of a list of yields, when all of them are possible. -/
lemma turns_of_follow {cs : List Tid} {as : List Action} (has : ∀ a ∈ as, Yielding a)
    (hf : (Runs.follow step m as).isSome = true) (hcs : turnsOf m as = cs) :
    Turns m cs ((Runs.follow step m as).getD m) := by
  obtain ⟨m', hm'⟩ := Option.isSome_iff_exists.mp hf
  rw [hm', ← hcs]
  exact Turns.start.follow has hm'

/-- The thread `t` is Running, does not have the processor, and has an entry in `thread_queue`. -/
structure Ready (m : Machine) (t : Tid) : Prop where
  running : (m.threads t).state = .Running
  ne : t ≠ m.currentThread
  mem : t ∈ m.threadQueue.entries

/-- How far `thread_queue` has been worked off between `m` and a later state with the view `v`: the
entries `done` are gone, the entries `rest` are still there, followed by `more`, and the threads
`cs` have been given the processor. -/
structure Drained (m : Machine) (cs : List Tid) (v : View) (done rest more : List Tid) : Prop where
  split : m.threadQueue.entries = done ++ rest
  now : v.ready = rest ++ more
  current : v.current = m.currentThread ∨ v.current ∈ cs
  state : ∀ t, Ready m t → t ∉ cs → v.state t = .Running
  /-- a thread that has had its turn had an entry, or has yielded the processor -/
  entered : ∀ t ∈ cs, t ∈ m.threadQueue.entries ∨ t = m.currentThread
  pushed : ∀ t ∈ more, t ∈ m.threadQueue.entries ∨ t = m.currentThread
  /-- a thread whose entry is gone has had its turn -/
  served : ∀ t, Ready m t → t ∈ done → t ∈ cs
  /-- no thread has had its turn before its entry was reached -/
  early : ∀ t, Ready m t → t ∈ cs → t ∈ done
  /-- each turn has taken an entry -/
  length : rest ≠ [] → cs.length ≤ done.length
  /-- the turns have come in the order of the entries -/
  order : ∀ t u, Ready m t → Ready m u → t ∈ cs →
    (cs.idxOf t < cs.idxOf u ↔ m.threadQueue.entries.idxOf t < m.threadQueue.entries.idxOf u)

/-- The index of a member of the first of two lists. -/
lemma idxOf_append_left {xs : List Tid} {t : Tid} (ht : t ∈ xs) (ys : List Tid) :
    (xs ++ ys).idxOf t = xs.idxOf t := by
  rw [List.idxOf_append, if_pos ht]

/-- The index of a thread that is not in the first of two lists. -/
lemma idxOf_append_right {xs : List Tid} {t : Tid} (ht : t ∉ xs) (ys : List Tid) :
    (xs ++ ys).idxOf t = xs.length + ys.idxOf t := by
  rw [List.idxOf_append, if_neg ht, Nat.add_comm]

namespace Drained

variable {cs done rest more : List Tid} {v v' : View} {t u : Tid}

/-- At the start, nothing has been worked off. -/
lemma start (m : Machine) : Drained m [] (abs m) [] m.threadQueue.entries [] where
  split := rfl
  now := (List.append_nil _).symm
  current := .inl rfl
  state _ ht _ := ht.running
  entered _ ht := by cases ht
  pushed _ ht := by cases ht
  served _ _ ht := by cases ht
  early _ _ ht := by cases ht
  length _ := le_rfl
  order _ _ _ _ ht := by cases ht

/-- A thread that has not had its turn does not have the processor, and its entry can be used. -/
lemma useful (h : Drained m cs v done rest more) (ht : Ready m t) (hcs : t ∉ cs) :
    v.state t = .Running ∧ t ≠ v.current := by
  refine ⟨h.state t ht hcs, ?_⟩
  rintro rfl
  exact h.current.elim ht.ne hcs

/-- The entries of `thread_queue` at the start, without the one that is the next. -/
lemma split_cons (h : Drained m cs v done (t :: rest) more) :
    m.threadQueue.entries = (done ++ [t]) ++ rest := by
  rw [h.split, List.append_assoc]
  rfl

/-- `get_thread_any` drops an entry that it cannot use.

**Proof sketch.** If entries of the start are left, the dropped one is the first of them, and its
thread has had its turn, as the entry would be useful otherwise. If none is left, the dropped entry
was pushed later. -/
lemma drop (h : Drained m cs v done rest more) {es : List Tid} (hready : v.ready = t :: es)
    (huse : ¬ (v.state t = .Running ∧ t ≠ v.current)) :
    ∃ done' rest' more', Drained m cs (v.setReady es) done' rest' more' := by
  have hnow := h.now
  rw [hready] at hnow
  cases rest with
  | nil =>
    -- the entries of the start are gone already
    have hpushed : ∀ x ∈ es, x ∈ m.threadQueue.entries ∨ x = m.currentThread := fun x hx =>
      h.pushed x (by rw [← show t :: es = more from hnow]; exact List.mem_cons_of_mem _ hx)
    exact ⟨done, [], es, h.split, rfl, h.current, h.state, h.entered, hpushed, h.served, h.early,
      fun hne => (hne rfl).elim, h.order⟩
  | cons d rest =>
    obtain ⟨rfl, rfl⟩ : t = d ∧ es = rest ++ more := by simpa using hnow
    refine ⟨done ++ [t], rest, more, h.split_cons, rfl, h.current, h.state, h.entered, h.pushed,
      fun x hx hmem => ?_,
      fun x hx hcs => List.mem_append_left _ (h.early x hx hcs), fun _ => ?_, h.order⟩
    · rcases List.mem_append.mp hmem with hmem | hmem
      · exact h.served x hx hmem
      · obtain rfl := List.mem_singleton.mp hmem
        by_contra hcs
        exact huse (h.useful hx hcs)
    · have hlength := h.length (by simp)
      rw [List.length_append]
      omega

/-- The order of turns when one more thread has had its turn.

**Proof sketch.** For a thread that has had its turn before, the index does not change. The new one,
`u`, comes behind all of them, and every ready thread whose first entry stands in front of that of
`u` is among them. -/
lemma order_append (h : Drained m cs v done rest more) (hu : u ∉ cs → Ready m u →
      ∃ before after, m.threadQueue.entries = before ++ u :: after ∧ u ∉ before ∧
        ∀ x, Ready m x → x ∈ before → x ∈ cs) {x y : Tid} (hx : Ready m x)
    (hy : Ready m y) (hmem : x ∈ cs ++ [u]) :
    (cs ++ [u]).idxOf x < (cs ++ [u]).idxOf y ↔
      m.threadQueue.entries.idxOf x < m.threadQueue.entries.idxOf y := by
  have hold {x y : Tid} (hx : Ready m x) (hy : Ready m y) (hcs : x ∈ cs) :
      (cs ++ [u]).idxOf x < (cs ++ [u]).idxOf y ↔
        m.threadQueue.entries.idxOf x < m.threadQueue.entries.idxOf y := by
    rw [← h.order x y hx hy hcs, idxOf_append_left hcs]
    by_cases hycs : y ∈ cs
    · rw [idxOf_append_left hycs]
    · have hlt := List.idxOf_lt_length_of_mem hcs
      rw [idxOf_append_right hycs, List.idxOf_eq_length hycs]
      omega
  by_cases hcs : x ∈ cs
  · exact hold hx hy hcs
  obtain rfl : x = u := by simpa [hcs] using hmem
  obtain ⟨before, after, hes, hbefore, hserved⟩ := hu hcs hx
  by_cases hycs : y ∈ cs
  · -- `y` has had its turn before
    have hlt := (hold hy hx hycs).mp (by
      rw [idxOf_append_left hycs, idxOf_append_right hcs]
      have := List.idxOf_lt_length_of_mem hycs
      omega)
    rw [idxOf_append_left hycs, idxOf_append_right hcs]
    have := List.idxOf_lt_length_of_mem hycs
    omega
  · have hybefore : y ∉ before := fun hmem => hycs (hserved y hy hmem)
    rw [idxOf_append_right hycs, idxOf_append_right hcs, hes, idxOf_append_right hbefore,
      idxOf_append_right hybefore]
    by_cases hyx : y = x
    · simp [hyx]
    · simp [Ne.symm hyx]

/-- The entries after a push, when the first of them are from the start. -/
lemma pushEntry_append (xs ys : List Tid) (t : Tid) :
    ∃ zs, pushEntry (xs ++ ys) t = xs ++ zs ∧ ∀ x ∈ zs, x ∈ ys ∨ x = t := by
  unfold pushEntry
  split_ifs
  · exact ⟨ys, rfl, fun x hx => .inl hx⟩
  · exact ⟨ys ++ [t], List.append_assoc .., fun x hx => by simpa using hx⟩

/-- `thread_yield(THREAD_ANY)` gives the processor to the first entry.

**Proof sketch.** If an entry of the start is left, `u` is the first of them, and it moves from
`rest` to `done`. If none is left, all threads that were ready at the start have had their turns,
and nothing is claimed of the others. The old thread is pushed to the end in both cases. -/
lemma take (h : Drained m cs v done rest more) {ts : List Tid} (hready : v.ready = u :: ts)
    (hcur : v'.current = u) (hnow : v'.ready = pushEntry ts v.current)
    (hstate : ∀ x, x ≠ v.current → v'.state x = v.state x) :
    ∃ done' rest' more', Drained m (cs ++ [u]) v' done' rest' more' := by
  have hcurrent : v'.current = m.currentThread ∨ v'.current ∈ cs ++ [u] := .inr (by simp [hcur])
  have hrunning : ∀ t, Ready m t → t ∉ cs ++ [u] → v'.state t = .Running := by
    intro t ht hcs
    have hcs' : t ∉ cs := fun hmem => hcs (List.mem_append_left _ hmem)
    obtain ⟨hrun, hne⟩ := h.useful ht hcs'
    rw [hstate t hne, hrun]
  have heq := h.now
  rw [hready] at heq
  have hsource : v.current ∈ m.threadQueue.entries ∨ v.current = m.currentThread :=
    h.current.elim .inr (h.entered _)
  have hentered (hu : u ∈ m.threadQueue.entries ∨ u = m.currentThread) :
      ∀ t ∈ cs ++ [u], t ∈ m.threadQueue.entries ∨ t = m.currentThread := by
    intro t ht
    rcases List.mem_append.mp ht with ht | ht
    · exact h.entered t ht
    · obtain rfl := List.mem_singleton.mp ht
      exact hu
  cases rest with
  | nil =>
    -- the entries of the start are gone already, and all their threads have had their turns
    obtain rfl : u :: ts = more := heq
    have hpushed : ∀ t ∈ v'.ready, t ∈ m.threadQueue.entries ∨ t = m.currentThread := by
      intro t ht
      rw [hnow] at ht
      rcases View.mem_pushEntry ht with ht | rfl
      · exact h.pushed t (List.mem_cons_of_mem _ ht)
      · exact hsource
    have hdone : m.threadQueue.entries = done := by rw [h.split, List.append_nil]
    have hall : ∀ t, Ready m t → t ∈ cs := fun t ht => h.served t ht (hdone ▸ ht.mem)
    refine ⟨done, [], v'.ready, h.split, rfl, hcurrent, hrunning,
      hentered (h.pushed u (List.mem_cons_self ..)), hpushed,
      fun t ht _ => List.mem_append_left _ (hall t ht), fun t ht _ => hdone ▸ ht.mem,
      fun hne => (hne rfl).elim, fun x y hx hy hmem => h.order_append (fun hu hru => ?_) hx hy hmem⟩
    exact (hu (hall u hru)).elim
  | cons d rest =>
    obtain ⟨rfl, rfl⟩ : u = d ∧ ts = rest ++ more := by simpa using heq
    obtain ⟨more', hmore, hfrom⟩ := pushEntry_append rest more v.current
    have hu : u ∈ m.threadQueue.entries := by
      rw [h.split]
      simp
    refine ⟨done ++ [u], rest, more', h.split_cons, hnow.trans hmore, hcurrent, hrunning,
      hentered (.inl hu), fun t ht => (hfrom t ht).elim (h.pushed t) fun heq => heq ▸ hsource,
      fun t ht hmem => ?_, fun t ht hmem => ?_, fun _ => ?_,
      fun x y hx hy hmem => h.order_append (fun hu hru => ⟨done, rest, h.split, ?_, h.served⟩) hx hy
        hmem⟩
    · rcases List.mem_append.mp hmem with hmem | hmem
      · exact List.mem_append_left _ (h.served t ht hmem)
      · exact List.mem_append_right _ hmem
    · rcases List.mem_append.mp hmem with hmem | hmem
      · exact List.mem_append_left _ (h.early t ht hmem)
      · exact List.mem_append_right _ hmem
    · have hlength := h.length (by simp)
      rw [List.length_append, List.length_append]
      simpa using hlength
    · exact fun hmem => hu (h.served u hru hmem)

/-- `get_thread_any` drops entries that it cannot use. -/
lemma dropAll (h : Drained m cs v done rest more) {ds es : List Tid} (hready : v.ready = ds ++ es)
    (huse : ∀ d ∈ ds, ¬ (v.state d = .Running ∧ d ≠ v.current)) :
    ∃ done' rest' more', Drained m cs (v.setReady es) done' rest' more' := by
  induction ds generalizing v done rest more with
  | nil => exact ⟨done, rest, more, by rwa [← show v.ready = es from hready]⟩
  | cons d ds ih =>
    obtain ⟨done₁, rest₁, more₁, h₁⟩ := h.drop hready (huse d (List.mem_cons_self ..))
    exact ih (v := v.setReady (ds ++ es)) h₁ rfl fun x hx => huse x (List.mem_cons_of_mem _ hx)

end Drained

/-- What is drained depends on the ready queue, the processor and the states of threads only. -/
lemma Drained.congr {cs done rest more : List Tid} {v v' : View} (h : Drained m cs v done rest more)
    (hready : v'.ready = v.ready) (hcur : v'.current = v.current)
    (hstate : ∀ x, x ≠ v.current → v'.state x = v.state x) : Drained m cs v' done rest more where
  split := h.split
  now := hready.trans h.now
  current := by
    rw [hcur]
    exact h.current
  state t ht hcs := by
    obtain ⟨hrun, hne⟩ := h.useful ht hcs
    rw [hstate t hne, hrun]
  entered := h.entered
  pushed := h.pushed
  served := h.served
  early := h.early
  length := h.length
  order := h.order

/-- **The invariant of the runs in which threads only yield.**

**Proof sketch.** Induction on the run. A step leaves the processor where it is, or hands it over to
the first useful entry (`turn_of_step`). Both drop useless entries (`dropAll`), and a handover is
one more turn (`take`). -/
theorem Turns.drained {cs : List Tid} (h : Reachable m) (hadmin : m.administrativeMode = false)
    (ht : Turns m cs m') : Reachable m' ∧ (Stopped m' ∨ m'.administrativeMode = false ∧
      ∃ done rest more, Drained m cs (abs m') done rest more) := by
  induction ht with
  | start => exact ⟨h, .inr ⟨hadmin, _, _, _, .start m⟩⟩
  | @step cs m₁ m₂ a _ ha hs ih =>
    obtain ⟨hr, hst | ⟨hadmin₁, done, rest, more, hd⟩⟩ := ih
    · rw [hst.step_none] at hs
      cases hs
    refine ⟨hr.step trivial hs, ?_⟩
    have hrun : ¬ Stopped m₁ := fun hst => by
      rw [hst.step_none] at hs
      cases hs
    cases turn_of_step (ReachableBy.base hr hrun) hadmin₁ ha hs with
    | stopped hst => exact .inl hst
    | stays hstays =>
      obtain ⟨ds, hds, huse⟩ := hstays.ready
      obtain ⟨done', rest', more', hd'⟩ := hd.dropAll hds huse
      rw [if_pos hstays.current, List.append_nil]
      exact .inr ⟨hstays.admin.trans hadmin₁, done', rest', more',
        hd'.congr rfl hstays.current hstays.state⟩
    | @handover ds ts u hh =>
      have hne : m₂.currentThread ≠ m₁.currentThread := by
        rw [hh.current]
        exact (not_not.mp hh.useful).2
      obtain ⟨done', rest', more', hd'⟩ := hd.dropAll hh.before hh.useless
      rw [if_neg hne, hh.current]
      have hcur : (abs m₂).current = u := hh.current
      have htake := hd'.take rfl hcur hh.after hh.state
      exact .inr ⟨hh.admin.trans hadmin₁, htake⟩

/-- While a thread is ready that has not had its turn, `thread_yield(THREAD_ANY)` gives the
processor away. -/
lemma threadYield_any_gives (hb : Base m) {u : Tid} (hu : u ∈ m.threadQueue.entries)
    (huse : ¬ Useless m u) (k : Stack) : ∃ m' c ds ts,
      threadYield THREAD_ANY k m = .jump m' ∧ m'.control = .resumed c ∧
      m.threadQueue.entries = ds ++ m'.currentThread :: ts ∧ m'.currentThread ≠ m.currentThread ∧
      ∀ d ∈ ds, Useless m d := by
  rcases threadYield_any_cases k hb.valid.current hb.valid.ready with
    ⟨q', -, hall, -⟩ | ⟨ds, t, ts, q', hes, -, -, hrun, hne, hds, heq⟩
  · exact (huse (hall u hu)).elim
  · obtain ⟨-, kt, hsaved, -⟩ := hb.parkedAt hne (fun hd => absurd (hrun.symm.trans hd) (by decide))
    have hcur : (threadYieldSwitch m.interrupts t k
        ((m.interruptsSet false).setThreadQueue q')).currentThread = t :=
      congrArg View.current (abs_threadYieldSwitch ..)
    have hcontrol := threadYieldSwitch_control (s := m.interrupts) (k := k)
      (m := (m.interruptsSet false).setThreadQueue q') hne hsaved
    refine ⟨_, kt, ds, ts, heq, hcontrol, ?_, ?_, hds⟩
    · rw [hcur]
      exact hes
    · rw [hcur]
      exact hne

/-- **A thread waits for its turn.** As long as a ready thread has not had its turn, at most as many
others have had theirs as there are entries in front of its first one; and the next
`thread_yield(THREAD_ANY)` gives the processor away, to the thread itself if it is the next.

**Proof sketch.** A thread that has not had its turn still has its first entry, in `rest`, and each
turn has taken an entry in front of it. It is Running and not the current thread, so its entry is
useful, and `thread_yield(THREAD_ANY)` finds a useful one. If the count has been reached, that entry
is the first. -/
theorem Turns.waiting {t : Tid} {cs : List Tid} (h : Reachable m)
    (hadmin : m.administrativeMode = false) (hready : Ready m t) (hturns : Turns m cs m')
    (hwaits : t ∉ cs) (hrun : ¬ Stopped m') :
    cs.length ≤ m.threadQueue.entries.idxOf t ∧ ∀ k, ∃ m'' c,
      threadYield THREAD_ANY k m' = .jump m'' ∧ m''.control = .resumed c ∧
      m''.currentThread ≠ m'.currentThread ∧
      (cs.length = m.threadQueue.entries.idxOf t → m''.currentThread = t) := by
  obtain ⟨hr, hd⟩ := hturns.drained h hadmin
  obtain ⟨-, done, rest, more, hd⟩ := hd.resolve_left hrun
  have hb := ReachableBy.base hr hrun
  -- the first entry of `t` is still there
  have hdone : t ∉ done := fun hmem => hwaits (hd.served t hready hmem)
  have hrest : t ∈ rest := by
    have hmem := hready.mem
    rw [hd.split] at hmem
    exact (List.mem_append.mp hmem).resolve_left hdone
  have hnow : m'.threadQueue.entries = rest ++ more := hd.now
  have hindex : m.threadQueue.entries.idxOf t = done.length + rest.idxOf t := by
    rw [hd.split, idxOf_append_right hdone]
  have hlength := hd.length (List.ne_nil_of_mem hrest)
  have huse : ¬ Useless m' t := not_not.mpr (hd.useful hready hwaits)
  refine ⟨by omega, fun k => ?_⟩
  obtain ⟨m'', c, ds, ts, hyield, hcontrol, hes, hne, hds⟩ :=
    threadYield_any_gives hb (u := t) (by rw [hnow]; exact List.mem_append_left _ hrest) huse k
  refine ⟨m'', c, hyield, hcontrol, hne, fun hcount => ?_⟩
  -- the entry of `t` is the first one, and it is chosen since it can be used
  have hzero : rest.idxOf t = 0 := by omega
  obtain ⟨d, rest', rfl⟩ := List.exists_cons_of_ne_nil (List.ne_nil_of_mem hrest)
  obtain rfl : d = t := by
    by_contra hdt
    simp [hdt] at hzero
  rw [hnow] at hes
  cases ds with
  | nil =>
    have hhead := congrArg List.head? hes
    simpa using hhead.symm
  | cons d' ds =>
    obtain ⟨rfl, -⟩ : d = d' ∧ rest' ++ more = ds ++ m''.currentThread :: ts := by simpa using hes
    exact (huse (hds d (List.mem_cons_self ..))).elim

end UserThreads
