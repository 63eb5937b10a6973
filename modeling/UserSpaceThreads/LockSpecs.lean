import UserSpaceThreads.Specs

set_option relaxedAutoImplicit false
set_option autoImplicit false

/-!
# Specifications of locks and condition variables

The transactions of `lock_acquire`, `lock_release`, `cv_wait`, `cv_signal` and `cv_broadcast`.
Waking the sleepers of a lock comes before the transaction `give` in the view, although the code
writes `lock->current` first: with the signal masked no thread can see the difference.

## Main results

* `UserThreads.Run.lockAcquireLoop_spec` — the loop of `lock_acquire`.
* `UserThreads.Run.lockRelease_spec`, `UserThreads.Run.cvWait_spec`,
  `UserThreads.Run.cvWakeup_spec`.
-/

namespace UserThreads

variable {P : View → Label → Prop} {v : View} {m m' : Machine} {f : Fn} {l : Addr} {k : Stack}

/-! ## `lock_acquire` -/

/-- The caller of the loop of `lock_acquire` may sleep on the lock and take it. -/
lemma LoopCaller.fn {s : Bool} (h : LoopCaller l s k f) :
    f.sleepsOn (.lock l) = true ∧ f.acquires l = true := by
  cases h <;> simp [Fn.sleepsOn, Fn.acquires]

/-- What `lock_acquire` leaves when it returns: the lock belongs to the current thread. -/
structure Acquired (P : View → Label → Prop) (v : View) (f : Fn) (l : Addr) (s : Bool)
    (m' : Machine) : Prop where
  run : Run P v m'
  calls : (abs m').Calls f
  interrupts : m'.interrupts = s
  owner : ∃ lock, m'.locks l = some lock ∧ lock.current = m'.currentThread

/-- **The loop of `lock_acquire`**, from its test on.

**Proof sketch.** If the lock is free, the thread takes it (`take`) and the loop ends. Otherwise
`thread_sleep` suspends the thread or fails, and then the next step is the loop test again, in the
state `lockLoop`. -/
lemma Run.lockAcquireLoop_spec {s : Bool} (h : Run P v m)
    (hfree : ∀ u l, Label.free l = true → P u l) (hcaller : LoopCaller l s k f)
    (hcalls : (abs m).Calls f) (hint : m.interrupts = false)
    (hP : ∀ lock, m.locks l = some lock → lock.current ≠ -1 →
      ∀ t ts, P ((abs m).setReady (t :: ts)) (.sleep lock.queue (.lock l) t)) :
    (lockAcquireLoop l s k m).All (fun _ m' => Acquired P v f l s m') (Lands P v) := by
  obtain ⟨hsleeps, hacquires⟩ := hcaller.fn
  rw [lockAcquireLoop]
  cases hl : m.locks l with
  | none => exact lands_undef
  | some lock =>
    dsimp only
    by_cases hfreeLock : lock.current = -1
    · -- the lock is free
      rw [if_neg (not_not.mpr hfreeLock)]
      have hi :
          Inside ((m.setLock l (some { lock with current := m.currentThread })).interruptsSet s) :=
        ((keeps_setLock ..).trans (keeps_interruptsSet ..)).inside h.inside h.inside.state
      refine ⟨h.step hi (hfree _ (.take l) rfl) ?_, ⟨hcalls.alive, hcalls.progress⟩, rfl,
        { lock with current := m.currentThread }, by simp, rfl⟩
      rw [abs_interruptsSet, abs_setLock]
      exact .take hcalls hacquires hl hfreeLock
    · rw [if_pos hfreeLock]
      have htaken (lock' : Lock) (hl' : m.locks l = some lock') : lock'.current ≠ -1 := by
        rw [hl] at hl'
        cases hl'
        exact hfreeLock
      refine (h.threadSleep_spec hfree hcalls hsleeps (fun _ => ⟨lock, hl, rfl⟩) ?_
        (hP lock hl hfreeLock) fun a ha => ?_).bind ?_
      · intro l' lock' heq hl'
        cases heq
        exact htaken lock' hl'
      · rw [hint]
        exact hcaller.suspended ha lock.queue
      · -- `thread_sleep` has failed: the loop test comes next
        rintro - m' ⟨⟨hrun, hcalls', hint', -⟩, -⟩
        refine .inr ⟨⟨hrun.valid, ?_⟩, hrun.path⟩
        exact ⟨(keeps_setControl ..).inside hrun.inside hrun.inside.state, hint'.trans hint, f,
          hcaller, hcalls'.progress⟩

/-- **`lock_acquire`**. -/
lemma Run.lockAcquire_spec (h : Run P v m) (hfree : ∀ u l, Label.free l = true → P u l)
    (hcaller : LoopCaller l m.interrupts k f) (hcalls : (abs m).Calls f)
    (hP : ∀ lock, m.locks l = some lock → lock.current ≠ -1 →
      ∀ t ts, P ((abs m).setReady (t :: ts)) (.sleep lock.queue (.lock l) t)) :
    (lockAcquire l k m).All (fun _ m' => Acquired P v f l m.interrupts m') (Lands P v) := by
  rw [lockAcquire]
  by_cases hl : l = NULL
  · rw [if_pos hl]
    exact lands_abort
  · rw [if_neg hl]
    have hrun : Run P v (m.interruptsSet false) :=
      h.same ((keeps_interruptsSet ..).inside h.inside h.inside.state) rfl
    exact hrun.lockAcquireLoop_spec hfree hcaller ⟨hcalls.alive, hcalls.progress⟩ rfl hP

/-! ## `lock_release` -/

/-- **`lock_release`**.

**Proof sketch.** The code frees the lock first and wakes the sleepers then. In the view the order
is the other way round: the wakeups are transactions with the lock still taken (`absWith`), and the
lock is given up last (`give`), when its wait queue is empty. -/
lemma Run.lockRelease_spec (h : Run P v m) (hfree : ∀ u l, Label.free l = true → P u l)
    (hcalls : (abs m).Calls f) (hwakes : f.wakesOn (.lock l) = true)
    (hreleases : f.releases l = true) (hholds : holds m.currentThread l m.trace = false)
    (hP : ∀ lock, m.locks l = some lock → ∀ before t after,
      wakes m lock.queue 1 = before ++ t :: after →
      ∀ u : View, u.ready = pushAll m.threadQueue.entries before → P u (.wake lock.queue t)) :
    (lockRelease l m).All (fun _ m' => Back P v f m m' ∧
      (∃ lock, m'.locks l = some lock ∧ lock.current = -1) ∧ m'.cvs = m.cvs ∧
        ∀ q, (abs m).Trims (abs m') q) (Lands P v) := by
  rw [lockRelease]
  by_cases hl0 : l = NULL
  · rw [if_pos hl0]
    exact lands_abort
  rw [if_neg hl0]
  simp only [Machine.interruptsSet_locks]
  cases hl : m.locks l with
  | none => exact lands_undef
  | some lock =>
    simp only [Machine.interruptsSet_currentThread]
    by_cases hown : lock.current = m.currentThread
    swap
    · rw [if_pos hown]
      exact lands_abort
    rw [if_neg (not_not.mpr hown)]
    set m₁ := (m.interruptsSet false).setLock l (some { lock with current := -1 }) with hm₁
    have hi₁ : Inside m₁ :=
      ((keeps_interruptsSet ..).trans (keeps_setLock ..)).inside h.inside h.inside.state
    have hv₁ : (abs m₁).Valid := h.valid.retrace ..
    have habs₁ : absWith m.locks m₁ = abs m := rfl
    refine (threadWakeup_result (L := m.locks) hfree hwakes hv₁ ⟨hcalls.alive, hcalls.progress⟩
      (fun _ => ⟨lock, hl, rfl⟩) (hP lock hl)).bind' ?_ fun _ hs => Or.inl hs
    rintro r m' ⟨-, hw, hpath⟩
    rw [habs₁] at hpath
    have hcalls' : (abs m').Calls f := by
      refine View.Calls.of_quiet (u := abs m₁) ⟨hcalls.alive, hcalls.progress⟩ hw.keeps.current
        hw.quiet
    have hgive :
        View.Step (absWith m.locks m') (.give l) (abs (m'.interruptsSet m.interrupts)) := by
      have habs : abs (m'.interruptsSet m.interrupts) =
          (absWith m.locks m').setLock l (some { lock with current := -1 }) := by
        have hlocks : m'.locks = Function.update m.locks l (some { lock with current := -1 }) :=
          hw.locks
        rw [abs_interruptsSet, absWith, View.setLock, ← hlocks]
        rfl
      rw [habs]
      refine .give ⟨hcalls'.alive, hcalls'.progress⟩ hreleases hl ?_ ?_ fun o es hes => ?_
      · exact hown.trans hw.keeps.current.symm
      · show holds m'.currentThread l m'.trace = false
        rw [hw.holds, hw.keeps.current]
        exact hholds
      · obtain ⟨wq, hwq, -, rfl⟩ := waitQueue_of_abs hes
        exact hw.emptied (by decide) wq hwq
    refine ⟨⟨⟨h.start, (keeps_interruptsSet ..).inside (hw.inside hi₁) (hw.inside hi₁).state,
      (h.path.trans hpath).tail (hfree _ _ rfl) hgive⟩, ⟨hcalls'.alive, hcalls'.progress⟩, rfl,
      hw.keeps.current⟩, ⟨{ lock with current := -1 }, ?_, rfl⟩, hw.cvs, hw.trims⟩
    show m'.locks l = _
    rw [hw.locks]
    simp [hm₁]

/-! ## Condition variables -/

/-- **`cv_signal` and `cv_broadcast`**.

**Proof sketch.** The assertions come first. Behind them the function is a `thread_wakeup` on the
wait queue of the condition variable, between two calls of `interrupts_set`. -/
lemma Run.cvWakeup_spec {all : ℤ} {cv : Addr} (h : Run P v m)
    (hfree : ∀ u l, Label.free l = true → P u l) (hcalls : (abs m).Calls f)
    (hwakes : f.wakesOn (.cv cv) = true)
    (hP : ∀ c, m.cvs cv = some c → ∀ before t after, wakes m c.queue all = before ++ t :: after →
      ∀ u : View, u.ready = pushAll m.threadQueue.entries before → P u (.wake c.queue t)) :
    (cvWakeup all cv l m).All (fun _ m' => Back P v f m m') (Lands P v) := by
  rw [cvWakeup]
  by_cases hc0 : cv = NULL
  · rw [if_pos hc0]
    exact lands_abort
  by_cases hl0 : l = NULL
  · rw [if_neg hc0, if_pos hl0]
    exact lands_abort
  rw [if_neg hc0, if_neg hl0]
  simp only [Machine.interruptsSet_locks, Machine.interruptsSet_cvs,
    Machine.interruptsSet_currentThread]
  cases hl : m.locks l with
  | none => exact lands_undef
  | some lock =>
    dsimp only
    by_cases hown : lock.current = m.currentThread
    swap
    · rw [if_pos hown]
      exact lands_abort
    rw [if_neg (not_not.mpr hown)]
    cases hc : m.cvs cv with
    | none => exact lands_undef
    | some c =>
      dsimp only
      have hrun : Run P v (m.interruptsSet false) :=
        h.same ((keeps_interruptsSet ..).inside h.inside h.inside.state) rfl
      refine (hrun.threadWakeup_spec hfree hwakes ⟨hcalls.alive, hcalls.progress⟩
        (fun _ => ⟨c, hc, rfl⟩) (hP c hc)).bind ?_
      rintro r m' ⟨hrun', hcalls', -, hcur⟩
      exact ⟨hrun'.same ((keeps_interruptsSet ..).inside hrun'.inside hrun'.inside.state) rfl,
        ⟨hcalls'.alive, hcalls'.progress⟩, rfl, hcur⟩

/-- `cv_wait` behind its `thread_sleep`. -/
lemma Run.cvWaitAfterSleep_spec {cv : Addr} {s : Bool} (h : Run P v m)
    (hfree : ∀ u l, Label.free l = true → P u l) (hcalls : (abs m).Calls (.cvWait cv l))
    (hP : ∀ lock, m.locks l = some lock → lock.current ≠ -1 →
      ∀ t ts, P ((abs m).setReady (t :: ts)) (.sleep lock.queue (.lock l) t)) :
    (cvWaitAfterSleep l s [.user (.cvWait cv l)] m).All
      (fun _ m' => Acquired P v (.cvWait cv l) l s m') (Lands P v) := by
  rw [cvWaitAfterSleep]
  cases hint : m.interrupts with
  | true => exact lands_abort
  | false =>
    rw [if_neg (by decide)]
    refine (h.lockAcquire_spec hfree ?_ hcalls hP).bind ?_
    · rw [hint]
      exact .cvWait cv s
    · rintro - m' ⟨hrun, hcalls', -, howner⟩
      exact ⟨hrun.same ((keeps_interruptsSet ..).inside hrun.inside hrun.inside.state) rfl,
        ⟨hcalls'.alive, hcalls'.progress⟩, rfl, howner⟩

/-- **`cv_wait`**.

**Proof sketch.** The function is a `lock_release`, a `thread_sleep` on the wait queue of the
condition variable, and a `lock_acquire`. If the sleep fails, no other thread has run, and the lock
is still free for the loop of `lock_acquire`. -/
lemma Run.cvWait_spec {cv : Addr} (h : Run P v m)
    (hfree : ∀ u l, Label.free l = true → P u l) (hcalls : (abs m).Calls (.cvWait cv l))
    (hholds : holds m.currentThread l m.trace = false)
    (hP : ∀ lock, m.locks l = some lock → ∀ before t after,
      wakes m lock.queue 1 = before ++ t :: after →
      ∀ u : View, u.ready = pushAll m.threadQueue.entries before → P u (.wake lock.queue t))
    (hPsleep : ∀ c u, m.cvs cv = some c → u.current = m.currentThread → (abs m).Trims u c.queue →
      ∀ t, P u (.sleep c.queue (.cv cv) t)) :
    (cvWait cv l [.user (.cvWait cv l)] m).All
      (fun _ m' => Acquired P v (.cvWait cv l) l m.interrupts m') (Lands P v) := by
  rw [cvWait]
  by_cases hc0 : cv = NULL
  · rw [if_pos hc0]
    exact lands_abort
  by_cases hl0 : l = NULL
  · rw [if_neg hc0, if_pos hl0]
    exact lands_abort
  rw [if_neg hc0, if_neg hl0]
  simp only [Machine.interruptsSet_locks, Machine.interruptsSet_currentThread]
  cases hl : m.locks l with
  | none => exact lands_undef
  | some lock =>
    dsimp only
    by_cases hown : lock.current = m.currentThread
    swap
    · rw [if_pos hown]
      exact lands_abort
    rw [if_neg (not_not.mpr hown)]
    have hrun : Run P v (m.interruptsSet false) :=
      h.same ((keeps_interruptsSet ..).inside h.inside h.inside.state) rfl
    refine (hrun.lockRelease_spec hfree (f := .cvWait cv l) ⟨hcalls.alive, hcalls.progress⟩
      (by simp [Fn.wakesOn]) (by simp [Fn.releases]) hholds hP).bind ?_
    rintro - m₁ ⟨⟨hrun₁, hcalls₁, hint₁, hcur₁⟩, ⟨lock₁, hl₁, hfree₁⟩, hcvs₁, htrims₁⟩
    cases hc : m₁.cvs cv with
    | none => exact lands_undef
    | some c =>
      dsimp only
      refine (hrun₁.threadSleep_spec hfree hcalls₁ (o := .cv cv) (by simp [Fn.sleepsOn])
        (fun _ => ⟨c, hc, rfl⟩) (fun _ _ heq => by cases heq) (fun t ts => ?_)
        fun a ha => ?_).bind ?_
      · exact hPsleep c ((abs m₁).setReady (t :: ts)) (hcvs₁ ▸ hc) hcur₁ (htrims₁ c.queue) t
      · rw [hint₁]
        exact .cvSleep ha c.queue cv l m.interrupts
      · -- the sleep has failed, and the lock is still free
        rintro - m₂ ⟨⟨hrun₂, hcalls₂, -, -⟩, hlocks⟩
        refine hrun₂.cvWaitAfterSleep_spec hfree hcalls₂ fun lock₂ hl₂ htaken => ?_
        rw [hlocks, hl₁] at hl₂
        cases hl₂
        exact (htaken hfree₁).elim

end UserThreads
