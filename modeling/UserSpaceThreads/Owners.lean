import UserSpaceThreads.Pointers

set_option relaxedAutoImplicit false
set_option autoImplicit false

/-!
# The owner of a lock

`lock->current` is a bare id. `lock_release`, `cv_wait`, `cv_signal` and `cv_broadcast` compare it
with the id of their caller, and take a match for the proof that the caller holds the lock. When
a thread dies with a lock in its hands, nothing clears the field; a later `thread_create` may give
the id to a new thread, which then passes the comparison. In runs in which no new thread gets the
id in `lock->current` of a lock, only the holder of the lock passes.

## Main definitions

* `UserThreads.Unclaimed` — the guard: no new thread gets an id that a lock still names.
* `UserThreads.Fn.checksOwner`, `UserThreads.PassesCheck` — the comparison.
* `UserThreads.View.Owned` — the invariant.

## Main results

* `UserThreads.View.Owned.step` — every transaction of an unclaimed step keeps the invariant.
* `UserThreads.holder_passes` — only the holder passes.
* `UserThreads.heir_passes` — a run in which a thread passes with the id of a dead one.
-/

namespace UserThreads

/-! ## The guard -/

/-- A new thread does not get an id that is `lock->current` of a lock. -/
def Unclaimed (m : Machine) : Action → Prop
  | .call (.threadCreate _ _) => ∀ num ∈ threadNumToCreate m,
      ∀ l < m.brk, ∀ lock ∈ m.locks l, lock.current ≠ num
  | _ => True

instance (m : Machine) : (a : Action) → Decidable (Unclaimed m a)
  | .call (.threadCreate _ _) => inferInstanceAs (Decidable (∀ num ∈ threadNumToCreate m,
      ∀ l < m.brk, ∀ lock ∈ m.locks l, lock.current ≠ num))
  | .exec | .tick | .call (.threadYield _) | .call (.threadExit _) | .call .threadReturn
  | .call (.threadKill _) | .call .waitQueueCreate | .call (.waitQueueDestroy _)
  | .call (.threadSleep _) | .call (.threadWakeup _ _) | .call (.threadWait _ _)
  | .call .lockCreate | .call (.lockDestroy _) | .call (.lockAcquire _) | .call (.lockRelease _)
  | .call .cvCreate | .call (.cvDestroy _) | .call (.cvWait _ _) | .call (.cvSignal _ _)
  | .call (.cvBroadcast _ _) | .call (.interruptsSet _) => isTrue trivial

/-! ## Threads busy with a lock -/

/-- The thread `t` holds the lock `l`, or is in a call that takes it or gives it up. -/
def Busy (t : Tid) (l : Addr) (tr : List Event) : Prop :=
  holds t l tr = true ∨
    ∃ f, (progress t tr).fn = some f ∧ (f.acquires l = true ∨ f.releases l = true)

variable {t : Tid} {l : Addr} {tr tr' : List Event}

/-- A thread that is in the same call and holds the same locks is busy with them. -/
lemma Busy.congr (h : Busy t l tr) (hholds : holds t l tr' = holds t l tr)
    (hfn : (progress t tr').fn = (progress t tr).fn) : Busy t l tr' := by
  rw [Busy, hholds, hfn]
  exact h

/-- A thread that calls a function from user code stays busy. -/
lemma Busy.called (h : Busy t l tr) (hidle : progress t tr = {}) (f : Fn) :
    Busy t l (.called t f :: tr) := by
  obtain hholds | ⟨g, hg, -⟩ := h
  · by_cases hf : f.releases l = true
    · exact .inr ⟨f, by simp, .inr hf⟩
    · exact .inl (by simpa [hf] using hholds)
  · rw [hidle] at hg
    cases hg

/-- A thread stays busy when its call returns, unless the call has given up the lock for good. -/
lemma Busy.returned (h : Busy t l tr) {f : Fn} (hf : (progress t tr).fn = some f)
    (hkeeps : f.releases l = true → f.acquires l = true) (r : Ret) :
    Busy t l (.returned t f r :: tr) := by
  by_cases hacq : f.acquires l = true
  · exact .inl (by simp [hacq])
  · obtain hholds | ⟨g, hg, hgl⟩ := h
    · exact .inl (by simpa [hacq] using hholds)
    · obtain rfl : f = g := Option.some.inj (hf.symm.trans hg)
      exact (hacq (hgl.elim id hkeeps)).elim

/-! ## The invariant -/

namespace View

variable {v v' : View} {a : Label}

/-- The live thread that a lock names as its owner is busy with the lock. -/
def Owned (v : View) : Prop :=
  ∀ l lock, v.locks l = some lock → lock.current ≠ -1 → fate lock.current v.trace = some .alive →
    Busy lock.current l v.trace

/-- What the guard says about a transaction. -/
def Spared (v : View) : Label → Prop
  | .create num _ _ => ∀ l lock, v.locks l = some lock → lock.current ≠ num
  | _ => True

/-- A transaction that gives no lock to a thread, and in which live threads stay busy. -/
lemma Owned.mono (h : v.Owned)
    (hlocks : ∀ l lock, v'.locks l = some lock → lock.current = -1 ∨ v.locks l = some lock)
    (hbusy : ∀ t l lock, v.locks l = some lock → lock.current = t → fate t v'.trace = some .alive →
      fate t v.trace = some .alive ∧ (Busy t l v.trace → Busy t l v'.trace)) : v'.Owned := by
  intro l lock hl hne halive
  obtain hfree | hl := hlocks l lock hl
  · exact (hne hfree).elim
  · obtain ⟨halive', himp⟩ := hbusy _ l lock hl rfl halive
    exact himp (h l lock hl hne halive')

/-- A transaction whose events concern neither lives nor calls nor locks. -/
lemma Owned.quiet (h : v.Owned)
    (hlocks : ∀ l lock, v'.locks l = some lock → lock.current = -1 ∨ v.locks l = some lock)
    (hfate : ∀ t, fate t v'.trace = fate t v.trace)
    (hholds : ∀ t l, holds t l v'.trace = holds t l v.trace)
    (hfn : ∀ t, (progress t v'.trace).fn = (progress t v.trace).fn) : v'.Owned :=
  h.mono hlocks fun t l _ _ _ halive =>
    ⟨hfate t ▸ halive, fun hb => hb.congr (hholds t l) (hfn t)⟩

/-- The end of a thread. -/
lemma Owned.bury (h : v.Owned) (hlife : v.Life) {t : Tid} {killed : Bool} {rsp : Addr} {heap : Heap}
    (hd : v.Dies t killed rsp heap) : (v.bury t killed rsp heap).Owned := by
  have hlife' := hlife.bury hd
  refine h.mono (fun l lock hl => .inr (by simpa using hl)) fun u l lock _ _ halive => ?_
  have hne : u ≠ t := by
    rintro rfl
    exact hlife'.alive u halive (by simp)
  have hne' : t ≠ u := hne.symm
  refine ⟨View.fate_bury v t killed rsp heap hne ▸ halive, fun hb => hb.congr ?_ (by simp)⟩
  rw [View.bury_trace]
  split_ifs <;> simp [hne']

/-- A call returns that has not given up a lock which its caller still owns. -/
lemma Owned.back (h : v.Owned) {f : Fn} (r : Ret)
    (hf : (progress v.current v.trace).fn = some f)
    (hkeeps : ∀ l lock, v.locks l = some lock → lock.current = v.current →
      f.releases l = true → f.acquires l = true) : (v.back f r).Owned := by
  refine h.mono (fun l lock hl => .inr hl) fun t l lock hl ht halive => ⟨halive, fun hb => ?_⟩
  rcases eq_or_ne v.current t with rfl | hne
  · exact hb.returned hf (hkeeps l lock hl ht) r
  · exact hb.congr (by simp [hne]) (by simp [hne])

/-- A call returns that is not concerned with locks. -/
lemma Owned.back_plain (h : v.Owned) {f : Fn} (r : Ret)
    (hf : (progress v.current v.trace).fn = some f) (hrel : ∀ l, f.releases l = false) :
    (v.back f r).Owned :=
  h.back r hf fun l _ _ _ hl => by rw [hrel l] at hl; cases hl

/-- `lock_release` has given up the lock when it returns, and `cv_wait` has it again. -/
lemma Owned.returned (h : v.Owned) (hcur : v.current ≠ -1) {f : Fn} {r : Ret}
    (hf : (progress v.current v.trace).fn = some f) (done : v.Completes f r) :
    (v.back f r).Owned := by
  refine h.back r hf fun l lock hl hlock hrel => ?_
  cases f with
  | lockRelease b =>
    obtain rfl : b = l := by simpa [Fn.releases] using hrel
    obtain ⟨lock', hl', hfree⟩ := done
    obtain rfl : lock = lock' := Option.some.inj (hl.symm.trans hl')
    exact (hcur (hlock.symm.trans hfree)).elim
  | cvWait c b => exact hrel
  | _ => cases hrel

/-- The current thread calls a function. -/
lemma Owned.called (h : v.Owned) (hidle : progress v.current v.trace = {}) (f : Fn) :
    (v.emit (.called v.current f)).Owned := by
  refine h.mono (fun l lock hl => .inr hl) fun t l lock _ _ halive => ⟨halive, fun hb => ?_⟩
  rcases eq_or_ne v.current t with rfl | hne
  · exact hb.called hidle f
  · exact hb.congr (by simp [hne]) (by simp [hne])

/-- A new thread starts. -/
lemma Owned.started (h : v.Owned) {fn parg : ℕ}
    (hstart : progress v.current v.trace = { start := some (fn, parg) }) :
    (v.emit (.started v.current fn parg)).Owned := by
  refine h.mono (fun l lock hl => .inr hl) fun t l lock _ _ halive =>
    ⟨halive, fun hb => hb.congr rfl ?_⟩
  rcases eq_or_ne v.current t with rfl | hne
  · simp [hstart]
  · simp [hne]

/-- The current thread calls `thread_exit`. -/
lemma Owned.exited (h : v.Owned) (c : ℤ) :
    ((v.emit (.exited v.current c)).setExitCode v.current c).Owned := by
  refine h.mono (fun l lock hl => .inr hl) fun t l lock _ _ halive => ?_
  have hne : v.current ≠ t := by
    rintro rfl
    simp at halive
  exact ⟨by simpa [hne] using halive, fun hb => hb.congr (by simp [hne]) rfl⟩

/-- A thread is created, with an id that no lock names as its owner. -/
lemma Owned.spawn (h : v.Owned) {num : Tid}
    (hnum : ∀ l lock, v.locks l = some lock → lock.current ≠ num) (fn parg : ℕ) :
    (v.spawn num fn parg).Owned := by
  refine h.mono (fun l lock hl => .inr hl) fun t l lock hl ht halive => ?_
  have hne : num ≠ t := fun heq => hnum l lock hl (ht.trans heq.symm)
  exact ⟨by simpa [hne] using halive, fun hb => hb.congr (by simp [hne]) (by simp [hne])⟩

/-- The current thread starts to wait for another one. -/
lemma Owned.awaitingFor (h : v.Owned) (x : Tid) : (v.awaiting v.current x).Owned := by
  refine h.quiet (fun _ _ hl => .inr hl) (fun _ => rfl) (fun _ _ => rfl) fun t => ?_
  simp only [awaiting_trace, progress]
  split_ifs <;> rfl

/-- The current thread takes a lock. -/
lemma Owned.take (h : v.Owned) {f : Fn} (calls : v.Calls f) {b : Addr} (lk : Lock)
    (hacquires : f.acquires b = true) :
    (v.setLock b (some { lk with current := v.current })).Owned := by
  intro l lock hl hne halive
  rcases eq_or_ne l b with rfl | hlb
  · obtain rfl : { lk with current := v.current } = lock := by simpa using hl
    exact .inr ⟨f, by rw [setLock_trace, calls.progress], .inl hacquires⟩
  · exact h l lock (by simpa [hlb] using hl) hne halive

/-- A lock that nobody has is new, or has been given up. -/
lemma Owned.setFree (h : v.Owned) (b q : Addr) : (v.setLock b (some ⟨q, -1⟩)).Owned := by
  refine h.quiet (fun l lock hl => ?_) (fun _ => rfl) (fun _ _ => rfl) fun _ => rfl
  rcases eq_or_ne l b with rfl | hlb
  · obtain rfl : ⟨q, -1⟩ = lock := by simpa using hl
    exact .inl rfl
  · exact .inr (by simpa [hlb] using hl)

/-- **Every transaction of an unclaimed step keeps the owners of locks busy with them.**

**Proof sketch.** A thread becomes the owner of a lock inside the call that takes it, and is busy
with the lock. It stays busy until the call returns, and then it holds the lock. What gives up the
lock for good, `lock_release`, frees it. So only a new thread under the id of a dead owner could be
idle with a lock, and the guard excludes it. -/
theorem Owned.step (h : v.Owned) (hlife : v.Life) (hcur : v.current ≠ -1) (hs : v.Spared a)
    (hstep : Step v a v') : v'.Owned := by
  have hsame (l : Addr) (lock : Lock) (hl : v.locks l = some lock) :
      lock.current = -1 ∨ v.locks l = some lock := .inr hl
  cases hstep with
  | @called f alive idle destroy => exact h.called idle f
  | returned alive fn done => exact h.returned hcur fn done
  | started alive unstarted => exact h.started unstarted
  | exit => exact h.exited _
  | @create num fn parg =>
    exact (h.spawn hs fn parg).quiet (fun _ _ hl => .inr hl) (by simp) (by simp) (by simp)
  | discard | skip => exact h.quiet hsame (fun _ => rfl) (fun _ _ => rfl) fun _ => rfl
  | dispatch | yieldTo | sleep | wake => exact h.quiet hsame (by simp) (by simp) (by simp)
  | sleepNone => exact h.quiet hsame (by simp) (by simp) (by simp)
  | @wait x =>
    exact (h.awaitingFor x).quiet (fun _ _ hl => .inr hl) (by simp) (by simp) (by simp)
  | @waitNone x c calls =>
    exact (h.awaitingFor x).back_plain _ (by simp [calls.progress]) fun _ => rfl
  | die dies => exact h.bury hlife dies
  | dieTo dies =>
    exact (h.bury hlife dies).quiet (fun _ _ hl => .inr hl) (by simp) (by simp) (by simp)
  | dieBack dies =>
    exact (h.bury hlife dies).quiet (fun _ _ hl => .inr hl) (by simp) (by simp) (by simp)
  | @take b lk f calls acquires => exact h.take calls lk acquires
  | @give b lk => exact h.setFree b lk.queue
  | newHalf | dropHalf =>
    refine h.quiet hsame (fun _ => rfl) (fun _ _ => rfl) fun t => ?_
    rw [emit_trace, progress]
    split_ifs <;> rfl
  | newQueue calls =>
    have hmade : (v.newQueue .user).Owned :=
      h.quiet hsame (fun _ => rfl) (fun _ _ => rfl) fun _ => rfl
    exact hmade.back_plain _ (congrArg Progress.fn calls.progress) fun _ => rfl
  | @newLock b alive fn =>
    have hmade : (v.newQueue (.lock b)).Owned :=
      h.quiet hsame (fun _ => rfl) (fun _ _ => rfl) fun _ => rfl
    exact (hmade.setFree b v.brk).back_plain _ (congrArg Progress.fn fn) fun _ => rfl
  | @newCv c alive fn =>
    have hmade : ((v.newQueue (.cv c)).setCv c (some ⟨v.brk⟩)).Owned :=
      h.quiet hsame (fun _ => rfl) (fun _ _ => rfl) fun _ => rfl
    exact hmade.back_plain _ (congrArg Progress.fn fn) fun _ => rfl
  | @dropQueue q heap calls =>
    have hfreed : ((v.free q (v.stackStart v.current) heap).setQueue q none).Owned :=
      h.quiet hsame (fun _ => rfl) (fun _ _ => rfl) fun _ => rfl
    exact hfreed.back_plain _ (congrArg Progress.fn calls.progress) fun _ => rfl
  | @dropLock l heap alive fn =>
    have hfreed : ((v.free l (v.stackStart v.current) heap).setLock l none).Owned :=
      h.quiet (fun _ _ hl => .inr (eq_some_of_update_none hl)) (fun _ => rfl) (fun _ _ => rfl)
        fun _ => rfl
    exact hfreed.back_plain _ (congrArg Progress.fn fn) fun _ => rfl
  | @dropCv c heap alive fn =>
    have hfreed : ((v.free c (v.stackStart v.current) heap).setCv c none).Owned :=
      h.quiet hsame (fun _ => rfl) (fun _ _ => rfl) fun _ => rfl
    exact hfreed.back_plain _ (congrArg Progress.fn fn) fun _ => rfl

end View

/-- The guard says what it says about locks that exist. -/
lemma View.spared_of_unclaimed {m : Machine} {c : Action} {v v' : View} {a : Label}
    (h : v.Pointed) (hok : Unclaimed m c) (hp : Permits m c v a) (hs : View.Step v a v') :
    v.Spared a := by
  cases hs with
  | @create num fn parg =>
    obtain ⟨rfl, hnum, hu, -⟩ := hp
    intro l lock hl
    have hlt := h.bound l _ (.lock (h.locks l lock hl))
    rw [Unchanged] at hu
    rw [hu] at hl hlt
    exact hok num hnum l hlt lock hl
  | _ => trivial

/-! ## The comparison -/

/-- The functions that compare `lock->current` with the id of their caller. -/
def Fn.checksOwner (l : Addr) : Fn → Bool
  | .lockRelease l' => l' = l
  | .cvWait _ l' => l' = l
  | .cvSignal _ l' => l' = l
  | .cvBroadcast _ l' => l' = l
  | _ => false

/-- The comparison of `lock->current` with the current thread succeeds. -/
def PassesCheck (m : Machine) (l : Addr) : Prop :=
  ∃ lock, m.locks l = some lock ∧ lock.current = m.currentThread

/-- The call of `f` ends the run before it has changed anything that threads share. -/
def Rejected (m : Machine) (f : Fn) : Prop :=
  Stopped (call f m) ∧ abs (call f m) = (abs m).emit (.called m.currentThread f)

variable {m : Machine}

/-- A caller that does not pass the comparison does not get further.

**Proof sketch.** In each of the four functions the comparison is an assertion behind at most two
checks for the null pointer. If one of them fails the process aborts; if the lock is gone the
behaviour is undefined. Nothing has changed by then but the mask. -/
lemma rejected_of_not_passes {f : Fn} (hf : f.checksOwner l = true) (h : ¬ PassesCheck m l) :
    Rejected m f := by
  have hcheck (lock : Lock) (hl : m.locks l = some lock) : ¬ lock.current = m.currentThread :=
    fun heq => h ⟨lock, hl, heq⟩
  have habort (b : Bool) (g : Fn) :
      Stopped ((m.emit (.called m.currentThread g)).interruptsSet b).abort ∧
        abs ((m.emit (.called m.currentThread g)).interruptsSet b).abort =
          (abs m).emit (.called m.currentThread g) := ⟨.inl rfl, rfl⟩
  have hundef (b : Bool) (g : Fn) :
      Stopped ((m.emit (.called m.currentThread g)).interruptsSet b).undef ∧
        abs ((m.emit (.called m.currentThread g)).interruptsSet b).undef =
          (abs m).emit (.called m.currentThread g) := ⟨.inr (.inr rfl), rfl⟩
  cases f with
  | lockRelease l' =>
    obtain rfl : l' = l := by simpa [Fn.checksOwner] using hf
    simp only [Rejected, call, lockRelease]
    split_ifs
    · exact habort m.interrupts _
    · cases hl : m.locks l' with
      | none => simpa [hl, andThen] using hundef false _
      | some lock => simpa [hl, andThen, hcheck lock hl] using habort false _
  | cvWait c l' =>
    obtain rfl : l' = l := by simpa [Fn.checksOwner] using hf
    simp only [Rejected, call, cvWait]
    split_ifs
    · exact habort false _
    · exact habort false _
    · cases hl : m.locks l' with
      | none => simpa [hl, andThen] using hundef false _
      | some lock => simpa [hl, andThen, hcheck lock hl] using habort false _
  | cvSignal c l' | cvBroadcast c l' =>
    obtain rfl : l' = l := by simpa [Fn.checksOwner] using hf
    simp only [Rejected, call, cvSignal, cvBroadcast, cvWakeup]
    split_ifs
    · exact habort m.interrupts _
    · exact habort m.interrupts _
    · cases hl : m.locks l' with
      | none => simpa [hl, andThen] using hundef false _
      | some lock => simpa [hl, andThen, hcheck lock hl] using habort false _
  | _ => cases hf

/-! ## Reachable states -/

/-- In unclaimed runs live owners of locks are busy with them. -/
lemma ReachableBy.owned (h : ReachableBy Unclaimed m) (hrun : ¬ Stopped m) : (abs m).Owned := by
  have hview := h.view (I := fun v => v.Life ∧ v.Pointed ∧ v.Owned) (fun g => ?_) ?_
  · exact (hview.resolve_left hrun).2.2.2
  · exact ⟨life_threadInit g, pointed_threadInit g, fun l lock hl => by cases hl⟩
  · rintro m c v a v' - - hok ⟨hlife, hp, ho⟩ hv hpermits hs
    exact ⟨hlife.step hs, hp.step hlife (View.entitled_of_permits hpermits) hs,
      ho.step hlife hv.current.ne.2.2.1 (View.spared_of_unclaimed hp hok hpermits hs) hs⟩

/-- **Only the holder of a lock passes the comparison**, in unclaimed runs: another caller gets no
further.

**Proof sketch.** If the ids agree, the thread with that id holds the lock, or it is on its way out
of an `acquire` of it (`Owned`). The second cannot be, as the current thread runs user code. A
caller that does not pass is `rejected_of_not_passes`. -/
theorem holder_passes (h : ReachableBy Unclaimed m) (hu : m.control = .user) {f : Fn} {l : Addr}
    (hf : f.checksOwner l = true) :
    (PassesCheck m l → holds m.currentThread l m.trace = true) ∧
      (¬ PassesCheck m l → Rejected m f) := by
  have hrun : ¬ Stopped m := by simp [Stopped, hu]
  obtain ⟨hb, -⟩ := ReachableBy.life h hrun
  refine ⟨fun ⟨lock, hl, hcur⟩ => ?_, rejected_of_not_passes hf⟩
  have hc := hb.control
  rw [ControlOk, hu] at hc
  have hne : m.currentThread ≠ -1 := hb.valid.current.ne.2.2.1
  have hbusy := h.owned hrun l lock hl (by rwa [hcur]) (by rw [hcur]; exact hc.1.alive)
  rw [hcur] at hbusy
  refine hbusy.resolve_right ?_
  rintro ⟨g, hg, -⟩
  rw [abs_trace, hc.2] at hg
  cases hg

/-- Thread 2 has the lock and passes. It is killed, and a new thread gets the id 1, and thread 0,
which has never had the lock, is rejected. -/
theorem holder_passes_then_killed :
    let m := after 42 [.call .lockCreate, .exec, .exec, .call (.threadCreate 7 8),
      .call (.threadCreate 7 9), .call (.threadYield 2), .exec, .call (.lockAcquire 1)]
    let m' := after 42 [.call .lockCreate, .exec, .exec, .call (.threadCreate 7 8),
      .call (.threadCreate 7 9), .call (.threadYield 2), .exec, .call (.lockAcquire 1),
      .call (.threadYield 0), .exec, .call (.threadKill 2), .call (.threadKill 1),
      .call (.threadCreate 7 9)]
    (m.currentThread = 2 ∧ PassesCheck m 1 ∧ holds m.currentThread 1 m.trace = true) ∧
      m'.currentThread = 0 ∧ Rejected m' (.lockRelease 1) := by
  intro m m'
  have hpasses : PassesCheck m 1 := ⟨⟨2, 2⟩, by decide +kernel, by decide +kernel⟩
  have hlock : m'.locks 1 = some ⟨2, 2⟩ := by decide +kernel
  have hrejects : ¬ PassesCheck m' 1 := by
    rintro ⟨lock, hl, hcur⟩
    obtain rfl : ⟨2, 2⟩ = lock := Option.some.inj (hlock.symm.trans hl)
    exact absurd hcur (by decide +kernel)
  exact ⟨⟨by decide +kernel, hpasses,
      (holder_passes (f := .lockRelease 1) (reachableBy_after (by decide +kernel))
        (by decide +kernel) rfl).1 hpasses⟩,
    by decide +kernel, (holder_passes (l := 1) (reachableBy_after (by decide +kernel))
      (by decide +kernel) rfl).2 hrejects⟩

/-- The actions after which thread 1 runs, which has the id of a thread that was killed with the
lock in its hands. -/
def heirRun : List Action :=
  [.call .lockCreate, .exec, .exec, .call (.threadCreate 7 8), .call (.threadYield 1), .exec,
    .call (.lockAcquire 1), .call (.threadYield 0), .exec, .call (.threadKill 1),
    .call (.threadCreate 7 9), .call (.threadYield 1), .exec]

/-- **A new thread passes with the id of a dead one.** It has never acquired the lock, and its
`lock_release` succeeds. -/
theorem heir_passes :
    let m := after 42 heirRun
    Reachable m ∧ m.control = .user ∧ m.currentThread = 1 ∧ PassesCheck m 1 ∧
      holds 1 1 m.trace = false ∧ (call (.lockRelease 1) m).control = .user ∧
      (call (.lockRelease 1) m).locks 1 = some ⟨2, -1⟩ :=
  ⟨reachable_after (by decide), by decide, by decide, ⟨⟨2, 1⟩, by decide, by decide⟩, by decide,
    by decide, by decide⟩

end UserThreads
