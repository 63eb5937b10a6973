import UserSpaceThreads.CondVars
import UserSpaceThreads.Effects

set_option relaxedAutoImplicit false
set_option autoImplicit false

/-!
# Lost wakeups

Condition variables lose no wakeup as long as `thread_queue` has room. A thread that sleeps in
`cv_wait` leaves an entry in `thread_queue`, its wakeup makes another one, and nothing but a
`get_thread_any` that comes upon the first while the thread is asleep ever removes it without
running the thread. So threads that use nothing but `thread_yield(THREAD_ANY)`, a lock and
condition variables fill the queue in time, two entries in every lap, and then the entry of a
thread that is signalled is refused: its wakeup is lost.

## Main definitions

* `UserThreads.Scene` — what matters of the view in the run that fills the queue.
* `UserThreads.lap`, `UserThreads.drowning` — the run.

## Main results

* `UserThreads.Played.laps` — a lap adds two entries to `thread_queue`.
* `UserThreads.no_wakeup_lost` — in runs all of whose pushes fit, condition variables lose no
  wakeup.
* `UserThreads.wakeup_lost` — a run in which one is lost.
-/

namespace UserThreads

variable {m m' : Machine} {v : View} {c t o : Tid} {es ws bs ks : List Tid} {p : Tid → Option Fn}
  {as : List Action}

/-- Threads 0, 1 and 2. -/
abbrev crew : List Tid := [0, 1, 2]

/-- The processor is with `c`, the entries of `thread_queue` are `es`, the lock at 4 is with `o`,
the threads `ws` are asleep on the condition variable at 6, and `bs` on the one at 8. The threads
0, 1 and 2 are in the calls `p`. -/
structure Scene (c : Tid) (es : List Tid) (o : Tid) (ws bs : List Tid) (p : Tid → Option Fn)
    (v : View) : Prop where
  current : v.current = c
  ready : v.ready = es
  state : ∀ t ∈ crew, v.state t = if t ∈ ws then .Sleep else .Running
  guest : v.state 3 = if 3 ∈ bs then .Sleep else .Running
  alive : ∀ t ∈ crew, fate t v.trace = some .alive
  fn : ∀ t ∈ crew, (progress t v.trace).fn = p t
  lock : v.locks 4 = some ⟨5, o⟩
  lockQueue : v.queues 5 = some (.lock 4, [])
  cv : v.cvs 6 = some ⟨7⟩
  cvQueue : v.queues 7 = some (.cv 6, ws)
  cv' : v.cvs 8 = some ⟨9⟩
  cvQueue' : v.queues 9 = some (.cv 8, bs)
  gave : Gave .lockCreate 4 v.trace ∧ Gave .cvCreate 6 v.trace ∧ Gave .cvCreate 8 v.trace

/-- The thread `t`, who is awake, can go on after `c`. -/
def Next (c t : Tid) (ws : List Tid) : Prop := c ∈ crew ∧ t ∈ crew ∧ t ∉ ws ∧ t ≠ c

instance (c t : Tid) (ws : List Tid) : Decidable (Next c t ws) :=
  inferInstanceAs (Decidable (_ ∧ _))

namespace Scene

/-- Pointers that have been given stay so. -/
lemma gave_cons (h : Scene c es o ws bs p v) (e : Event) :
    Gave .lockCreate 4 (e :: v.trace) ∧ Gave .cvCreate 6 (e :: v.trace) ∧
      Gave .cvCreate 8 (e :: v.trace) := by
  obtain ⟨hl, hc, hc'⟩ := h.gave
  exact ⟨hl.cons e, hc.cons e, hc'.cons e⟩

/-- An event that says nothing of lives and calls. -/
lemma emit (h : Scene c es o ws bs p v) {e : Event} (he : Quiet v.trace (e :: v.trace)) :
    Scene c es o ws bs p (v.emit e) :=
  { h with
    alive := fun t ht => (he.fate t).trans (h.alive t ht)
    fn := fun t ht => by rw [View.emit_trace, he.progress, h.fn t ht]
    gave := h.gave_cons e }

/-- An event after which the current thread is in the call `x`. -/
lemma note (h : Scene c es o ws bs p v) {e : Event} {x : Option Fn}
    (hfate : ∀ t, fate t (e :: v.trace) = fate t v.trace)
    (hfn : ∀ t, (progress t (e :: v.trace)).fn = if c = t then x else (progress t v.trace).fn) :
    Scene c es o ws bs (Function.update p c x) (v.emit e) :=
  { h with
    alive := fun t ht => (hfate t).trans (h.alive t ht)
    fn := fun t ht => by
      rw [View.emit_trace, hfn]
      split_ifs with hct
      · rw [hct, Function.update_self]
      · rw [Function.update_of_ne (Ne.symm hct), h.fn t ht]
    gave := h.gave_cons e }

/-- The current thread calls `f`. -/
lemma called (h : Scene c es o ws bs p v) (f : Fn) :
    Scene c es o ws bs (Function.update p c (some f)) (v.emit (.called v.current f)) :=
  h.note (fun _ => rfl) fun t => by
    rw [h.current, progress]
    split_ifs <;> rfl

/-- The call of the current thread returns. -/
lemma back (h : Scene c es o ws bs p v) (f : Fn) (r : Ret) :
    Scene c es o ws bs (Function.update p c none) (v.back f r) :=
  h.note (e := .returned v.current f r) (fun _ => rfl) fun t => by
    rw [h.current, progress]
    split_ifs <;> rfl

/-- The ready queue is written. -/
lemma setReady (h : Scene c es o ws bs p v) (es' : List Tid) :
    Scene c es' o ws bs p (v.setReady es') :=
  { h with ready := rfl }

/-- The lock is acquired or released. -/
lemma setLock (h : Scene c es o ws bs p v) (o' : Tid) :
    Scene c es o' ws bs p (v.setLock 4 (some ⟨5, o'⟩)) :=
  { h with lock := by simp }

/-- A push that finds room. -/
lemma pushReady (h : Scene c es o ws bs p v) (hroom : (es.length : ℤ) < QUEUE_CAPACITY) (t : Tid) :
    Scene c (es ++ [t]) o ws bs p (v.pushReady t) := by
  have hready : pushEntry v.ready t = es ++ [t] := by rw [h.ready, pushEntry, if_neg hroom.ne]
  have htrace : pushTrace v.ready t v.trace = v.trace := by rw [h.ready, pushTrace, if_neg hroom.ne]
  exact { h with
    ready := hready
    alive := by simpa [htrace] using h.alive
    fn := by simpa [htrace] using h.fn
    gave := by simpa [htrace] using h.gave }

/-- A push that is refused. -/
lemma pushReady_full (h : Scene c es o ws bs p v) (hfull : (es.length : ℤ) = QUEUE_CAPACITY)
    (t : Tid) : Scene c es o ws bs p (v.pushReady t) := by
  have hready : pushEntry v.ready t = es := by rw [h.ready, pushEntry, if_pos hfull]
  have htrace : v.pushReady t = (v.setReady (pushEntry v.ready t)).emit
      (.refused t (decide (t ∈ es))) := by
    rw [View.pushReady, h.ready, pushTrace, if_pos hfull]
    rfl
  rw [htrace, hready]
  exact (h.setReady es).emit ⟨fun _ => rfl, fun _ => rfl⟩

/-- The processor goes to `t`. -/
lemma switchTo (h : Scene c es o ws bs p v) (hroom : (es.length : ℤ) < QUEUE_CAPACITY) (t : Tid) :
    Scene t (es ++ [c]) o ws bs p (v.switchTo t) := by
  have hpush := (h.pushReady hroom c).emit (e := .switched t) ⟨fun _ => rfl, fun _ => rfl⟩
  have heq : v.switchTo t = { (v.pushReady c).emit (.switched t) with current := t } := by
    rw [View.switchTo, h.current]
    rfl
  rw [heq]
  exact { hpush with current := rfl }

/-- The current thread goes to sleep on the condition variable at 6. -/
lemma asleep (h : Scene c es o ws bs p v) (hc : c ∈ crew)
    (hroom : (ws.length : ℤ) < QUEUE_CAPACITY) :
    Scene c es o (ws ++ [c]) bs p (v.asleep c 7 (.cv 6) ws) := by
  have hpush : pushEntry ws c = ws ++ [c] := by rw [pushEntry, if_neg hroom.ne]
  have h3 : c ≠ 3 := by
    rintro rfl
    exact absurd hc (by decide)
  have hemit := h.emit (e := .slept c 7) ⟨fun _ => rfl, fun _ => rfl⟩
  exact { hemit with
    state := fun t ht => by
      rcases eq_or_ne t c with rfl | hne
      · simp
      · simp [hne, h.state t ht]
    guest := by simpa [h3.symm] using h.guest
    lockQueue := by simpa using h.lockQueue
    cvQueue := by simp [hpush]
    cvQueue' := by simpa using h.cvQueue' }

/-- The first sleeper of the condition variable at 6 is taken out of its queue and is Running. -/
lemma woken (h : Scene c es o (t :: ws) bs p v) (ht : t ∈ crew) (hws : t ∉ ws) :
    Scene c es o ws bs p (((v.setQueue 7 (some (.cv 6, ws))).setState t .Running).emit
      (.woken t 7)) := by
  have h3 : t ≠ 3 := by
    rintro rfl
    exact absurd ht (by decide)
  have hemit := h.emit (e := .woken t 7) ⟨fun _ => rfl, fun _ => rfl⟩
  exact { hemit with
    state := fun u hu => by
      rcases eq_or_ne u t with rfl | hne
      · simp [hws]
      · simpa [hne] using h.state u hu
    guest := by simpa [h3.symm] using h.guest
    lockQueue := by simpa using h.lockQueue
    cvQueue := by simp
    cvQueue' := by simpa using h.cvQueue' }

/-- Thread 3 is taken out of the queue of the condition variable at 8 and is Running. -/
lemma woken_guest (h : Scene c es o ws [3] p v) :
    Scene c es o ws [] p (((v.setQueue 9 (some (.cv 8, []))).setState 3 .Running).emit
      (.woken 3 9)) := by
  have hemit := h.emit (e := .woken 3 9) ⟨fun _ => rfl, fun _ => rfl⟩
  exact { hemit with
    state := fun u hu => by
      have h3 : u ≠ 3 := by
        rintro rfl
        exact absurd hu (by decide)
      simpa [h3] using h.state u hu
    guest := by simp
    lockQueue := by simpa using h.lockQueue
    cvQueue := by simpa using h.cvQueue
    cvQueue' := by simp }

/-- The calls matter for the three threads only. -/
lemma congr_fn (h : Scene c es o ws bs p v) {p' : Tid → Option Fn} (hp : ∀ t ∈ crew, p t = p' t) :
    Scene c es o ws bs p' v :=
  { h with fn := fun t ht => (h.fn t ht).trans (hp t ht) }

end Scene

/-! ## The run -/

/-- The calls of the threads while `c` is in user code and `ks` are in `cv_wait`: the others are
in `thread_yield`. -/
def doing (c : Tid) (ks : List Tid) (t : Tid) : Option Fn :=
  if t = c then none else if t ∈ ks then some (.cvWait 6 4) else some (.threadYield THREAD_ANY)

/-- When `c` has called `f` and `t` has gone on, the threads `ks'` are in `cv_wait`. -/
def HandsOver (f : Fn) (c t : Tid) (ks ks' : List Tid) : Prop :=
  ∀ u ∈ crew, Function.update (Function.update (doing c ks) c (some f)) t none u = doing t ks' u

instance (f : Fn) (c t : Tid) (ks ks' : List Tid) : Decidable (HandsOver f c t ks ks') :=
  inferInstanceAs (Decidable (∀ u ∈ crew, _))

/-- After a call that has returned, the thread is back in user code. -/
lemma doing_called (c : Tid) (ks : List Tid) (f : Fn) (t : Tid) :
    Function.update (Function.update (doing c ks) c (some f)) c none t = doing c ks t := by
  rcases eq_or_ne t c with rfl | hne
  · simp [doing]
  · simp [hne]

/-- The actions `as` lead to a scene in user code. -/
def Played (as : List Action) (c : Tid) (es : List Tid) (o : Tid) (ws bs ks : List Tid) : Prop :=
  ∃ m, Runs.followOk step Synchronises (threadInit 0) as = some m ∧ m.control = .user ∧
    Scene c es o ws bs (doing c ks) (abs m)

/-- The actions `as` lead to a scene in which the context of the current thread has been loaded. -/
def Loaded (as : List Action) (c : Tid) (es : List Tid) (o : Tid) (ws bs : List Tid)
    (p : Tid → Option Fn) : Prop :=
  ∃ m k, Runs.followOk step Synchronises (threadInit 0) as = some m ∧ m.control = .resumed k ∧
    Scene c es o ws bs p (abs m)

/-- One action more. -/
lemma followOk_one {a : Action} (h : Runs.followOk step Synchronises (threadInit 0) as = some m)
    (hok : Synchronises m a) (hs : step m a = some m') :
    Runs.followOk step Synchronises (threadInit 0) (as ++ [a]) = some m' := by
  rw [Runs.followOk_append h, Runs.followOk, if_pos hok, hs]
  rfl

/-- The state after a run is reachable. -/
lemma base_of_followOk (h : Runs.followOk step Synchronises (threadInit 0) as = some m)
    (hrun : ¬ Stopped m) : Base m :=
  ReachableBy.base (Runs.Reachable.followOk (.init ⟨0, rfl⟩) h) hrun

/-- `thread_yield(THREAD_ANY)`. -/
lemma Played.yields (h : Played as c (t :: es) o ws bs ks)
    (hroom : (es.length : ℤ) < QUEUE_CAPACITY) (hnext : Next c t ws) :
    Loaded (as ++ [.call (.threadYield THREAD_ANY)]) t (es ++ [c]) o ws bs
      (Function.update (doing c ks) c (some (.threadYield THREAD_ANY))) := by
  obtain ⟨m, hfollow, hu, h⟩ := h
  obtain ⟨hc, ht, hws, hne⟩ := hnext
  have hb := base_of_followOk hfollow (by simp [Stopped, hu])
  have hst : (m.threads t).state = .Running := (h.state t ht).trans (if_neg hws)
  obtain ⟨m', k, hs, hk, hview⟩ := hb.threadYield_resumes hu h.ready hst
    fun heq => hne (heq.trans h.current)
  refine ⟨m', k, followOk_one hfollow ⟨rfl, trivial⟩ hs, hk, ?_⟩
  rw [hview]
  exact ((h.called _).setReady es).switchTo hroom t

/-- The current thread goes on from its `thread_yield`. -/
lemma Loaded.yielded (h : Loaded as c es o ws bs p) (hc : c ∈ crew)
    (hfn : p c = some (.threadYield THREAD_ANY))
    (hks : ∀ t ∈ crew, Function.update p c none t = doing c ks t) :
    Played (as ++ [.exec]) c es o ws bs ks := by
  obtain ⟨m, k, hfollow, hk, h⟩ := h
  have hb := base_of_followOk hfollow (by simp [Stopped, hk])
  obtain ⟨r, m', hs, hu, hview⟩ := hb.leadsTo_yielded hk
    (by rw [show m.currentThread = c from h.current]; exact h.alive c hc)
    (by rw [show m.currentThread = c from h.current]; exact (h.fn c hc).trans hfn)
  refine ⟨m', followOk_one hfollow trivial hs, hu, ?_⟩
  rw [hview]
  exact (h.back _ r).congr_fn hks

/-- The current thread goes on from its `cv_wait`. -/
lemma Loaded.waited (h : Loaded as c es (-1) ws bs p) (hc : c ∈ crew)
    (hfn : p c = some (.cvWait 6 4)) (hks : ∀ t ∈ crew, Function.update p c none t = doing c ks t) :
    Played (as ++ [.exec]) c es c ws bs ks := by
  obtain ⟨m, k, hfollow, hk, h⟩ := h
  have hb := base_of_followOk hfollow (by simp [Stopped, hk])
  obtain ⟨m', hs, hu, hview⟩ := hb.leadsTo_waited hk
    (by rw [show m.currentThread = c from h.current]; exact h.alive c hc)
    (by rw [show m.currentThread = c from h.current]; exact (h.fn c hc).trans hfn)
    (by decide) h.lock rfl
  refine ⟨m', followOk_one hfollow trivial hs, hu, ?_⟩
  rw [hview, show m.currentThread = c from h.current]
  exact ((h.setLock c).back _ _).congr_fn hks

/-- `lock_acquire` -/
lemma Played.acquires (h : Played as c es (-1) ws bs ks) :
    Played (as ++ [.call (.lockAcquire 4)]) c es c ws bs ks := by
  obtain ⟨m, hfollow, hu, h⟩ := h
  obtain rfl : m.currentThread = c := h.current
  obtain ⟨m', hs, hu', hview⟩ := leadsTo_lockAcquire hu h.gave.1 (by decide) h.lock rfl
  refine ⟨m', followOk_one hfollow ⟨rfl, show (4 : Addr) ≠ NULL by decide⟩ hs, hu', ?_⟩
  rw [hview]
  exact (((h.called _).setLock _).back _ _).congr_fn fun t _ => doing_called ..

/-- `lock_release` -/
lemma Played.releases (h : Played as c es c ws bs ks) :
    Played (as ++ [.call (.lockRelease 4)]) c es (-1) ws bs ks := by
  obtain ⟨m, hfollow, hu, h⟩ := h
  obtain ⟨m', hs, hu', hview⟩ := leadsTo_lockRelease hu h.gave.1 (by decide) h.lock
    h.current.symm (show (5 : Addr) ≠ NULL by decide) h.lockQueue
  refine ⟨m', followOk_one hfollow ⟨rfl, by decide, _, h.lock, h.current.symm⟩ hs, hu', ?_⟩
  rw [hview]
  exact (((h.called _).setLock (-1)).back _ _).congr_fn fun t _ => doing_called ..

/-- `cv_signal` on the condition variable at 6. -/
lemma Played.signals (h : Played as c es c (t :: ws) bs ks)
    (hroom : (es.length : ℤ) < QUEUE_CAPACITY) (ht : t ∈ crew) (hws : t ∉ ws) :
    Played (as ++ [.call (.cvSignal 6 4)]) c (es ++ [t]) c ws bs ks := by
  obtain ⟨m, hfollow, hu, h⟩ := h
  have hvalid : ∀ u ∈ crew, isValidThread u := by decide
  have hst : (m.threads t).state = .Sleep := (h.state t ht).trans (if_pos (List.mem_cons_self ..))
  obtain ⟨m', hs, hu', hview⟩ := leadsTo_cvSignal hu h.gave.1 h.gave.2.1 (by decide) (by decide)
    h.lock h.current.symm h.cv (by decide) h.cvQueue (hvalid t ht) hst
  have hok : OwnsLock m 4 := ⟨_, h.lock, h.current.symm⟩
  refine ⟨m', followOk_one hfollow ⟨rfl, by decide, by decide, hok⟩ hs, hu', ?_⟩
  rw [hview]
  exact ((((h.called _).woken ht hws).pushReady hroom t).back _ _).congr_fn
    fun t _ => doing_called ..

/-- `cv_signal` on the condition variable at 8, while `thread_queue` is full. -/
lemma Played.signals_guest (h : Played as c es c ws [3] ks)
    (hfull : (es.length : ℤ) = QUEUE_CAPACITY) :
    Played (as ++ [.call (.cvSignal 8 4)]) c es c ws [] ks := by
  obtain ⟨m, hfollow, hu, h⟩ := h
  obtain ⟨m', hs, hu', hview⟩ := leadsTo_cvSignal hu h.gave.1 h.gave.2.2 (by decide) (by decide)
    h.lock h.current.symm h.cv' (by decide) h.cvQueue' (by decide) h.guest
  have hok : OwnsLock m 4 := ⟨_, h.lock, h.current.symm⟩
  refine ⟨m', followOk_one hfollow ⟨rfl, by decide, by decide, hok⟩ hs, hu', ?_⟩
  rw [hview]
  exact ((((h.called _).woken_guest).pushReady_full hfull 3).back _ _).congr_fn
    fun t _ => doing_called ..

/-- `cv_wait` on the condition variable at 6. -/
lemma Played.waits (h : Played as c (t :: es) c ws bs ks) (hroom : (es.length : ℤ) < QUEUE_CAPACITY)
    (hlen : (ws.length : ℤ) < QUEUE_CAPACITY) (hnext : Next c t ws) :
    Loaded (as ++ [.call (.cvWait 6 4)]) t (es ++ [c]) (-1) (ws ++ [c]) bs
      (Function.update (doing c ks) c (some (.cvWait 6 4))) := by
  obtain ⟨m, hfollow, hu, h⟩ := h
  obtain ⟨hc, ht, hws, hne⟩ := hnext
  have hb := base_of_followOk hfollow (by simp [Stopped, hu])
  have hst : (m.threads t).state = .Running := (h.state t ht).trans (if_neg hws)
  obtain ⟨m', k, hs, hk, hview⟩ := hb.cvWait_resumes hu h.gave.1 h.gave.2.1 (by decide) (by decide)
    h.lock h.current.symm h.lockQueue h.cv h.cvQueue h.ready hst
    fun heq => hne (heq.trans h.current)
  have hok : OwnsLock m 4 := ⟨_, h.lock, h.current.symm⟩
  refine ⟨m', k, followOk_one hfollow ⟨rfl, by decide, by decide, hok⟩ hs, hk, ?_⟩
  rw [hview, show m.currentThread = c from h.current]
  have hcalled := h.called (.cvWait 6 4)
  rw [h.current] at hcalled
  exact (((hcalled.setLock (-1)).asleep hc hlen).setReady es).switchTo hroom t

/-! ## Growth -/

/-- `thread_yield(THREAD_ANY)`, and the next thread goes on. -/
def turn : List Action := [.call (.threadYield THREAD_ANY), .exec]

/-- The lock is acquired, its owner waits on the condition variable at 6, and the next thread
goes on. -/
def rest : List Action := [.call (.lockAcquire 4), .call (.cvWait 6 4), .exec]

section

variable (ks' : List Tid)

/-- The next thread goes on from its `thread_yield`. -/
lemma Played.turns (h : Played as c (t :: es) o ws bs ks) (hroom : (es.length : ℤ) < QUEUE_CAPACITY)
    (hnext : Next c t ws) (hk : t ∉ ks) (hks : HandsOver (.threadYield THREAD_ANY) c t ks ks') :
    Played (as ++ turn) t (es ++ [c]) o ws bs ks' := by
  have hfn : Function.update (doing c ks) c (some (.threadYield THREAD_ANY)) t =
      some (.threadYield THREAD_ANY) := by
    simp [doing, hnext.2.2.2, hk]
  have hplayed := (h.yields hroom hnext).yielded hnext.2.1 hfn hks
  rwa [List.append_assoc] at hplayed

/-- The next thread goes on from its `cv_wait`, and releases the lock. -/
lemma Played.turns_release (h : Played as c (t :: es) (-1) ws bs ks)
    (hroom : (es.length : ℤ) < QUEUE_CAPACITY) (hnext : Next c t ws) (hk : t ∈ ks)
    (hks : HandsOver (.threadYield THREAD_ANY) c t ks ks') :
    Played (as ++ (turn ++ [.call (.lockRelease 4)])) t (es ++ [c]) (-1) ws bs ks' := by
  have hfn : Function.update (doing c ks) c (some (.threadYield THREAD_ANY)) t =
      some (.cvWait 6 4) := by
    simp [doing, hnext.2.2.2, hk]
  have hplayed := ((h.yields hroom hnext).waited hnext.2.1 hfn hks).releases
  rwa [List.append_assoc, List.append_assoc] at hplayed

/-- The current thread acquires the lock and waits, and the next thread goes on from its
`thread_yield`. -/
lemma Played.rests (h : Played as c (t :: es) (-1) ws bs ks)
    (hroom : (es.length : ℤ) < QUEUE_CAPACITY) (hlen : (ws.length : ℤ) < QUEUE_CAPACITY)
    (hnext : Next c t ws) (hk : t ∉ ks) (hks : HandsOver (.cvWait 6 4) c t ks ks') :
    Played (as ++ rest) t (es ++ [c]) (-1) (ws ++ [c]) bs ks' := by
  have hfn : Function.update (doing c ks) c (some (.cvWait 6 4)) t =
      some (.threadYield THREAD_ANY) := by
    simp [doing, hnext.2.2.2, hk]
  have hplayed := (h.acquires.waits hroom hlen hnext).yielded hnext.2.1 hfn hks
  rwa [List.append_assoc, List.append_assoc] at hplayed

/-- The current thread, which has the lock, waits, and the next thread goes on from its `cv_wait`
with the lock. -/
lemma Played.hands (h : Played as c (t :: es) c ws bs ks)
    (hroom : (es.length : ℤ) < QUEUE_CAPACITY) (hlen : (ws.length : ℤ) < QUEUE_CAPACITY)
    (hnext : Next c t ws) (hk : t ∈ ks) (hks : HandsOver (.cvWait 6 4) c t ks ks') :
    Played (as ++ [.call (.cvWait 6 4), .exec]) t (es ++ [c]) t (ws ++ [c]) bs ks' := by
  have hfn : Function.update (doing c ks) c (some (.cvWait 6 4)) t = some (.cvWait 6 4) := by
    simp [doing, hnext.2.2.2, hk]
  have hplayed := (h.waits hroom hlen hnext).waited hnext.2.1 hfn hks
  rwa [List.append_assoc] at hplayed

end

/-- Threads 1 and 2, `n` times. -/
def pairs : ℕ → List Tid
  | 0 => []
  | n + 1 => 1 :: 2 :: pairs n

/-- Two entries for each pair. -/
lemma length_pairs (n : ℕ) : (pairs n).length = 2 * n := by
  induction n with
  | zero => rfl
  | succ n ih => simp [pairs, ih]; ring

/-- One pair more at the end. -/
lemma pairs_append (n : ℕ) : pairs n ++ [1, 2] = pairs (n + 1) := by
  induction n with
  | zero => rfl
  | succ n ih => rw [pairs, List.cons_append, List.cons_append, ih, ← pairs]

/-- Threads 1 and 2 take turns, `n` times. -/
def spins : ℕ → List Action
  | 0 => []
  | n + 1 => turn ++ (turn ++ spins n)

/-- Turns of threads 1 and 2 bring the entry of thread 0 to the front. -/
lemma Played.spin {i j : ℕ} (h : Played as 1 (2 :: (pairs j ++ 0 :: pairs i)) (-1) [] bs [])
    (hroom : 2 * ((i : ℤ) + j + 1) ≤ QUEUE_CAPACITY) :
    Played (as ++ spins j) 1 (2 :: 0 :: pairs (i + j)) (-1) [] bs [] := by
  induction j generalizing as i with
  | zero => simpa [spins, pairs] using h
  | succ j ih =>
    push_cast at hroom
    have h₁ := h.turns [] (by simp [length_pairs]; omega) (by decide) (by decide) (by decide)
    have h₂ := h₁.turns [] (by simp [length_pairs]; omega) (by decide) (by decide) (by decide)
    have heq : 2 :: (pairs j ++ 0 :: pairs i) ++ [1] ++ [2] =
        2 :: (pairs j ++ 0 :: pairs (i + 1)) := by
      simp [← pairs_append]
    have h₃ : Played (as ++ turn ++ turn ++ spins j) 1 (2 :: 0 :: pairs (i + 1 + j)) (-1) [] bs
        [] :=
      ih (heq ▸ h₂) (by push_cast; omega)
    rw [spins, ← List.append_assoc, ← List.append_assoc, show i + (j + 1) = i + 1 + j by omega]
    exact h₃

/-- The current thread acquires the lock, wakes two threads and releases the lock. -/
def rouse : List Action :=
  [.call (.lockAcquire 4), .call (.cvSignal 6 4), .call (.cvSignal 6 4), .call (.lockRelease 4)]

/-- The threads 1 and 2, who have been woken, go on from their `cv_wait` and take turns until
thread 0 is next after them; they wait, and thread 0 signals twice. -/
def lap (n : ℕ) : List Action :=
  turn ++ [.call (.lockRelease 4)] ++ (turn ++ [.call (.lockRelease 4)]) ++ turn ++ spins n ++
    rest ++ rest ++ rouse

/-- The same scene, with its actions and entries written in another way. -/
lemma Played.of_eq {as' : List Action} {es' : List Tid} (h : Played as c es o ws bs ks)
    (has : as = as') (hes : es = es') : Played as' c es' o ws bs ks := by
  rwa [← has, ← hes]

/-- A lap adds two entries to `thread_queue`. -/
lemma Played.laps {n : ℕ} (h : Played as 0 (pairs (n + 2)) (-1) [] bs [1, 2])
    (hroom : 2 * ((n : ℤ) + 3) ≤ QUEUE_CAPACITY) :
    Played (as ++ lap n) 0 (pairs (n + 3)) (-1) [] bs [1, 2] := by
  have hlen := length_pairs n
  have h₁ := h.turns_release [2] (by simp [pairs]; omega) (by decide) (by decide) (by decide)
  have h₂ := h₁.turns_release [] (by simp [pairs]; omega) (by decide) (by decide) (by decide)
  have h₃ := h₂.turns [] (by simp; omega) (by decide) (by decide) (by decide)
  have heq₃ : 2 :: pairs n ++ [0] ++ [1] ++ [2] = 2 :: (pairs n ++ 0 :: pairs 1) := by simp [pairs]
  have h₄ := Played.spin (j := n) (i := 1) (h₃.of_eq rfl heq₃) (by push_cast; omega)
  have h₅ := h₄.rests [1] (by simp [length_pairs]; omega) (by decide) (by decide) (by decide)
    (by decide)
  have h₆ := h₅.rests [1, 2] (by simp [length_pairs]; omega) (by decide) (by decide) (by decide)
    (by decide)
  have h₇ := ((h₆.acquires.signals (by simp [length_pairs]; omega) (by decide) (by decide)).signals
    (by simp [length_pairs]; omega) (by decide) (by decide)).releases
  have heq₇ : pairs (1 + n) ++ [1] ++ [2] ++ [1] ++ [2] = pairs (n + 3) := by
    simp [← pairs_append, Nat.add_comm 1 n]
  exact h₇.of_eq (by simp [lap, rouse]) heq₇

/-- Three threads are made, and thread 3 waits on the condition variable at 8; the others go
through a lap. -/
def opening : List Action :=
  [.call (.threadCreate 0 0), .call (.threadCreate 0 0), .call (.threadCreate 0 0),
    .call .lockCreate, .exec, .exec, .call .cvCreate, .exec, .exec,
    .call .cvCreate, .exec, .exec] ++
  turn ++ turn ++ turn ++ [.call (.lockAcquire 4), .call (.cvWait 8 4), .exec] ++
  turn ++ turn ++ turn ++ turn ++ rest ++ rest ++ rouse

/-- The first `n` laps. -/
def filling : ℕ → List Action
  | 0 => opening
  | n + 1 => filling n ++ lap n

/-- After the opening, `thread_queue` has four entries. -/
lemma played_opening : Played opening 0 (pairs 2) (-1) [] [3] [1, 2] := by
  have hfollow : (Runs.followOk step Synchronises (threadInit 0) opening).isSome = true := by
    decide +kernel
  obtain ⟨m, hm⟩ := Option.isSome_iff_exists.mp hfollow
  obtain rfl : after 0 opening = m := by
    rw [after, Runs.follow_of_followOk hm]
    rfl
  refine ⟨_, hm, by decide +kernel, ?_⟩
  exact
    { current := by decide +kernel
      ready := by decide +kernel
      state := by decide +kernel
      guest := by decide +kernel
      alive := by decide +kernel
      fn := by decide +kernel
      lock := by decide +kernel
      lockQueue := by decide +kernel
      cv := by decide +kernel
      cvQueue := by decide +kernel
      cv' := by decide +kernel
      cvQueue' := by decide +kernel
      gave := by decide +kernel }

/-- The laps fill `thread_queue`. -/
lemma played_filling {n : ℕ} (hroom : 2 * ((n : ℤ) + 2) ≤ QUEUE_CAPACITY) :
    Played (filling n) 0 (pairs (n + 2)) (-1) [] [3] [1, 2] := by
  induction n with
  | zero => exact played_opening
  | succ n ih =>
    push_cast at hroom
    exact (ih (by omega)).laps (by omega)

/-- The run that loses a wakeup: when `thread_queue` is full, thread 0 signals thread 3, and then
threads 0 and 1 wait. -/
def drowning : List Action :=
  filling 15358 ++ [.call (.lockAcquire 4), .call (.cvSignal 8 4), .call (.cvWait 6 4), .exec,
    .call (.cvWait 6 4), .exec]

/-- At the end of that run, thread 2 has the lock, and nobody waits on the condition variable
at 8. -/
lemma played_drowning :
    Played drowning 2 (pairs 15359 ++ [0] ++ [1]) 2 [0, 1] [] [0, 1] := by
  have hlen := length_pairs
  have h := (played_filling (n := 15358) (by rw [queue_capacity]; norm_num)).acquires.signals_guest
    (by rw [hlen, queue_capacity]; norm_num)
  have h₁ := (h.of_eq rfl (show pairs 15360 = 1 :: 2 :: pairs 15359 from rfl)).hands [0, 2]
    (by rw [List.length_cons, hlen, queue_capacity]; norm_num) (by decide) (by decide) (by decide)
    (by decide)
  have h₂ := (h₁.of_eq rfl (List.cons_append ..)).hands [0, 1]
    (by rw [List.length_append, hlen, queue_capacity]; norm_num) (by decide) (by decide) (by decide)
    (by decide)
  exact h₂.of_eq (by simp [drowning]) rfl

/-! ## Results -/

/-- The entries of the laps. -/
lemma mem_pairs {n : ℕ} (h : t ∈ pairs n) : t = 1 ∨ t = 2 := by
  induction n with
  | zero => cases h
  | succ n ih =>
    rw [pairs, List.mem_cons, List.mem_cons] at h
    rcases h with h | h | h
    · exact .inl h
    · exact .inr h
    · exact ih h

/-- With the lock and no sleepers on it, a `cv_wait` for which no entry of `thread_queue` is of
another Running thread goes on. -/
lemma Scene.goesOn (h : Scene c es c ws bs p (abs m)) (hreach : ReachableBy Synchronises m)
    (hu : m.control = .user) (hes : ∀ t ∈ es, t ≠ c → t ∈ crew ∧ t ∈ ws) :
    ∃ m', step m (.call (.cvWait 6 4)) = some m' ∧ GoesOn m 6 4 m' := by
  have hok : Synchronises m (.call (.cvWait 6 4)) :=
    ⟨rfl, by decide, by decide, _, h.lock, h.current.symm⟩
  have hstep : step m (.call (.cvWait 6 4)) = some (call (.cvWait 6 4) m) :=
    if_pos ⟨hu, .inr h.gave.2.1, .inr h.gave.1⟩
  have hpushes : pushes m (.call (.cvWait 6 4)) = [] := by
    obtain ⟨wq, hwq, -, hnil⟩ := waitQueue_of_abs h.lockQueue
    rw [pushes, show m.locks 4 = some ⟨5, c⟩ from h.lock, Option.elim_some, wakes, hwq]
    dsimp only
    rw [hnil, wakeList]
  refine ⟨_, hstep, (hreach.cvWait_cases hok hstep).resolve_left ?_⟩
  rintro ⟨⟨t, hmem, hne, helig⟩, -⟩
  rw [hpushes] at hmem helig
  have hready : m.threadQueue.entries = es := h.ready
  have hcur : m.currentThread = c := h.current
  obtain ⟨hcrew, hws⟩ := hes t (hready ▸ hmem) (hcur ▸ hne)
  have hsleep : (m.threads t).state = .Sleep := (h.state t hcrew).trans (if_pos hws)
  rcases helig with hnil | hrunning
  · cases hnil
  · rw [hsleep] at hrunning
    cases hrunning

/-- **Condition variables lose no wakeup**, in every run of threads that synchronise all of whose
pushes onto `thread_queue` fit. A `cv_wait` makes its accesses to what threads share with the
signal blocked; it puts its caller to sleep on the condition variable before another thread runs,
or goes on with the lock because no other thread is Running. Who waits there goes on waiting
until a signal or a broadcast. A signal makes the thread that has waited longest Running, a
broadcast all of them. When `cv_wait` has returned, the lock belongs to its caller.

**Proof sketch.** The five parts are lemmas about the threads that synchronise, `cvWait_step` and
the ones beside it. `Fits` is needed where `cv_wait` goes on: `thread_queue` is empty then, and
every Running thread but the current one has an entry there (`queued`), so there is none. -/
theorem no_wakeup_lost (h : ReachableBy (fun m a => Synchronises m a ∧ Fits m a) m)
    (hrun : ¬ Stopped m) :
    (∀ c l m', Synchronises m (.call (.cvWait c l)) → Fits m (.call (.cvWait c l)) →
      step m (.call (.cvWait c l)) = some m' →
        (∀ w ∈ accesses m (.call (.cvWait c l)), w.masked = true) ∧
          (FallsAsleep m c m' ∨
            GoesOn m c l m' ∧ ∀ t, t ≠ m.currentThread → (m'.threads t).state ≠ .Running)) ∧
    (∀ c t m', Waiting m c t → Synchronising (fun _ => True) m m' → ¬ Stopped m' →
      Synchronising (Waiting · c t) m m' ∧ Waiting m' c t ∨ Signalled m c t m') ∧
    (∀ c l m', Synchronises m (.call (.cvSignal c l)) → step m (.call (.cvSignal c l)) = some m' →
      Rouses m c ((cvSleepers m c).take 1) m') ∧
    (∀ c l m', Synchronises m (.call (.cvBroadcast c l)) →
      step m (.call (.cvBroadcast c l)) = some m' → Rouses m c (cvSleepers m c) m') ∧
    ∀ t c l r tr, m.trace = .returned t (.cvWait c l) r :: tr →
      ∃ lock, m.locks l = some lock ∧ lock.current = t := by
  have hsync : ReachableBy Synchronises m := h.mono fun _ _ _ => And.left
  have hfits : ReachableBy Fits m := h.mono fun _ _ _ => And.right
  refine ⟨fun c l m' hok hfit hs => ⟨((ReachableBy.base h hrun).keepsMasks hs).masked, ?_⟩,
    fun c t m' ht hpath hrun' => hsync.waits_until ht hpath hrun',
    fun c l m' hok hs => hsync.cvSignal_step hok hs,
    fun c l m' hok hs => hsync.cvBroadcast_step hok hs,
    fun t c l r tr htrace => hsync.cvWait_owns hrun htrace⟩
  refine (hsync.cvWait_step hok hs).imp_right fun hgoes => ⟨hgoes, fun t hne hrunning => ?_⟩
  -- a Running thread would have an entry in `thread_queue`, which is empty
  have hqueued := ReachableBy.queued (hfits.step hfit hs) (by simp [Stopped, hgoes.control])
  have hmem : t ∈ m'.threadQueue.entries :=
    hqueued.mem t hrunning (by rwa [abs_current, hgoes.current])
  rw [hgoes.ready] at hmem
  cases hmem

/-- Thread 1 waits on a condition variable, and thread 0 has taken the lock. -/
theorem no_wakeup_lost_one :
    let m := after 0 [.call (.threadCreate 0 0), .call .lockCreate, .exec, .exec, .call .cvCreate,
      .exec, .exec, .call (.threadYield THREAD_ANY), .exec, .call (.lockAcquire 2),
      .call (.cvWait 4 2), .exec, .call (.lockAcquire 2)]
    Waiting m 4 1 ∧ ∃ m', step m (.call (.cvSignal 4 2)) = some m' ∧
      (m'.threads 1).state = .Running := by
  intro m
  have hsignal : step m (.call (.cvSignal 4 2)) = some (call (.cvSignal 4 2) m) := by
    rw [step]
    exact if_pos (by decide +kernel)
  have hrouses := (no_wakeup_lost (m := m) (reachableBy_after (by decide +kernel))
    (by decide +kernel)).2.2.1 4 2 _ (by decide +kernel) hsignal
  have hmem : (1 : Tid) ∈ (cvSleepers m 4).take 1 := by decide +kernel
  refine ⟨(hrouses.waiting 1).mpr (List.mem_of_mem_take hmem), _, hsignal, ?_⟩
  rw [hrouses.state 1, if_pos hmem]

/-- **A wakeup is lost.** At the end of this run, thread 2 waits on the condition variable at 6.
It goes on, the entry is gone and `thread_queue` is empty, but thread 3 is Running: the
`cv_signal` of thread 0 has woken it, and its push was refused.

**Proof sketch.** `played_drowning` plays the run up to the last call. There `thread_queue` has only
entries of threads that are asleep, and of the caller, so the `thread_sleep` of the `cv_wait` finds
nobody and the call goes on (`goesOn`). -/
theorem wakeup_lost :
    ∃ m m', Runs.followOk step Synchronises (threadInit 0) drowning = some m ∧
      Synchronises m (.call (.cvWait 6 4)) ∧ step m (.call (.cvWait 6 4)) = some m' ∧
      m'.control = .user ∧ m.currentThread = 2 ∧ m'.currentThread = 2 ∧
      2 ∉ cvQueue m' 6 ∧ m'.threadQueue.entries = [] ∧ (m'.threads 3).state = .Running := by
  obtain ⟨m, hfollow, hu, h⟩ := played_drowning
  have hreach : ReachableBy Synchronises m := Runs.Reachable.followOk (.init ⟨0, rfl⟩) hfollow
  obtain ⟨m', hs, hgoes⟩ := h.goesOn hreach hu fun t ht hne => by
    simp only [List.mem_append, List.mem_singleton] at ht
    rcases ht with (ht | rfl) | rfl
    · rcases mem_pairs ht with rfl | rfl
      · decide
      · exact (hne rfl).elim
    · decide
    · decide
  have hcur : m.currentThread = 2 := h.current
  have hqueue : cvQueue m 6 = [0, 1] := by
    obtain ⟨wq, hwq, -, hentries⟩ := waitQueue_of_abs h.cvQueue
    rw [CvAt.cvQueue_eq ⟨h.cv, hwq⟩, hentries]
  refine ⟨m, m', hfollow, ⟨rfl, by decide, by decide, _, h.lock, h.current.symm⟩, hs, hgoes.control,
    hcur, hgoes.current.trans hcur, ?_, hgoes.ready, hgoes.others 3 h.guest⟩
  rw [hgoes.queue, hqueue]
  decide

end UserThreads
