import UserSpaceThreads.Life

set_option relaxedAutoImplicit false
set_option autoImplicit false

/-!
# The ready queue

Every runnable thread has an entry in `thread_queue`, as long as the queue has room for the
entries pushed onto it. A `thread_yield(THREAD_ANY)` removes an entry before it pushes one; a
`thread_create`, a wakeup, a death that runs a waiter and a `thread_yield` to a given thread
push without removing, and nobody looks at the result of the push. Two threads that yield to
each other by id fill the queue, and the next thread that is created is lost.

## Main definitions

* `UserThreads.Fits` — the entries that a step pushes find room, or are there already.
* `UserThreads.View.Queued` — the invariant; `UserThreads.View.Listed` — what is left of it when
  pushes are refused.

## Main results

* `UserThreads.ReachableBy.listed` — in every run, a runnable thread has an entry, or a push of it
  has been refused.
* `UserThreads.runnable_queued` — in runs all of whose pushes fit, no runnable thread is lost.
* `UserThreads.runnable_lost` — a run in which one is.
-/

namespace UserThreads

/-! ## Pushes that fit -/

/-- A push of `t` onto a queue with the entries `es` finds room, or `t` has an entry already. -/
def Roomy (es : List Tid) (t : Tid) : Prop := (es.length : ℤ) < QUEUE_CAPACITY ∨ t ∈ es

instance (es : List Tid) (t : Tid) : Decidable (Roomy es t) :=
  inferInstanceAs (Decidable (_ ∨ _))

/-- Each of the pushes of `ts`, one after the other, finds room or its id there. -/
def AllRoomy : List Tid → List Tid → Prop
  | _, [] => True
  | es, t :: ts => Roomy es t ∧ AllRoomy (pushEntry es t) ts

instance decidableAllRoomy : (es ts : List Tid) → Decidable (AllRoomy es ts)
  | _, [] => inferInstanceAs (Decidable True)
  | es, t :: ts =>
    have := decidableAllRoomy (pushEntry es t) ts
    inferInstanceAs (Decidable (_ ∧ _))

/-- The step pushes onto `thread_queue` only what finds room there or is there already. -/
def Fits (m : Machine) (a : Action) : Prop := AllRoomy m.threadQueue.entries (pushes m a)

instance (m : Machine) (a : Action) : Decidable (Fits m a) := decidableAllRoomy _ _

/-- One push among several. -/
lemma AllRoomy.roomy {es before after : List Tid} {t : Tid}
    (h : AllRoomy es (before ++ t :: after)) : Roomy (pushAll es before) t := by
  induction before generalizing es with
  | nil => exact h.1
  | cons u before ih => exact ih h.2

/-- In a step whose pushes fit, each of them finds room. -/
lemma Fits.roomy {m : Machine} {a : Action} {v : View} {t : Tid} (h : Fits m a)
    (hp : Pushes m a v t) : Roomy v.ready t := by
  obtain ⟨before, after, heq, hready⟩ := hp
  rw [hready]
  rw [Fits, heq] at h
  exact h.roomy

/-- A push that fits leaves an entry. -/
lemma Roomy.mem {es : List Tid} {t : Tid} (h : Roomy es t) : t ∈ pushEntry es t := by
  unfold pushEntry
  split_ifs with hfull
  · exact h.resolve_left hfull.not_lt
  · simp

/-- A push keeps the bound on the length. -/
lemma length_pushEntry {es : List Tid} (h : (es.length : ℤ) ≤ QUEUE_CAPACITY) (t : Tid) :
    ((pushEntry es t).length : ℤ) ≤ QUEUE_CAPACITY := by
  unfold pushEntry
  split_ifs with hfull
  · exact h
  · rw [List.length_append, List.length_singleton]
    push_cast
    omega

/-- A push that fits is not refused, unless there is an entry already. -/
lemma Roomy.not_refused {es : List Tid} {t : Tid} {tr : List Event} (h : Roomy es t)
    (htr : ∀ u, .refused u false ∉ tr) (u : Tid) : .refused u false ∉ pushTrace es t tr := by
  unfold pushTrace
  split_ifs with hfull
  · have hmem : t ∈ es := h.resolve_left hfull.not_lt
    simp [hmem, htr u]
  · exact htr u

/-! ## The invariant -/

namespace View

/-- Every runnable thread but the current one has an entry in the ready queue, or a push of it
has been refused when it had none. -/
def Listed (v : View) : Prop :=
  ∀ t, v.state t = .Running → t ≠ v.current → t ∈ v.ready ∨ .refused t false ∈ v.trace

/-- Every runnable thread but the current one has an entry in the ready queue. -/
structure Queued (v : View) : Prop where
  length : (v.ready.length : ℤ) ≤ QUEUE_CAPACITY
  mem : ∀ t, v.state t = .Running → t ≠ v.current → t ∈ v.ready
  refused : ∀ t, .refused t false ∉ v.trace

variable {v v' : View} {l : Label} {t : Tid}

/-- A push leaves an entry, or is refused. -/
lemma mem_or_refused (es : List Tid) (t : Tid) (tr : List Event) :
    t ∈ pushEntry es t ∨ .refused t false ∈ pushTrace es t tr := by
  unfold pushEntry pushTrace
  split_ifs
  · by_cases hmem : t ∈ es
    · exact .inl hmem
    · exact .inr (by simp [hmem])
  · exact .inl (by simp)

/-- A push of another thread changes neither. -/
lemma mem_or_refused_of {es : List Tid} {u : Tid} {tr : List Event}
    (h : u ∈ es ∨ .refused u false ∈ tr) (t : Tid) :
    u ∈ pushEntry es t ∨ .refused u false ∈ pushTrace es t tr := by
  refine h.imp mem_pushEntry_of_mem fun hmem => ?_
  unfold pushTrace
  split_ifs
  · exact List.mem_cons_of_mem _ hmem
  · exact hmem

/-- The thread `t` gets the processor. -/
lemma Listed.switchTo (h : ∀ u, v.state u = .Running → u ≠ v.current → u ≠ t →
    u ∈ v.ready ∨ .refused u false ∈ v.trace) : (v.switchTo t).Listed := by
  intro u hu hne
  rw [View.switchTo_trace]
  rcases eq_or_ne u v.current with rfl | hcur
  · exact (mem_or_refused ..).imp_right (List.mem_cons_of_mem _)
  · exact (mem_or_refused_of (h u hu hcur hne) _).imp_right (List.mem_cons_of_mem _)

/-- A push of a thread that has become Running. -/
lemma Listed.pushReady (h : ∀ u, v.state u = .Running → u ≠ v.current → u ≠ t →
    u ∈ v.ready ∨ .refused u false ∈ v.trace) : (v.pushReady t).Listed := by
  intro u hu hcur
  rcases eq_or_ne u t with rfl | hne
  · exact mem_or_refused ..
  · exact mem_or_refused_of (h u hu hcur hne) t

/-- `thread_yield(THREAD_ANY)` has taken the entry of the thread that gets the processor. -/
lemma Listed.pick {ts : List Tid} (h : v.Listed) (hready : v.ready = t :: ts) :
    ∀ u, v.state u = .Running → u ≠ v.current → u ≠ t → u ∈ ts ∨ .refused u false ∈ v.trace := by
  intro u hu hcur hne
  refine (h u hu hcur).imp_left fun hmem => ?_
  rw [hready] at hmem
  exact (List.mem_cons.mp hmem).resolve_left hne

/-- What `Listed` looks at. -/
lemma Listed.of_eq (h : v.Listed) (hready : v'.ready = v.ready) (hcur : v'.current = v.current)
    (hst : ∀ t, t ≠ v.current → v'.state t = .Running → v.state t = .Running)
    (htrace : ∀ t, .refused t false ∈ v.trace → .refused t false ∈ v'.trace) : v'.Listed := by
  intro u hu hne
  rw [hcur] at hne
  rw [hready]
  exact (h u (hst u hne hu) hne).imp_right (htrace u)

/-- **Every transaction keeps the runnable threads listed.**

**Proof sketch.** A thread becomes runnable when it is created, when it is woken, and when it gives
up the processor. Each time it is pushed onto `thread_queue`, and if the push is refused the history
says so. An entry leaves the queue when its thread gets the processor, or when it is useless. -/
theorem Listed.step (h : v.Listed) (hs : Step v l v') : v'.Listed := by
  have htrace (t : Tid) : .refused t false ∈ v.trace → .refused t false ∈ v'.trace := hs.writes.mem
  cases hs with
  | @create num =>
    refine Listed.pushReady fun u hu hcur hne => ?_
    exact (h u (by simpa [hne] using hu) hcur).imp_right (List.mem_cons_of_mem _)
  | @discard ds es ready useless =>
    intro u hu hne
    refine (h u hu hne).imp_left fun hmem => ?_
    rw [ready] at hmem
    exact (List.mem_append.mp hmem).resolve_left fun hd => useless u hd ⟨hu, hne⟩
  | dispatch picks => exact Listed.switchTo (h.pick picks.ready)
  | yieldTo => exact Listed.switchTo fun u hu hne _ => h u hu hne
  | @sleep f q o o' t es ts calls sleeps access queue lock picks =>
    refine Listed.switchTo fun u hu hne hut => ?_
    have hne' : u ≠ v.current := hne
    exact (h.pick picks.ready u (by simpa [hne'] using hu) hne' hut).imp_right
      (List.mem_cons_of_mem _)
  | @wait x t c ts calls valid state ne waiter picks =>
    refine Listed.switchTo fun u hu hne hut => ?_
    have hne' : u ≠ v.current := hne
    exact (h.pick picks.ready u (by simpa [hne'] using hu) hne' hut).imp_right
      (List.mem_cons_of_mem _)
  | sleepNone | waitNone =>
    refine h.of_eq rfl rfl (fun t hne ht => ?_) htrace
    simpa [hne] using ht
  | @wake f q o o' t es =>
    refine Listed.pushReady fun u hu hcur hne => ?_
    exact (h u (by simpa [hne] using hu) hcur).imp_right (List.mem_cons_of_mem _)
  | @die t =>
    refine h.of_eq (by simp) (by simp) (fun u _ hu => ?_) htrace
    have hut : u ≠ t := by
      rintro rfl
      simp at hu
    simpa [hut] using hu
  | @dieTo t w killed rsp heap dies waiter valid state ne other =>
    refine Listed.switchTo fun u hu hne hw => ?_
    have hut : u ≠ t := by
      rintro rfl
      simp [hw] at hu
    have hold := h u (by simpa [hw, hut] using hu) (by simpa using hne)
    refine hold.imp (fun hmem => by simpa using hmem) fun hmem => ?_
    exact List.mem_cons_of_mem _ (bury_trace v t killed rsp heap ▸ List.mem_append_right _ hmem)
  | @dieBack t killed rsp heap dies waiter state ne =>
    refine h.of_eq (by simp) (by simp) (fun u hne' hu => ?_) htrace
    have hut : u ≠ t := by
      rintro rfl
      simp [hne'] at hu
    simpa [hne', hut] using hu
  | called | returned | started | exit | take | give | newQueue | newHalf | newLock | newCv
  | dropQueue | dropHalf | dropLock | dropCv | skip =>
    exact h.of_eq rfl rfl (fun _ _ ht => ht) htrace

/-- No transaction makes the ready queue longer than its capacity. -/
lemma length_step (h : (v.ready.length : ℤ) ≤ QUEUE_CAPACITY) (hs : Step v l v') :
    (v'.ready.length : ℤ) ≤ QUEUE_CAPACITY := by
  have htail {u : Tid} {ts : List Tid} (hready : v.ready = u :: ts) :
      (ts.length : ℤ) ≤ QUEUE_CAPACITY := by
    rw [hready, List.length_cons] at h
    push_cast at h
    omega
  cases hs with
  | create => exact length_pushEntry h _
  | @discard ds es ready =>
    rw [ready, List.length_append] at h
    push_cast at h
    show (es.length : ℤ) ≤ QUEUE_CAPACITY
    omega
  | dispatch picks => exact length_pushEntry (htail picks.ready) _
  | yieldTo => exact length_pushEntry h _
  | sleep _ _ _ _ _ picks => exact length_pushEntry (htail picks.ready) _
  | wait _ _ _ _ _ picks => exact length_pushEntry (htail picks.ready) _
  | wake => exact length_pushEntry h _
  | dieTo => exact length_pushEntry (by simpa using h) _
  | die | dieBack => simpa using h
  | _ => exact h

/-- A death adds no refused pushes to the history. -/
lemma refused_bury {t u : Tid} {killed : Bool} {rsp : Addr} {heap : Heap}
    (h : .refused u false ∈ (v.bury t killed rsp heap).trace) : .refused u false ∈ v.trace := by
  rw [View.bury_trace] at h
  rcases List.mem_append.mp h with h | h
  · rcases List.mem_append.mp h with h | h
    · split_ifs at h <;> simp at h
    · split_ifs at h <;> simp at h
  · exact h

/-- A step whose pushes fit adds no refused pushes of threads without an entry.

**Proof sketch.** Each push is of a thread that has an entry already, or there is room: `Fits` says
so of the pushes of the call, and a thread that is switched away from takes the place of the entry
that has been popped. -/
lemma refused_step {m : Machine} {a : Action} (hlen : (v.ready.length : ℤ) ≤ QUEUE_CAPACITY)
    (h : ∀ t, .refused t false ∉ v.trace) (hok : Fits m a) (hp : Permits m a v l)
    (hs : Step v l v') : ∀ t, .refused t false ∉ v'.trace := by
  have hswitch {w : View} {u : Tid} (hroom : Roomy w.ready w.current)
      (hw : ∀ x, .refused x false ∉ w.trace) : ∀ x, .refused x false ∉ (w.switchTo u).trace := by
    intro x
    rw [View.switchTo_trace, List.mem_cons, not_or]
    exact ⟨by simp, hroom.not_refused hw x⟩
  have hpick {u x : Tid} {ts : List Tid} (hready : v.ready = u :: ts) : Roomy ts x := by
    rw [hready, List.length_cons] at hlen
    push_cast at hlen
    exact .inl (by omega)
  cases hs with
  | create => exact (hok.roomy hp.2.2.2).not_refused (by simpa using h)
  | dispatch picks => exact hswitch (w := v.setReady _) (hpick picks.ready) h
  | yieldTo => exact hswitch (hok.roomy hp.2.2) h
  | @sleep f q o o' t es ts calls sleeps access queue lock picks =>
    exact hswitch (w := (v.asleep v.current q o' es).setReady ts) (hpick picks.ready)
      (by simpa using h)
  | @wait x t c ts calls valid state ne waiter picks =>
    exact hswitch (w := (v.awaiting v.current x).setReady ts) (hpick picks.ready) (by simpa using h)
  | wake => exact (hok.roomy hp).not_refused (by simpa using h)
  | die => exact fun u hu => h u (refused_bury hu)
  | dieTo =>
    exact hswitch (by simpa using hok.roomy hp.2) fun u hu => h u (refused_bury (by simpa using hu))
  | dieBack => exact fun u hu => h u (refused_bury (by simpa using hu))
  | _ => simpa using h

/-- **Every transaction of a step whose pushes fit keeps the runnable threads queued.** -/
theorem Queued.step {m : Machine} {a : Action} (h : v.Queued) (hok : Fits m a)
    (hp : Permits m a v l) (hs : Step v l v') : v'.Queued := by
  have hlisted : v.Listed := fun t ht hne => .inl (h.mem t ht hne)
  have hrefused := refused_step h.length h.refused hok hp hs
  exact ⟨length_step h.length hs,
    fun t ht hne => (hlisted.step hs t ht hne).resolve_right (hrefused t),
    hrefused⟩

end View

/-! ## Reachable states -/

variable {m : Machine}

/-- In every run, the runnable threads are listed. -/
lemma ReachableBy.listed {ok : Machine → Action → Prop} (h : ReachableBy ok m)
    (hrun : ¬ Stopped m) : (abs m).Listed := by
  have hinit (garbage : ℤ) : (abs (threadInit garbage)).Listed := by
    intro t ht hne
    have h0 : t ≠ 0 := hne
    simp [threadInit, h0, uncreatedThread] at ht
  exact ((h.view hinit fun _ _ _ _ _ _ _ _ hv _ _ hs => hv.step hs).resolve_left hrun).2

/-- In a run all of whose pushes fit, the runnable threads are queued. -/
lemma ReachableBy.queued (h : ReachableBy Fits m) (hrun : ¬ Stopped m) : (abs m).Queued := by
  have hinit (garbage : ℤ) : (abs (threadInit garbage)).Queued := by
    refine ⟨by simp [threadInit, queue_capacity], fun t ht hne => ?_, by simp [threadInit]⟩
    have h0 : t ≠ 0 := hne
    simp [threadInit, h0, uncreatedThread] at ht
  exact ((h.view hinit fun _ _ _ _ _ _ _ hok hv _ hp hs => hv.step hok hp hs).resolve_left hrun).2

/-- **No runnable thread is lost**, and no push of a thread without another entry is refused, in
a run all of whose pushes fit.

**Proof sketch.** Both parts are conjuncts of `Queued`, which every transaction of a run whose
pushes fit keeps (`Queued.step`). -/
theorem runnable_queued (h : ReachableBy Fits m) (hrun : ¬ Stopped m) :
    (∀ t, (m.threads t).state = .Running → t ≠ m.currentThread → t ∈ m.threadQueue.entries) ∧
      ∀ t, .refused t false ∉ m.trace := by
  have hqueued := h.queued hrun
  exact ⟨hqueued.mem, hqueued.refused⟩

/-- Two threads are made, and thread 0 yields to the younger one. -/
theorem runnable_queued_two :
    let m := after 42 [.call (.threadCreate 7 8), .call (.threadCreate 7 9), .call (.threadYield 2)]
    (∀ t, (m.threads t).state = .Running → t ≠ m.currentThread → t ∈ m.threadQueue.entries) ∧
      ∀ t, .refused t false ∉ m.trace :=
  runnable_queued (reachableBy_after (by decide)) (by decide)

/-! ## A run that loses a thread -/

/-- The thread `a` runs, the thread `b` is suspended in its `thread_yield(a)`, and `thread_queue`
has `n` entries, all of these two threads. -/
structure Volley (a b : Tid) (n : ℕ) (m : Machine) : Prop where
  control : m.control = .user
  interrupts : m.interrupts = true
  admin : m.administrativeMode = false
  current : m.currentThread = a
  running : (m.threads a).state = .Running
  suspended : (m.threads b).state = .Running
  saved : ∃ r, (m.threads b).ucontext =
    .saved ⟨r, false, [.threadYield true a true, .user (.threadYield a)]⟩
  entries : m.threadQueue.entries.length = n ∧ ∀ t ∈ m.threadQueue.entries, t = a ∨ t = b
  free : (m.threads 2).state = .Destroyed

/-- Threads 1 and 0 yield to each other by id, `n` times each. -/
def volleys : ℕ → List Action
  | 0 => []
  | n + 1 => [.call (.threadYield 0), .exec] ++ ([.call (.threadYield 1), .exec] ++ volleys n)

/-- One exchange: the queue gets one entry more.

**Proof sketch.** The call pushes `a` onto `thread_queue` and switches to `b`; the `exec` behind it
makes `b` return from its own `thread_yield`. Nothing pops an entry, so the queue has one more. -/
lemma Volley.next {a b : Tid} {n : ℕ} (h : Volley a b n m) (ha : a ≠ 2)
    (hb : isValidThread b ∧ b ≠ 2) (hab : b ≠ a) (hn : (n : ℤ) < QUEUE_CAPACITY) :
    ∃ m', Runs.follow step m [.call (.threadYield b), .exec] = some m' ∧
      Volley b a (n + 1) m' := by
  obtain ⟨r, hsaved⟩ := h.saved
  set m₁ := ((m.emit (.called m.currentThread (.threadYield b))).interruptsSet false) with hm₁
  set m₂ := ((((m₁.setUcontext a (.saved ⟨m.rsp, false, [.threadYield true b true,
    .user (.threadYield b)]⟩)).pushReady a).setCurrentThread b).emit (.switched b)).load
      ⟨r, false, [.threadYield true a true, .user (.threadYield a)]⟩ with hm₂
  have hcall : step m (.call (.threadYield b)) = some m₂ := by
    rw [step, if_pos ⟨h.control, trivial⟩, call]
    rw [threadYield]
    have hself : ¬ (b = THREAD_SELF ∨ b = m.currentThread) := by
      rw [h.current]
      exact not_or.mpr ⟨hb.1.ne.2.2.2, hab⟩
    simp only [Machine.interruptsSet_currentThread, Machine.emit_currentThread, if_neg hself,
      if_neg hb.1.ne.2.2.1]
    rw [threadYieldTo_live hb.1 (by simp [h.suspended])]
    simp only [andThen, threadYieldSwitch, Machine.emit_interrupts, h.interrupts, h.current,
      Machine.interruptsSet_currentThread, Machine.emit_currentThread,
      Machine.setUcontext_currentThread, Machine.setUcontext_threads, Machine.pushReady_threads,
      Machine.setCurrentThread_threads, Function.update_of_ne hab, Machine.interruptsSet_threads,
      Machine.emit_threads, hsaved]
    rw [hm₂, hm₁, h.current]
    rfl
  set m₃ := userReturn (.threadYield a) ⟨a, none⟩ ((m₂.setUcontext b .spent).interruptsSet true)
    with hm₃
  have hexec : step m₂ .exec = some m₃ := by
    have hinner : threadYieldAfterGetcontext true a true [.user (.threadYield a)] m₂ =
        .ret a ((m₂.setUcontext b .spent).interruptsSet true) := by
      rw [threadYieldAfterGetcontext, if_pos rfl]
      have hint : m₂.interrupts = false := rfl
      have hadmin : m₂.administrativeMode = false := h.admin
      rw [hint, hadmin]
      rfl
    show some (andThen (threadYieldAfterGetcontext true a true [.user (.threadYield a)] m₂)
      fun v m => unwind [.user (.threadYield a)] ⟨v, none⟩ m) = _
    rw [hinner]
    rfl
  refine ⟨m₃, ?_, ?_⟩
  · rw [Runs.follow, hcall, Option.bind_some, Runs.follow, hexec, Option.bind_some, Runs.follow]
  · have hqueue : m₃.threadQueue.entries = m.threadQueue.entries ++ [a] := by
      show (m.threadQueue.push a).entries = _
      rw [Queue.entries_push, if_pos]
      rw [h.entries.1]
      exact hn
    have hthreads : m₃.threads = Function.update (Function.update m.threads a
        { m.threads a with ucontext := .saved ⟨m.rsp, false, [.threadYield true b true,
          .user (.threadYield b)]⟩ }) b { m.threads b with ucontext := .spent } := by
      have hslot : m₂.threads b = m.threads b := Function.update_of_ne hab _ _
      show Function.update m₂.threads b { m₂.threads b with ucontext := .spent } = _
      rw [hslot]
      rfl
    refine ⟨rfl, rfl, h.admin, rfl, ?_, ?_, ⟨m.rsp, ?_⟩, ⟨?_, fun t ht => ?_⟩, ?_⟩
    · simp [hthreads, h.suspended]
    · simp [hthreads, hab.symm, h.running]
    · simp [hthreads, hab.symm]
    · rw [hqueue, List.length_append, h.entries.1]
      rfl
    · rw [hqueue] at ht
      rcases List.mem_append.mp ht with ht | ht
      · exact (h.entries.2 t ht).symm
      · exact .inr (List.mem_singleton.mp ht)
    · simp [hthreads, hb.2.symm, ha.symm, h.free]

/-- Many exchanges. -/
lemma Volley.run {k n : ℕ} (h : Volley 1 0 n m) (hn : (n : ℤ) + 2 * k ≤ QUEUE_CAPACITY) :
    ∃ m', Runs.follow step m (volleys k) = some m' ∧ Volley 1 0 (n + 2 * k) m' := by
  induction k generalizing n m with
  | zero => exact ⟨m, rfl, h⟩
  | succ k ih =>
    push_cast at hn
    obtain ⟨m₁, hm₁, h₁⟩ := h.next (by decide) ⟨by decide, by decide⟩ (by decide) (by omega)
    obtain ⟨m₂, hm₂, h₂⟩ := h₁.next (by decide) ⟨by decide, by decide⟩ (by decide)
      (by push_cast; omega)
    obtain ⟨m₃, hm₃, h₃⟩ := ih h₂ (by push_cast; omega)
    refine ⟨m₃, ?_, ?_⟩
    · rw [volleys, Runs.follow_append hm₁, Runs.follow_append hm₂, hm₃]
    · have hsum : n + 2 * (k + 1) = n + 1 + 1 + 2 * k := by ring
      rwa [hsum]

/-- Thread 0 makes thread 1, the two yield to each other until `thread_queue` is full, and then
thread 1 makes thread 2. -/
def losingRun : List Action :=
  [.call (.threadCreate 7 8), .call (.threadYield 1), .exec] ++
    (volleys 15359 ++ [.call (.threadCreate 7 9)])

/-- With a full `thread_queue`, a new thread is lost.

**Proof sketch.** The queue is full, so the push of the new thread is refused, and that thread has
no entry. Its slot is the first free one, which is 2. -/
lemma Volley.create (h : Volley 1 0 30720 m) :
    ∃ m', step m (.call (.threadCreate 7 9)) = some m' ∧ m'.control = .user ∧
      (m'.threads 2).state = .Running ∧ m'.currentThread = 1 ∧
      m'.threadQueue.entries = m.threadQueue.entries ∧ .refused 2 false ∈ m'.trace := by
  have hnum : threadNumToCreate m = some 2 := by
    have hcap : (THREAD_MAX_THREADS - 1).toNat = 1021 + 1 + 1 := by decide
    rw [threadNumToCreate, hcap, firstDestroyed, if_neg (by rw [h.running]; decide),
      show (1 : ℤ) + 1 = 2 from rfl, firstDestroyed, if_pos h.free]
  have hmem : (2 : Tid) ∉ m.threadQueue.entries := by
    intro hmem
    rcases h.entries.2 2 hmem with h2 | h2 <;> exact absurd h2 (by decide)
  have hfull : (m.threadQueue.entries.length : ℤ) = QUEUE_CAPACITY := by
    rw [h.entries.1]
    rfl
  set m₁ := m.emit (.called m.currentThread (.threadCreate 7 9)) with hm₁
  have hcreate : threadCreate 7 9 m₁ = .ret 2 (createdAt m₁ 2 7 9) := by
    rw [threadCreate]
    simp only [Machine.emit_interrupts, hm₁, h.interrupts, not_true_eq_false, if_false]
    rw [show threadNumToCreate ((m.emit (.called m.currentThread (.threadCreate 7 9))).interruptsSet
      false) = some 2 from hnum]
    show Outcome.ret 2 _ = Outcome.ret 2 (Machine.interruptsSet _ m.interrupts)
    rw [h.interrupts]
    rfl
  refine ⟨userReturn (.threadCreate 7 9) ⟨2, none⟩ (createdAt m₁ 2 7 9), ?_, rfl, ?_, h.current,
    ?_, ?_⟩
  · rw [step, if_pos ⟨h.control, trivial⟩, call]
    show some (andThen (threadCreate 7 9 m₁) _) = _
    rw [hcreate]
    rfl
  · show (Function.update m.threads 2 (newThread m₁ 7 9) 2).state = _
    rw [Function.update_self]
  · show (m.threadQueue.push 2).entries = _
    rw [Queue.entries_push_eq, pushEntry, if_pos hfull]
  · have htrace : (createdAt m₁ 2 7 9).trace =
        pushTrace m.threadQueue.entries 2 (.created 2 7 9 :: m₁.trace) := pushTrace_eq ..
    refine List.mem_cons_of_mem _ ?_
    rw [htrace, pushTrace, if_pos hfull, decide_eq_false hmem]
    exact List.mem_cons_self ..

/-- **A runnable thread is lost.** At the end of this run, user code runs, thread 2 is Running,
and `thread_queue` has no entry of it: its push was refused.

**Proof sketch.** Threads 0 and 1 yield to each other until `thread_queue` is full (`Volley.run`).
The push of the thread that is then created is refused (`Volley.create`). -/
theorem runnable_lost :
    ∃ m, Runs.follow step (threadInit 42) losingRun = some m ∧ m.control = .user ∧
      (m.threads 2).state = .Running ∧ m.currentThread ≠ 2 ∧ 2 ∉ m.threadQueue.entries ∧
      .refused 2 false ∈ m.trace := by
  have hstart : Runs.follow step (threadInit 42)
      [.call (.threadCreate 7 8), .call (.threadYield 1), .exec] =
        some (after 42 [.call (.threadCreate 7 8), .call (.threadYield 1), .exec]) := rfl
  have hvolley : Volley 1 0 2
      (after 42 [.call (.threadCreate 7 8), .call (.threadYield 1), .exec]) :=
    ⟨rfl, rfl, rfl, rfl, rfl, rfl, ⟨0, rfl⟩, ⟨rfl, by decide⟩, rfl⟩
  obtain ⟨m₁, hm₁, h₁⟩ := hvolley.run (k := 15359) (by rw [queue_capacity]; norm_num)
  obtain ⟨m₂, hm₂, hcontrol, hst, hcur, hentries, hrefused⟩ := h₁.create
  refine ⟨m₂, ?_, hcontrol, hst, by rw [hcur]; decide, fun hmem => ?_, hrefused⟩
  · rw [losingRun, Runs.follow_append hstart, Runs.follow_append hm₁, Runs.follow, hm₂]
    rfl
  · rw [hentries] at hmem
    rcases h₁.entries.2 2 hmem with h2 | h2 <;> exact absurd h2 (by decide)

end UserThreads
