import UserSpaceThreads.Contexts

set_option relaxedAutoImplicit false
set_option autoImplicit false

/-!
# What `thread_yield` does

The results of `get_thread_any` and of `thread_yield(THREAD_ANY)` in terms of the entries of
`thread_queue`, and the switch: after it, the thread that had the processor is parked and the
chosen one enters its saved context.

## Main results

* `UserThreads.getThreadAny_cases` — the loop of `get_thread_any` ends, with the first useful
  entry or with an empty queue.
* `UserThreads.threadYield_any_cases` — the two outcomes of `thread_yield(THREAD_ANY)`.
* `UserThreads.controlOk_threadYieldSwitch` — the switch.
-/

namespace UserThreads

/-- `get_thread_any` does not choose the entry `t`. -/
def Useless (m : Machine) (t : Tid) : Prop :=
  ¬ ((m.threads t).state = .Running ∧ t ≠ m.currentThread)

instance (m : Machine) (t : Tid) : Decidable (Useless m t) :=
  inferInstanceAs (Decidable (¬ _))

/-- A valid id is not an error code. -/
lemma isValidThread.ne {t : Tid} (h : isValidThread t) :
    t ≠ ERR_EMPTY ∧ t ≠ THREAD_NONE ∧ t ≠ THREAD_ANY ∧ t ≠ THREAD_SELF := by
  obtain ⟨h0, -⟩ := h
  refine ⟨?_, ?_, ?_, ?_⟩ <;> rintro rfl <;> exact absurd h0 (by decide)

/-! ## `get_thread_any` -/

/-- The loop of `get_thread_any`, with more rounds than the queue has entries.

**Proof sketch.** Induction on the number of rounds. A round ends the loop, if the queue is empty or
its first entry can be used, or drops a useless entry; then the queue has one entry less. -/
lemma getThreadAnyLoop_cases (m : Machine) (n : ℕ) (q : Queue) (hn : q.size < n)
    (hv : ∀ t ∈ q.entries, isValidThread t) :
    (∃ q', getThreadAnyLoop m.threads m.currentThread n q = (THREAD_NONE, q') ∧ q'.entries = [] ∧
      ∀ t ∈ q.entries, Useless m t) ∨
    ∃ ds t ts q', getThreadAnyLoop m.threads m.currentThread n q = (t, q') ∧
      q.entries = ds ++ t :: ts ∧ q'.entries = ts ∧ ¬ Useless m t ∧ ∀ d ∈ ds, Useless m d := by
  induction n generalizing q with
  | zero => omega
  | succ n ih =>
    rw [getThreadAnyLoop]
    cases he : q.entries with
    | nil =>
      -- the queue is empty: `queue_pop` answers `ERR_EMPTY`
      rw [Queue.pop_of_nil he, if_pos rfl]
      exact .inl ⟨q, rfl, he, by simp⟩
    | cons t ts =>
      obtain ⟨hpop, hrest⟩ := Queue.pop_of_cons he
      have ht : isValidThread t := hv t (by rw [he]; exact List.mem_cons_self ..)
      rw [hpop, if_neg ht.ne.1]
      by_cases hu : (m.threads t).state = .Running ∧ t ≠ m.currentThread
      · rw [if_pos hu]
        exact .inr ⟨[], t, ts, _, rfl, rfl, hrest, not_not.mpr hu, by simp⟩
      · -- a useless entry is dropped, and the loop goes on with one entry less
        rw [if_neg hu]
        have hsize : q.pop.2.size < n := by
          rw [← Queue.length_entries, hrest]
          rw [← Queue.length_entries, he, List.length_cons] at hn
          omega
        have hv' : ∀ u ∈ q.pop.2.entries, isValidThread u := fun u hmem =>
          hv u (by rw [he, ← hrest]; exact List.mem_cons_of_mem _ hmem)
        rcases ih q.pop.2 hsize hv' with ⟨q', hq', hnil, hall⟩ | ⟨ds, u, us, q', hq', hes, h⟩
        · refine .inl ⟨q', hq', hnil, fun x hx => ?_⟩
          rcases List.mem_cons.mp hx with rfl | hx
          · exact hu
          · exact hall x (by rwa [hrest])
        · rw [hrest] at hes
          refine .inr ⟨t :: ds, u, us, q', hq', by rw [hes]; rfl, h.1, h.2.1, fun d hd => ?_⟩
          rcases List.mem_cons.mp hd with rfl | hd
          · exact hu
          · exact h.2.2 d hd

/-- `get_thread_any`: all entries are useless and dropped, or the first useful one is taken and
the entries before it are dropped. -/
lemma getThreadAny_cases (m : Machine) (hv : ∀ t ∈ m.threadQueue.entries, isValidThread t) :
    (∃ q', getThreadAny m.currentThread m = (THREAD_NONE, q') ∧ q'.entries = [] ∧
      ∀ t ∈ m.threadQueue.entries, Useless m t) ∨
    ∃ ds t ts q', getThreadAny m.currentThread m = (t, q') ∧
      m.threadQueue.entries = ds ++ t :: ts ∧ q'.entries = ts ∧ ¬ Useless m t ∧
      ∀ d ∈ ds, Useless m d :=
  getThreadAnyLoop_cases m _ _ (Nat.lt_succ_self _) hv

/-! ## `thread_yield` -/

/-- The test of `thread_yield` and `thread_kill` for ids out of range. -/
lemma out_of_range_iff {t : Tid} : t ≥ THREAD_MAX_THREADS ∨ t < 0 ↔ ¬ isValidThread t := by
  unfold isValidThread
  rw [not_and_or, not_le, not_lt, or_comm]

/-- `thread_yield` to a live thread. -/
lemma threadYieldTo_live {m : Machine} {t : Tid} (ht : isValidThread t)
    (hst : (m.threads t).state ≠ .Destroyed) (s : Bool) (k : Stack) :
    threadYieldTo s t k m = .jump (threadYieldSwitch s t k m) := by
  rw [threadYieldTo, if_neg (by rw [out_of_range_iff]; exact not_not.mpr ht), if_neg hst]

/-- `thread_yield` to an id that no live thread has. -/
lemma threadYieldTo_dead {m : Machine} {t : Tid}
    (ht : ¬ isValidThread t ∨ (m.threads t).state = .Destroyed) (s : Bool) (k : Stack) :
    threadYieldTo s t k m = .ret THREAD_INVALID (m.interruptsSet s) := by
  rw [threadYieldTo]
  split_ifs with h₁ h₂
  · rfl
  · rfl
  · rcases ht with ht | ht
    · exact (h₁ (out_of_range_iff.mpr ht)).elim
    · exact (h₂ ht).elim

/-- **The outcomes of `thread_yield(THREAD_ANY)`.**

**Proof sketch.** The current thread has a valid id, so `THREAD_ANY` is not taken for it.
`get_thread_any` finds nobody, or the first entry that can be used (`getThreadAnyLoop_cases`); that
thread is not dead, so the switch is made. -/
lemma threadYield_any_cases {m : Machine} (k : Stack) (hcur : isValidThread m.currentThread)
    (hv : ∀ t ∈ m.threadQueue.entries, isValidThread t) :
    (∃ q', q'.entries = [] ∧ (∀ t ∈ m.threadQueue.entries, Useless m t) ∧
      threadYield THREAD_ANY k m = .ret THREAD_NONE (m.setThreadQueue q')) ∨
    ∃ ds t ts q', m.threadQueue.entries = ds ++ t :: ts ∧ q'.entries = ts ∧ isValidThread t ∧
      (m.threads t).state = .Running ∧ t ≠ m.currentThread ∧ (∀ d ∈ ds, Useless m d) ∧
      threadYield THREAD_ANY k m = .jump
        (threadYieldSwitch m.interrupts t k ((m.interruptsSet false).setThreadQueue q')) := by
  have hself : ¬ (THREAD_ANY = THREAD_SELF ∨ THREAD_ANY = m.currentThread) := by
    rintro (h | h)
    · exact absurd h (by decide)
    · exact hcur.ne.2.2.1 h.symm
  rw [threadYield]
  simp only [Machine.interruptsSet_currentThread, if_neg hself, if_true]
  rcases getThreadAny_cases (m.interruptsSet false) hv with
    ⟨q', hq', hnil, hall⟩ | ⟨ds, t, ts, q', hq', hes, hts, huse, hds⟩
  · rw [Machine.interruptsSet_currentThread] at hq'
    refine .inl ⟨q', hnil, hall, ?_⟩
    rw [hq', if_pos rfl]
    rfl
  · rw [Machine.interruptsSet_currentThread] at hq'
    obtain ⟨hrun, hne⟩ := not_not.mp huse
    have ht : isValidThread t := hv t (by
      rw [show m.threadQueue.entries = ds ++ t :: ts from hes]; simp)
    refine .inr ⟨ds, t, ts, q', hes, hts, ht, hrun, hne, hds, ?_⟩
    rw [hq', if_neg ht.ne.2.1]
    exact threadYieldTo_live (m := (m.interruptsSet false).setThreadQueue q') ht
      (fun hd => absurd (hrun.symm.trans hd) (by decide)) _ _

/-! ## The switch -/

/-- The history after a switch is quiet. -/
lemma quiet_switch (es : List Tid) (t u : Tid) (tr : List Event) :
    Quiet tr (.switched t :: pushTrace es u tr) :=
  ⟨(quiet_pushTrace es u tr).fate, (quiet_pushTrace es u tr).progress⟩

/-- Quiet events do not concern parked threads. -/
lemma ParkedAt.quiet {t : Tid} {th : Thread} {tr tr' : List Event} (h : ParkedAt t th tr)
    (hq : Quiet tr tr') : ParkedAt t th tr' := by
  obtain ⟨halive, k, hk, hsus⟩ := h
  refine ⟨(hq.fate t).trans halive, k, hk, ?_⟩
  rw [hq.progress]
  exact hsus

/-- The end of another thread does not concern a parked one. -/
lemma ParkedAt.exited {t u : Tid} {th : Thread} {tr : List Event} {c : ℤ} (h : ParkedAt t th tr)
    (hne : t ≠ u) : ParkedAt t th (.exited u c :: tr) := by
  obtain ⟨halive, k, hk, hsus⟩ := h
  refine ⟨?_, k, hk, hsus⟩
  rw [fate, if_neg hne.symm]
  exact halive

/-- The current thread may give the processor away in `thread_yield`, called by `k`: if it is
alive, it can be resumed there. -/
structure MayLeave (m : Machine) (s : Bool) (k : Stack) : Prop where
  parked : Parked m
  admin : m.administrativeMode = false
  interrupts : m.interrupts = false
  main : m.currentThread = 0 → m.rsp = NULL
  alive : (m.threads m.currentThread).state ≠ .Destroyed →
    fate m.currentThread m.trace = some .alive ∧
      m.rsp = (m.threads m.currentThread).stackStart
  suspended : (m.threads m.currentThread).state ≠ .Destroyed → ∀ a, isValidThread a →
    Suspended (.threadYield s a true :: k) (progress m.currentThread m.trace)

/-- From inside a function, the current thread may leave if it can be resumed. -/
lemma Inside.mayLeave {m : Machine} {s : Bool} {k : Stack} (h : Inside m)
    (hint : m.interrupts = false)
    (hs : ∀ a, isValidThread a →
      Suspended (.threadYield s a true :: k) (progress m.currentThread m.trace)) :
    MayLeave m s k := by
  refine ⟨h.parked, h.admin, hint, fun h0 => ?_, fun _ => ⟨h.alive, h.rsp⟩, fun _ => hs⟩
  rw [h.rsp, h0]
  exact h.parked.main

/-- The saved contexts after the switch.

**Proof sketch.** The thread that gives up the processor is parked at its `getcontext`, with the
mask and the stack that it has. The saved contexts of the others stay. -/
lemma parked_switch {m : Machine} {s : Bool} {t : Tid} {k : Stack} (h : MayLeave m s k)
    (ht : isValidThread t) {m' : Machine}
    (hthreads : m'.threads = Function.update m.threads m.currentThread
      { m.threads m.currentThread with
        ucontext := .saved ⟨m.rsp, m.interrupts, .threadYield s t true :: k⟩ })
    (htrace : m'.trace = .switched t :: pushTrace m.threadQueue.entries m.currentThread m.trace) :
    Parked m' := by
  have hq : Quiet m.trace m'.trace := by rw [htrace]; exact quiet_switch ..
  refine ⟨fun u _ hst => ?_, fun _ => ?_, ?_⟩
  · rcases eq_or_ne u m.currentThread with rfl | hcu
    · -- the thread that gives up the processor is parked at its `getcontext`
      rw [hthreads, Function.update_self] at hst ⊢
      obtain ⟨halive, hrsp⟩ := h.alive hst
      refine ⟨(hq.fate _).trans halive, .threadYield s t true :: k, ?_, ?_⟩
      · rw [h.interrupts, hrsp]
      · rw [hq.progress]
        exact h.suspended hst t ht
    · rw [hthreads, Function.update_of_ne hcu] at hst ⊢
      exact (h.parked.threads u hcu hst).quiet hq
  · rcases eq_or_ne (0 : Tid) m.currentThread with hz | hz
    · refine ⟨s, t, k, ?_⟩
      rw [hthreads, ← hz, Function.update_self, h.main hz.symm, h.interrupts]
    · rw [hthreads, Function.update_of_ne hz]
      exact h.parked.zero hz.symm
  · rcases eq_or_ne (0 : Tid) m.currentThread with hz | hz
    · rw [hthreads, ← hz, Function.update_self]
      exact h.parked.main
    · rw [hthreads, Function.update_of_ne hz]
      exact h.parked.main

/-- The switch to a thread that has a saved context. -/
lemma threadYieldSwitch_control {m : Machine} {s : Bool} {t : Tid} {k : Stack} {c : Context}
    (hne : t ≠ m.currentThread) (hc : (m.threads t).ucontext = .saved c) :
    (threadYieldSwitch s t k m).control = .resumed c.stack := by
  rw [threadYieldSwitch]
  simp [Function.update_of_ne hne, hc, Machine.setcontext]

/-- **The switch of `thread_yield`** to a live thread: the thread enters its saved context.

**Proof sketch.** The context of the other thread has been saved by a `getcontext`, as it is alive
and not the current one. The switch saves that of the current thread, loads the other, and control
is where that thread was suspended. What was parked stays parked, by `parked_switch`. -/
lemma controlOk_threadYieldSwitch {m : Machine} {s : Bool} {t : Tid} {k : Stack}
    (h : MayLeave m s k)
    (ht : isValidThread t) (hst : (m.threads t).state ≠ .Destroyed) (hne : t ≠ m.currentThread) :
    ControlOk (threadYieldSwitch s t k m) := by
  obtain ⟨halive, kt, hkt, hsus⟩ := h.parked.threads t hne hst
  set m' := threadYieldSwitch s t k m with hm'
  have hload : m' = ((((m.setUcontext m.currentThread
      (.saved ⟨m.rsp, m.interrupts, .threadYield s t true :: k⟩)).pushReady
        m.currentThread).setCurrentThread t).emit (.switched t)).load
      ⟨(m.threads t).stackStart, false, kt⟩ := by
    rw [hm', threadYieldSwitch]
    simp only [Machine.setUcontext_threads, Machine.pushReady_threads,
      Machine.setCurrentThread_threads, Function.update_of_ne hne, hkt,
      Machine.setUcontext_currentThread]
    rfl
  have hcur : m'.currentThread = t := by rw [hload]; rfl
  have hthreads : m'.threads = Function.update m.threads m.currentThread
      { m.threads m.currentThread with
        ucontext := .saved ⟨m.rsp, m.interrupts, .threadYield s t true :: k⟩ } := by
    rw [hload]; rfl
  have htrace : m'.trace =
      .switched t :: pushTrace m.threadQueue.entries m.currentThread m.trace := by
    rw [← pushTrace_eq, hload]; rfl
  have hslot : m'.threads t = m.threads t := by rw [hthreads, Function.update_of_ne hne]
  have hq : Quiet m.trace m'.trace := by rw [htrace]; exact quiet_switch ..
  have hparked := parked_switch h ht hthreads htrace
  have hcontrol : m'.control = .resumed kt := by rw [hload]; rfl
  rw [ControlOk, hcontrol]
  refine ⟨by rw [hload]; rfl, .inl ⟨⟨?_, ?_, ?_, ?_, ?_, ?_⟩, ?_⟩⟩
  · refine ⟨fun u hu hu' => ?_, fun h0 => ?_, ?_⟩
    · have hu : u ≠ m'.currentThread := hu
      simp only [Machine.setUcontext_threads, Function.update_of_ne hu] at hu' ⊢
      exact hparked.threads u hu hu'
    · have h0 : (0 : Tid) ≠ m'.currentThread := fun he => h0 he.symm
      simp only [Machine.setUcontext_threads, Function.update_of_ne h0]
      exact hparked.zero h0.symm
    · have hfield := congrFun (field_update_same Thread.stackStart m'.threads m'.currentThread
        { m'.threads m'.currentThread with ucontext := .spent } rfl) 0
      exact hfield.trans hparked.main
  · rw [Machine.setUcontext_administrativeMode, hload]
    exact h.admin
  · simpa [hcur, hslot] using hst
  · rw [Machine.setUcontext_currentThread, Machine.setUcontext_trace, hcur, hq.fate]
    exact halive
  · simp only [Machine.setUcontext_rsp, Machine.setUcontext_currentThread,
      Machine.setUcontext_threads, Function.update_self, hcur, hslot]
    rw [hload]
    rfl
  · intro c
    simp
  · rw [hcur, hq.progress]
    exact hsus

end UserThreads
