import UserSpaceThreads.Life

set_option relaxedAutoImplicit false
set_option autoImplicit false

/-!
# Waiting for a dead thread

The slots of threads that have exited, of threads that were killed and of threads that never
existed all are Destroyed. `thread_wait` tells them apart by the field `exit_code`, in which
`-SIGKILL` stands for a thread without an exit code. So it takes a thread that has exited with
`-SIGKILL` for one that was killed; and since `thread_init` does not initialise the field of
thread 0, it may take a killed thread 0 for one that has exited. In all other cases it reports
what became of the thread.

## Main definitions

* `UserThreads.View.Stamped` — the invariant of the field `exit_code`.
* `UserThreads.ReportsFate` — what `thread_wait` is to report of a dead thread.

## Main results

* `UserThreads.View.Stamped.step` — every transaction keeps the invariant.
* `UserThreads.thread_wait_dead` — when `thread_wait` reports the fate of a dead thread.
* `UserThreads.fate_misreported` — two runs in which it does not.
-/

namespace UserThreads

/-! ## The invariant -/

namespace View

variable {v v' : View} {l : Label}

/-- A thread that has exited has its exit code in its slot; but for thread 0, all other slots have
`-SIGKILL` there. -/
def Stamped (v : View) : Prop :=
  ∀ x, (∀ c, fate x v.trace = some (.exited c) → v.exitCode x = c) ∧
    (x ≠ 0 → (∀ c, fate x v.trace ≠ some (.exited c)) → v.exitCode x = -SIGKILL)

/-- A transaction that does not concern exit codes. -/
lemma Stamped.quiet (h : v.Stamped) (hcode : v'.exitCode = v.exitCode)
    (hfate : ∀ t, fate t v'.trace = fate t v.trace) : v'.Stamped := by
  intro x
  rw [hfate, hcode]
  exact h x

/-- The end of a thread leaves its exit code. -/
lemma Stamped.bury (h : v.Stamped) (hlife : v.Life) {t : Tid} {killed : Bool} {rsp : Addr}
    {heap : Heap} (hd : v.Dies t killed rsp heap) : (v.bury t killed rsp heap).Stamped := by
  intro x
  rw [View.bury_exitCode]
  rcases eq_or_ne x t with rfl | hne
  · rw [View.fate_bury_self]
    cases killed with
    | false => exact h x
    | true =>
      rw [if_pos rfl]
      refine ⟨fun c hc => absurd hc (by simp), fun h0 _ => (h x).2 h0 fun c hc => ?_⟩
      rw [hd.fate_eq hlife rfl] at hc
      cases hc
  · rw [View.fate_bury _ _ _ _ _ hne]
    exact h x

/-- **Every transaction keeps exit codes right.**

**Proof sketch.** `create` stores `-SIGKILL`, which stays in the slot until `exit` stores the code
of the thread. The end of a thread leaves its exit code (`Stamped.bury`), and the other transactions
leave codes and fates alone (`quiet`). -/
theorem Stamped.step (h : v.Stamped) (hlife : v.Life) (hs : Step v l v') : v'.Stamped := by
  cases hs with
  | @exit f c =>
    intro x
    rcases eq_or_ne v.current x with rfl | hne
    · refine ⟨fun c' hc => ?_, fun _ hc => (hc c (by simp)).elim⟩
      obtain rfl : c = c' := by simpa using hc
      simp
    · simpa [hne, hne.symm] using h x
  | @create num fn parg calls pos valid dead =>
    intro x
    rcases eq_or_ne num x with rfl | hne
    · refine ⟨fun c hc => ?_, fun _ _ => ?_⟩
      · simp at hc
      · simp
    · simpa [hne, hne.symm] using h x
  | die dies => exact h.bury hlife dies
  | dieTo dies => exact (h.bury hlife dies).quiet rfl (by simp)
  | dieBack dies => exact (h.bury hlife dies).quiet rfl (by simp)
  | dispatch | yieldTo | sleep | wait | wake => exact h.quiet rfl (by simp)
  | _ => exact h.quiet rfl fun _ => rfl

end View

variable {m : Machine} {ok : Machine → Action → Prop}

/-- There has always been a thread 0. -/
lemma fate_zero_ne_none (tr : List Event) : fate 0 tr ≠ none := by
  fun_induction fate 0 tr <;> simp_all

/-- Exit codes are right in all runs. -/
lemma ReachableBy.stamped (h : ReachableBy ok m) (hrun : ¬ Stopped m) : (abs m).Stamped := by
  have hview := h.view (I := fun v => v.Life ∧ v.Stamped) (fun g => ⟨life_threadInit g, ?_⟩)
    fun m a v l v' _ _ _ hi _ _ hs => ⟨hi.1.step hs, hi.2.step hi.1 hs⟩
  · exact (hview.resolve_left hrun).2.2
  · refine fun x => ⟨fun c hc => ?_, fun h0 _ => ?_⟩
    · have hinit : fate x [] = some (.exited c) := hc
      rw [fate] at hinit
      split_ifs at hinit
      simp at hinit
    · exact congrArg Thread.exitCode (if_neg h0)

/-! ## The report -/

/-- The call of `f` returns `r` at once, and changes nothing but the history. -/
def Answers (m : Machine) (f : Fn) (r : Ret) : Prop :=
  call f m = userReturn f r (m.emit (.called m.currentThread f))

/-- `thread_wait(x, &code)` reports what became of the thread `x`: its exit code if it has exited,
and `THREAD_INVALID` if it was killed or never existed. -/
structure ReportsFate (m : Machine) (x : Tid) : Prop where
  exited : ∀ c, fate x m.trace = some (.exited c) → Answers m (.threadWait x true) ⟨x, some c⟩
  other : fate x m.trace = some .killed ∨ fate x m.trace = none →
    Answers m (.threadWait x true) ⟨THREAD_INVALID, none⟩

/-- A `thread_wait` for a dead thread returns at once, and its result depends on the exit code in
the slot. -/
lemma threadWait_dead {x : Tid} {c : Bool} {k : Stack} (hint : m.interrupts = true)
    (hx : isValidThread x) (hne : x ≠ m.currentThread) (hdead : (m.threads x).state = .Destroyed) :
    threadWait x c k m = .ret (if (m.threads x).exitCode = -SIGKILL then ⟨THREAD_INVALID, none⟩
      else ⟨x, if c then some (m.threads x).exitCode else none⟩) m := by
  have hsame : (m.interruptsSet false).interruptsSet true = m := by
    rw [← hint]
    rfl
  rw [threadWait]
  simp only [hint, not_true_eq_false, if_false, hx, Machine.interruptsSet_threads,
    Machine.interruptsSet_currentThread, hdead, true_and, ne_eq, hne, threadWaitFinish, hsame]
  split_ifs <;> rfl

/-- The call of `thread_wait` for a dead thread.

**Proof sketch.** With the signal blocked the assertion fails, so there is no answer. Otherwise the
call returns at once (`threadWait_dead`), and the last event of the history is its answer. -/
lemma answers_threadWait_iff {x : Tid} {r : Ret} (hx : isValidThread x) (hne : x ≠ m.currentThread)
    (hdead : (m.threads x).state = .Destroyed) :
    Answers m (.threadWait x true) r ↔ m.interrupts = true ∧
      r = if (m.threads x).exitCode = -SIGKILL then ⟨THREAD_INVALID, none⟩
        else ⟨x, some (m.threads x).exitCode⟩ := by
  rw [Answers, call]
  cases hint : m.interrupts with
  | false =>
    -- the assertion of `thread_wait` fails
    have habort : threadWait x true [.user (.threadWait x true)]
        (m.emit (.called m.currentThread (.threadWait x true))) =
          .jump ((m.emit (.called m.currentThread (.threadWait x true))).interruptsSet
            false).abort := by
      rw [threadWait]
      simp [hint]
    refine ⟨fun h => ?_, fun h => by cases h.1⟩
    rw [habort] at h
    exact absurd (congrArg Machine.control h) (by simp [andThen, userReturn])
  | true =>
    have hcall := @threadWait_dead (m.emit (.called m.currentThread (.threadWait x true))) x true
      [.user (.threadWait x true)] hint hx hne hdead
    rw [hcall, andThen, Machine.emit_threads]
    refine ⟨fun h => ⟨rfl, ?_⟩, fun h => by rw [h.2]; rfl⟩
    have htrace := congrArg Machine.trace h
    simp only [userReturn, Machine.setControl_trace, Machine.emit_trace, List.cons.injEq,
      Event.returned.injEq, true_and, and_true] at htrace
    exact htrace.symm

/-- **When `thread_wait` reports the fate of a dead thread**: in every reachable state, when the
timer signal is unblocked, the thread has not exited with `-SIGKILL`, and thread 0, if it was
killed, happens to have `-SIGKILL` in its slot.

**Proof sketch.** The answer of `thread_wait` for a dead thread depends on the mask and on the exit
code in the slot only (`answers_threadWait_iff`). By `Stamped` that code is the one given to
`thread_exit`, or else the `-SIGKILL` that was stored when the slot was set up; thread 0 is the
exception, whose slot is set up without one. The rest compares the two for each fate. -/
theorem thread_wait_dead (h : Reachable m) (hu : m.control = .user) {x : Tid}
    (hx : isValidThread x) (hne : x ≠ m.currentThread) (hdead : fate x m.trace ≠ some .alive) :
    ReportsFate m x ↔ m.interrupts = true ∧ fate x m.trace ≠ some (.exited (-SIGKILL)) ∧
      (x = 0 → fate x m.trace = some .killed → (m.threads 0).exitCode = -SIGKILL) := by
  have hrun : ¬ Stopped m := by simp [Stopped, hu]
  obtain ⟨hb, hlife⟩ := ReachableBy.life h hrun
  have hst := (state_destroyed_iff hb hlife (.inl hne)).mpr hdead
  obtain ⟨hexited, hother⟩ := ReachableBy.stamped h hrun x
  have hcode (hfate : fate x m.trace = some .killed ∨ fate x m.trace = none) (h0 : x ≠ 0) :
      (m.threads x).exitCode = -SIGKILL := by
    refine hother h0 fun c hc => ?_
    rw [abs_trace] at hc
    rcases hfate with hfate | hfate <;> rw [hfate] at hc <;> cases hc
  constructor
  · rintro ⟨hreport, hinvalid⟩
    cases hfate : fate x m.trace with
    | none =>
      obtain ⟨hint, -⟩ := (answers_threadWait_iff hx hne hst).mp (hinvalid (.inr hfate))
      exact ⟨hint, by simp, fun _ hk => by cases hk⟩
    | some f =>
      cases f with
      | alive => exact (hdead hfate).elim
      | exited c =>
        obtain ⟨hint, hr⟩ := (answers_threadWait_iff hx hne hst).mp (hreport c hfate)
        refine ⟨hint, ?_, fun _ hk => by cases hk⟩
        rintro ⟨⟩
        have hc : (m.threads x).exitCode = -SIGKILL := hexited _ hfate
        rw [if_pos hc] at hr
        cases hr
      | killed =>
        obtain ⟨hint, hr⟩ := (answers_threadWait_iff hx hne hst).mp (hinvalid (.inl hfate))
        refine ⟨hint, by simp, ?_⟩
        rintro rfl -
        by_contra hne'
        rw [if_neg hne'] at hr
        cases hr
  · rintro ⟨hint, hnot, hzero⟩
    refine ⟨fun c hc => ?_, fun hfate => ?_⟩
    · rw [answers_threadWait_iff hx hne hst]
      have hc' : (m.threads x).exitCode = c := hexited c hc
      have hne' : c ≠ -SIGKILL := by
        rintro rfl
        exact hnot hc
      rw [hc', if_neg hne']
      exact ⟨hint, rfl⟩
    · rw [answers_threadWait_iff hx hne hst]
      have hc' : (m.threads x).exitCode = -SIGKILL := by
        by_cases h0 : x = 0
        · subst h0
          exact hzero rfl (hfate.resolve_right (fate_zero_ne_none _))
        · exact hcode hfate h0
      rw [if_pos hc']
      exact ⟨hint, rfl⟩

/-- Thread 1 has exited with 5, and thread 0 waits for it. -/
theorem thread_wait_dead_exited :
    let m := after 42 [.call (.threadCreate 7 8), .call (.threadYield 1), .exec,
      .call (.threadExit 5), .exec, .exec]
    ReportsFate m 1 ↔ m.interrupts = true ∧ fate 1 m.trace ≠ some (.exited (-SIGKILL)) ∧
      ((1 : Tid) = 0 → fate 1 m.trace = some .killed → (m.threads 0).exitCode = -SIGKILL) :=
  thread_wait_dead (reachable_after (by decide)) (by decide) (by decide) (by decide) (by decide)

/-- **An exit is not reported.** Thread 1 has exited with `-SIGKILL`, and `thread_wait` answers
that there has been no such thread. And **a kill is reported as an exit**: thread 0 has been
killed, and `thread_wait` answers with the value that happened to be in its slot. -/
theorem fate_misreported :
    let m := after 42 [.call (.threadCreate 7 8), .call (.threadYield 1), .exec,
      .call (.threadExit (-SIGKILL)), .exec, .exec]
    let m' := after 42 [.call (.threadCreate 7 8), .call (.threadYield 1), .exec,
      .call (.threadKill 0)]
    (Reachable m ∧ m.control = .user ∧ fate 1 m.trace = some (.exited (-SIGKILL)) ∧
      ¬ ReportsFate m 1) ∧
    (Reachable m' ∧ m'.control = .user ∧ fate 0 m'.trace = some .killed ∧ ¬ ReportsFate m' 0) := by
  intro m m'
  have hm : Reachable m := reachable_after (by decide)
  have hm' : Reachable m' := reachable_after (by decide)
  have hnot : ¬ ReportsFate m 1 := fun h => by
    obtain ⟨-, hr⟩ := (answers_threadWait_iff (by decide) (by decide) (by decide)).mp
      (h.exited (-SIGKILL) (by decide))
    exact absurd hr (by decide)
  have hnot' : ¬ ReportsFate m' 0 := fun h => by
    obtain ⟨-, hr⟩ := (answers_threadWait_iff (by decide) (by decide) (by decide)).mp
      (h.other (.inl (by decide)))
    exact absurd hr (by decide)
  exact ⟨⟨hm, by decide, by decide, hnot⟩, hm', by decide, by decide, hnot'⟩

end UserThreads
