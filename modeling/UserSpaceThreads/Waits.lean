import UserSpaceThreads.Discipline

set_option relaxedAutoImplicit false
set_option autoImplicit false

/-!
# What `thread_wait` reports

In disciplined runs `thread_wait` returns the id of a thread only after that thread has ended,
with its exit code. A waiter is resumed by the death of the thread that it waits for and by
nothing else, and it reads the exit code before anybody can reuse the slot.

## Main definitions

* `UserThreads.Reported` — what the history says about the returns of `thread_wait`.
* `UserThreads.View.Waiting` — the invariant.

## Main results

* `UserThreads.thread_wait_truthful` — in disciplined runs all reports are true.
* `UserThreads.thread_wait_lies` — a run with a report of an exit that has not happened.
-/

namespace UserThreads

open History (Always)

/-- The latest thread with id `t` has ended with `code`: it has passed it to `thread_exit`, or
it was killed. -/
def Ended (t : Tid) (code : ℤ) (tr : List Event) : Prop :=
  fate t tr = some (.exited code) ∨ fate t tr = some .killed ∧ code = -SIGKILL

/-- What the history says about `thread_wait`: when it returns the id of its argument, the thread
that had this id at the call has ended, and its exit code is stored. The error code
`THREAD_INVALID` is not an id. -/
def Reported (e : Event) (tr : List Event) : Prop :=
  match e with
  | .returned w (.threadWait t c) r => r.value = t → t ≠ THREAD_INVALID →
      remade t w tr = false ∧ ∃ code, Ended t code tr ∧ (c = true → r.exitCode = some code)
  | _ => True

/-- A step of a disciplined run; and thread 0, whose `exit_code` is never initialised, is killed
only if the field happens to hold `-SIGKILL`. -/
def Waitable (m : Machine) (a : Action) : Prop :=
  Disciplined m a ∧
    (a = .call (.threadKill 0) → NamesOther m 0 → (m.threads 0).exitCode = -SIGKILL)

instance (m : Machine) (a : Action) : Decidable (Waitable m a) :=
  inferInstanceAs (Decidable (_ ∧ _))

/-- Refused pushes create nobody. -/
@[simp] lemma remade_pushTrace (es : List Tid) (u : Tid) (tr : List Event) (x t : Tid) :
    remade x t (pushTrace es u tr) = remade x t tr := by
  unfold pushTrace
  split_ifs <;> rfl

/-- A burial creates nobody. -/
@[simp] lemma View.remade_bury (v : View) (t : Tid) (killed : Bool) (rsp : Addr) (heap : Heap)
    (x u : Tid) : remade x u (v.bury t killed rsp heap).trace = remade x u v.trace := by
  rw [View.bury_trace]
  split_ifs <;> rfl

namespace View

variable {v v' : View} {l : Label}

/-- The exit code of a slot agrees with the fate of its thread. -/
def Coded (v : View) (x : Tid) : Prop :=
  match fate x v.trace with
  | some (.exited c) => v.exitCode x = c
  | some .alive => x ≠ 0 → v.exitCode x = -SIGKILL
  | some .killed => v.exitCode x = -SIGKILL
  | none => v.exitCode x = -SIGKILL

/-- Threads in the middle of a `thread_wait`. -/
structure Waiting (v : View) : Prop where
  coded : ∀ x, v.Coded x
  calling : ∀ t x c, fate t v.trace = some .alive →
    progress t v.trace = { fn := some (.threadWait x c) } →
      t = v.current ∧ remade x t v.trace = false
  waits : ∀ t x, fate t v.trace = some .alive → (progress t v.trace).waits = some x →
    fate x v.trace ≠ none ∧ remade x t v.trace = false ∧
      (v.state t = .Sleep ∧ dormant t v.trace = some (.thread x) ∨
        t = v.current ∧ v.state x = .Destroyed)
  reported : Always Reported v.trace

/-- What the guard says about a transaction. -/
def Heeds (v : View) : Label → Prop
  | .dispatch _ => v.state v.current ≠ .Destroyed →
      ∀ x c, (progress v.current v.trace).fn ≠ some (.threadWait x c)
  | .die t killed => killed = true → t = 0 → v.exitCode 0 = -SIGKILL
  | .dieTo t _ killed => killed = true → t = 0 → v.exitCode 0 = -SIGKILL
  | _ => True

/-- Nothing has changed that concerns `thread_wait`. -/
structure Calm (v v' : View) : Prop where
  state : v'.state = v.state
  exitCode : v'.exitCode = v.exitCode
  current : v'.current = v.current
  fate : ∀ t, fate t v'.trace = fate t v.trace
  progress : ∀ t, t = v.current ∧ (UserThreads.progress t v'.trace).waits = none ∧
      (∀ x c, (UserThreads.progress t v'.trace).fn = some (.threadWait x c) →
        remade x t v'.trace = false) ∨
    UserThreads.progress t v'.trace = UserThreads.progress t v.trace ∧
      ∀ x, remade x t v'.trace = remade x t v.trace
  dormant : ∀ t, dormant t v'.trace = dormant t v.trace

/-- A transaction that does not concern `thread_wait`. -/
lemma Waiting.calm (h : v.Waiting) (hc : v.Calm v') (hr : Always Reported v'.trace) :
    v'.Waiting where
  coded x := by
    rw [Coded, hc.fate, hc.exitCode]
    exact h.coded x
  calling t x c ht hp := by
    rw [hc.fate] at ht
    rw [hc.current]
    obtain ⟨rfl, -, hremade⟩ | ⟨hsame, hremade⟩ := hc.progress t
    · exact ⟨rfl, hremade x c (by rw [hp])⟩
    · rw [hremade]
      exact h.calling t x c ht (hsame ▸ hp)
  waits t x ht hw := by
    rw [hc.fate] at ht ⊢
    obtain ⟨-, hnone, -⟩ | ⟨hsame, hremade⟩ := hc.progress t
    · rw [hw] at hnone
      cases hnone
    · rw [hremade, hc.state, hc.dormant, hc.current]
      exact h.waits t x ht (hsame ▸ hw)
  reported := hr

/-- The exit code of a thread that has ended. -/
lemma Coded.ended {x : Tid} (h : v.Coded x) (hnone : fate x v.trace ≠ none)
    (hdead : fate x v.trace ≠ some .alive) : Ended x (v.exitCode x) v.trace := by
  rw [Coded] at h
  cases hf : fate x v.trace with
  | none => exact (hnone hf).elim
  | some f =>
    rw [hf] at h
    cases f with
    | alive => exact (hdead hf).elim
    | exited c => exact .inl (by rw [hf, show v.exitCode x = c from h])
    | killed => exact .inr ⟨hf, h⟩

/-- **The report of `thread_wait` is true.** -/
lemma Waiting.completes (h : v.Waiting) (hlife : v.Life) (hcur : v.state v.current ≠ .Sleep)
    {f : Fn} {r : Ret} (alive : UserThreads.fate v.current v.trace = some .alive)
    (done : v.Completes f r) : Reported (.returned v.current f r) v.trace := by
  cases f with
  | threadWait x c =>
    intro hvalue hx
    have hdead (hst : v.state x = .Destroyed) : UserThreads.fate x v.trace ≠ some .alive :=
      fun halive => hlife.alive x halive hst
    have hcode : c = true → v.exitCodeOf x c = some (v.exitCode x) := by
      rintro rfl
      rfl
    rcases done with rfl | ⟨rfl, -, hwaits | ⟨-, hst, hne, hremade⟩⟩
    · exact (hx hvalue.symm).elim
    · obtain ⟨hnone, hremade, ⟨hsleep, -⟩ | ⟨-, hst⟩⟩ := h.waits _ x alive hwaits
      · exact (hcur hsleep).elim
      · exact ⟨hremade, _, (h.coded x).ended hnone (hdead hst), hcode⟩
    · -- the thread had ended before the call
      refine ⟨hremade, _, (h.coded x).ended (fun hnone => hne ?_) (hdead hst), hcode⟩
      have hcoded := h.coded x
      rwa [Coded, hnone] at hcoded
  | _ => trivial

/-- The processor goes to another thread; the thread that had it is not in `thread_wait`, or it
is asleep there. -/
lemma Waiting.switchTo (h : v.Waiting) (t : Tid)
    (hcalling : fate v.current v.trace = some .alive →
      ∀ x c, progress v.current v.trace ≠ { fn := some (.threadWait x c) })
    (hwaits : fate v.current v.trace = some .alive → ∀ x,
      (progress v.current v.trace).waits = some x → v.state v.current = .Sleep ∧
        dormant v.current v.trace = some (.thread x)) : (v.switchTo t).Waiting where
  coded x := by
    have hfate : UserThreads.fate x (v.switchTo t).trace = UserThreads.fate x v.trace := by simp
    rw [Coded, hfate]
    exact h.coded x
  calling u x c hu hp := by
    simp only [switchTo_trace, UserThreads.fate, fate_pushTrace, UserThreads.progress,
      progress_pushTrace] at hu hp
    obtain ⟨rfl, -⟩ := h.calling u x c hu hp
    exact (hcalling hu x c hp).elim
  waits u x hu hw := by
    simp only [switchTo_trace, UserThreads.fate, fate_pushTrace, UserThreads.progress,
      progress_pushTrace] at hu hw
    obtain ⟨hnone, hremade, hcases⟩ := h.waits u x hu hw
    refine ⟨by simpa using hnone, by simpa using hremade, .inl ?_⟩
    rcases hcases with hsleep | ⟨rfl, -⟩
    · simpa using hsleep
    · simpa using hwaits hu x hw
  reported := ⟨trivial, (always_pushTrace _ _ _ fun _ _ _ => trivial).mpr h.reported⟩

/-- A thread that is in another call is not in `thread_wait`. -/
lemma Calls.ne {f : Fn} (hc : v.Calls f) (hf : ∀ x c, f ≠ .threadWait x c) (x : Tid) (c : Bool) :
    UserThreads.progress v.current v.trace ≠ { fn := some (.threadWait x c) } := by
  rw [hc.progress]
  intro heq
  cases heq
  exact hf x c rfl

/-- A thread at the beginning of a call does not wait for another one. -/
lemma Calls.waits {f : Fn} (hc : v.Calls f) :
    (UserThreads.progress v.current v.trace).waits = none := by
  rw [hc.progress]

/-- A new thread, made by a thread that is not in `thread_wait`.

**Proof sketch.** The slot of the new thread was free, so nobody waits for it, and `thread_create`
stores the exit code that a thread without an exit has. -/
lemma Waiting.spawn (h : v.Waiting) (ho : v.Orderly) {num : Tid} {fn parg : ℕ}
    (hc : v.Calls (.threadCreate fn parg)) (hdead : v.state num = .Destroyed) :
    (v.spawn num fn parg).Waiting where
  coded x := by
    rcases eq_or_ne num x with rfl | hne
    · simp [Coded]
    · simpa [Coded, hne, hne.symm] using h.coded x
  calling u x c hu hp := by
    rcases eq_or_ne num u with rfl | hne
    · simp at hp
    · obtain ⟨rfl, -⟩ := h.calling u x c (by simpa [hne] using hu) (by simpa [hne] using hp)
      exact (hc.ne (by simp) x c (by simpa [hne] using hp)).elim
  waits u x hu hw := by
    rcases eq_or_ne num u with rfl | hne
    · simp at hw
    · have hw' : (UserThreads.progress u v.trace).waits = some x := by simpa [hne] using hw
      obtain ⟨hnone, hremade, ⟨hst, hdorm⟩ | ⟨rfl, -⟩⟩ := h.waits u x (by simpa [hne] using hu) hw'
      · obtain ⟨b, hb, hlink⟩ := ho.asleep u hst
        rw [hdorm] at hb
        cases hb
        have hx : num ≠ x := fun heq => hlink.1 (heq ▸ hdead)
        refine ⟨by simpa [hx] using hnone, by simpa [hx] using hremade, .inl ⟨?_, ?_⟩⟩
        · simpa [hne.symm] using hst
        · simpa [hne] using hdorm
      · rw [hc.waits] at hw'
        cases hw'
  reported := ⟨trivial, h.reported⟩

/-- The current thread calls `thread_exit`. -/
lemma Waiting.exit (h : v.Waiting) (c : ℤ) :
    ((v.emit (.exited v.current c)).setExitCode v.current c).Waiting where
  coded x := by
    rcases eq_or_ne v.current x with rfl | hne
    · simp [Coded]
    · simpa [Coded, hne, hne.symm] using h.coded x
  calling u x d hu hp := by
    have hne : v.current ≠ u := by
      rintro rfl
      simp at hu
    exact h.calling u x d (by simpa [hne] using hu) hp
  waits u x hu hw := by
    have hne : v.current ≠ u := by
      rintro rfl
      simp at hu
    obtain ⟨hnone, hremade, hcases⟩ := h.waits u x (by simpa [hne] using hu) hw
    refine ⟨?_, hremade, hcases⟩
    rcases eq_or_ne v.current x with rfl | hx
    · simp
    · simpa [hx] using hnone
  reported := ⟨trivial, h.reported⟩

/-- The current thread goes to sleep on a wait queue. -/
lemma Waiting.asleepOn (h : v.Waiting) {f : Fn} (hc : v.Calls f) (q : Addr) (o : Owner)
    (es : List Tid) : (v.asleep v.current q o es).Waiting where
  coded := h.coded
  calling := h.calling
  waits u x hu hw := by
    have hw' : (UserThreads.progress u v.trace).waits = some x := hw
    have hne : u ≠ v.current := by
      rintro rfl
      rw [hc.waits] at hw'
      cases hw'
    obtain ⟨hnone, hremade, hcases⟩ := h.waits u x hu hw'
    refine ⟨hnone, hremade, .inl ?_⟩
    obtain ⟨hst, hdorm⟩ := hcases.resolve_right fun hcur => hne hcur.1
    exact ⟨by simpa [hne] using hst, by simpa [hne.symm] using hdorm⟩
  reported := ⟨trivial, h.reported⟩

/-- The current thread starts to wait for another one. -/
lemma Waiting.awaitingFor (h : v.Waiting) {x : Tid} {c : Bool} (hc : v.Calls (.threadWait x c))
    (hx : fate x v.trace ≠ none) : (v.awaiting v.current x).Waiting where
  coded := h.coded
  calling u y d hu hp := by
    rcases eq_or_ne v.current u with rfl | hne
    · simp [hc.progress] at hp
    · exact h.calling u y d hu (by simpa [hne] using hp)
  waits u y hu hw := by
    rcases eq_or_ne v.current u with rfl | hne
    · obtain rfl : x = y := by simpa using hw
      obtain ⟨-, hremade⟩ := h.calling _ x c hc.alive hc.progress
      exact ⟨hx, hremade, .inl ⟨by simp, by simp⟩⟩
    · obtain ⟨hnone, hremade, hcases⟩ := h.waits u y hu (by simpa [hne] using hw)
      obtain ⟨hst, hdorm⟩ := hcases.resolve_right fun hcur => hne hcur.1.symm
      refine ⟨hnone, hremade, .inl ⟨?_, ?_⟩⟩
      · simpa [hne.symm] using hst
      · simpa [hne] using hdorm
  reported := ⟨trivial, h.reported⟩

/-- A thread is woken from a wait queue. -/
lemma Waiting.wake (h : v.Waiting) (ho : v.Orderly) (hcur : v.state v.current ≠ .Sleep) {q : Addr}
    {o : Owner} {t : Tid} {es : List Tid} (hq : v.queues q = some (o, t :: es))
    (ht : v.state t = .Sleep) :
    (((v.setQueue q (some (o, es))).setState t .Running).emit (.woken t q)).Waiting where
  coded := h.coded
  calling := h.calling
  waits u x hu hw := by
    obtain ⟨hnone, hremade, hcases⟩ := h.waits u x hu hw
    have hne : u ≠ t := by
      rintro rfl
      rcases hcases with ⟨-, hdorm⟩ | ⟨rfl, -⟩
      · have hdorm' := (ho.entries q o _ hq u (List.mem_cons_self ..) (by rw [ht]; decide)).2
        rw [hdorm] at hdorm'
        cases hdorm'
      · exact hcur ht
    refine ⟨hnone, hremade, ?_⟩
    rcases hcases with ⟨hst, hdorm⟩ | ⟨rfl, hst⟩
    · exact .inl ⟨by simpa [hne] using hst, by simpa [hne.symm] using hdorm⟩
    · have hxt : x ≠ t := by
        rintro rfl
        rw [hst] at ht
        cases ht
      exact .inr ⟨rfl, by simpa [hxt] using hst⟩
  reported := ⟨trivial, h.reported⟩

/-- The exit codes after a death. -/
lemma Waiting.coded_bury (h : v.Waiting) (hlife : v.Life) {t : Tid} {killed : Bool} {rsp : Addr}
    {heap : Heap} (hd : v.Dies t killed rsp heap)
    (hcode : killed = true → t = 0 → v.exitCode 0 = -SIGKILL) (x : Tid) :
    (v.bury t killed rsp heap).Coded x := by
  rcases eq_or_ne x t with rfl | hne
  · cases killed with
    | false =>
      rw [Coded, View.fate_bury_self, View.bury_exitCode]
      exact h.coded x
    | true =>
      rw [Coded, View.fate_bury_self, View.bury_exitCode]
      have hcoded := h.coded x
      rw [Coded, hd.fate_eq hlife rfl] at hcoded
      rcases eq_or_ne x 0 with rfl | h0
      · exact hcode rfl rfl
      · exact hcoded h0
  · rw [Coded, View.fate_bury _ _ _ _ _ hne, View.bury_exitCode]
    exact h.coded x

/-- Ids that had a thread still had one after a death. -/
lemma fate_bury_ne_none {t x : Tid} {killed : Bool} {rsp : Addr} {heap : Heap}
    (h : fate x v.trace ≠ none) : fate x (v.bury t killed rsp heap).trace ≠ none := by
  rcases eq_or_ne x t with rfl | hne
  · rw [View.fate_bury_self]
    split_ifs
    · simp
    · exact h
  · rwa [View.fate_bury _ _ _ _ _ hne]

/-- The end of a thread. -/
lemma Waiting.bury (h : v.Waiting) (hlife : v.Life) {t : Tid} {killed : Bool} {rsp : Addr}
    {heap : Heap} (hd : v.Dies t killed rsp heap)
    (hcode : killed = true → t = 0 → v.exitCode 0 = -SIGKILL) :
    (v.bury t killed rsp heap).Waiting where
  coded := h.coded_bury hlife hd hcode
  calling u x c hu hp := by
    obtain ⟨-, hu'⟩ := hd.ne_of_alive hu
    simpa using h.calling u x c hu' (by simpa using hp)
  waits u x hu hw := by
    obtain ⟨hne, hu'⟩ := hd.ne_of_alive hu
    obtain ⟨hnone, hremade, hcases⟩ := h.waits u x hu' (by simpa using hw)
    refine ⟨fate_bury_ne_none hnone, by simpa using hremade, ?_⟩
    rcases hcases with ⟨hst, hdorm⟩ | ⟨rfl, hst⟩
    · exact .inl ⟨by simpa [hne] using hst, by simpa using hdorm⟩
    · refine .inr ⟨by simp, ?_⟩
      rcases eq_or_ne x t with rfl | hx
      · simp
      · simpa [hx] using hst
  reported := View.always_bury _ _ _ _ _ (fun _ _ _ _ => trivial) (fun _ _ _ => trivial) h.reported

/-- A death that gives the processor to the waiter of the thread: it returns from `thread_wait`
next.

**Proof sketch.** The waiter sleeps in a `thread_wait` for the dying thread, so it is now the
current thread and its target is dead. No other thread in `thread_wait` has been woken. The thread
that leaves the processor is dead or in `thread_kill`. -/
lemma Waiting.dieTo (h : v.Waiting) (ho : v.Orderly) (hlife : v.Life) {t w : Tid} {killed : Bool}
    {rsp : Addr} {heap : Heap} (hd : v.Dies t killed rsp heap) (hw : v.waiter t = w)
    (hvalid : isValidThread w) (hst : v.state w = .Sleep) (hwt : w ≠ t)
    (hcode : killed = true → t = 0 → v.exitCode 0 = -SIGKILL) :
    (((v.bury t killed rsp heap).release t w).switchTo w).Waiting := by
  have hdorm : dormant w v.trace = some (.thread t) := by
    have hwait := ho.waiters t hd.state (by rw [hw]; exact hvalid.ne.2.2.1)
      (by rw [hw, hst]; decide)
    rw [hw] at hwait
    exact hwait.2
  have hfate (u : Tid) : fate u (((v.bury t killed rsp heap).release t w).switchTo w).trace =
      fate u (v.bury t killed rsp heap).trace := by simp
  have hprogress (u : Tid) :
      progress u (((v.bury t killed rsp heap).release t w).switchTo w).trace =
      progress u v.trace := by simp
  -- the thread that leaves the processor is not in `thread_wait`
  have hleaves (u : Tid) (hu : u = v.current) (hne : u ≠ t) :
      ∃ f : Fn, (∀ x c, f ≠ .threadWait x c) ∧ progress u v.trace = { fn := some f } := by
    cases killed with
    | false => exact (hne (hu.trans (hd.bySelf rfl).1.symm)).elim
    | true =>
      rw [hu]
      exact ⟨_, by simp, (hd.byOther rfl).1.progress⟩
  refine ⟨fun x => ?_, fun u x c hu hp => ?_, fun u x hu hwaits => ?_, ?_⟩
  · rw [Coded, hfate]
    exact h.coded_bury hlife hd hcode x
  · rw [hfate] at hu
    rw [hprogress] at hp
    obtain ⟨hne, hu'⟩ := hd.ne_of_alive hu
    obtain ⟨hcur, -⟩ := h.calling u x c hu' hp
    obtain ⟨f, hf, hp'⟩ := hleaves u hcur hne
    rw [hp'] at hp
    cases hp
    exact (hf x c rfl).elim
  · rw [hfate] at hu
    rw [hprogress] at hwaits
    obtain ⟨hne, hu'⟩ := hd.ne_of_alive hu
    obtain ⟨hnone, hremade, hcases⟩ := h.waits u x hu' hwaits
    refine ⟨by rw [hfate]; exact fate_bury_ne_none hnone, by simpa using hremade, ?_⟩
    rcases hcases with ⟨hsleep, hd'⟩ | ⟨hcur, -⟩
    · rcases eq_or_ne u w with rfl | huw
      · rw [hdorm] at hd'
        cases hd'
        exact .inr ⟨rfl, by simp [hwt.symm]⟩
      · exact .inl ⟨by simpa [hne, huw] using hsleep, by simpa [huw.symm] using hd'⟩
    · obtain ⟨f, -, hp'⟩ := hleaves u hcur hne
      rw [hp'] at hwaits
      cases hwaits
  · refine ⟨trivial, (always_pushTrace _ _ _ fun _ _ _ => trivial).mpr ⟨trivial, ?_⟩⟩
    exact View.always_bury _ _ _ _ _ (fun _ _ _ _ => trivial) (fun _ _ _ => trivial) h.reported

/-- A transaction in which the current thread comes to be outside `thread_wait`. -/
lemma Waiting.outside (h : v.Waiting) (hstate : v'.state = v.state)
    (hexit : v'.exitCode = v.exitCode) (hcur : v'.current = v.current)
    (hfate : ∀ t, fate t v'.trace = fate t v.trace)
    (hself : (progress v.current v'.trace).waits = none ∧
      ∀ x c, (progress v.current v'.trace).fn ≠ some (.threadWait x c))
    (hother : ∀ t, v.current ≠ t → progress t v'.trace = progress t v.trace ∧
      ∀ x, remade x t v'.trace = remade x t v.trace)
    (hdormant : ∀ t, dormant t v'.trace = dormant t v.trace) (hr : Always Reported v'.trace) :
    v'.Waiting := by
  refine h.calm ⟨hstate, hexit, hcur, hfate, fun t => ?_, hdormant⟩ hr
  rcases eq_or_ne v.current t with rfl | hne
  · exact .inl ⟨rfl, hself.1, fun x c hf => (hself.2 x c hf).elim⟩
  · exact .inr (hother t hne)

/-- A transaction whose events do not concern `thread_wait`. -/
lemma Waiting.quiet (h : v.Waiting) (hstate : v'.state = v.state)
    (hexit : v'.exitCode = v.exitCode) (hcur : v'.current = v.current)
    (htrace : ∀ t, fate t v'.trace = fate t v.trace ∧ progress t v'.trace = progress t v.trace ∧
      (∀ x, remade x t v'.trace = remade x t v.trace) ∧ dormant t v'.trace = dormant t v.trace)
    (hr : Always Reported v'.trace) : v'.Waiting :=
  h.calm ⟨hstate, hexit, hcur, fun t => (htrace t).1,
    fun t => .inr ⟨(htrace t).2.1, (htrace t).2.2.1⟩, fun t => (htrace t).2.2.2⟩ hr

/-- A push onto the ready queue. -/
lemma Waiting.pushReady (h : v.Waiting) (t : Tid) : (v.pushReady t).Waiting :=
  h.quiet rfl rfl rfl (fun _ => ⟨by simp, by simp, by simp, by simp⟩)
    ((always_pushTrace _ _ _ fun _ _ _ => trivial).mpr h.reported)

/-- The other entries of the ready queue. -/
lemma Waiting.setReady (h : v.Waiting) (ts : List Tid) : (v.setReady ts).Waiting :=
  h.quiet rfl rfl rfl (fun _ => ⟨rfl, rfl, fun _ => rfl, rfl⟩) h.reported

/-- A call `f` that makes a wait queue or frees a block, and returns. -/
lemma Waiting.served (h : v.Waiting) {f : Fn} {r : Ret} {e : Event}
    (hf : ∀ x c, f ≠ .threadWait x c) (he : (∃ q, e = .queueCreated q) ∨ ∃ p s b, e = .freed p s b)
    (hstate : v'.state = v.state) (hexit : v'.exitCode = v.exitCode) (hcur : v'.current = v.current)
    (htrace : v'.trace = .returned v.current f r :: e :: v.trace) : v'.Waiting := by
  have hreported : Always Reported (.returned v.current f r :: e :: v.trace) := by
    refine ⟨?_, ?_, h.reported⟩
    · cases f <;> first | trivial | exact (hf _ _ rfl).elim
    · obtain ⟨q, rfl⟩ | ⟨p, s, b, rfl⟩ := he <;> trivial
  refine h.outside hstate hexit hcur ?_ ?_ ?_ ?_ ?_ <;> rw [htrace]
  · obtain ⟨q, rfl⟩ | ⟨p, s, b, rfl⟩ := he <;> exact fun t => rfl
  · simp
  · intro t hne
    obtain ⟨q, rfl⟩ | ⟨p, s, b, rfl⟩ := he <;> simp [hne]
  · obtain ⟨q, rfl⟩ | ⟨p, s, b, rfl⟩ := he <;> exact fun t => rfl
  · exact hreported

/-- A lock or condition variable is half made or half destroyed. -/
lemma Waiting.halfway (h : v.Waiting) {f : Fn} {p : Addr} (hc : v.Calls f)
    (hf : ∀ x c, f ≠ .threadWait x c) (hstate : v'.state = v.state)
    (hexit : v'.exitCode = v.exitCode) (hcur : v'.current = v.current) {es : List Event}
    (hes : es = [] ∨ ∃ q r b, es = [.freed q r b])
    (htrace : v'.trace = .halfway v.current p :: (es ++ v.trace)) : v'.Waiting := by
  obtain rfl | ⟨q, r, b, rfl⟩ := hes
  · refine h.outside hstate hexit hcur ?_ ?_ ?_ ?_ ?_ <;> rw [htrace]
    · exact fun t => rfl
    · simp [hc.progress, hf]
    · intro t hne
      simp [hne]
    · exact fun t => rfl
    · exact ⟨trivial, h.reported⟩
  · refine h.outside hstate hexit hcur ?_ ?_ ?_ ?_ ?_ <;> rw [htrace]
    · exact fun t => rfl
    · simp [hc.progress, hf]
    · intro t hne
      simp [hne]
    · exact fun t => rfl
    · exact ⟨trivial, trivial, h.reported⟩

/-- **Every transaction of a disciplined step keeps `thread_wait` truthful.**

**Proof sketch.** By the transaction. Nobody goes on from his suspension in `thread_wait` unless his
target has died: the one to release him is `dieTo`. `Heeds` excludes a `thread_kill` of thread 0
with another code in its slot and a signal inside `thread_wait`, and the discipline a `thread_wait`
that finds nobody to run. -/
theorem Waiting.step (h : v.Waiting) (ho : v.Orderly) (hlife : v.Life) (hv : v.Valid)
    (hcur : v.state v.current ≠ .Sleep) (hord : v.Orders l) (hheeds : v.Heeds l)
    (hs : Step v l v') : v'.Waiting := by
  have hrunning {f : Fn} (hc : v.Calls f) : v.state v.current = .Running :=
    State.eq_running (hlife.alive _ hc.alive) hcur
  cases hs with
  | @called f alive idle destroy =>
    refine h.calm ⟨rfl, rfl, rfl, fun _ => rfl, fun t => ?_, fun _ => rfl⟩ ⟨trivial, h.reported⟩
    rcases eq_or_ne v.current t with rfl | hne
    · exact .inl (by simp)
    · exact .inr (by simp [hne])
  | returned alive fn done =>
    refine h.outside rfl rfl rfl (fun _ => rfl) (by simp) (fun t hne => by simp [hne])
      (fun _ => rfl) ⟨h.completes hlife hcur alive done, h.reported⟩
  | started =>
    exact h.outside rfl rfl rfl (fun _ => rfl) (by simp) (fun t hne => by simp [hne])
      (fun _ => rfl) ⟨trivial, h.reported⟩
  | exit => exact h.exit _
  | create calls pos valid dead => exact (h.spawn ho calls dead).pushReady _
  | discard => exact h.setReady _
  | @dispatch t ts picks awake =>
    refine (h.setReady ts).switchTo t (fun halive x c hp => ?_) fun halive x hw => ?_
    · exact hheeds (hlife.alive _ halive) x c (congrArg Progress.fn hp)
    · cases (awake (hlife.alive _ halive)).waits.symm.trans hw
  | yieldTo calls =>
    refine h.switchTo _ (fun _ => calls.ne (by simp)) fun _ x hw => ?_
    cases calls.waits.symm.trans hw
  | @sleep f q o o' t es ts calls sleeps access queue lock picks =>
    refine ((h.asleepOn calls q o' es).setReady ts).switchTo t (fun _ => calls.ne ?_)
      fun _ x hw => ?_
    · rintro x c rfl
      cases sleeps
    · cases calls.waits.symm.trans hw
  | sleepNone calls sleeps access queue lock ready last =>
    have hstill := ho.sleptNone hv (hrunning calls) queue last
    exact h.quiet hstill.state rfl rfl (fun t => ⟨rfl, rfl, fun _ => rfl, hstill.dormant t⟩)
      ⟨trivial, trivial, h.reported⟩
  | @wait x t c ts calls valid state ne waiter picks =>
    have hx : fate x v.trace ≠ none := by
      rw [hlife.dead x ne state]
      simp
    refine ((h.awaitingFor calls hx).setReady ts).switchTo t (fun _ y d hp => ?_) fun _ y hw => ?_
    · simp [calls.progress] at hp
    · obtain rfl : x = y := by simpa using hw
      simp
  | waitNone => exact hord.elim
  | wake calls wakes access queue state => exact (h.wake ho hcur queue state).pushReady _
  | skip =>
    exact h.quiet rfl rfl rfl (fun _ => ⟨rfl, rfl, fun _ => rfl, rfl⟩) h.reported
  | die dies => exact h.bury hlife dies hheeds
  | dieTo dies waiter valid state ne => exact h.dieTo ho hlife dies waiter valid state ne hheeds
  | dieBack dies waiter state => exact (hcur state).elim
  | take | give =>
    exact h.quiet rfl rfl rfl (fun _ => ⟨rfl, rfl, fun _ => rfl, rfl⟩) h.reported
  | newQueue => exact h.served (by simp) (.inl ⟨_, rfl⟩) rfl rfl rfl rfl
  | newLock => exact h.served (by simp) (.inl ⟨_, rfl⟩) rfl rfl rfl rfl
  | newCv => exact h.served (by simp) (.inl ⟨_, rfl⟩) rfl rfl rfl rfl
  | newHalf calls creates =>
    refine h.halfway calls ?_ rfl rfl rfl (.inl rfl) rfl
    rcases creates with ⟨rfl, -⟩ | ⟨rfl, -⟩ <;> simp
  | dropHalf calls destroys =>
    refine h.halfway calls ?_ rfl rfl rfl (.inr ⟨_, _, _, rfl⟩) rfl
    rcases destroys with ⟨rfl, -⟩ | ⟨rfl, -⟩ <;> simp
  | dropQueue => exact h.served (by simp) (.inr ⟨_, _, _, rfl⟩) rfl rfl rfl rfl
  | dropLock => exact h.served (by simp) (.inr ⟨_, _, _, rfl⟩) rfl rfl rfl rfl
  | dropCv => exact h.served (by simp) (.inr ⟨_, _, _, rfl⟩) rfl rfl rfl rfl

/-- The steps of such a run carry out transactions that heed the conditions of `thread_wait`.

**Proof sketch.** A signal comes while user code runs or inside the allocator, never in
`thread_wait`. A kill of thread 0 is the call of the step, and the condition speaks of it. -/
lemma heeds_of_waitable {m : Machine} {a : Action} (hok : Waitable m a)
    (hp : Permits m a v l) (hs : Step v l v') : v.Heeds l := by
  have hkill {t : Tid} (hst : v.state t ≠ .Destroyed) (hne : t ≠ v.current)
      (hpk : a = .call (.threadKill t) ∧ Unchanged m v) (h0 : t = 0) :
      v.exitCode 0 = -SIGKILL := by
    obtain ⟨rfl, hu⟩ := hpk
    subst h0
    rw [Unchanged] at hu
    rw [hu] at hst hne ⊢
    exact hok.2 rfl ⟨hne, by decide, hst⟩
  cases hs with
  | @dispatch t ts picks awake =>
    intro hst x c hfn
    obtain ⟨u, hc⟩ | hidle | ⟨-, -, p, -, hprogress⟩ := hp hst
    · rw [hc.progress] at hfn
      cases hfn
    · rw [hidle] at hfn
      cases hfn
    · rw [hprogress] at hfn
      cases p <;> cases hfn
  | @die t killed rsp heap dies =>
    rintro rfl h0
    exact hkill dies.state (dies.byOther rfl).2.1 (hp rfl) h0
  | @dieTo t w killed rsp heap dies =>
    rintro rfl h0
    exact hkill dies.state (dies.byOther rfl).2.1 (hp.1 rfl) h0
  | _ => trivial

end View

/-! ## Reachable states -/

variable {m : Machine}

/-- At the start nobody has waited for anybody. -/
lemma waiting_threadInit (garbage : ℤ) : (abs (threadInit garbage)).Waiting where
  coded x := by
    rw [View.Coded]
    rcases eq_or_ne x 0 with rfl | hne
    · simp [threadInit]
    · simp [threadInit, uncreatedThread, hne]
  calling t x c _ hp := by cases hp
  waits t x _ hw := by cases hw
  reported := trivial

/-- **`thread_wait` never reports an exit that did not happen**, in disciplined runs that do not
kill thread 0 with another exit code stored.

**Proof sketch.** `Waiting` holds in every state of the run and says that every report in the
history is true. The last part adds that user code has just been entered, so nothing has happened
since the report, and a thread that has ended is Destroyed (`state_destroyed_iff`). -/
theorem thread_wait_truthful (h : ReachableBy Waitable m) (hrun : ¬ Stopped m) :
    Always Reported m.trace ∧
      (m.control = .user → ∀ w t c r tr, m.trace = .returned w (.threadWait t c) r :: tr →
        r.value = t → t ≠ THREAD_INVALID → (m.threads t).state = .Destroyed) := by
  have hview := h.view (I := fun v => v.Life ∧ v.Orderly ∧ v.state v.current ≠ .Sleep ∧ v.Waiting)
    (fun g => ⟨life_threadInit g, orderly_threadInit g, by simp [threadInit],
      waiting_threadInit g⟩) ?_
  · obtain ⟨hb, hlife, -, -, hw⟩ := hview.resolve_left hrun
    refine ⟨hw.reported, fun hu w t c r tr htrace hvalue hne => ?_⟩
    have hreported := hw.reported
    rw [abs_trace, htrace] at hreported
    obtain ⟨-, code, hended, -⟩ := hreported.1 hvalue hne
    have hc := hb.control
    rw [ControlOk, hu] at hc
    refine (state_destroyed_iff hb hlife (.inr hc.1.admin)).mpr ?_
    rw [htrace]
    show fate t tr ≠ _
    rcases hended with hf | ⟨hf, -⟩ <;> simp [hf]
  · rintro m a v l v' - - ha ⟨hlife, ho, hcur, hw⟩ hv hpermits hs
    have horders := View.orders_of_disciplined ho ha.1 hpermits hs
    obtain ⟨ho', hcur'⟩ := ho.step hcur hlife hv horders hs
    exact ⟨hlife.step hs, ho', hcur',
      hw.step ho hlife hv hcur horders (View.heeds_of_waitable ha hpermits hs) hs⟩

/-- Thread 0 waits for thread 1, which exits with `5`. -/
theorem thread_wait_truthful_exited :
    let m := after 42 [.call (.threadCreate 7 8), .call (.threadWait 1 true), .exec,
      .call (.threadExit 5), .exec, .exec]
    Always Reported m.trace ∧
      (m.control = .user → ∀ w t c r tr, m.trace = .returned w (.threadWait t c) r :: tr →
        r.value = t → t ≠ THREAD_INVALID → (m.threads t).state = .Destroyed) :=
  thread_wait_truthful (reachableBy_after (by decide +kernel)) (by decide)

/-- A report about a thread that is alive. -/
lemma not_reported {w x : Tid} {c : Bool} {r : Ret} {tr : List Event}
    (hhead : tr.head? = some (.returned w (.threadWait x c) r)) (hvalue : r.value = x)
    (hx : x ≠ THREAD_INVALID) (halive : fate x tr = some .alive) : ¬ Always Reported tr := by
  cases tr with
  | nil => cases hhead
  | cons e tr =>
    cases hhead
    rintro ⟨hreported, -⟩
    obtain ⟨-, code, hended, -⟩ := hreported hvalue hx
    have halive' : fate x tr = some .alive := halive
    rcases hended with hf | ⟨hf, -⟩ <;> simp [hf] at halive'

/-- **`thread_wait` reports an exit that has not happened.** Thread 1 waits for thread 0 and
thread 0 for thread 1; the second `thread_wait` finds no thread to run and returns at once. -/
theorem thread_wait_lies :
    let m := after 42 [.call (.threadCreate 7 8), .call (.threadYield 1), .exec,
      .call (.threadWait 0 true), .exec, .call (.threadWait 1 true)]
    Reachable m ∧ m.control = .user ∧
      m.trace.head? = some (.returned 0 (.threadWait 1 true) ⟨1, some (-SIGKILL)⟩) ∧
      (m.threads 1).state = .Sleep ∧ fate 1 m.trace = some .alive ∧ ¬ Always Reported m.trace := by
  intro m
  have hhead : m.trace.head? = some (.returned 0 (.threadWait 1 true) ⟨1, some (-SIGKILL)⟩) := by
    decide
  have halive : fate 1 m.trace = some .alive := by decide
  exact ⟨reachable_after (by decide), by decide, hhead, by decide, halive,
    not_reported hhead rfl (by decide) halive⟩

end UserThreads
