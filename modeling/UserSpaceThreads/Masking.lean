import UserSpaceThreads.Contexts
import UserSpaceThreads.Monitor

set_option relaxedAutoImplicit false
set_option autoImplicit false

/-!
# The signal mask in the functions of `thread.c`

Every function masks the timer signal before it touches what threads share, and restores the
mask that it found before it returns. The mask that it found is kept in a local variable, and
while the processor executes other threads this local is part of a saved stack. `Shielded` says
all of this of one function: its accesses are made with the signal blocked, it returns with a
certain mask and with all saved contexts as they were, and if it is suspended, then on a stack
whose outermost frame of the function restores that mask.

## Main definitions

* `UserThreads.Frame.flag` — the mask that a frame restores.
* `UserThreads.Same` — two states with the same saved contexts.
* `UserThreads.Moved` — how control leaves a function.
* `UserThreads.Shielded` — the specification of a function.

## Main results

* `UserThreads.Shielded.bind` — the rule of sequencing.
* `UserThreads.Monitored.shielded_threadYield`, …, `UserThreads.Monitored.shielded_cvWakeup`.
-/

namespace UserThreads

/-! ## Rules for the statements of a monitored function -/

namespace Monitored

section Rules

variable {α β : Type} {P : SharedAccess → Prop} {R : β → Machine → Prop} {J : Machine → Prop}
  {m : Machine}

/-- A write meets its specification if it is made with the signal blocked and the rest does. -/
@[simp] lemma meets_write_bind {target : Target} {g : Machine → Machine} {f : Unit → Monitored β} :
    (write target g >>= f).Meets P R J m ↔
      P ⟨target, !m.interrupts⟩ ∧ (f ()).Meets P R J (g m) :=
  Logged.meets_tell_bind (f := fun _ => Logged.modify g >>= f)

/-- The mask is set, and the rest goes on with the new one. -/
@[simp] lemma meets_interruptsSet_bind {b : Bool} {f : Bool → Monitored β} :
    (interruptsSet b >>= f).Meets P R J m ↔ (f m.interrupts).Meets P R J (m.interruptsSet b) :=
  Iff.rfl

/-- An event is recorded, and the rest goes on. -/
@[simp] lemma meets_record_bind {e : Machine → Event} {f : Unit → Monitored β} :
    (record e >>= f).Meets P R J m ↔ (f ()).Meets P R J (m.emit (e m)) :=
  Iff.rfl

/-- `current_thread` is read, and the rest goes on. -/
@[simp] lemma meets_currentThread_bind {f : Tid → Monitored β} :
    (currentThread >>= f).Meets P R J m ↔ (f m.currentThread).Meets P R J m :=
  Iff.rfl

/-- A context is loaded. -/
@[simp] lemma meets_setcontext {u : Machine → Ucontext} :
    (setcontext u : Monitored β).Meets P R J m ↔
      P ⟨.setcontext, !m.interrupts⟩ ∧ J (m.setcontext (u m)) := by
  rw [setcontext, access, Logged.meets_tell_bind, Logged.meets_leave]

/-- An assertion holds and the rest goes on, or the run ends. -/
lemma meets_assert_bind {p : Machine → Prop} [DecidablePred p] {f : Unit → Monitored β}
    (hf : p m → (f ()).Meets P R J m) (hJ : J m.abort) : (assert p >>= f).Meets P R J m := by
  refine Logged.Meets.bind (Q := fun _ s => s = m ∧ p m) ?_ ?_
  · rw [assert, Logged.meets_get_bind]
    exact Logged.meets_ite (fun hp => Logged.meets_pure.mpr ⟨rfl, hp⟩)
      fun _ => Logged.meets_leave.mpr hJ
  · rintro - s ⟨rfl, hp⟩
    exact hf hp

/-- A wait queue is read, if it is there, and the rest goes on. -/
lemma meets_waitQueue_bind {q : Addr} {f : WaitQueue → Monitored β}
    (hf : ∀ wq, m.waitQueues q = some wq → (f wq).Meets P R J m) (hJ : J m.undef) :
    (waitQueue q >>= f).Meets P R J m := by
  refine Logged.Meets.bind (Q := fun wq s => s = m ∧ m.waitQueues q = some wq) ?_ ?_
  · rw [waitQueue, Logged.meets_get_bind]
    cases h : m.waitQueues q with
    | none => exact Logged.meets_leave.mpr hJ
    | some wq => exact Logged.meets_pure.mpr ⟨rfl, rfl⟩
  · rintro wq s ⟨rfl, hq⟩
    exact hf wq hq

/-- A lock is read, if it is there, and the rest goes on. -/
lemma meets_lockAt_bind {l : Addr} {f : Lock → Monitored β}
    (hf : ∀ lock, m.locks l = some lock → (f lock).Meets P R J m) (hJ : J m.undef) :
    (lockAt l >>= f).Meets P R J m := by
  refine Logged.Meets.bind (Q := fun lock s => s = m ∧ m.locks l = some lock) ?_ ?_
  · rw [lockAt, Logged.meets_get_bind]
    cases h : m.locks l with
    | none => exact Logged.meets_leave.mpr hJ
    | some lock => exact Logged.meets_pure.mpr ⟨rfl, rfl⟩
  · rintro lock s ⟨rfl, hl⟩
    exact hf lock hl

/-- A condition variable is read, if it is there, and the rest goes on. -/
lemma meets_cvAt_bind {c : Addr} {f : Cv → Monitored β}
    (hf : ∀ cv, m.cvs c = some cv → (f cv).Meets P R J m) (hJ : J m.undef) :
    (cvAt c >>= f).Meets P R J m := by
  refine Logged.Meets.bind (Q := fun cv s => s = m ∧ m.cvs c = some cv) ?_ ?_
  · rw [cvAt, Logged.meets_get_bind]
    cases h : m.cvs c with
    | none => exact Logged.meets_leave.mpr hJ
    | some cv => exact Logged.meets_pure.mpr ⟨rfl, rfl⟩
  · rintro cv s ⟨rfl, hc⟩
    exact hf cv hc

end Rules

end Monitored

/-! ## What a function leaves -/

/-- The mask that the function of a frame restores before it returns. -/
def Frame.flag : Frame → Option Bool
  | .threadYield s _ _ => some s
  | .handleDeath s => some s
  | .threadKill _ s => some s
  | .threadSleep _ e => some e
  | .threadWait _ _ s => some s
  | .lockAcquire _ s => some s
  | .cvWaitSleep _ s => some s
  | .cvWaitAcquire s => some s
  | .interruptHandler _ => some true
  | _ => none

/-- The stack is that of a function called by `k` which restores the mask `b`. -/
def Suspends (b : Bool) (k K : Stack) : Prop := ∃ fs fr, K = fs ++ fr :: k ∧ fr.flag = some b

/-- A function that another function calls. -/
lemma Suspends.nest {b b' : Bool} {fr : Frame} {k K : Stack} (h : Suspends b' (fr :: k) K)
    (hfr : fr.flag = some b) : Suspends b k K := by
  obtain ⟨fs, fr', rfl, -⟩ := h
  exact ⟨fs ++ [fr'], fr, by simp, hfr⟩

/-- The same thread is current, and every thread has the saved context that it had. -/
structure Same (m m' : Machine) : Prop where
  current : m'.currentThread = m.currentThread
  ucontext : ∀ t, (m'.threads t).ucontext = (m.threads t).ucontext

variable {m m₀ m₁ m' : Machine} {S S' : Stack → Prop} {b : Bool} {k : Stack}

/-- Nothing has happened. -/
lemma Same.refl (m : Machine) : Same m m := ⟨rfl, fun _ => rfl⟩

/-- One stretch with the same current thread and contexts after another. -/
lemma Same.trans (h : Same m₀ m₁) (h' : Same m₁ m') : Same m₀ m' :=
  ⟨h'.current.trans h.current, fun t => (h'.ucontext t).trans (h.ucontext t)⟩

/-- A write to a thread other than to its context. -/
lemma Same.setThread (h : Same m₀ m) (t : Tid) (th : Thread)
    (hth : th.ucontext = (m.threads t).ucontext) : Same m₀ (m.setThread t th) := by
  refine ⟨h.current, fun u => ?_⟩
  rcases eq_or_ne u t with rfl | hu
  · simp [hth, h.ucontext]
  · simp [Function.update_of_ne hu, h.ucontext]

/-- States are not contexts. -/
lemma Same.setState (h : Same m₀ m) (t : Tid) (s : State) : Same m₀ (m.setState t s) :=
  h.setThread t _ rfl

/-- Waiters are not contexts. -/
lemma Same.setWaiter (h : Same m₀ m) (t w : Tid) : Same m₀ (m.setWaiter t w) :=
  h.setThread t _ rfl

/-- Exit codes are not contexts. -/
lemma Same.setExitCode (h : Same m₀ m) (t : Tid) (c : ℤ) : Same m₀ (m.setExitCode t c) :=
  h.setThread t _ rfl

/-- The current mask is not part of a context. -/
lemma Same.interruptsSet (h : Same m₀ m) (b : Bool) : Same m₀ (m.interruptsSet b) :=
  ⟨h.current, h.ucontext⟩

/-- Events are not contexts. -/
lemma Same.emit (h : Same m₀ m) (e : Event) : Same m₀ (m.emit e) := ⟨h.current, h.ucontext⟩

/-- Wait queues are not contexts. -/
lemma Same.setWaitQueue (h : Same m₀ m) (q : Addr) (wq : Option WaitQueue) :
    Same m₀ (m.setWaitQueue q wq) :=
  ⟨h.current, h.ucontext⟩

/-- Locks are not contexts. -/
lemma Same.setLock (h : Same m₀ m) (l : Addr) (lock : Option Lock) : Same m₀ (m.setLock l lock) :=
  ⟨h.current, h.ucontext⟩

/-- The ready queue has ids and not contexts. -/
lemma Same.pushReady (h : Same m₀ m) (t : Tid) : Same m₀ (m.pushReady t) :=
  ⟨h.current, h.ucontext⟩

/-- The administrative mode is not a context. -/
lemma Same.setAdministrativeMode (h : Same m₀ m) (b : Bool) :
    Same m₀ (m.setAdministrativeMode b) :=
  ⟨h.current, h.ucontext⟩

/-- `thread_to_destroy` is not a context. -/
lemma Same.setThreadToDestroy (h : Same m₀ m) (t : Tid) : Same m₀ (m.setThreadToDestroy t) :=
  ⟨h.current, h.ucontext⟩

/-- The function that was entered in `m` returns with the mask `b`. -/
def Restored (m : Machine) (b : Bool) (m' : Machine) : Prop := Same m m' ∧ m'.interrupts = b

/-- How control leaves a function that was entered in `m`. The stack of the current thread is one
of `S`: the one that is saved, or the empty one if the thread exits. -/
inductive Moved (m : Machine) (S : Stack → Prop) (m' : Machine) : Prop
  | stopped (h : Stopped m')
  | switched {c c' : Context} (ne : m'.currentThread ≠ m.currentThread)
      (saved : (m'.threads m.currentThread).ucontext = .saved c) (stack : S c.stack)
      (others : ∀ t, t ≠ m.currentThread → (m'.threads t).ucontext = (m.threads t).ucontext)
      (loaded : (m.threads m'.currentThread).ucontext = .saved c')
      (control : m'.control = .resumed c'.stack)
  | looped {l : Addr} {s : Bool} {k : Stack} (same : Same m m')
      (control : m'.control = .lockLoop l s k) (stack : S (.lockAcquire l s :: k))
  | exiting {c : Context} (same : Same m m') (loaded : (m.threads 0).ucontext = .saved c)
      (control : m'.control = .resumed c.stack) (stack : S [])

/-- More stacks are allowed. -/
lemma Moved.mono (h : Moved m S m') (hS : ∀ K, S K → S' K) : Moved m S' m' := by
  cases h with
  | stopped h => exact .stopped h
  | switched ne saved stack others loaded control =>
    exact .switched ne saved (hS _ stack) others loaded control
  | looped same control stack => exact .looped same control (hS _ stack)
  | exiting same loaded control stack => exact .exiting same loaded control (hS _ stack)

/-- A failed assertion ends the run. -/
lemma moved_abort : Moved m S m₁.abort := .stopped (.inl rfl)

/-- Undefined behaviour ends the run. -/
lemma moved_undef : Moved m S m₁.undef := .stopped (.inr (.inr rfl))

/-- From `m` on, in a function that was entered in `m₀`: all accesses are made with the signal
blocked, the function returns with the mask `b`, and if it is suspended, then on a stack of
`S`. -/
def Shielded {α : Type} (m₀ : Machine) (b : Bool) (S : Stack → Prop) (x : Monitored α)
    (m : Machine) : Prop :=
  x.Meets (fun w => w.masked = true) (fun _ => Restored m₀ b) (Moved m₀ S) m

/-- **The rule of sequencing.** -/
lemma Shielded.bind {α β : Type} {x : Monitored α} {f : α → Monitored β} {b' : Bool}
    (h : Shielded m₀ b' S' x m) (hS : ∀ K, S' K → S K)
    (hf : ∀ a m', Restored m₀ b' m' → Shielded m₀ b S (f a) m') : Shielded m₀ b S (x >>= f) m :=
  Logged.Meets.bind' h hf fun _ hm => hm.mono hS

/-! ## The functions -/

/-- The switch of `thread_yield`.

**Proof sketch.** The context of the current thread is saved with the frame of this `thread_yield`,
and no other context is written. The context of `a` is the one that was there, so it decides whether
the switch succeeds. -/
lemma moved_threadYieldSwitch (h : Same m₀ m) {s : Bool} {a : Tid} (ha : a ≠ m.currentThread)
    (hS : S (.threadYield s a true :: k)) : Moved m₀ S (threadYieldSwitch s a k m) := by
  set m₁ := (((m.setUcontext m.currentThread (.saved ⟨m.rsp, m.interrupts,
    .threadYield s a true :: k⟩)).pushReady m.currentThread).setCurrentThread a).emit
      (.switched a) with hm₁
  have hthreads : m₁.threads = Function.update m.threads m.currentThread
      { m.threads m.currentThread with
        ucontext := .saved ⟨m.rsp, m.interrupts, .threadYield s a true :: k⟩ } := rfl
  have hother : ∀ t, t ≠ m.currentThread → (m₁.threads t).ucontext = (m₀.threads t).ucontext := by
    intro t ht
    rw [hthreads, Function.update_of_ne ht, h.ucontext]
  have hne : a ≠ m₀.currentThread := h.current ▸ ha
  have hload : threadYieldSwitch s a k m = m₁.setcontext (m₀.threads a).ucontext := by
    rw [← hother a ha]
    rfl
  rw [hload]
  cases hc : (m₀.threads a).ucontext with
  | uninit => exact moved_undef
  | spent => exact moved_undef
  | saved c =>
    refine .switched hne (c := ⟨m.rsp, m.interrupts, .threadYield s a true :: k⟩) ?_ hS ?_ hc rfl
    · show (m₁.threads m₀.currentThread).ucontext = _
      rw [hthreads, ← h.current, Function.update_self]
    · intro t ht
      exact hother t (h.current.symm ▸ ht)

/-- `thread_exit` loads the context of thread 0. -/
lemma moved_threadExitSetcontext (h : Same m₀ m) (c : ℤ) (hS : S []) :
    Moved m₀ S (threadExitSetcontext c m) := by
  set m₁ := ((m.setThreadToDestroy m.currentThread).setAdministrativeMode true).setExitCode
    m.currentThread c with hm₁
  have h₁ : Same m₀ m₁ :=
    ((h.setThreadToDestroy m.currentThread).setAdministrativeMode true).setExitCode _ c
  have hload : threadExitSetcontext c m = m₁.setcontext (m₀.threads 0).ucontext := by
    rw [← h₁.ucontext]
    rfl
  rw [hload]
  cases hc : (m₀.threads 0).ucontext with
  | uninit => exact moved_undef
  | spent => exact moved_undef
  | saved c => exact .exiting ⟨h₁.current, h₁.ucontext⟩ hc rfl hS

namespace Monitored

/-- The switch of `thread_yield`. -/
lemma shielded_threadYieldSwitch {α : Type} (h : Same m₀ m) (hint : m.interrupts = false)
    {s : Bool} {a : Tid} (ha : a ≠ m.currentThread) (hS : S (.threadYield s a true :: k)) :
    Shielded m₀ b S (threadYieldSwitch s a k : Monitored α) m := by
  simp only [Shielded, threadYieldSwitch, Logged.meets_get_bind, meets_write_bind,
    meets_record_bind, meets_setcontext]
  refine ⟨by simp [hint], by simp [hint], by simp [hint], by simp [hint], ?_⟩
  exact moved_threadYieldSwitch h ha hS

/-- The loop of `get_thread_any` does not choose the current thread. -/
lemma meets_getThreadAnyLoop {current : Tid} {J : Machine → Prop} (n : ℕ)
    (hint : m.interrupts = false) :
    (getThreadAnyLoop current n).Meets (fun w => w.masked = true)
      (fun r m' => (∃ q, m' = m.setThreadQueue q) ∧ (r ≠ THREAD_NONE → r ≠ current)) J m := by
  induction n generalizing m with
  | zero =>
    rw [getThreadAnyLoop, Logged.meets_pure]
    exact ⟨⟨m.threadQueue, rfl⟩, fun h => (h rfl).elim⟩
  | succ n ih =>
    simp only [getThreadAnyLoop, Logged.meets_get_bind, meets_write_bind]
    refine ⟨by simp [hint], ?_⟩
    refine Logged.meets_ite (fun _ => ?_) fun _ => Logged.meets_ite (fun huse => ?_) fun _ => ?_
    · rw [Logged.meets_pure]
      exact ⟨⟨_, rfl⟩, fun h => (h rfl).elim⟩
    · rw [Logged.meets_pure]
      exact ⟨⟨_, rfl⟩, fun _ => huse.2⟩
    · refine (ih (m := m.setThreadQueue m.threadQueue.pop.2) hint).mono ?_ fun _ hJ => hJ
      rintro r m' ⟨⟨q, rfl⟩, hr⟩
      exact ⟨⟨q, rfl⟩, hr⟩

/-- `get_thread_any` does not choose the current thread. -/
lemma meets_getThreadAny {current : Tid} {J : Machine → Prop} (hint : m.interrupts = false) :
    (getThreadAny current).Meets (fun w => w.masked = true)
      (fun r m' => (∃ q, m' = m.setThreadQueue q) ∧ (r ≠ THREAD_NONE → r ≠ current)) J m :=
  meets_getThreadAnyLoop _ hint

/-- A return that restores the mask. -/
lemma shielded_return {α : Type} (h : Same m₀ m) (a : α) :
    Shielded m₀ b S (do let _ ← interruptsSet b; return a) m :=
  Logged.meets_pure.mpr ⟨⟨h.current, h.ucontext⟩, rfl⟩

/-- `thread_yield` once `actual_tid` is chosen. -/
lemma shielded_threadYieldTo (h : Same m₀ m) (hint : m.interrupts = false) {a : Tid}
    (ha : a ≠ m.currentThread) : Shielded m₀ b (Suspends b k) (threadYieldTo b a k) m := by
  refine Logged.meets_ite (fun _ => shielded_return h _) fun _ => ?_
  rw [Logged.meets_get_bind]
  refine Logged.meets_ite (fun _ => shielded_return h _) fun _ => ?_
  exact shielded_threadYieldSwitch h hint ha ⟨[], _, rfl, rfl⟩

/-- `thread_yield`. -/
lemma shielded_threadYield (h : Same m₀ m) (t : Tid) (k : Stack) :
    Shielded m₀ m.interrupts (Suspends m.interrupts k) (threadYield t k) m := by
  have h₁ : Same m₀ (m.interruptsSet false) := h.interruptsSet false
  simp only [Shielded, threadYield, meets_interruptsSet_bind, meets_currentThread_bind]
  refine Logged.meets_ite (fun _ => shielded_return h₁ _) fun hself => ?_
  refine Logged.meets_ite (fun _ => ?_) fun _ => ?_
  · refine (meets_getThreadAny (m := m.interruptsSet false) rfl).bind ?_
    rintro r m' ⟨⟨q, rfl⟩, hr⟩
    have h₂ : Same m₀ ((m.interruptsSet false).setThreadQueue q) := ⟨h.current, h.ucontext⟩
    refine Logged.meets_ite (fun _ => shielded_return h₂ _) fun hnone => ?_
    exact shielded_threadYieldTo h₂ rfl (hr hnone)
  · exact shielded_threadYieldTo h₁ rfl fun ht => hself (.inr ht)

/-- `handle_death`. -/
lemma shielded_handleDeath (h : Same m₀ m) (t : Tid) (k : Stack) :
    Shielded m₀ m.interrupts (Suspends m.interrupts k) (handleDeath t k) m := by
  have h₁ : Same m₀ ((m.interruptsSet false).setState t .Destroyed) :=
    (h.interruptsSet false).setState t .Destroyed
  simp only [Shielded, handleDeath, meets_interruptsSet_bind, meets_write_bind,
    Logged.meets_get_bind]
  refine ⟨rfl, Logged.meets_ite (fun _ => ?_) fun _ => shielded_return h₁ ()⟩
  refine meets_assert_bind (fun _ => ?_) moved_abort
  rw [Logged.meets_get_bind]
  refine Logged.meets_ite (fun _ => ?_) fun _ => shielded_return h₁ ()
  rw [meets_write_bind, meets_record_bind]
  refine ⟨rfl, ?_⟩
  refine Shielded.bind (shielded_threadYield ((h₁.setState _ .Running).emit _) _ _)
    (fun K hK => hK.nest rfl) ?_
  rintro r m' ⟨hsame, -⟩
  exact shielded_return hsame ()

/-- `free369`. -/
lemma meets_freeStack_bind {α : Type} {t : Tid} {f : Unit → Monitored α}
    (hf : ∀ m', Same m m' → m'.interrupts = m.interrupts → Shielded m₀ b S (f ()) m') :
    Shielded m₀ b S (freeStack t >>= f) m := by
  refine Logged.Meets.bind (Q := fun _ m' => Same m m' ∧ m'.interrupts = m.interrupts) ?_
    fun _ m' hm' => hf m' hm'.1 hm'.2
  refine Logged.meets_ite (fun _ => ?_) fun _ => Logged.meets_pure.mpr ⟨.refl m, rfl⟩
  rw [free369, Logged.meets_get_bind]
  cases m.heap.free369 (m.threads t).stackStart with
  | none => exact Logged.meets_leave.mpr moved_abort
  | some heap => exact Logged.meets_modify.mpr ⟨⟨rfl, fun _ => rfl⟩, rfl⟩

/-- `thread_kill`. -/
lemma shielded_threadKill (h : Same m₀ m) (t : Tid) (k : Stack) :
    Shielded m₀ m.interrupts (Suspends m.interrupts k) (threadKill t k) m := by
  have h₁ : Same m₀ (m.interruptsSet false) := h.interruptsSet false
  simp only [Shielded, threadKill, meets_interruptsSet_bind, Logged.meets_get_bind]
  refine Logged.meets_ite (fun _ => shielded_return h₁ _) fun _ => ?_
  refine Logged.meets_ite (fun _ => shielded_return h₁ _) fun _ => ?_
  refine Logged.meets_ite (fun _ => shielded_return h₁ _) fun _ => ?_
  refine meets_freeStack_bind fun m₂ h₂ hint₂ => ?_
  simp only [Shielded, Logged.meets_modify_bind, meets_write_bind]
  set m₃ := if m₂.administrativeMode then m₂ else m₂.emit (.killed t) with hm₃
  have h₃ : Same m₂ m₃ ∧ m₃.interrupts = m₂.interrupts := by
    rw [hm₃]
    split_ifs
    · exact ⟨.refl m₂, rfl⟩
    · exact ⟨⟨rfl, fun _ => rfl⟩, rfl⟩
  have hint₃ : m₃.interrupts = false := h₃.2.trans hint₂
  refine ⟨by rw [hint₃]; rfl, ?_⟩
  have h₄ : Same m₀ (m₃.setAdministrativeMode false) :=
    ((h₁.trans h₂).trans h₃.1).setAdministrativeMode false
  have hdeath := shielded_handleDeath h₄ t (.threadKill t m.interrupts :: k)
  refine Shielded.bind hdeath (fun K hK => hK.nest rfl) ?_
  rintro - m' ⟨hsame, -⟩
  exact shielded_return hsame t

/-- `admin_mode` does not return. -/
lemma meets_adminMode (h : Same m₀ m) (k : Stack) :
    (adminMode k).Meets (fun w => w.masked = true) (fun _ _ => False)
      (Moved m₀ fun _ => True) m := by
  rw [adminMode]
  refine meets_assert_bind (fun hint => ?_) moved_abort
  rw [meets_currentThread_bind]
  refine (shielded_threadKill h _ _).bind' ?_ fun _ hm => hm.mono fun _ _ => trivial
  rintro - m₁ ⟨h₁, hint₁⟩
  have hint₁ : m₁.interrupts = false := hint₁.trans hint
  simp only [adminModeAfterKill, meets_write_bind]
  refine ⟨by simp [hint₁], by simp [hint₁], ?_⟩
  refine meets_assert_bind (fun _ => ?_) moved_abort
  refine meets_assert_bind (fun _ => ?_) moved_abort
  refine meets_assert_bind (fun _ => ?_) moved_abort
  have h₂ := (h₁.setAdministrativeMode false).setThreadToDestroy (-1)
  refine (shielded_threadYield h₂ _ _).bind' ?_ fun _ hm => hm.mono fun _ _ => trivial
  rintro r m₂ -
  exact Logged.meets_ite (fun _ => Logged.meets_leave.mpr (.stopped (.inr (.inl ⟨0, rfl⟩))))
    fun _ => Logged.meets_leave.mpr moved_abort

/-- `thread_exit` from `thread_to_destroy = current_thread` on. -/
lemma shielded_threadExitSetcontext {α : Type} (h : Same m₀ m) (hint : m.interrupts = false)
    (c : ℤ) : Shielded m₀ b (fun _ => True) (threadExitSetcontext c : Monitored α) m := by
  simp only [Shielded, threadExitSetcontext, meets_write_bind, meets_setcontext]
  refine ⟨by simp [hint], by simp [hint], by simp [hint], by simp [hint], ?_⟩
  exact moved_threadExitSetcontext h c trivial

/-- `thread_exit` does not return. -/
lemma shielded_threadExit (h : Same m₀ m) (c : ℤ) (k : Stack) :
    Shielded m₀ b (fun _ => True) (threadExit c k) m := by
  rw [threadExit]
  refine meets_assert_bind (fun _ => ?_) moved_abort
  rw [meets_interruptsSet_bind, meets_record_bind, meets_currentThread_bind]
  have h₁ := (h.interruptsSet false).emit (.exited m.currentThread c)
  refine Logged.meets_ite (fun _ => ?_) fun _ => shielded_threadExitSetcontext h₁ rfl c
  rw [meets_write_bind]
  refine ⟨rfl, ?_⟩
  refine Shielded.bind (shielded_handleDeath (h₁.setExitCode _ c) _ _) (fun _ _ => trivial) ?_
  rintro - m₂ ⟨h₂, hint₂⟩
  refine Shielded.bind (shielded_threadYield h₂ _ _) (fun _ _ => trivial) ?_
  rintro r m₃ ⟨h₃, hint₃⟩
  exact shielded_threadExitSetcontext h₃ (hint₃.trans hint₂) c

/-- `thread_sleep` behind its `thread_yield`. -/
lemma shielded_threadSleepAfterYield (h : Same m₀ m) (hint : m.interrupts = false) (q : Addr)
    (r : Tid) : Shielded m₀ b S (threadSleepAfterYield q b r) m := by
  refine Logged.meets_ite (fun _ => ?_) fun _ => shielded_return h r
  rw [meets_write_bind]
  refine ⟨by simp [hint], meets_waitQueue_bind (fun wq _ => ?_) moved_undef⟩
  rw [meets_write_bind]
  refine ⟨by simp [hint], meets_assert_bind (fun _ => ?_) moved_abort⟩
  rw [meets_record_bind]
  exact shielded_return (((h.setState m.currentThread .Running).setWaitQueue q _).emit _) _

/-- `thread_sleep`. -/
lemma shielded_threadSleep (h : Same m₀ m) (q : Addr) (k : Stack) :
    Shielded m₀ m.interrupts (Suspends m.interrupts k) (threadSleep q k) m := by
  have h₁ : Same m₀ (m.interruptsSet false) := h.interruptsSet false
  rw [Shielded, threadSleep, meets_interruptsSet_bind]
  refine Logged.meets_ite (fun _ => shielded_return h₁ _) fun _ => ?_
  refine meets_waitQueue_bind (fun wq _ => ?_) moved_undef
  rw [meets_write_bind, meets_write_bind, meets_record_bind]
  refine ⟨rfl, rfl, ?_⟩
  have h₂ := ((h₁.setState m.currentThread .Sleep).setWaitQueue q
    (some { wq with queue := wq.queue.push m.currentThread })).emit (.slept m.currentThread q)
  refine Shielded.bind (shielded_threadYield h₂ _ _) (fun K hK => hK.nest rfl) ?_
  rintro r m₃ ⟨h₃, hint₃⟩
  exact shielded_threadSleepAfterYield h₃ hint₃ q r

/-- The loop of `thread_wakeup`. -/
lemma shielded_threadWakeupLoop (h : Same m₀ m) (hint : m.interrupts = false) (q : Addr) (all : ℤ)
    (n : ℕ) (wq : WaitQueue) (num : ℤ) :
    Shielded m₀ false S (threadWakeupLoop q all n wq num) m := by
  induction n generalizing m wq num with
  | zero => exact Logged.meets_pure.mpr ⟨h, hint⟩
  | succ n ih =>
    simp only [Shielded, threadWakeupLoop, meets_write_bind]
    refine ⟨by simp [hint], ?_⟩
    set m₁ := m.setWaitQueue q (some { wq with queue := wq.queue.pop.2 }) with hm₁
    have h₁ : Same m₀ m₁ := h.setWaitQueue q _
    refine Logged.meets_ite (fun _ => Logged.meets_pure.mpr ⟨h₁, hint⟩) fun _ => ?_
    rw [Logged.meets_get_bind]
    refine Logged.meets_ite (fun _ => Logged.meets_leave.mpr moved_abort) fun _ => ?_
    refine Logged.meets_ite (fun _ => ?_) fun _ => ih h₁ hint _ _
    rw [meets_write_bind, meets_record_bind, meets_write_bind]
    refine ⟨by simp [hm₁, hint], by simp [hm₁, hint], ?_⟩
    have h₂ := ((h₁.setState wq.queue.pop.1 .Running).emit
      (.woken wq.queue.pop.1 q)).pushReady wq.queue.pop.1
    exact Logged.meets_ite (fun _ => Logged.meets_pure.mpr ⟨h₂, hint⟩) fun _ => ih h₂ hint _ _

/-- `thread_wakeup`. -/
lemma shielded_threadWakeup (h : Same m₀ m) (q : Addr) (all : ℤ) :
    Shielded m₀ m.interrupts S (threadWakeup q all) m := by
  refine Logged.meets_ite (fun _ => Logged.meets_pure.mpr ⟨h, rfl⟩) fun _ => ?_
  rw [meets_interruptsSet_bind]
  refine meets_waitQueue_bind (fun wq _ => ?_) moved_undef
  refine Shielded.bind (shielded_threadWakeupLoop (h.interruptsSet false) rfl _ _ _ _ _)
    (fun K hK => hK) ?_
  rintro r m₁ ⟨h₁, -⟩
  exact shielded_return h₁ r

/-- `thread_wait` behind its `thread_yield`. -/
lemma shielded_threadWaitFinish (h : Same m₀ m) (t : Tid) (c : Bool) :
    Shielded m₀ b S (threadWaitFinish t c b) m :=
  shielded_return h _

/-- `thread_wait`. -/
lemma shielded_threadWait (h : Same m₀ m) (t : Tid) (c : Bool) (k : Stack) :
    Shielded m₀ m.interrupts (Suspends m.interrupts k) (threadWait t c k) m := by
  have h₁ : Same m₀ (m.interruptsSet false) := h.interruptsSet false
  rw [Shielded, threadWait, meets_interruptsSet_bind]
  refine meets_assert_bind (fun _ => ?_) moved_abort
  rw [Logged.meets_get_bind]
  refine Logged.meets_ite (fun _ => shielded_return h₁ _) fun _ => ?_
  refine Logged.meets_ite (fun _ => shielded_return h₁ _) fun _ => ?_
  refine Logged.meets_ite (fun _ => shielded_return h₁ _) fun _ => ?_
  refine Logged.meets_ite (fun _ => ?_) fun _ => shielded_threadWaitFinish h₁ t c
  refine Logged.meets_ite (fun _ => shielded_return h₁ _) fun _ => ?_
  rw [meets_write_bind, meets_write_bind, meets_record_bind]
  refine ⟨rfl, rfl, ?_⟩
  have h₂ := ((h₁.setWaiter t m.currentThread).setState m.currentThread .Sleep).emit
    (.waited m.currentThread t)
  refine Shielded.bind (shielded_threadYield h₂ _ _) (fun K hK => hK.nest rfl) ?_
  rintro r m₃ ⟨h₃, hint₃⟩
  exact meets_assert_bind (fun _ => shielded_threadWaitFinish h₃ t c) moved_abort

/-- `lock_acquire` from its loop test on. -/
lemma shielded_lockAcquireLoop (h : Same m₀ m) (hint : m.interrupts = false) (l : Addr)
    (k : Stack) : Shielded m₀ b (Suspends b k) (lockAcquireLoop l b k) m := by
  refine meets_lockAt_bind (fun lock _ => ?_) moved_undef
  refine Logged.meets_ite (fun _ => ?_) fun _ => ?_
  · refine Shielded.bind (shielded_threadSleep h _ _) (fun K hK => hK.nest rfl) ?_
    rintro r m₁ ⟨h₁, -⟩
    exact Logged.meets_leave.mpr (.looped ⟨h₁.current, h₁.ucontext⟩ rfl ⟨[], _, rfl, rfl⟩)
  · rw [meets_write_bind]
    exact ⟨by simp [hint], shielded_return (h.setLock l _) ()⟩

/-- `lock_acquire`. -/
lemma shielded_lockAcquire (h : Same m₀ m) (l : Addr) (k : Stack) :
    Shielded m₀ m.interrupts (Suspends m.interrupts k) (lockAcquire l k) m := by
  rw [Shielded, lockAcquire, meets_interruptsSet_bind]
  refine meets_assert_bind (fun _ => ?_) moved_abort
  exact shielded_lockAcquireLoop (h.interruptsSet false) rfl l k

/-- `lock_release`. -/
lemma shielded_lockRelease (h : Same m₀ m) (l : Addr) :
    Shielded m₀ m.interrupts S (lockRelease l) m := by
  refine meets_assert_bind (fun _ => ?_) moved_abort
  rw [meets_interruptsSet_bind]
  refine meets_lockAt_bind (fun lock _ => ?_) moved_undef
  refine meets_assert_bind (fun _ => ?_) moved_abort
  rw [meets_write_bind]
  refine ⟨rfl, ?_⟩
  have hfree := (h.interruptsSet false).setLock l (some { lock with current := -1 })
  refine Shielded.bind (shielded_threadWakeup hfree _ _) (fun K hK => hK) ?_
  rintro r m₁ ⟨h₁, -⟩
  exact shielded_return h₁ ()

/-- `cv_wait` behind its `thread_sleep`. -/
lemma shielded_cvWaitAfterSleep (h : Same m₀ m) (l : Addr) (k : Stack) :
    Shielded m₀ b (Suspends b k) (cvWaitAfterSleep l b k) m := by
  refine meets_assert_bind (fun _ => ?_) moved_abort
  refine Shielded.bind (shielded_lockAcquire h _ _) (fun K hK => hK.nest rfl) ?_
  rintro r m₁ ⟨h₁, -⟩
  exact shielded_return h₁ ()

/-- `cv_wait`. -/
lemma shielded_cvWait (h : Same m₀ m) (c l : Addr) (k : Stack) :
    Shielded m₀ m.interrupts (Suspends m.interrupts k) (cvWait c l k) m := by
  rw [Shielded, cvWait, meets_interruptsSet_bind]
  refine meets_assert_bind (fun _ => ?_) moved_abort
  refine meets_assert_bind (fun _ => ?_) moved_abort
  refine meets_lockAt_bind (fun lock _ => ?_) moved_undef
  refine meets_assert_bind (fun _ => ?_) moved_abort
  refine Shielded.bind (shielded_lockRelease (h.interruptsSet false) l) (fun K hK => hK) ?_
  rintro - m₁ ⟨h₁, hint₁⟩
  refine meets_cvAt_bind (fun cv _ => ?_) moved_undef
  refine Shielded.bind (shielded_threadSleep h₁ _ _) (fun K hK => hK.nest rfl) ?_
  rintro r m₂ ⟨h₂, -⟩
  exact shielded_cvWaitAfterSleep h₂ l k

/-- `cv_signal` and `cv_broadcast`. -/
lemma shielded_cvWakeup (h : Same m₀ m) (all : ℤ) (c l : Addr) :
    Shielded m₀ m.interrupts S (cvWakeup all c l) m := by
  refine meets_assert_bind (fun _ => ?_) moved_abort
  refine meets_assert_bind (fun _ => ?_) moved_abort
  rw [meets_interruptsSet_bind]
  refine meets_lockAt_bind (fun lock _ => ?_) moved_undef
  refine meets_assert_bind (fun _ => ?_) moved_abort
  refine meets_cvAt_bind (fun cv _ => ?_) moved_undef
  refine Shielded.bind (shielded_threadWakeup (h.interruptsSet false) _ _) (fun K hK => hK) ?_
  rintro r m₁ ⟨h₁, -⟩
  exact shielded_return h₁ ()

end Monitored

end UserThreads
