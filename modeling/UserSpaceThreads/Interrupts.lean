import UserSpaceThreads.Masking
import UserSpaceThreads.Refine

set_option relaxedAutoImplicit false
set_option autoImplicit false

/-!
# The signal mask across calls

A call of the library may be suspended any number of times before it returns. Throughout, the
mask that it was made with is kept in the outermost frame of the thread's stack, wherever this
stack is: being executed, in the loop of `lock_acquire`, or in a saved context. No step of
another thread touches it, whether the step switches, lets a thread exit on the stack of thread
0, or is a timer signal.

## Main definitions

* `UserThreads.entryFlag` — the mask that a suspended call was made with.
* `UserThreads.Carries` — a thread's call was made with a certain mask.
* `UserThreads.During` — the states from a call to its return.

## Main results

* `UserThreads.Untouched.of_step` — a step leaves the saved contexts of the other threads alone.
* `UserThreads.interrupt_state_preserved` — a call returns with the mask it was made with, and all
  accesses to what threads share are made with the signal blocked.
-/

namespace UserThreads

variable {m m₀ m' : Machine} {a : Action} {b : Bool} {S : Stack → Prop} {f : Fn} {k K : Stack}

/-! ## How a step ends -/

/-- The mask with which user code has made the call that is suspended on the stack. -/
def entryFlag (K : Stack) : Option Bool :=
  match K.reverse with
  | .user _ :: fr :: _ => fr.flag
  | .interruptHandler (.alloc _) :: _ => some true
  | _ => none

/-- A function called by user code. -/
lemma entryFlag_of_suspends (h : Suspends b [.user f] K) : entryFlag K = some b := by
  obtain ⟨fs, fr, rfl, hfr⟩ := h
  simpa [entryFlag] using hfr

/-- How a step ends that executes a call entered in `m`: the call returns, or reaches its next
call of the allocator, with the mask `b`; or control leaves it; or it makes a new thread. -/
inductive Ends (m : Machine) (b : Bool) (S : Stack → Prop) (m' : Machine) : Prop
  | back (same : Same m m') (interrupts : m'.interrupts = b)
      (control : m'.control = .user ∨ ∃ p, m'.control = .alloc p)
  | moved (h : Moved m S m')
  | created {num : Tid} (pos : 0 < num) (ne : num ≠ m.currentThread)
      (current : m'.currentThread = m.currentThread)
      (ucontext : ∀ t, t ≠ num → (m'.threads t).ucontext = (m.threads t).ucontext)
      (start : (progress num m'.trace).fn = none) (interrupts : m'.interrupts = b)
      (control : m'.control = .user)

/-- From `m` on, in a call that was entered in `m₀`: all accesses are made with the signal
blocked, and the step ends as it should. -/
def Ending (m₀ : Machine) (b : Bool) (S : Stack → Prop) (x : Monitored Unit) (m : Machine) : Prop :=
  x.Meets (fun w => w.masked = true) (fun _ => Ends m₀ b S) (Ends m₀ b S) m

/-- The end of a step, of which the last function may return or not. -/
lemma Ending.ends {x : Monitored Unit} (h : Ending m₀ b S x m) : Ends m₀ b S (x.erase m).state := by
  have hall := h.2
  cases ho : x.erase m with
  | ret _ m' =>
    rw [ho] at hall
    exact hall
  | jump m' =>
    rw [ho] at hall
    exact hall

/-- What follows a function. -/
lemma Shielded.ending {α : Type} {x : Monitored α} {g : α → Monitored Unit} {b' : Bool}
    {S' : Stack → Prop} (h : Shielded m₀ b' S' x m) (hS : ∀ K, S' K → S K)
    (hg : ∀ r m', Restored m₀ b' m' → Ending m₀ b S (g r) m') : Ending m₀ b S (x >>= g) m :=
  Logged.Meets.bind' h hg fun _ hm => .moved (hm.mono hS)

/-- A function that does not return. -/
lemma Shielded.ending_exit {x : Monitored Unit} (h : Shielded m₀ b S x m) :
    Ending m₀ b S (do x; Logged.leave Machine.undef) m :=
  h.ending (fun _ hK => hK) fun _ _ _ => Logged.meets_leave.mpr (.moved moved_undef)

/-- The return to user code. -/
lemma ending_userReturn (h : Same m₀ m) (r : Ret) :
    Ending m₀ m.interrupts S (Logged.modify (userReturn f r)) m :=
  Logged.meets_modify.mpr (.back ⟨h.current, h.ucontext⟩ rfl (.inl rfl))

/-- A function called by user code returns to it. -/
lemma Shielded.ending_user {α : Type} {x : Monitored α} {r : α → Ret}
    (h : Shielded m₀ b (Suspends b [.user f]) x m) :
    Ending m₀ b (fun K => entryFlag K = some b)
      (x >>= fun v => Logged.modify (userReturn f (r v))) m := by
  refine h.ending (fun K hK => entryFlag_of_suspends hK) fun v m' hback => ?_
  obtain ⟨hsame, rfl⟩ := hback
  exact ending_userReturn hsame (r v)

/-! ## Calls -/

/-- The functions that return with the mask they were called with: all but `thread_exit`, which
does not return, and `interrupts_set`. -/
def Fn.restores : Fn → Bool
  | .threadExit _ => false
  | .threadReturn => false
  | .interruptsSet _ => false
  | _ => true

/-- `thread_create` saves the context of the new thread. -/
lemma ending_threadCreate (h : Same m₀ m) (hst : (m.threads m.currentThread).state ≠ .Destroyed)
    (fn parg : ℕ) : Ending m₀ m.interrupts S (Monitored.run (.threadCreate fn parg) k) m := by
  refine Logged.Meets.bind (Q := fun r m' =>
    Ends m₀ m.interrupts S (userReturn (.threadCreate fn parg) ⟨r, none⟩ m')) ?_
    fun r m' hends => Logged.meets_modify.mpr hends
  rw [Monitored.threadCreate, Monitored.meets_interruptsSet_bind]
  refine Monitored.meets_assert_bind (fun _ => ?_) (.moved moved_abort)
  rw [Logged.meets_get_bind]
  have h₁ := h.interruptsSet false
  cases hnum : threadNumToCreate (m.interruptsSet false) with
  | none => exact Logged.meets_pure.mpr (.back ⟨h₁.current, h₁.ucontext⟩ rfl (.inl rfl))
  | some num =>
    obtain ⟨hpos, -, hdead⟩ := threadNumToCreate_eq_some hnum
    have hne : num ≠ m.currentThread := fun heq => hst (heq ▸ hdead)
    simp only [Logged.meets_modify_bind, Monitored.meets_write_bind, Monitored.meets_record_bind,
      Monitored.meets_interruptsSet_bind, Logged.meets_pure]
    refine ⟨rfl, rfl, .created hpos (h.current ▸ hne) h.current (fun t ht => ?_) ?_ rfl rfl⟩
    · simpa [userReturn, Function.update_of_ne ht] using h.ucontext t
    · simp only [userReturn, Machine.setControl_trace, Machine.emit_trace,
        Machine.interruptsSet_trace, Machine.pushReady_trace, progress,
        Machine.emit_currentThread, Machine.interruptsSet_currentThread,
        Machine.pushReady_currentThread, Machine.setThread_currentThread,
        Machine.afterMalloc369_currentThread, if_neg hne.symm]
      split_ifs <;> simp

/-- The functions that user code calls.

**Proof sketch.** The functions that block the signal are shielded (`Monitored.shielded_threadYield`
and the lemmas beside it). The create and destroy functions do not touch the mask; they stop at
their first call of the allocator, or at an assertion. -/
lemma ending_run (h : Same m₀ m) (f : Fn) (hf : f.restores = true)
    (hcreate : ∀ fn parg, f ≠ .threadCreate fn parg) :
    Ending m₀ m.interrupts (fun K => entryFlag K = some m.interrupts)
      (Monitored.run f [.user f]) m := by
  have halloc (p : AllocPoint) : Ends m₀ m.interrupts (fun K => entryFlag K = some m.interrupts)
      (m.setControl (.alloc p)) := .back ⟨h.current, h.ucontext⟩ rfl (.inr ⟨p, rfl⟩)
  cases f with
  | threadCreate fn parg => exact (hcreate fn parg rfl).elim
  | threadExit c => cases hf
  | threadReturn => cases hf
  | interruptsSet b => cases hf
  | threadYield t => exact (Monitored.shielded_threadYield h t _).ending_user
  | threadKill t => exact (Monitored.shielded_threadKill h t _).ending_user
  | threadSleep q => exact (Monitored.shielded_threadSleep h q _).ending_user
  | threadWakeup q all => exact (Monitored.shielded_threadWakeup h q all).ending_user
  | threadWait t c => exact (Monitored.shielded_threadWait h t c _).ending_user
  | lockAcquire l => exact (Monitored.shielded_lockAcquire h l _).ending_user
  | lockRelease l => exact (Monitored.shielded_lockRelease h l).ending_user
  | cvWait c l => exact (Monitored.shielded_cvWait h c l _).ending_user
  | cvSignal c l => exact (Monitored.shielded_cvWakeup h 0 c l).ending_user
  | cvBroadcast c l => exact (Monitored.shielded_cvWakeup h 1 c l).ending_user
  | waitQueueCreate => exact Logged.meets_modify.mpr (halloc _)
  | waitQueueDestroy q => exact Logged.meets_modify.mpr (halloc _)
  | lockCreate => exact Logged.meets_modify.mpr (halloc _)
  | cvCreate => exact Logged.meets_modify.mpr (halloc _)
  | lockDestroy l =>
    refine Logged.meets_modify.mpr ?_
    rw [lockDestroy]
    split_ifs
    · exact .moved moved_abort
    · cases m.locks l with
      | none => exact .moved moved_undef
      | some lock =>
        dsimp only
        split_ifs
        · exact halloc _
        · exact .moved moved_abort
  | cvDestroy c =>
    refine Logged.meets_modify.mpr ?_
    rw [cvDestroy]
    split_ifs
    · exact .moved moved_abort
    · exact halloc _

/-- `thread_exit` does not return. -/
lemma ending_threadExit (h : Same m₀ m) (c : ℤ) (k : Stack) :
    Ending m₀ b (fun _ => True) (do Monitored.threadExit c k; Logged.leave Machine.undef) m :=
  (Monitored.shielded_threadExit h c k).ending_exit

/-! ## Timer signals -/

/-- `interrupt_handler`. -/
lemma ending_interruptHandler (what : Interrupted) :
    Ending m true (fun K => ∀ p, what = .alloc p → entryFlag K = some true)
      (Monitored.interruptHandler what) m := by
  rw [Monitored.interruptHandler, Ending, Monitored.meets_interruptsSet_bind]
  have h : Same m (m.interruptsSet false) := (Same.refl m).interruptsSet false
  refine (Monitored.shielded_threadYield h _ _).ending (fun K hK p hp => ?_) fun _ m' hback => ?_
  · obtain ⟨fs, fr, rfl, -⟩ := hK
    simp [entryFlag, hp]
  · obtain ⟨hsame, -⟩ := hback
    refine Logged.meets_modify.mpr (.back ⟨hsame.current, hsame.ucontext⟩ rfl ?_)
    cases what with
    | user => exact .inl rfl
    | alloc p => exact .inr ⟨p, rfl⟩

/-! ## The rest of suspended calls -/

/-- The loop of `lock_acquire`. -/
lemma LoopCaller.ending {l : Addr} {s : Bool} (hcaller : LoopCaller l s k f) (h : Same m₀ m)
    (hint : m.interrupts = false) (hb : entryFlag (.lockAcquire l s :: k) = some b) :
    Ending m₀ b (fun K => entryFlag K = some b)
      (do Monitored.lockAcquireLoop l s k; Monitored.unwind k ⟨0, none⟩) m := by
  cases hcaller with
  | acquire s =>
    obtain rfl : s = b := by simpa [entryFlag, Frame.flag] using hb
    exact (Monitored.shielded_lockAcquireLoop h hint l _).ending_user
  | cvWait c s =>
    obtain rfl : s = b := by simpa [entryFlag, Frame.flag] using hb
    refine (Monitored.shielded_lockAcquireLoop h hint l _).ending
      (fun K hK => entryFlag_of_suspends (hK.nest rfl)) fun _ m' hback => ?_
    exact ending_userReturn (hback.1.interruptsSet s) _

/-- The mask with which the call on a suspended stack returns. A timer signal has interrupted
code with the signal unblocked, and a thread starts with the signal unblocked. -/
def returnFlag (K : Stack) : Bool := (entryFlag K).getD true

/-- A suspended stack is resumed: its `thread_yield` returns to its caller.

**Proof sketch.** By the place where the thread was suspended. What is left of its call restores the
flag that the frame has kept, or sleeps once more and saves the same frame with it. -/
lemma Suspended.ending {s sw : Bool} {a : Tid} {p : Progress}
    (hsus : Suspended (.threadYield s a sw :: k) p) (h : Same m₀ m) (hint : m.interrupts = s) :
    Ending m₀ (returnFlag (.threadYield s a sw :: k))
      (fun K => entryFlag K = some (returnFlag (.threadYield s a sw :: k)))
      (Monitored.unwind k ⟨a, none⟩) m := by
  cases hsus with
  | yield s ha t =>
    subst hint
    exact ending_userReturn h _
  | tick ha what =>
    have hflag : returnFlag [.threadYield false a true, .interruptHandler what] = true := by
      cases what <;> rfl
    rw [hflag]
    refine Logged.meets_modify.mpr (.back ⟨h.current, h.ucontext⟩ rfl ?_)
    cases what with
    | user => exact .inl rfl
    | alloc p => exact .inr ⟨p, rfl⟩
  | kill ha ht s => exact ending_userReturn ((h.interruptsSet false).interruptsSet s) _
  | sleep ha q s => exact (Monitored.shielded_threadSleepAfterYield h hint q a).ending_user
  | wait ha hx c =>
    refine Shielded.ending_user (b := true) (r := id) ?_
    exact Monitored.meets_assert_bind (fun _ => Monitored.shielded_threadWaitFinish h _ c)
      moved_abort
  | acquire ha q l s =>
    refine (Monitored.shielded_threadSleepAfterYield (S := fun _ => False) h hint q a).ending
      (fun _ hK => hK.elim) fun r m' hback => ?_
    exact (LoopCaller.acquire s).ending hback.1 hback.2 rfl
  | cvSleep ha q c l s =>
    refine (Monitored.shielded_threadSleepAfterYield (S := fun _ => False) h hint q a).ending
      (fun _ hK => hK.elim) fun r m' hback => ?_
    exact (Monitored.shielded_cvWaitAfterSleep hback.1 l _).ending_user
  | cvAcquire ha q c l s =>
    refine (Monitored.shielded_threadSleepAfterYield (S := fun _ => False) h hint q a).ending
      (fun _ hK => hK.elim) fun r m' hback => ?_
    exact (LoopCaller.cvWait c s).ending hback.1 hback.2 rfl

/-- The calls of the allocator change neither the mask nor the saved contexts.

**Proof sketch.** The allocator and `free369` do not touch the mask or a context. Each half of a
create or destroy function returns to user code, goes on to the second call of the allocator, or
stops. -/
lemma ends_allocate (p : AllocPoint) : Ends m m.interrupts S (allocate p m) := by
  have hfree (q : Addr) (g : Unit → Machine → Machine) (hg : ∀ heap, Ends m m.interrupts S
      (g () (m.afterFree369 q heap))) : Ends m m.interrupts S (andThen (m.free369 q) g) := by
    rw [Machine.free369]
    cases m.heap.free369 q with
    | none => exact .moved moved_abort
    | some heap => exact hg heap
  have huser {m' : Machine} {r : Ret} {f : Fn} (hsame : Same m m')
      (hint : m'.interrupts = m.interrupts) : Ends m m.interrupts S (userReturn f r m') :=
    .back ⟨hsame.current, hsame.ucontext⟩ hint (.inl rfl)
  have halloc {m' : Machine} {p : AllocPoint} (hsame : Same m m')
      (hint : m'.interrupts = m.interrupts) : Ends m m.interrupts S (m'.setControl (.alloc p)) :=
    .back ⟨hsame.current, hsame.ucontext⟩ hint (.inr ⟨p, rfl⟩)
  cases p with
  | waitQueueCreate => exact huser ⟨rfl, fun _ => rfl⟩ rfl
  | waitQueueDestroy q => exact hfree _ _ fun heap => huser ⟨rfl, fun _ => rfl⟩ rfl
  | lockCreate => exact halloc ⟨rfl, fun _ => rfl⟩ rfl
  | lockCreateQueue l => exact huser ⟨rfl, fun _ => rfl⟩ rfl
  | lockDestroyQueue l =>
    rw [allocate]
    cases m.locks l with
    | none => exact .moved moved_undef
    | some lock => exact hfree _ _ fun heap => halloc ⟨rfl, fun _ => rfl⟩ rfl
  | lockDestroy l => exact hfree _ _ fun heap => huser ⟨rfl, fun _ => rfl⟩ rfl
  | cvCreate => exact halloc ⟨rfl, fun _ => rfl⟩ rfl
  | cvCreateQueue c => exact huser ⟨rfl, fun _ => rfl⟩ rfl
  | cvDestroyQueue c =>
    rw [allocate]
    cases m.cvs c with
    | none => exact .moved moved_undef
    | some cv => exact hfree _ _ fun heap => halloc ⟨rfl, fun _ => rfl⟩ rfl
  | cvDestroy c => exact hfree _ _ fun heap => huser ⟨rfl, fun _ => rfl⟩ rfl

/-- The context that has been loaded is that of the current thread.

**Proof sketch.** A new thread unblocks the signal. Any other one has been suspended in a
`thread_yield`, which restores its flag, and then the frames below are worked off
(`Suspended.ending`). -/
lemma Entering.ending (h : Entering m K) (hc : m.control = .resumed K) :
    Ending (m.setUcontext m.currentThread .spent) (returnFlag K)
      (fun K' => entryFlag K' = some (returnFlag K)) Monitored.exec m := by
  set m₀ := m.setUcontext m.currentThread .spent with hm₀
  have hyield {s : Bool} {a : Tid} {k : Stack} (hK : K = .threadYield s a true :: k) :
      Ending m₀ (returnFlag K) (fun K' => entryFlag K' = some (returnFlag K))
        (do
          let v ← Monitored.threadYieldAfterGetcontext s a true k
          Monitored.unwind k ⟨v, none⟩) m := by
    refine Logged.Meets.bind (Q := fun v m' => v = a ∧ m' = m₀.interruptsSet s) ?_ ?_
    · refine Logged.meets_ite (fun _ => ?_) fun hsw => (hsw rfl).elim
      refine Monitored.meets_assert_bind (fun _ => ?_) (.moved moved_abort)
      rw [Logged.meets_get_bind]
      refine Logged.meets_ite (fun hadmin => ?_) fun _ => Logged.meets_pure.mpr ⟨rfl, rfl⟩
      exact absurd (h.inside.admin.symm.trans hadmin) (by decide)
    · rintro v m' ⟨rfl, rfl⟩
      have hsus := h.suspended
      rw [hK] at hsus ⊢
      exact hsus.ending ((Same.refl m₀).interruptsSet s) rfl
  rw [Monitored.exec, Ending, Logged.meets_get_bind, hc]
  have hsus := h.suspended
  generalize progress m.currentThread m.trace = p at hsus
  cases hsus with
  | stub fn parg =>
    refine Logged.meets_modify.mpr (.back ⟨rfl, fun _ => rfl⟩ ?_ (.inl rfl))
    rfl
  | _ => exact hyield rfl

/-- The context that has been loaded is that of thread 0, for another thread to exit on it. -/
lemma Exiting.ending (h : Exiting m K) (hc : m.control = .resumed K) :
    Ending m b (fun _ => True) Monitored.exec m := by
  obtain ⟨s, a, k, rfl⟩ := h.frame
  rw [Monitored.exec, Ending, Logged.meets_get_bind, hc]
  refine Logged.Meets.bind (Q := fun _ _ => False) ?_ fun _ _ hfalse => hfalse.elim
  refine Logged.meets_ite (fun _ => ?_) fun hsw => (hsw rfl).elim
  refine Monitored.meets_assert_bind (fun _ => ?_) (.moved moved_abort)
  rw [Logged.meets_get_bind]
  refine Logged.meets_ite (fun _ => ?_) fun hadmin => (hadmin h.admin).elim
  refine Monitored.meets_assert_bind (fun _ => ?_) (.moved moved_abort)
  refine (Monitored.meets_adminMode (.refl m) _).bind' (fun _ _ hfalse => hfalse.elim) ?_
  exact fun _ hm => .moved hm

/-! ## Steps -/

/-- The call that the current thread is in, or is about to make, has been made with the
mask `b`. -/
def CurrentCarries (m : Machine) (b : Bool) : Prop :=
  match m.control with
  | .user => m.interrupts = b
  | .alloc _ => m.interrupts = b
  | .lockLoop l s k => entryFlag (.lockAcquire l s :: k) = some b
  | .resumed K => entryFlag K = some b
  | _ => True

/-- The call that the thread `t` is in has been made with the mask `b`. -/
structure Carries (m : Machine) (t : Tid) (b : Bool) : Prop where
  current : t = m.currentThread → CurrentCarries m b
  saved : t ≠ m.currentThread → ∀ c, (m.threads t).ucontext = .saved c →
    entryFlag c.stack = some b

/-- The thread `t` is alive and in a call of the library. -/
def InCall (t : Tid) (m : Machine) : Prop :=
  fate t m.trace = some .alive ∧ (progress t m.trace).fn ≠ none

instance (t : Tid) (m : Machine) : Decidable (InCall t m) := inferInstanceAs (Decidable (_ ∧ _))

/-- The step has left the saved contexts of the threads other than the current one alone, but for
that of a new thread; if it has switched to another thread, it has loaded its context. -/
structure Untouched (m m' : Machine) : Prop where
  ucontext : ∀ t, t ≠ m.currentThread → (m'.threads t).ucontext = (m.threads t).ucontext ∨
    0 < t ∧ t ≠ m'.currentThread ∧ (progress t m'.trace).fn = none
  resumed : m'.currentThread ≠ m.currentThread → ∃ c,
    (m.threads m'.currentThread).ucontext = .saved c ∧ m'.control = .resumed c.stack

/-- The saved contexts after a step. -/
lemma Ends.untouched (h : Ends m₀ b S m') (hcur : m₀.currentThread = m.currentThread)
    (hu : ∀ t, t ≠ m.currentThread → (m₀.threads t).ucontext = (m.threads t).ucontext)
    (hrun : ¬ Stopped m') : Untouched m m' := by
  have hsame (hs : Same m₀ m') : Untouched m m' :=
    ⟨fun t ht => .inl ((hs.ucontext t).trans (hu t ht)),
      fun hne => (hne (hs.current.trans hcur)).elim⟩
  cases h with
  | back same interrupts control => exact hsame same
  | moved h =>
    cases h with
    | stopped h => exact (hrun h).elim
    | switched ne saved stack others loaded control =>
      rw [hcur] at ne others
      refine ⟨fun t ht => .inl ((others t ht).trans (hu t ht)), fun hne => ⟨_, ?_, control⟩⟩
      rw [← hu _ hne, loaded]
    | looped same control stack => exact hsame same
    | exiting same loaded control stack => exact hsame same
  | @created num pos ne current ucontext start interrupts control =>
    refine ⟨fun t ht => ?_, fun hne => (hne (current.trans hcur)).elim⟩
    rcases eq_or_ne t num with rfl | hnum
    · exact .inr ⟨pos, current ▸ ne, start⟩
    · exact .inl ((ucontext t hnum).trans (hu t ht))

/-- The call of the thread that made the step. -/
lemma Ends.carries (h : Ends m₀ b S m') (hS : ∀ K, S K → entryFlag K = some b)
    (hrun : ¬ Stopped m') : Carries m' m₀.currentThread b := by
  have hhere (hcur : m'.currentThread = m₀.currentThread) (hc : CurrentCarries m' b) :
      Carries m' m₀.currentThread b := ⟨fun _ => hc, fun hne => (hne hcur.symm).elim⟩
  cases h with
  | back same interrupts control =>
    refine hhere same.current ?_
    obtain hc | ⟨p, hc⟩ := control <;> rw [CurrentCarries, hc] <;> exact interrupts
  | moved h =>
    cases h with
    | stopped h => exact (hrun h).elim
    | switched ne saved stack others loaded control =>
      refine ⟨fun heq => (ne heq.symm).elim, fun _ c hc => ?_⟩
      obtain rfl := Ucontext.saved.inj (saved.symm.trans hc)
      exact hS _ stack
    | looped same control stack =>
      refine hhere same.current ?_
      rw [CurrentCarries, control]
      exact hS _ stack
    | exiting same loaded control stack => exact absurd (hS _ stack) (by simp [entryFlag])
  | created pos ne current ucontext start interrupts control =>
    refine hhere current ?_
    rw [CurrentCarries, control]
    exact interrupts

/-- What a step is, seen from the thread that makes it. -/
structure KeepsMasks (m : Machine) (a : Action) (m' : Machine) : Prop where
  masked : ∀ w ∈ accesses m a, w.masked = true
  untouched : ¬ Stopped m' → Untouched m m'
  carries : ¬ Stopped m' → ∀ b, CurrentCarries m b →
    InCall m.currentThread m ∨ (∃ f, a = .call f ∧ f.restores = true) →
    Carries m' m.currentThread b

/-- A step that ends as it should. -/
lemma Ending.keepsMasks (h : Ending m₀ b S (Monitored.perform a) m) (hs : step m a = some m')
    (hcur : m₀.currentThread = m.currentThread)
    (hu : ∀ t, t ≠ m.currentThread → (m₀.threads t).ucontext = (m.threads t).ucontext)
    (hS : ∀ b', CurrentCarries m b' → InCall m.currentThread m ∨
      (∃ f, a = .call f ∧ f.restores = true) → b = b' ∧ ∀ K, S K → entryFlag K = some b') :
    KeepsMasks m a m' := by
  have hends : Ends m₀ b S m' := Monitored.state_erase_perform m hs ▸ h.ends
  refine ⟨h.1, fun hrun => hends.untouched hcur hu hrun, fun hrun b' hb' hin => ?_⟩
  obtain ⟨rfl, hK⟩ := hS b' hb' hin
  exact hcur ▸ hends.carries hK hrun

/-- A call of user code.

**Proof sketch.** Functions that end the thread or set the mask promise nothing. `thread_create` has
its own lemma, as it fills a slot; the others are `ending_run`. -/
lemma keepsMasks_call (hi : Inside m) (hp : progress m.currentThread m.trace = {})
    (hc : m.control = .user) (hs : step m (.call f) = some m') : KeepsMasks m (.call f) m' := by
  have hcall : Same m (m.emit (.called m.currentThread f)) := (Same.refl m).emit _
  have hsame : ∀ t, t ≠ m.currentThread → (m.threads t).ucontext = (m.threads t).ucontext :=
    fun _ _ => rfl
  have hidle : ¬ InCall m.currentThread m := fun hin => hin.2 (by rw [hp])
  have hmask (b' : Bool) (hb' : CurrentCarries m b') : m.interrupts = b' := by
    rwa [CurrentCarries, hc] at hb'
  have hnone (hf : f.restores = false) : ¬ (InCall m.currentThread m ∨
      ∃ g, Action.call f = .call g ∧ g.restores = true) := by
    rintro (hin | ⟨g, hg, hg'⟩)
    · exact hidle hin
    · cases hg
      exact absurd (hf.symm.trans hg') (by decide)
  cases f with
  | threadExit c =>
    exact Ending.keepsMasks (ending_threadExit (b := false) hcall c _) hs rfl hsame
      fun _ _ hin => (hnone rfl hin).elim
  | threadReturn =>
    exact Ending.keepsMasks (ending_threadExit (b := false) hcall 0 _) hs rfl hsame
      fun _ _ hin => (hnone rfl hin).elim
  | interruptsSet enable =>
    refine Ending.keepsMasks (S := fun _ => True) (ending_userReturn (hcall.interruptsSet enable) _)
      hs rfl
      hsame fun _ _ hin => (hnone rfl hin).elim
  | threadCreate fn parg =>
    refine Ending.keepsMasks (S := fun K => entryFlag K = some m.interrupts)
      (ending_threadCreate (k := []) hcall hi.state fn parg) hs rfl hsame fun b' hb' _ => ?_
    obtain rfl := hmask b' hb'
    exact ⟨rfl, fun _ hK => hK⟩
  | _ =>
    refine Ending.keepsMasks (ending_run hcall _ rfl fun _ _ hf => by cases hf) hs rfl hsame
      fun b' hb' _ => ?_
    obtain rfl := hmask b' hb'
    exact ⟨rfl, fun _ hK => hK⟩

/-- A timer signal. -/
lemma keepsMasks_tick (what : Interrupted) (hc : m.control = what.control)
    (hint : m.interrupts = true) (hidle : what = .user → ¬ InCall m.currentThread m)
    (hs : step m .tick = some m') : KeepsMasks m .tick m' := by
  have htick : Ending m true (fun K => ∀ p, what = .alloc p → entryFlag K = some true)
      (Monitored.perform .tick) m := by
    rw [Monitored.perform, Ending, Logged.meets_get_bind, hc]
    cases what <;> exact ending_interruptHandler _
  refine htick.keepsMasks hs rfl (fun _ _ => rfl) fun b' hb' hin => ?_
  have hin : InCall m.currentThread m := hin.resolve_right (by simp)
  cases what with
  | user => exact (hidle rfl hin).elim
  | alloc p =>
    rw [CurrentCarries, hc] at hb'
    obtain rfl : true = b' := hint.symm.trans hb'
    exact ⟨rfl, fun _ hK => hK p rfl⟩

/-- **Every step** keeps masks and saved contexts, and makes its accesses with the signal
blocked.

**Proof sketch.** A call is `keepsMasks_call` and a tick is `keepsMasks_tick`. An `exec` goes on
between two calls of the allocator, at the loop test of `lock_acquire` or at a context that has been
loaded. In each case the flag that the code restores is the one that the thread had on entry, which
its frames still hold (`entryFlag`, `returnFlag`). -/
theorem Base.keepsMasks (hb : Base m) (hs : step m a = some m') : KeepsMasks m a m' := by
  have hcontrol := hb.control
  have hrefl : ∀ t, t ≠ m.currentThread → (m.threads t).ucontext = (m.threads t).ucontext :=
    fun _ _ => rfl
  rw [ControlOk] at hcontrol
  cases a with
  | call f =>
    have hc : m.control = .user := by
      rw [step] at hs
      split_ifs at hs with hok
      exact hok.1
    rw [hc] at hcontrol
    exact keepsMasks_call hcontrol.1 hcontrol.2 hc hs
  | tick =>
    rw [step] at hs
    split_ifs at hs with hint
    cases hc : m.control with
    | user =>
      rw [hc] at hcontrol
      exact keepsMasks_tick .user hc hint (fun _ hin => hin.2 (by rw [hcontrol.2])) (by
        rw [step, if_pos hint]
        exact hs)
    | alloc p =>
      exact keepsMasks_tick (.alloc p) hc hint (fun hp => by cases hp) (by
        rw [step, if_pos hint]
        exact hs)
    | resumed K | lockLoop l s k | aborted | exited n | undefined =>
      rw [hc] at hs
      cases hs
  | exec =>
    cases hc : m.control with
    | alloc p =>
      have hexec : Ending m m.interrupts (fun K => entryFlag K = some m.interrupts)
          Monitored.exec m := by
        rw [Monitored.exec, Ending, Logged.meets_get_bind, hc]
        exact Logged.meets_modify.mpr (ends_allocate p)
      refine hexec.keepsMasks hs rfl hrefl fun b' hb' _ => ?_
      rw [CurrentCarries, hc] at hb'
      subst hb'
      exact ⟨rfl, fun _ hK => hK⟩
    | lockLoop l s k =>
      rw [hc] at hcontrol
      obtain ⟨-, hint, f, hcaller, -⟩ := hcontrol
      have hflag : entryFlag (.lockAcquire l s :: k) =
          some (returnFlag (.lockAcquire l s :: k)) := by
        cases hcaller <;> rfl
      have hexec : Ending m (returnFlag (.lockAcquire l s :: k))
          (fun K => entryFlag K = some (returnFlag (.lockAcquire l s :: k))) Monitored.exec m := by
        rw [Monitored.exec, Ending, Logged.meets_get_bind, hc]
        exact hcaller.ending (.refl m) hint hflag
      refine hexec.keepsMasks hs rfl hrefl fun b' hb' _ => ?_
      rw [CurrentCarries, hc] at hb'
      obtain rfl := Option.some.inj (hflag.symm.trans hb')
      exact ⟨rfl, fun _ hK => hK⟩
    | resumed K =>
      rw [hc] at hcontrol
      obtain ⟨-, h | h⟩ := hcontrol
      · have hexec := h.ending hc
        refine Ending.keepsMasks hexec hs rfl (fun t ht => ?_) fun b' hb' _ => ?_
        · rw [Machine.setUcontext_threads, Function.update_of_ne ht]
        · rw [CurrentCarries, hc] at hb'
          have hflag : returnFlag K = b' := by rw [returnFlag, hb']; rfl
          subst hflag
          exact ⟨rfl, fun _ hK => hK⟩
      · refine (h.ending (b := false) hc).keepsMasks hs rfl hrefl fun b' _ hin => ?_
        obtain ⟨halive, -⟩ | ⟨f, hf, -⟩ := hin
        · rw [h.fate] at halive
          cases halive
        · cases hf
    | user | aborted | exited n | undefined =>
      rw [step, hc] at hs
      cases hs

/-! ## Calls from their start to their return -/

/-- The states of the runs from a call of `f` in `m₀` on, up to the first state in which the
calling thread is not in the call any more. Between, any thread may do anything. -/
inductive During (f : Fn) (m₀ : Machine) : Machine → Prop
  | start {m : Machine} : step m₀ (.call f) = some m → During f m₀ m
  | next {m m' : Machine} {a : Action} :
      During f m₀ m → InCall m₀.currentThread m → step m a = some m' → During f m₀ m'

/-- A list of actions during a call. -/
lemma During.followOk (h : During f m₀ m) {as : List Action}
    (has : (Runs.followOk step (fun m' _ => InCall m₀.currentThread m') m as).isSome = true)
    {d : Machine} : During f m₀
      ((Runs.followOk step (fun m' _ => InCall m₀.currentThread m') m as).getD d) := by
  induction as generalizing m with
  | nil => exact h
  | cons a as ih =>
    rw [Runs.followOk] at has ⊢
    split_ifs at has ⊢ with hin
    · cases hs : step m a with
      | none =>
        rw [hs] at has
        cases has
      | some m₁ =>
        rw [hs] at has
        exact ih (h.next hin hs) has
    · cases has

/-- The states of a call of a run are states of the run. -/
lemma During.reachable (h : During f m₀ m) (h₀ : Reachable m₀) : Reachable m := by
  induction h with
  | start hs => exact .step h₀ trivial hs
  | next _ _ hs ih => exact .step ih trivial hs

/-- **The mask of a call.** While a thread is in a call, its stack carries the mask that the call
was made with.

**Proof sketch.** Induction on the steps since the call. A step of the thread itself is
`KeepsMasks.carries`. A step of another thread leaves the saved context alone, and if it switches to
the thread, the context that it loads is the one which carries the mask. -/
lemma During.carries (h : During f m₀ m) (h₀ : Reachable m₀) (hf : f.restores = true)
    (hrun : ¬ Stopped m) (hin : InCall m₀.currentThread m ∨ m.currentThread = m₀.currentThread) :
    Carries m m₀.currentThread m₀.interrupts := by
  have hkeeps {m m' : Machine} {a : Action} (hm : Reachable m) (hs : step m a = some m') :
      KeepsMasks m a m' :=
    (ReachableBy.base hm fun hst => by rw [hst.step_none] at hs; cases hs).keepsMasks hs
  induction h with
  | start hs =>
    have hc : m₀.control = .user := by
      rw [step] at hs
      split_ifs at hs with hok
      exact hok.1
    refine (hkeeps h₀ hs).carries hrun m₀.interrupts ?_ (.inr ⟨f, rfl, hf⟩)
    rw [CurrentCarries, hc]
  | @next m m' a hd hinm hs ih =>
    have hstep := hkeeps (hd.reachable h₀) hs
    have hrunm : ¬ Stopped m := fun hst => by rw [hst.step_none] at hs; cases hs
    have hm := ih hrunm (.inl hinm)
    rcases eq_or_ne m₀.currentThread m.currentThread with heq | hne
    · -- the thread makes the step itself
      rw [heq] at hm hinm ⊢
      exact hstep.carries hrun _ (hm.current rfl) (.inl hinm)
    · -- another thread makes the step, and may switch to this one
      obtain ⟨hucontext, hresumed⟩ := hstep.untouched hrun
      have hu : (m'.threads m₀.currentThread).ucontext =
          (m.threads m₀.currentThread).ucontext := by
        refine (hucontext _ hne).resolve_right ?_
        rintro ⟨-, hother, hstart⟩
        obtain hin | hcur := hin
        · exact hin.2 hstart
        · exact hother hcur.symm
      refine ⟨fun heq => ?_, fun _ c hc => hm.saved hne c (hu ▸ hc)⟩
      obtain ⟨c, hc, hcontrol⟩ := hresumed (heq ▸ hne)
      rw [CurrentCarries, hcontrol]
      exact hm.saved hne c (heq ▸ hc)

/-- **Interrupt state is preserved.** In every run: when a call of `thread_create`,
`thread_yield`, `thread_kill`, `thread_sleep`, `thread_wakeup`, `thread_wait`, `lock_acquire`,
`lock_release`, `cv_wait`, `cv_signal` or `cv_broadcast` returns, after any number of steps of
any threads, the signal mask is the one that the call was made with; and a step executes the
functions so that every write to what threads share and every `setcontext` is made with the
timer signal blocked.

**Proof sketch.** While a thread is in a call, its stack carries the mask of the call
(`During.carries`); when user code runs again, that is the mask itself. The accesses are those of
the monitored functions, which do what the step does (`Monitored.state_erase_perform`) and log each
access with the mask (`Base.keepsMasks`). -/
theorem interrupt_state_preserved (h : Reachable m) :
    (∀ f m', f.restores = true → During f m m' → m'.control = .user →
      m'.currentThread = m.currentThread → m'.interrupts = m.interrupts) ∧
    ∀ a m', step m a = some m' → ((Monitored.perform a).erase m).state = m' ∧
      ∀ w ∈ accesses m a, w.masked = true := by
  refine ⟨fun f m' hf hd hc hcur => ?_, fun a m' hs => ?_⟩
  · have hrun : ¬ Stopped m' := by
      simp [Stopped, hc]
    have hcarries := (hd.carries h hf hrun (.inr hcur)).current hcur.symm
    rwa [CurrentCarries, hc] at hcarries
  · have hrun : ¬ Stopped m := fun hst => by rw [hst.step_none] at hs; cases hs
    exact ⟨Monitored.state_erase_perform m hs, ((ReachableBy.base h hrun).keepsMasks hs).masked⟩

/-- Thread 0 calls `thread_yield` with the signal blocked. The new thread 1 unblocks it, exits on
the stack of thread 0, and thread 0 returns with the signal blocked. -/
theorem interrupt_state_preserved_exit :
    let m := after 0 [.call (.threadCreate 0 0), .call (.interruptsSet false)]
    let m' := (Runs.followOk step (fun m' _ => InCall m.currentThread m')
      (call (.threadYield THREAD_ANY) m) [.exec, .call (.threadExit 5), .exec, .exec]).getD m
    m.interrupts = false ∧ m'.interrupts = m.interrupts ∧ m'.currentThread = 0 := by
  intro m m'
  have hs : step m (.call (.threadYield THREAD_ANY)) = some (call (.threadYield THREAD_ANY) m) := by
    rw [step]
    exact if_pos ⟨by decide +kernel, by decide +kernel⟩
  have hd : During (.threadYield THREAD_ANY) m m' :=
    (During.start hs).followOk (by decide +kernel)
  have hrestored := (interrupt_state_preserved (reachable_after (by decide +kernel))).1 _ m' rfl hd
    (by decide +kernel) (by decide +kernel)
  exact ⟨by decide +kernel, hrestored, by decide +kernel⟩

end UserThreads
