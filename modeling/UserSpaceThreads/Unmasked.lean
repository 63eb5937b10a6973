import UserSpaceThreads.Interrupts
import UserSpaceThreads.Life
import UserSpaceThreads.Replies

set_option relaxedAutoImplicit false
set_option autoImplicit false

/-!
# Code that does not touch the signal mask

The signal mask belongs to the processor, and the library blocks the timer signal in most of its
functions, also when it switches from one thread to another. A thread that never calls
`interrupts_on`, `interrupts_off` or `interrupts_set` itself need not know of this: whenever its
own code runs, the signal is unblocked, whatever the other threads do with the mask.

## Main definitions

* `UserThreads.setsMask` — whether a thread has changed the mask itself.
* `UserThreads.Open` — the call that a thread is in will return with the signal unblocked.

## Main results

* `UserThreads.Open.step` — one step; `UserThreads.ReachableBy.open` — all runs.
* `UserThreads.user_code_unmasked` — user code runs with the signal unblocked.
-/

namespace UserThreads

open History View

variable {m m' : Machine} {a : Action} {t : Tid}

/-! ## The history -/

/-- Since it was made, the thread `t` has called `interrupts_on`, `interrupts_off` or
`interrupts_set`. -/
@[simp] def setsMask (t : Tid) : List Event → Bool
  | [] => false
  | .called u (.interruptsSet _) :: tr => if u = t then true else setsMask t tr
  | .created u _ _ :: tr => if u = t then false else setsMask t tr
  | _ :: tr => setsMask t tr

/-- Mute events do not change the call that a thread is in. -/
lemma Mute.fn (h : Mute m m') (t : Tid) :
    (progress t m'.trace).fn = (progress t m.trace).fn := by
  refine h.invariant (I := fun tr => (progress t tr).fn = (progress t m.trace).fn) rfl
    fun e tr he ih => ?_
  cases e with
  | called u f | returned u f r | created u f p | started u f p => cases he
  | waited u x | halfway u x =>
    rw [progress]
    split_ifs <;> exact ih
  | _ => exact ih

/-- Calls and new threads are those of the call that the step `a` is. -/
def Caused (a : Action) : Event → Prop
  | .called _ f => a = .call f
  | .created _ fn parg => a = .call (.threadCreate fn parg)
  | _ => True

/-- Only a call brings calls and new threads into the history. -/
lemma caused_by_call (h : Runs.Path View.Step (Permits m a) (abs m) (abs m')) :
    Adds (Caused a) m.trace m'.trace := by
  refine h.invariant (I := fun v => Adds (Caused a) m.trace v.trace) (fun v l v' ih hp hs => ?_)
    (Adds.refl _ _)
  refine hs.writes.invariant ih fun e tr he ih => ih.cons ?_
  cases e with
  | called u f =>
    obtain ⟨-, rfl⟩ := he
    exact hp.1
  | created u fn parg =>
    obtain rfl : l = .create u fn parg := he
    exact hp.1
  | _ => trivial

/-! ## Open calls -/

/-- The current thread is in user code with the signal unblocked, or will come back to user code
so. -/
def CurrentOpen (m : Machine) : Prop :=
  match m.control with
  | .user => m.interrupts = true
  | .alloc _ => m.interrupts = true
  | .lockLoop l s k => returnFlag (.lockAcquire l s :: k) = true
  | .resumed K => returnFlag K = true
  | _ => True

/-- The thread `t` is in user code with the signal unblocked, or will come back to user code
so. -/
structure Open (m : Machine) (t : Tid) : Prop where
  current : t = m.currentThread → CurrentOpen m
  saved : t ≠ m.currentThread → ∀ c, (m.threads t).ucontext = .saved c →
    returnFlag c.stack = true

/-- A thread that is suspended in no call has been interrupted in user code or has not started. -/
lemma Suspended.returnFlag_of_idle {K : Stack} {p : Progress} (h : Suspended K p)
    (hp : p.fn = none) : returnFlag K = true := by
  cases h with
  | stub fn parg => rfl
  | tick ha what =>
    cases what with
    | user => rfl
    | alloc p => cases hp
  | _ => cases hp

/-- The stack of a thread that is suspended in a call tells the mask of the call. -/
lemma Suspended.entryFlag_eq {K : Stack} {p : Progress} (h : Suspended K p) (hp : p.fn ≠ none) :
    entryFlag K = some (returnFlag K) := by
  cases h with
  | stub fn parg => exact (hp rfl).elim
  | tick ha what =>
    cases what with
    | user => exact (hp rfl).elim
    | alloc p => rfl
  | _ => rfl

/-- A thread other than the current one that is in no call. -/
lemma Base.open_of_idle (hb : Base m) (hlife : (abs m).Life) (hne : t ≠ m.currentThread)
    (halive : fate t m.trace = some .alive) (hfn : (progress t m.trace).fn = none) : Open m t := by
  obtain ⟨-, k, hk, hsus⟩ := hb.parkedAt hne (hlife.alive t halive)
  refine ⟨fun heq => (hne heq).elim, fun _ c hc => ?_⟩
  obtain rfl := Ucontext.saved.inj (hk.symm.trans hc)
  exact hsus.returnFlag_of_idle hfn

/-- The call of a thread carries an unblocked mask. -/
lemma Carries.open (h : Carries m t true) : Open m t := by
  refine ⟨fun heq => ?_, fun hne c hc => ?_⟩
  · have hcarries := h.current heq
    rw [CurrentCarries] at hcarries
    rw [CurrentOpen]
    cases hcontrol : m.control <;> rw [hcontrol] at hcarries
    case user | alloc => exact hcarries
    case lockLoop | resumed => simpa [returnFlag] using congrArg (Option.getD · true) hcarries
    all_goals trivial
  · simpa [returnFlag] using congrArg (Option.getD · true) (h.saved hne c hc)

/-- In a call, an open thread carries an unblocked mask. -/
lemma Open.carries (h : Open m m.currentThread) (hb : Base m) (hin : InCall m.currentThread m) :
    CurrentCarries m true := by
  have hopen := h.current rfl
  have hc := hb.control
  rw [CurrentOpen] at hopen
  rw [ControlOk] at hc
  rw [CurrentCarries]
  cases hcontrol : m.control <;> rw [hcontrol] at hopen hc
  case user | alloc => exact hopen
  case lockLoop l s k =>
    obtain ⟨-, -, f, hcaller, -⟩ := hc
    have hflag : entryFlag (.lockAcquire l s :: k) = some (returnFlag (.lockAcquire l s :: k)) := by
      cases hcaller <;> rfl
    exact hopen ▸ hflag
  case resumed K =>
    obtain ⟨-, hentering | hexiting⟩ := hc
    · exact hopen ▸ hentering.suspended.entryFlag_eq hin.2
    · have halive := hin.1
      rw [hexiting.fate] at halive
      cases halive
  all_goals trivial

/-! ## Steps -/

/-- Another thread makes the step. -/
lemma Open.step_other (h : Open m t) (hb : Base m) (hs : step m a = some m') (hb' : Base m')
    (hlife' : (abs m').Life) (hrun : ¬ Stopped m') (hne : t ≠ m.currentThread)
    (halive : fate t m'.trace = some .alive) : Open m' t := by
  have hu := (hb.keepsMasks hs).untouched hrun
  rcases hu.ucontext t hne with hsame | ⟨-, hne', hfn⟩
  · refine ⟨fun heq => ?_, fun _ c hc => h.saved hne c (hsame ▸ hc)⟩
    -- the step has switched to the thread
    obtain ⟨c, hc, hcontrol⟩ := hu.resumed (heq ▸ hne)
    rw [CurrentOpen, hcontrol]
    exact h.saved hne c (heq ▸ hc)
  · exact hb'.open_of_idle hlife' hne' halive hfn

/-- A `thread_exit` that passes its assertion ends the life of its caller. -/
lemma dead_of_threadExit (c : ℤ) (k : Stack) : (threadExit c k m).All (fun _ _ => True)
    fun m' => Stopped m' ∨ fate m.currentThread m'.trace ≠ some .alive := by
  have hdead {o : Outcome Machine Unit}
      (h : Mutes ((m.interruptsSet false).emit (.exited m.currentThread c)) o) :
      o.All (fun _ _ => True) fun m' => Stopped m' ∨ fate m.currentThread m'.trace ≠ some .alive :=
    h.mono (fun _ _ _ => trivial) fun m' hm => .inr (hm.dead (by simp))
  rw [threadExit]
  by_cases hint : m.interrupts = true
  swap
  · rw [if_pos hint]
    exact .inl (.inl rfl)
  rw [if_neg (not_not.mpr hint)]
  dsimp only
  split_ifs
  · refine hdead (Tells.before (Tells.bind (mutes_handleDeath _ _) fun _ m₁ _ => ?_)
      (mute_same rfl))
    rw [threadExitAfterDeath]
    exact Tells.bind (mutes_threadYield _ _) fun _ _ _ => mute_threadExitSetcontext c
  · exact hdead (mute_threadExitSetcontext c)

/-- A call of `thread_exit`, or a return to `thread_stub`, ends the life of the caller. -/
lemma dead_of_call {f : Fn} {c : ℤ} (hf : call f m =
      andThen (threadExit c [.user f] (calledAt m f)) fun _ m => m.undef)
    (hrun : ¬ Stopped (call f m)) : fate m.currentThread (call f m).trace ≠ some .alive := by
  rw [hf] at hrun ⊢
  have hdead := dead_of_threadExit (m := calledAt m f) c [.user f]
  cases ho : threadExit c [.user f] (calledAt m f) with
  | ret v m₁ => exact (hrun (ho ▸ .inr (.inr rfl))).elim
  | jump m₁ =>
    rw [ho] at hdead hrun
    exact hdead.resolve_left hrun

/-- The current thread makes the step by a call. -/
lemma Open.step_call {f : Fn} (h : Open m m.currentThread) (hb : Base m)
    (hs : step m (.call f) = some m') (hrun : ¬ Stopped m')
    (halive : fate m.currentThread m'.trace = some .alive) (hf : ∀ b, f ≠ .interruptsSet b) :
    Open m' m.currentThread := by
  have hk := hb.keepsMasks hs
  rw [step] at hs
  split_ifs at hs with hcontrol
  cases hs
  by_cases hrestores : f.restores = true
  · have hopen := h.current rfl
    rw [CurrentOpen, hcontrol.1] at hopen
    refine (hk.carries hrun true ?_ (.inr ⟨f, rfl, hrestores⟩)).open
    rw [CurrentCarries, hcontrol.1]
    exact hopen
  · cases f with
    | threadExit c => exact (dead_of_call (c := c) rfl hrun halive).elim
    | threadReturn => exact (dead_of_call (c := 0) rfl hrun halive).elim
    | interruptsSet b => exact (hf b rfl).elim
    | _ => exact (hrestores rfl).elim

/-- The current thread goes on in the library.

**Proof sketch.** A thread inside a call keeps the flag that it had on entry (`keepsMasks`). A
thread that is in no call has been resumed: it is new, or comes back from the handler of the timer.
Both leave the signal unblocked. -/
lemma Open.step_exec (h : Open m m.currentThread) (hb : Base m) (hs : step m .exec = some m')
    (hrun : ¬ Stopped m') (halive : fate m.currentThread m.trace = some .alive) :
    Open m' m.currentThread := by
  by_cases hfn : (progress m.currentThread m.trace).fn = none
  swap
  · exact ((hb.keepsMasks hs).carries hrun true (h.carries hb ⟨halive, hfn⟩)
      (.inl ⟨halive, hfn⟩)).open
  -- the thread starts, or comes back from a timer signal
  have hc := hb.control
  rw [ControlOk] at hc
  rw [step] at hs
  have hback {m' : Machine} (hcur : m'.currentThread = m.currentThread)
    (hcontrol : m'.control = .user)
      (hint : m'.interrupts = true) : Open m' m.currentThread := by
    refine ⟨fun _ => ?_, fun hne => (hne hcur.symm).elim⟩
    rw [CurrentOpen, hcontrol]
    exact hint
  cases hcontrol : m.control with
  | user | aborted | exited n | undefined =>
    rw [hcontrol] at hs
    cases hs
  | alloc p =>
    rw [hcontrol] at hc
    rw [hc.2] at hfn
    cases hfn
  | lockLoop l s k =>
    rw [hcontrol] at hc
    obtain ⟨-, -, f, -, hp⟩ := hc
    rw [hp] at hfn
    cases hfn
  | resumed K =>
    rw [hcontrol] at hs hc
    cases hs
    obtain ⟨hint, hentering | hexiting⟩ := hc
    swap
    · rw [hexiting.fate] at halive
      cases halive
    rcases hentering.exec_cases hint hcontrol with ⟨fn, parg, rfl, heq⟩ | ⟨s, a, k, rfl, -, heq⟩
    · rw [heq]
      exact hback rfl rfl rfl
    · rw [heq]
      have hsus := hentering.suspended
      generalize progress m.currentThread m.trace = p at hsus hfn
      cases hsus with
      | tick ha what =>
        cases what with
        | user => exact hback rfl rfl rfl
        | alloc p => cases hfn
      | _ => cases hfn

/-- The timer strikes while the current thread runs.

**Proof sketch.** Inside a call the thread keeps its flag (`keepsMasks`). In user code the handler
returns with the signal unblocked, or the thread is suspended in the handler, with a context that
unblocks it. -/
lemma Open.step_tick (h : Open m m.currentThread) (hb : Base m) (hs : step m .tick = some m')
    (hb' : Base m') (hlife' : (abs m').Life) (hrun : ¬ Stopped m')
    (halive : fate m.currentThread m'.trace = some .alive) : Open m' m.currentThread := by
  have hc := hb.control
  have hk := hb.keepsMasks hs
  rw [ControlOk] at hc
  rw [step] at hs
  split_ifs at hs
  cases hcontrol : m.control with
  | resumed k | lockLoop l s k | aborted | exited n | undefined =>
    rw [hcontrol] at hs
    cases hs
  | alloc p =>
    rw [hcontrol] at hc
    have hin : InCall m.currentThread m := ⟨hc.1.alive, by rw [hc.2]; simp⟩
    exact (hk.carries hrun true (h.carries hb hin) (.inl hin)).open
  | user =>
    rw [hcontrol] at hs hc
    cases hs
    have hmute :
        Mutes m (threadYield THREAD_ANY [.interruptHandler .user] (m.interruptsSet false)) :=
      Tells.before (mutes_threadYield _ _) (mute_same rfl)
    rcases threadYield_any_cases (m := m.interruptsSet false) [.interruptHandler .user]
      hb.valid.current hb.valid.ready with ⟨q', -, -, heq⟩ |
      ⟨ds, u, us, q', -, -, -, -, hne, -, heq⟩
    · -- no other thread can run
      rw [interruptHandler, heq]
      exact ⟨fun _ => rfl, fun hne => (hne rfl).elim⟩
    · rw [interruptHandler, heq] at hb' hlife' halive ⊢
      rw [heq] at hmute
      have hfn := Mute.fn hmute m.currentThread
      rw [hc.2] at hfn
      refine hb'.open_of_idle hlife' (fun hcur => hne ?_) halive hfn
      exact (congrArg View.current (abs_threadYieldSwitch _ u _ _)).symm.trans hcur.symm

/-- **Every step** keeps a thread open that does not touch the mask. -/
theorem Open.step (h : Open m t) (hb : Base m) (hs : step m a = some m') (hb' : Base m')
    (hlife' : (abs m').Life) (hrun : ¬ Stopped m') (halive : fate t m.trace = some .alive)
    (halive' : fate t m'.trace = some .alive)
    (ha : ∀ b, a = .call (.interruptsSet b) → t ≠ m.currentThread) : Open m' t := by
  by_cases hcur : t = m.currentThread
  · subst hcur
    cases a with
    | exec => exact h.step_exec hb hs hrun halive
    | tick => exact h.step_tick hb hs hb' hlife' hrun halive'
    | call f => exact h.step_call hb hs hrun halive' fun b hf => ha b (congrArg _ hf) rfl
  · exact h.step_other hb hs hb' hlife' hrun hcur halive'

/-- What a call of `thread_create` does: an assertion fails, there is no free slot, or the new
thread is in its slot. -/
lemma call_threadCreate_cases (fn parg : ℕ) :
    let f := Fn.threadCreate fn parg
    (call f m).control = .aborted ∨
      (call f m).trace = .returned m.currentThread f ⟨THREAD_NOMORE, none⟩ :: (calledAt m f).trace ∨
      ∃ num, (m.threads num).state = .Destroyed ∧
        call f m = userReturn f ⟨num, none⟩ (createdAt (calledAt m f) num fn parg) := by
  unfold call
  dsimp only
  rw [threadCreate]
  dsimp only
  split_ifs with hint
  · cases hnum : threadNumToCreate ((calledAt m (.threadCreate fn parg)).interruptsSet false) with
    | none => exact .inr (.inl rfl)
    | some num => exact .inr (.inr ⟨num, (threadNumToCreate_eq_some hnum).2.2, rfl⟩)
  · exact .inl rfl

/-- The thread `t` is alive and has not changed the mask. -/
def Unmasking (t : Tid) (tr : List Event) : Prop := fate t tr = some .alive ∧ setsMask t tr = false

/-- Only a `thread_create` makes a thread that has not changed the mask. -/
lemma unmasking_of_path (hpath : Runs.Path View.Step (Permits m a) (abs m) (abs m'))
    (hold : ¬ Unmasking t m.trace) (hnew : Unmasking t m'.trace) :
    ∃ fn parg, a = .call (.threadCreate fn parg) := by
  refine (caused_by_call hpath).invariant (I := fun tr => Unmasking t tr →
    ∃ fn parg, a = .call (.threadCreate fn parg)) (fun h => (hold h).elim)
    (fun e tr he ih h => ?_) hnew
  obtain ⟨hfate, hsets⟩ := h
  cases e with
  | created u fn parg => exact ⟨fn, parg, he⟩
  | exited u c | killed u =>
    rw [fate] at hfate
    split_ifs at hfate
    · simp at hfate
    · exact ih ⟨hfate, hsets⟩
  | called u f =>
    refine ih ⟨hfate, ?_⟩
    cases f with
    | interruptsSet b =>
      rw [setsMask] at hsets
      split_ifs at hsets
      exact hsets
    | _ => exact hsets
  | _ => exact ih ⟨hfate, hsets⟩

/-- A new thread is open.

**Proof sketch.** Only `thread_create` makes a thread that was not there (`unmasking_of_path`). The
new thread is in no call and not the current one, and the context of such a thread unblocks the
signal (`open_of_idle`). -/
lemma open_of_created (hb : Base m) (hs : step m a = some m') (hb' : Base m')
    (hlife' : (abs m').Life) (hpath : Runs.Path View.Step (Permits m a) (abs m) (abs m'))
    (hold : ¬ Unmasking t m.trace) (hnew : Unmasking t m'.trace) : Open m' t := by
  obtain ⟨fn, parg, rfl⟩ := unmasking_of_path hpath hold hnew
  rw [UserThreads.step] at hs
  split_ifs at hs with hcontrol
  cases hs
  have hc := hb.control
  rw [ControlOk, hcontrol.1] at hc
  rcases call_threadCreate_cases (m := m) fn parg with habort | htrace | ⟨num, hfree, heq⟩
  · have hc' := hb'.control
    rw [ControlOk, habort] at hc'
    exact hc'.elim
  · rw [htrace] at hnew
    exact (hold hnew).elim
  · have hcur : num ≠ m.currentThread := fun h => hc.1.state (h ▸ hfree)
    rw [heq] at hnew hb' hlife' ⊢
    obtain rfl : num = t := by
      by_contra hne
      refine hold ?_
      have hcreated :
          Unmasking t (createdAt (calledAt m (.threadCreate fn parg)) num fn parg).trace :=
        hnew
      rw [Machine.interruptsSet_trace, Machine.pushReady_trace] at hcreated
      split_ifs at hcreated <;> simpa [Unmasking, hne] using hcreated
    refine hb'.open_of_idle hlife' hcur hnew.1 ?_
    have hback (tr : List Event) (f : Fn) (r : Ret) :
        progress num (.returned m.currentThread f r :: tr) = progress num tr := if_neg hcur.symm
    refine (congrArg Progress.fn (hback _ _ _)).trans ?_
    rw [Machine.interruptsSet_trace, Machine.pushReady_trace]
    split_ifs <;> simp

/-! ## Reachable states -/

/-- **A thread that does not touch the mask is open**, in every state of every run.

**Proof sketch.** Induction on the run. A thread that was there before the step is `Open.step`; its
own call of `interrupts_set` would end the premise. A thread that has just been created is
`open_of_created`. -/
theorem ReachableBy.open {ok : Machine → Action → Prop} (h : ReachableBy ok m) (hrun : ¬ Stopped m)
    (ht : Unmasking t m.trace) : Open m t := by
  induction h with
  | init h =>
    obtain ⟨g, rfl⟩ := h
    refine ⟨fun _ => rfl, fun hne c hc => ?_⟩
    have hu : ((threadInit g).threads t).ucontext = .uninit := by
      rw [threadInit]
      dsimp only
      split_ifs <;> rfl
    rw [hu] at hc
    cases hc
  | @step m m' a hreach hok hs ih =>
    have hrun₀ : ¬ Stopped m := fun hst => by
      rw [hst.step_none] at hs
      cases hs
    obtain ⟨hb, -⟩ := ReachableBy.life hreach hrun₀
    obtain ⟨hb', hlife'⟩ := ReachableBy.life (.step hreach hok hs) hrun
    have hpath := ((step_refines hb hs).resolve_left hrun).2
    by_cases hold : Unmasking t m.trace
    · refine (ih hrun₀ hold).step hb hs hb' hlife' hrun hold.1 ht.1 fun b ha hcur => ?_
      subst ha hcur
      rw [UserThreads.step] at hs
      split_ifs at hs
      cases hs
      have hsets := ht.2
      simp [call, userReturn] at hsets
    · exact open_of_created hb hs hb' hlife' hpath hold ht

/-- User code of an open thread runs with the signal unblocked. -/
lemma Open.unmasked (h : Open m m.currentThread) (hcontrol : m.control = .user) :
    m.interrupts = true := by
  have hopen := h.current rfl
  rwa [CurrentOpen, hcontrol] at hopen

/-- **User code runs with the timer signal unblocked**, in every state of every run, if its thread
has not changed the mask itself: no function returns with the signal blocked, however often the
thread has been suspended in it, and no thread starts so.

**Proof sketch.** The thread whose user code runs is alive and in no call, so it is open
(`ReachableBy.open`), and that is what being open says of the current thread. -/
theorem user_code_unmasked (h : Reachable m) (hcontrol : m.control = .user)
    (hsets : setsMask m.currentThread m.trace = false) : m.interrupts = true := by
  have hrun : ¬ Stopped m := by simp [Stopped, hcontrol]
  have hc := (ReachableBy.base h hrun).control
  rw [ControlOk, hcontrol] at hc
  exact (ReachableBy.open h hrun ⟨hc.1.alive, hsets⟩).unmasked hcontrol

/-- Thread 0 blocks the signal and yields to a new thread, which takes a lock and is preempted in
its critical section. -/
theorem user_code_unmasked_yield :
    let m := after 0 [.call .lockCreate, .exec, .exec, .call (.threadCreate 7 8),
      .call (.threadCreate 7 9), .call (.interruptsSet false), .call (.threadYield 1), .exec,
      .call (.lockAcquire 1), .tick, .exec]
    m.interrupts = true := by
  intro m
  exact user_code_unmasked (reachable_after (by decide +kernel)) (by decide +kernel)
    (by decide +kernel)

end UserThreads
