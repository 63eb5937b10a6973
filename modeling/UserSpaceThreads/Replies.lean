import UserSpaceThreads.Failures

set_option relaxedAutoImplicit false
set_option autoImplicit false

/-!
# What the functions answer

Every function of the library has a list of answers: the ids and codes that `thread.h` names, or a
count. (A `thread_wait` that succeeds answers the id of the thread, where `thread.h` says `0`.) The
return of a call is written into the history behind the last statement of its function; so it is
enough to follow the values up to there, through all that can happen between the call and its
return.

## Main definitions

* `UserThreads.Fn.Replies` — the answers of a function.

## Main results

* `UserThreads.answers_step` — one step.
* `UserThreads.replies_documented` — all answers of all runs.
-/

namespace UserThreads

open History

variable {m m' : Machine}

/-- The answers of a function. -/
def Fn.Replies : Fn → Ret → Prop
  | .threadCreate _ _, r => isValidThread r.value ∧ r.value ≠ 0 ∨ r.value = THREAD_NOMORE
  | .threadYield t, r =>
    isValidThread r.value ∨ r.value = if t = THREAD_ANY then THREAD_NONE else THREAD_INVALID
  | .threadExit _, _ => False
  | .threadReturn, _ => False
  | .threadKill t, r => isValidThread t ∧ r.value = t ∨ r.value = THREAD_INVALID
  | .threadSleep q, r =>
    isValidThread r.value ∨ r.value = if q = NULL then THREAD_INVALID else THREAD_NONE
  | .threadWakeup _ all, r => 0 ≤ r.value ∧ (all = 0 → r.value ≤ 1)
  | .threadWait x c, r =>
    isValidThread x ∧ r.value = x ∧ r.exitCode.isSome = c ∨ r = ⟨THREAD_INVALID, none⟩
  | .interruptsSet _, r => r.value = 0 ∨ r.value = 1
  | _, _ => True

/-! ## Functions that do not return to user code -/

/-- The event is neither a call or a return nor the making or the start of a thread. -/
def Event.mute : Event → Bool
  | .called _ _ => false
  | .returned _ _ _ => false
  | .created _ _ _ => false
  | .started _ _ _ => false
  | _ => true

/-- There are only mute events between `m` and `m'`. -/
abbrev Mute (m m' : Machine) : Prop := Adds (fun e => e.mute = true) m.trace m'.trace

/-- The machine `m'` has written nothing. -/
lemma mute_same (htrace : m'.trace = m.trace) : Mute m m' := by
  rw [Mute, htrace]
  exact Adds.refl _ _

/-- Two stretches without a return. -/
lemma Mute.trans {m₁ : Machine} (h : Mute m m₁) (h' : Mute m₁ m') : Mute m m' := by
  obtain ⟨es, heq, hes⟩ := h
  obtain ⟨es', heq', hes'⟩ := h'
  refine ⟨es' ++ es, by rw [heq', heq, List.append_assoc], fun e he => ?_⟩
  exact (List.mem_append.mp he).elim (hes' e) (hes e)

/-- The machine `m'` has written one mute event. -/
lemma mute_emit {e : Event} (he : e.mute = true) (htrace : m'.trace = e :: m.trace) :
    Mute m m' := by
  rw [Mute, htrace]
  exact (Adds.refl _ _).cons he

/-- Mute events wake no one from the dead. -/
lemma Mute.dead {t : Tid} (h : Mute m m') (ht : fate t m.trace ≠ some .alive) :
    fate t m'.trace ≠ some .alive := by
  refine h.invariant (I := fun tr => fate t tr ≠ some .alive) ht fun e tr he ih => ?_
  cases e with
  | created u fn parg => cases he
  | exited u c | killed u =>
    rw [fate]
    split_ifs
    · simp
    · exact ih
  | _ => exact ih

/-- The function writes mute events only, and its value is as `Q` says. -/
abbrev Tells {α : Type} (m : Machine) (Q : α → Prop) (o : Outcome Machine α) : Prop :=
  o.All (fun v m' => Mute m m' ∧ Q v) (Mute m)

/-- A function that writes mute events only. -/
abbrev Mutes {α : Type} (m : Machine) (o : Outcome Machine α) : Prop := Tells m (fun _ => True) o

variable {α β : Type} {Q : α → Prop} {Q' : β → Prop}

/-- The rule of sequencing. -/
lemma Tells.bind {o : Outcome Machine α} {f : α → Machine → Outcome Machine β} (h : Tells m Q o)
    (hf : ∀ v m', Q v → Tells m' Q' (f v m')) : Tells m Q' (o.bind f) :=
  Outcome.All.bind h fun v m₁ hv => (hf v m₁ hv.2).mono
    (fun _ _ hw => ⟨hv.1.trans hw.1, hw.2⟩) fun _ hw => hv.1.trans hw

/-- What comes before a function writes mute events only. -/
lemma Tells.before {o : Outcome Machine α} (h : Tells m' Q o) (hm : Mute m m') : Tells m Q o :=
  h.mono (fun _ _ hw => ⟨hm.trans hw.1, hw.2⟩) fun _ hw => hm.trans hw

/-- A push onto `thread_queue`. -/
lemma mute_pushReady (m : Machine) (t : Tid) : Mute m (m.pushReady t) := by
  rw [Mute, Machine.pushReady_trace]
  split_ifs
  · exact Adds.refl _ _
  · exact (Adds.refl _ _).cons rfl

/-- Loading a context. -/
lemma mute_setcontext (m : Machine) (u : Ucontext) : Mute m (m.setcontext u) := by
  cases u <;> exact mute_same rfl

/-- The switch of `thread_yield`. -/
lemma mute_threadYieldSwitch (s : Bool) (t : Tid) (k : Stack) :
    Mute m (threadYieldSwitch s t k m) :=
  (mute_pushReady _ _).trans ((mute_emit rfl rfl).trans (mute_setcontext _ _))

/-- The end of `thread_exit`. -/
lemma mute_threadExitSetcontext (c : ℤ) : Mute m (threadExitSetcontext c m) :=
  mute_setcontext _ _

/-! ## The functions -/

/-- `thread_yield` to a certain thread. -/
lemma tells_threadYieldTo (s : Bool) (t : Tid) (k : Stack) :
    Tells m (fun v => v = THREAD_INVALID) (threadYieldTo s t k m) := by
  rw [threadYieldTo]
  split_ifs
  · exact ⟨mute_same rfl, rfl⟩
  · exact ⟨mute_same rfl, rfl⟩
  · exact mute_threadYieldSwitch _ _ _

/-- `thread_yield`. -/
lemma tells_threadYield (hv : (abs m).Valid) (t : Tid) (k : Stack) :
    Tells m (fun v => Fn.Replies (.threadYield t) ⟨v, none⟩) (threadYield t k m) := by
  by_cases hany : t = THREAD_ANY
  · subst hany
    rcases threadYield_any_cases k hv.current hv.ready with
      ⟨q', -, -, heq⟩ | ⟨ds, t, ts, q', -, -, -, -, -, -, heq⟩
    · rw [heq]
      exact ⟨mute_same rfl, .inr rfl⟩
    · rw [heq]
      exact mute_threadYieldSwitch _ _ _
  · rw [threadYield]
    dsimp only
    rw [if_neg hany]
    split_ifs
    · exact ⟨mute_same rfl, .inl hv.current⟩
    · refine (tells_threadYieldTo _ t k).mono (fun v m₁ hv => ⟨hv.1, .inr ?_⟩) fun _ hw => hw
      rw [if_neg hany]
      exact hv.2

/-- A `thread_yield` of which the answer does not matter. -/
lemma mutes_threadYield (t : Tid) (k : Stack) : Mutes m (threadYield t k m) := by
  have hto (s : Bool) (u : Tid) : Mutes m (threadYieldTo s u k m) :=
    (tells_threadYieldTo s u k).mono (fun _ _ hv => ⟨hv.1, trivial⟩) fun _ hw => hw
  rw [threadYield]
  dsimp only
  split_ifs
  · exact ⟨mute_same rfl, trivial⟩
  · exact ⟨mute_same rfl, trivial⟩
  · exact (tells_threadYieldTo _ _ k).mono (fun _ _ hv => ⟨hv.1, trivial⟩) fun _ hw => hw
  · exact (tells_threadYieldTo _ _ k).mono (fun _ _ hv => ⟨hv.1, trivial⟩) fun _ hw => hw

/-- `free369`. -/
lemma mutes_free369 (p : Addr) : Mutes m (m.free369 p) := by
  rw [Machine.free369]
  cases m.heap.free369 p with
  | none => exact mute_same rfl
  | some heap => exact ⟨mute_emit rfl rfl, trivial⟩

/-- `handle_death`. -/
lemma mutes_handleDeath (t : Tid) (k : Stack) : Mutes m (handleDeath t k m) := by
  rw [handleDeath]
  dsimp only
  split_ifs
  · exact mute_same rfl
  · exact Tells.before (Tells.bind (mutes_threadYield _ _) fun _ _ _ => ⟨mute_same rfl, trivial⟩)
      (mute_emit rfl rfl)
  · exact ⟨mute_same rfl, trivial⟩
  · exact ⟨mute_same rfl, trivial⟩

/-- `thread_kill`. -/
lemma tells_threadKill (t : Tid) (k : Stack) :
    Tells m (fun v => Fn.Replies (.threadKill t) ⟨v, none⟩) (threadKill t k m) := by
  have hdeath (m₁ : Machine) (s : Bool) (ht : ¬ (t < 0 ∨ t ≥ THREAD_MAX_THREADS)) :
      Tells m₁ (fun v => Fn.Replies (.threadKill t) ⟨v, none⟩)
        ((handleDeath t (.threadKill t s :: k) m₁).bind fun _ m => threadKillAfterDeath t s m) :=
    (mutes_handleDeath _ _).bind fun _ _ _ =>
      ⟨mute_same rfl, .inl ⟨⟨not_lt.mp fun h => ht (.inl h), not_le.mp fun h => ht (.inr h)⟩, rfl⟩⟩
  have hkilled (m₁ : Machine) : Mute m₁ ((if m₁.administrativeMode = true then m₁ else
      m₁.emit (.killed t)).setAdministrativeMode false) := by
    split_ifs
    · exact mute_same rfl
    · exact mute_emit rfl rfl
  rw [threadKill]
  dsimp only
  split_ifs with hself hrange hdead hzero
  · exact ⟨mute_same rfl, .inr rfl⟩
  · exact ⟨mute_same rfl, .inr rfl⟩
  · exact ⟨mute_same rfl, .inr rfl⟩
  · refine ((mutes_free369 _).bind fun _ m₁ _ => ?_).before (mute_same rfl)
    exact (hdeath _ _ hrange).before (hkilled _)
  · exact (hdeath _ _ hrange).before ((mute_same rfl).trans (hkilled (m.interruptsSet false)))

/-- `admin_mode`. -/
lemma mutes_adminMode (k : Stack) : Mutes m (adminMode k m) := by
  rw [adminMode]
  split_ifs
  · exact mute_same rfl
  · refine Tells.bind (tells_threadKill _ _) fun _ m₁ _ => ?_
    rw [adminModeAfterKill]
    split_ifs
    · exact mute_same rfl
    rotate_left
    · exact mute_same rfl
    · exact mute_same rfl
    · refine Tells.before (Tells.bind (mutes_threadYield _ _) fun r _ _ => ?_) (mute_same rfl)
      rw [adminModeAfterYield]
      split_ifs <;> exact mute_same rfl

/-- `thread_exit`. -/
lemma mutes_threadExit (c : ℤ) (k : Stack) : Mutes m (threadExit c k m) := by
  have hexited : Mute m ((m.interruptsSet false).emit (.exited m.currentThread c)) :=
    mute_emit rfl rfl
  rw [threadExit]
  dsimp only
  split_ifs
  · refine Tells.before (Tells.bind (mutes_handleDeath _ _) fun _ m₁ _ => ?_) hexited
    rw [threadExitAfterDeath]
    exact Tells.bind (mutes_threadYield _ _) fun _ _ _ => mute_threadExitSetcontext c
  · exact hexited.trans (mute_threadExitSetcontext c)
  · exact mute_same rfl

/-- `thread_sleep` behind its `thread_yield`, which may have answered anything. -/
lemma mutes_threadSleepAfterYield (q : Addr) (s : Bool) (t : Tid) :
    Tells m (fun v => v = t) (threadSleepAfterYield q s t m) := by
  rw [threadSleepAfterYield]
  split_ifs with hnone
  · dsimp only
    split
    · exact mute_same rfl
    · split_ifs
      · exact ⟨mute_emit rfl rfl, hnone.symm⟩
      · exact mute_same rfl
  · exact ⟨mute_same rfl, rfl⟩

/-- A `thread_sleep` of which the answer does not matter. -/
lemma mutes_threadSleep (q : Addr) (k : Stack) : Mutes m (threadSleep q k m) := by
  rw [threadSleep]
  dsimp only
  split_ifs
  · exact ⟨mute_same rfl, trivial⟩
  · split
    · exact mute_same rfl
    · refine Tells.before (Tells.bind (mutes_threadYield _ _) fun v m₁ _ => ?_) (mute_emit rfl rfl)
      exact (mutes_threadSleepAfterYield q _ v).mono (fun _ _ hv => ⟨hv.1, trivial⟩) fun _ hw => hw

/-- `thread_sleep` answers what its `thread_yield` has answered. -/
lemma tells_threadSleep (hv : (abs m).Valid) (q : Addr) (k : Stack) :
    Tells m (fun v => Fn.Replies (.threadSleep q) ⟨v, none⟩) (threadSleep q k m) := by
  rw [threadSleep]
  dsimp only
  split_ifs with hq
  · exact ⟨mute_same rfl, .inr (if_pos hq).symm⟩
  · split
    · exact mute_same rfl
    · next wq hwq =>
      have hv' : (abs (asleepAt m q wq)).Valid := by
        rw [abs_asleepAt]
        exact hv.asleep (congrArg (Option.map absQueue) hwq)
      refine Tells.before (Tells.bind (tells_threadYield (m := asleepAt m q wq) hv' _ _)
        fun v m₁ hreply => ?_) (mute_emit rfl rfl)
      refine (mutes_threadSleepAfterYield q _ v).mono (fun w _ hw => ⟨hw.1, ?_⟩) fun _ hw => hw
      rw [hw.2]
      exact hreply.imp_right fun heq => heq.trans (if_neg hq).symm

/-- The loop of `thread_wakeup` counts the threads that it wakes. -/
lemma tells_threadWakeupLoop (q : Addr) (all : ℤ) (n : ℕ) (wq : WaitQueue) (num : ℤ) :
    Tells m (fun v => num ≤ v ∧ (all = 0 → v ≤ num + 1)) (threadWakeupLoop q all n wq num m) := by
  induction n generalizing wq num m with
  | zero => exact ⟨mute_same rfl, le_rfl, fun _ => by omega⟩
  | succ n ih =>
    rw [threadWakeupLoop]
    dsimp only
    split_ifs with hempty hrun hsleep hall
    · exact ⟨mute_same rfl, le_rfl, fun _ => by omega⟩
    · exact mute_same rfl
    · exact ⟨(mute_emit rfl rfl).trans (mute_pushReady _ _), by omega, fun _ => le_rfl⟩
    · refine Tells.before ((ih _ _).mono (fun v _ hv => ⟨hv.1, ?_, fun h => (hall h).elim⟩)
        fun _ hw => hw) ((mute_emit rfl rfl).trans (mute_pushReady _ _))
      have := hv.2.1
      omega
    · exact Tells.before (ih _ _) (mute_same rfl)

/-- `thread_wakeup`. -/
lemma tells_threadWakeup (q : Addr) (all : ℤ) :
    Tells m (fun v => Fn.Replies (.threadWakeup q all) ⟨v, none⟩) (threadWakeup q all m) := by
  rw [threadWakeup]
  dsimp only
  split_ifs
  · exact ⟨mute_same rfl, le_rfl, fun _ => by decide⟩
  · split
    · exact mute_same rfl
    · refine Tells.before (Tells.bind (tells_threadWakeupLoop q all _ _ 0) fun v m₁ hv => ?_)
        (mute_same rfl)
      exact ⟨mute_same rfl, hv.1, fun h => by simpa using hv.2 h⟩

/-- `thread_wait` behind its `thread_yield`. -/
lemma tells_threadWaitAfterYield {x : Tid} (hx : isValidThread x) (c s : Bool) :
    Tells m (Fn.Replies (.threadWait x c)) (threadWaitAfterYield x c s m) := by
  rw [threadWaitAfterYield]
  split_ifs
  · exact mute_same rfl
  · refine ⟨mute_same rfl, .inl ⟨hx, rfl, ?_⟩⟩
    cases c <;> rfl

/-- `thread_wait`.

**Proof sketch.** Each refusal is `THREAD_INVALID`. Behind the `thread_yield`, and for a dead
thread, the answer is the id that was given. -/
lemma tells_threadWait (x : Tid) (c : Bool) (k : Stack) :
    Tells m (Fn.Replies (.threadWait x c)) (threadWait x c k m) := by
  have hinvalid {m₁ : Machine} (hm : Mute m m₁) :
      Tells m (Fn.Replies (.threadWait x c)) (.ret ⟨THREAD_INVALID, none⟩ m₁) :=
    ⟨hm, .inr rfl⟩
  rw [threadWait]
  by_cases hint : m.interrupts = true
  swap
  · rw [if_pos hint]
    exact mute_same rfl
  rw [if_neg (not_not.mpr hint)]
  by_cases hx : isValidThread x
  swap
  · rw [if_pos hx]
    exact hinvalid (mute_same rfl)
  rw [if_neg (not_not.mpr hx)]
  dsimp only
  split_ifs
  · exact hinvalid (mute_same rfl)
  · exact hinvalid (mute_same rfl)
  · exact hinvalid (mute_same rfl)
  · exact Tells.before (Tells.bind (mutes_threadYield _ _) fun _ _ _ =>
      tells_threadWaitAfterYield hx c _) (mute_emit rfl rfl)
  · refine ⟨mute_same rfl, .inl ⟨hx, rfl, ?_⟩⟩
    cases c <;> rfl

/-- The loop of `lock_acquire`. -/
lemma mutes_lockAcquireLoop (l : Addr) (s : Bool) (k : Stack) :
    Mutes m (lockAcquireLoop l s k m) := by
  rw [lockAcquireLoop]
  split
  · exact mute_same rfl
  · split_ifs
    · exact Tells.bind (mutes_threadSleep _ _) fun _ _ _ => mute_same rfl
    · exact ⟨mute_same rfl, trivial⟩

/-- `lock_acquire`. -/
lemma mutes_lockAcquire (l : Addr) (k : Stack) : Mutes m (lockAcquire l k m) := by
  rw [lockAcquire]
  split_ifs
  · exact mute_same rfl
  · exact Tells.before (mutes_lockAcquireLoop _ _ _) (mute_same rfl)

/-- `lock_release`. -/
lemma mutes_lockRelease (l : Addr) : Mutes m (lockRelease l m) := by
  rw [lockRelease]
  dsimp only
  split_ifs
  · exact mute_same rfl
  · split
    · exact mute_same rfl
    · split_ifs
      · exact Tells.before (Tells.bind (tells_threadWakeup _ _) fun _ _ _ =>
          ⟨mute_same rfl, trivial⟩) (mute_same rfl)
      · exact mute_same rfl

/-- `cv_wait` behind its `thread_sleep`. -/
lemma mutes_cvWaitAfterSleep (l : Addr) (s : Bool) (k : Stack) :
    Mutes m (cvWaitAfterSleep l s k m) := by
  rw [cvWaitAfterSleep]
  split_ifs
  · exact mute_same rfl
  · exact Tells.bind (mutes_lockAcquire _ _) fun _ _ _ => ⟨mute_same rfl, trivial⟩

/-- `cv_wait`. -/
lemma mutes_cvWait (c l : Addr) (k : Stack) : Mutes m (cvWait c l k m) := by
  rw [cvWait]
  split_ifs
  · exact mute_same rfl
  · exact mute_same rfl
  · split
    · exact mute_same rfl
    · split_ifs
      · refine Tells.before (Tells.bind (mutes_lockRelease _) fun _ m₁ _ => ?_) (mute_same rfl)
        split
        · exact mute_same rfl
        · exact Tells.bind (mutes_threadSleep _ _) fun _ _ _ => mutes_cvWaitAfterSleep _ _ _
      · exact mute_same rfl

/-- `cv_signal` and `cv_broadcast`. -/
lemma mutes_cvWakeup (all : ℤ) (c l : Addr) : Mutes m (cvWakeup all c l m) := by
  rw [cvWakeup]
  dsimp only
  split_ifs
  · exact mute_same rfl
  · exact mute_same rfl
  · split
    · exact mute_same rfl
    · split_ifs
      · split
        · exact mute_same rfl
        · exact Tells.before (Tells.bind (tells_threadWakeup _ _) fun _ _ _ =>
          ⟨mute_same rfl, trivial⟩) (mute_same rfl)
      · exact mute_same rfl

/-! ## Steps -/

/-- If the event is a return, then of a documented answer. -/
abbrev Event.Documented (e : Event) : Prop := ∀ t f r, e = .returned t f r → f.Replies r

/-- All answers that are new in `m'` are documented. -/
abbrev Documents (m m' : Machine) : Prop := Adds Event.Documented m.trace m'.trace

/-- Mute events are no returns. -/
lemma Mute.answers (h : Mute m m') : Documents m m' := by
  obtain ⟨es, heq, hes⟩ := h
  refine ⟨es, heq, fun e he t f r hret => ?_⟩
  have hmute := hes e he
  rw [hret] at hmute
  cases hmute

/-- The machine `m₁` has written one event, which is no return of another answer. -/
lemma answers_emit {m₁ : Machine} {e : Event} (he : e.Documented) (htrace : m₁.trace = e :: m.trace)
    (h : Documents m₁ m') : Documents m m' := by
  obtain ⟨es, heq, hes⟩ := h
  refine ⟨es ++ [e], by rw [heq, htrace]; simp, fun x hx => ?_⟩
  rcases List.mem_append.mp hx with hx | hx
  · exact hes x hx
  · exact List.mem_singleton.mp hx ▸ he

/-- A call returns with a documented answer. -/
lemma answers_userReturn {f : Fn} {r : Ret} (hm : Documents m m') (hr : f.Replies r) :
    Documents m (userReturn f r m') :=
  hm.cons fun _ _ _ heq => by
    cases heq
    exact hr

/-- What follows a function that writes mute events only. -/
lemma answers_andThen {o : Outcome Machine α} {g : α → Machine → Machine} (h : Tells m Q o)
    (hg : ∀ v m₁, Mute m m₁ → Q v → Documents m (g v m₁)) : Documents m (andThen o g) := by
  cases o with
  | ret v m₁ => exact hg v m₁ h.1 h.2
  | jump m₁ => exact Mute.answers h

/-- `thread_create`. -/
lemma answers_threadCreate (fn parg : ℕ) :
    Documents m (andThen (threadCreate fn parg m) fun v m =>
      userReturn (.threadCreate fn parg) ⟨v, none⟩ m) := by
  rw [threadCreate]
  dsimp only
  split_ifs
  · cases hnum : threadNumToCreate (m.interruptsSet false) with
    | none => exact answers_userReturn (mute_same rfl).answers (.inr rfl)
    | some num =>
      obtain ⟨hpos, hvalid, -⟩ := threadNumToCreate_eq_some hnum
      have hcreated : Documents m (createdAt (m.interruptsSet false) num fn parg) :=
        answers_emit (e := .created num fn parg) (fun _ _ _ hret => by cases hret) rfl
          (mute_pushReady _ num).answers
      exact answers_userReturn hcreated (.inl ⟨hvalid, hpos.ne'⟩)
  · exact (mute_same rfl).answers

/-- A function that does not return. -/
lemma answers_never {o : Outcome Machine α} (h : Mutes m o) (haway : o.All (fun _ _ => False) Away)
    (g : α → Machine → Machine) : Documents m (andThen o g) := by
  cases o with
  | ret v m₁ => exact haway.elim
  | jump m₁ => exact Mute.answers h

/-- A function without a documented answer returns to user code. -/
lemma answers_plain {o : Outcome Machine α} {f : Fn} (h : Mutes m o) (hf : f.Replies ⟨0, none⟩) :
    Documents m (andThen o fun _ m => userReturn f ⟨0, none⟩ m) :=
  answers_andThen h fun _ _ hm _ => answers_userReturn hm.answers hf

/-- The callers of the loop of `lock_acquire`. -/
lemma LoopCaller.answers {l : Addr} {s : Bool} {k : Stack} {f : Fn} (h : LoopCaller l s k f)
    (hm : Mute m m') : Documents m (unwind k ⟨0, none⟩ m') := by
  cases h with
  | acquire s =>
    rw [unwind]
    exact answers_userReturn hm.answers trivial
  | cvWait c s =>
    rw [unwind, unwind]
    exact answers_userReturn hm.answers trivial

/-- A thread that has been resumed goes on in the call that it was suspended in.

**Proof sketch.** By the place where the thread was suspended. `thread_yield` and `thread_sleep`
return the id that the switch has left in the frame, which is valid, and `thread_kill` and
`thread_wait` the id that they were given. -/
lemma Suspended.answers {s : Bool} {a : Tid} {k : Stack} {p : Progress}
    (h : Suspended (.threadYield s a true :: k) p) (hm : Mute m m') :
    Documents m (unwind k ⟨a, none⟩ m') := by
  cases h with
  | yield _ ha t =>
    rw [unwind]
    exact answers_userReturn hm.answers (.inl ha)
  | tick ha what =>
    rw [unwind]
    exact hm.answers
  | kill ha ht b =>
    rw [unwind, unwind]
    exact answers_userReturn hm.answers (.inl ⟨ht, rfl⟩)
  | sleep ha q b =>
    rw [unwind, threadSleepAfterYield, if_neg ha.ne.2.1]
    exact answers_userReturn hm.answers (.inl ha)
  | wait ha hx c =>
    rw [unwind]
    exact answers_andThen (Tells.before (tells_threadWaitAfterYield hx c true) hm)
      fun r _ hm' hr => answers_userReturn hm'.answers hr
  | acquire ha q l b =>
    rw [unwind, threadSleepAfterYield, if_neg ha.ne.2.1]
    show Documents m (andThen (lockAcquireLoop l b [.user (.lockAcquire l)]
      (m'.interruptsSet false))
      fun _ m => unwind [.user (.lockAcquire l)] ⟨0, none⟩ m)
    exact answers_andThen (Tells.before (mutes_lockAcquireLoop ..) hm) fun _ _ hm' _ =>
      LoopCaller.answers (.acquire b) hm'
  | cvSleep ha q c l b =>
    rw [unwind, threadSleepAfterYield, if_neg ha.ne.2.1]
    show Documents m (andThen (cvWaitAfterSleep l b [.user (.cvWait c l)] (m'.interruptsSet false))
      fun _ m => userReturn (.cvWait c l) ⟨0, none⟩ m)
    exact answers_plain (Tells.before (mutes_cvWaitAfterSleep ..) hm) trivial
  | cvAcquire ha q c l b =>
    rw [unwind, threadSleepAfterYield, if_neg ha.ne.2.1]
    show Documents m (andThen
      (lockAcquireLoop l false [.cvWaitAcquire b, .user (.cvWait c l)] (m'.interruptsSet false))
      fun _ m => unwind [.cvWaitAcquire b, .user (.cvWait c l)] ⟨0, none⟩ m)
    exact answers_andThen (Tells.before (mutes_lockAcquireLoop ..) hm) fun _ _ hm' _ =>
      LoopCaller.answers (.cvWait c b) hm'

/-- The create and destroy functions.

**Proof sketch.** Half of a create or destroy function answers nothing; the second half returns,
with an answer of which nothing is claimed. -/
lemma answers_allocate (p : AllocPoint) : Documents m (allocate p m) := by
  have hfree {f : Fn} (q : Addr) (hf : f.Replies ⟨0, none⟩) (g : Machine → Machine)
      (hg : ∀ m, Mute m (g m)) :
      Documents m (andThen (m.free369 q) fun _ m => userReturn f ⟨0, none⟩ (g m)) :=
    answers_andThen (mutes_free369 q) fun _ _ hm _ =>
      answers_userReturn (hm.trans (hg _)).answers hf
  cases p with
  | waitQueueCreate | lockCreateQueue l | cvCreateQueue c =>
    exact answers_userReturn (mute_emit rfl rfl).answers trivial
  | lockCreate | cvCreate => exact (mute_emit rfl rfl).answers
  | waitQueueDestroy q =>
    exact hfree (f := .waitQueueDestroy q) q trivial (fun m => m.setWaitQueue q none) fun _ =>
      mute_same rfl
  | lockDestroy l =>
    exact hfree (f := .lockDestroy l) l trivial (fun m => m.setLock l none) fun _ => mute_same rfl
  | cvDestroy c =>
    exact hfree (f := .cvDestroy c) c trivial (fun m => m.setCv c none) fun _ => mute_same rfl
  | lockDestroyQueue l =>
    rw [allocate]
    split
    · exact (mute_same rfl).answers
    · exact answers_andThen (mutes_free369 _) fun _ _ hm _ => (hm.trans (mute_emit rfl rfl)).answers
  | cvDestroyQueue c =>
    rw [allocate]
    split
    · exact (mute_same rfl).answers
    · exact answers_andThen (mutes_free369 _) fun _ _ hm _ => (hm.trans (mute_emit rfl rfl)).answers

/-- The library goes on.

**Proof sketch.** By the place where the library goes on: between two calls of the allocator, at the
loop test, at a context that has been loaded, or on the way out of an exiting thread, which answers
nothing. -/
lemma answers_exec (hb : Base m) (hs : step m .exec = some m') : Documents m m' := by
  have hc := hb.control
  rw [ControlOk] at hc
  rw [step] at hs
  cases hcontrol : m.control with
  | user | aborted | exited n | undefined =>
    rw [hcontrol] at hs
    cases hs
  | alloc p =>
    rw [hcontrol] at hs
    cases hs
    unfold exec
    rw [hcontrol]
    exact answers_allocate p
  | lockLoop l s k =>
    rw [hcontrol] at hs hc
    cases hs
    obtain ⟨-, -, f, hcaller, -⟩ := hc
    unfold exec
    rw [hcontrol]
    exact answers_andThen (mutes_lockAcquireLoop ..) fun _ _ hm _ => hcaller.answers hm
  | resumed k =>
    rw [hcontrol] at hs hc
    cases hs
    obtain ⟨hint, h | h⟩ := hc
    · rcases h.exec_cases hint hcontrol with ⟨fn, parg, rfl, heq⟩ | ⟨s, a, k', rfl, -, heq⟩
      · rw [heq]
        exact (Adds.refl _ _).cons fun _ _ _ hret => by cases hret
      · rw [heq]
        exact h.suspended.answers (mute_same rfl)
    · obtain ⟨g, heq⟩ := h.exec_eq hint hcontrol
      rw [heq]
      exact answers_never (mutes_adminMode _) (adminMode_away _) g

/-- User code makes a call.

**Proof sketch.** By the function. The ones that can answer have a lemma each about what they return
(`tells_threadYield` and the lemmas beside it); the others are silent up to their return
(`mutes_lockAcquire` and so on), or have not returned yet. -/
lemma answers_call (hv : (abs m).Valid) (f : Fn) : Documents m (call f m) := by
  have hv' : (abs (calledAt m f)).Valid := hv.retrace ..
  have hcalled : Documents (calledAt m f) (call f m) → Documents m (call f m) :=
    answers_emit (e := .called m.currentThread f) (fun _ _ _ hret => by cases hret) rfl
  refine hcalled ?_
  unfold call
  cases f with
  | threadCreate fn parg =>
    exact answers_threadCreate fn parg
  | threadYield t =>
    exact answers_andThen (tells_threadYield hv' t _)
      fun _ _ hm hr => answers_userReturn hm.answers hr
  | threadExit c => exact answers_never (mutes_threadExit c _) (threadExit_away c _) _
  | threadReturn => exact answers_never (mutes_threadExit 0 _) (threadExit_away 0 _) _
  | threadKill t =>
    exact answers_andThen (tells_threadKill t _) fun _ _ hm hr => answers_userReturn hm.answers hr
  | waitQueueCreate | lockCreate | cvCreate | waitQueueDestroy q => exact (mute_same rfl).answers
  | threadSleep q =>
    exact answers_andThen (tells_threadSleep hv' q _)
      fun _ _ hm hr => answers_userReturn hm.answers hr
  | threadWakeup q all =>
    exact answers_andThen (tells_threadWakeup q all)
      fun _ _ hm hr => answers_userReturn hm.answers hr
  | threadWait x c =>
    exact answers_andThen (tells_threadWait x c _) fun _ _ hm hr => answers_userReturn hm.answers hr
  | lockDestroy l =>
    dsimp only
    rw [lockDestroy]
    split_ifs
    · exact (mute_same rfl).answers
    · split
      · exact (mute_same rfl).answers
      · split_ifs <;> exact (mute_same rfl).answers
  | lockAcquire l => exact answers_plain (mutes_lockAcquire l _) trivial
  | lockRelease l => exact answers_plain (mutes_lockRelease l) trivial
  | cvDestroy c =>
    dsimp only
    rw [cvDestroy]
    split_ifs <;> exact (mute_same rfl).answers
  | cvWait c l => exact answers_plain (mutes_cvWait c l _) trivial
  | cvSignal c l => exact answers_plain (mutes_cvWakeup 0 c l) trivial
  | cvBroadcast c l => exact answers_plain (mutes_cvWakeup 1 c l) trivial
  | interruptsSet b =>
    refine answers_userReturn (mute_same rfl).answers ?_
    rw [Fn.Replies]
    split_ifs
    · exact .inr rfl
    · exact .inl rfl

/-- **One step** adds documented answers only.

**Proof sketch.** An `exec` is `answers_exec` and a call is `answers_call`. The handler of the timer
returns to where the signal came, and so answers nothing. -/
theorem answers_step {a : Action} (hb : Base m) (hs : step m a = some m') : Documents m m' := by
  have htick (what : Interrupted) : Documents m (interruptHandler what m) :=
    answers_andThen (Tells.before (mutes_threadYield _ _) (mute_same rfl))
      fun _ _ hm _ => hm.answers
  cases a with
  | exec => exact answers_exec hb hs
  | call f =>
    rw [step] at hs
    split_ifs at hs
    cases hs
    exact answers_call hb.valid f
  | tick =>
    rw [step] at hs
    split_ifs at hs
    cases hcontrol : m.control with
    | user | alloc p =>
      rw [hcontrol] at hs
      cases hs
      exact htick _
    | resumed k | lockLoop l s k | aborted | exited n | undefined =>
      rw [hcontrol] at hs
      cases hs

/-- **All answers are documented ones.** In every run, `thread_create` answers a valid id other
than 0 or `THREAD_NOMORE`; `thread_yield` and `thread_sleep` answer a valid id, `THREAD_NONE` or
`THREAD_INVALID`, each where `thread.h` says so; `thread_kill` and `thread_wait` answer the id that
they were given, or `THREAD_INVALID`; `thread_wakeup` answers a count, of one thread at most unless
it was to wake all.

**Proof sketch.** Every event of the history is documented: at first there are none, and each step
adds documented ones only (`answers_step`). -/
theorem replies_documented (h : Reachable m) {t : Tid} {f : Fn} {r : Ret}
    (hr : .returned t f r ∈ m.trace) : f.Replies r := by
  have hall : ∀ e ∈ m.trace, e.Documented := by
    refine Runs.Reachable.invariant (I := fun m => ∀ e ∈ m.trace, e.Documented)
      (fun m hm => ?_) (fun m a m' hreach hall _ hs e he => ?_) h
    · obtain ⟨g, rfl⟩ := hm
      exact fun e he => by cases he
    · have hrun : ¬ Stopped m := fun hst => by
        rw [hst.step_none] at hs
        cases hs
      rcases (answers_step (ReachableBy.base hreach hrun) hs).mem_or he with hnew | hold
      · exact hnew
      · exact hall e hold
  exact hall _ hr t f r rfl

/-- Thread 0 sleeps in `thread_wait` until a new thread exits, and its call returns then. -/
theorem replies_documented_wait :
    Fn.Replies (.threadWait 1 true) ⟨1, some 5⟩ :=
  replies_documented (m := after 0 [.call (.threadCreate 7 8), .call (.threadWait 1 true), .exec,
    .call (.threadExit 5), .exec, .exec]) (t := 0)
    (reachable_after (by decide +kernel)) (by decide +kernel)

end UserThreads
