import UserSpaceThreads.Life

set_option relaxedAutoImplicit false
set_option autoImplicit false

/-!
# Threads inside the allocator

`malloc369` and `free369` do not mask the timer signal. `thread_create` and `thread_kill` mask it
before they call them; the create and destroy functions of wait queues, locks and condition
variables do not. A signal that strikes there hands the processor to another thread, which may
enter the allocator while its pointer map and its counters are half updated. If no signal inside
the allocator finds another thread to run, nobody is switched out there.

## Main definitions

* `UserThreads.InAllocator` — the threads inside `malloc369` or `free369`.
* `UserThreads.Unpreempted` — the guard.
* `UserThreads.View.Outside` — the invariant.

## Main results

* `UserThreads.View.Outside.step` — every transaction of an unpreempted step keeps the invariant.
* `UserThreads.allocator_exclusive` — only the current thread is inside the allocator.
* `UserThreads.allocator_reentered` — a run in which two threads are inside `malloc369`.
-/

namespace UserThreads

/-! ## The guard -/

/-- The processor is in a call of the allocator made with the caller's signal mask. -/
def Control.inAllocator : Control → Bool
  | .alloc _ => true
  | _ => false

/-- A timer signal inside the allocator does not find another thread to run. -/
def Unpreempted (m : Machine) (a : Action) : Prop :=
  a = .tick → m.control.inAllocator = true → ∀ t ∈ m.threadQueue.entries, Useless m t

instance (m : Machine) (a : Action) : Decidable (Unpreempted m a) :=
  inferInstanceAs (Decidable (_ → _))

/-- The functions that call the allocator with the caller's signal mask. -/
def Fn.allocates : Fn → Bool
  | .waitQueueCreate => true
  | .waitQueueDestroy _ => true
  | .lockCreate => true
  | .lockDestroy _ => true
  | .cvCreate => true
  | .cvDestroy _ => true
  | _ => false

/-- The calls of the allocator are made by these functions. -/
lemma AllocPoint.allocates_fn (p : AllocPoint) : p.fn.allocates = true := by
  cases p <;> rfl

/-! ## The invariant -/

namespace View

variable {v v' : View} {l : Label}

/-- No live thread other than the current one is in a function that calls the allocator with the
caller's signal mask. -/
def Outside (v : View) : Prop :=
  ∀ t, t ≠ v.current → fate t v.trace = some .alive →
    ∀ f, (progress t v.trace).fn = some f → f.allocates = false

/-- What the guard says about a transaction. -/
def Leaves (v : View) : Label → Prop
  | .dispatch _ => v.state v.current ≠ .Destroyed →
      ∀ f, (progress v.current v.trace).fn = some f → f.allocates = false
  | _ => True

/-- A live thread other than the current one that is in a call has been in it before. -/
lemma Step.fn_of_ne (hs : Step v l v') {t : Tid} (ht : t ≠ v.current) {f : Fn}
    (halive : fate t v'.trace = some .alive) (hf : (progress t v'.trace).fn = some f) :
    fate t v.trace = some .alive ∧ (progress t v.trace).fn = some f := by
  refine hs.writes.invariant (I := fun tr => fate t tr = some .alive →
    (progress t tr).fn = some f → fate t v.trace = some .alive ∧ (progress t v.trace).fn = some f)
    (fun ha hp => ⟨ha, hp⟩) (fun e tr he ih ha hp => ?_) halive hf
  cases e with
  | called u g | returned u g r =>
    have hne : u ≠ t := fun heq => ht (heq ▸ he.1)
    exact ih (by simpa using ha) (by simpa [hne] using hp)
  | waited u x | halfway u x =>
    rw [progress] at hp
    split_ifs at hp <;> exact ih ha hp
  | created u g r | started u g r =>
    have hne : u ≠ t := by
      rintro rfl
      simp at hp
    exact ih (by simpa [hne] using ha) (by simpa [hne] using hp)
  | exited u c | killed u =>
    have hne : u ≠ t := by
      rintro rfl
      simp at ha
    exact ih (by simpa [hne] using ha) hp
  | _ => exact ih ha hp

/-- A function that puts its caller to sleep does not call the allocator. -/
lemma allocates_of_sleepsOn {f : Fn} {o : Owner} (h : f.sleepsOn o = true) :
    f.allocates = false := by
  cases f <;> first | rfl | cases h

/-- **Every transaction of an unpreempted step keeps the other threads outside the allocator.**

**Proof sketch.** The other threads do nothing, so they stay outside. The current thread matters
only where it loses the processor. That happens in `thread_yield`, `thread_sleep`, `thread_wait` or
`thread_kill`, which do not call the allocator, or by a tick, which the condition keeps out of the
allocator. -/
theorem Outside.step (h : v.Outside) (hlife : v.Life) (ho : v.Leaves l) (hs : Step v l v') :
    v'.Outside := by
  -- the current thread is outside when it loses the processor
  have hcurrent : v.current ≠ v'.current → fate v.current v'.trace = some .alive →
      ∀ f, (progress v.current v'.trace).fn = some f → f.allocates = false := by
    cases hs with
    | dispatch picks =>
      intro _ halive f hf
      exact ho (hlife.alive _ (by simpa using halive)) f (by simpa using hf)
    | yieldTo calls =>
      intro _ _ f hf
      obtain rfl : .threadYield _ = f := by simpa [calls.progress] using hf
      rfl
    | @sleep g q o o' t es ts calls sleeps =>
      intro _ _ f hf
      obtain rfl : g = f := by simpa [calls.progress] using hf
      exact allocates_of_sleepsOn sleeps
    | wait calls =>
      intro _ _ f hf
      obtain rfl : .threadWait _ _ = f := by simpa [calls.progress] using hf
      rfl
    | @dieTo t w killed rsp heap dies =>
      intro _ halive f hf
      cases killed with
      | false =>
        obtain ⟨rfl, -⟩ := dies.bySelf rfl
        have hlife' := hlife.bury dies
        refine (hlife'.alive v.current ?_ (by simp)).elim
        simpa using halive
      | true =>
        obtain ⟨calls, -⟩ := dies.byOther rfl
        obtain rfl : .threadKill _ = f := by simpa [calls.progress] using hf
        rfl
    | _ => exact fun hne => (hne (by simp)).elim
  intro t ht halive f hf
  rcases eq_or_ne t v.current with rfl | hne
  · exact hcurrent ht halive f hf
  · obtain ⟨halive', hf'⟩ := hs.fn_of_ne hne halive hf
    exact h t hne halive' f hf'

/-- An unpreempted step does not switch a thread out inside the allocator. -/
lemma leaves_of_unpreempted {m : Machine} {a : Action} (hok : Unpreempted m a)
    (hp : Permits m a v l) (hs : Step v l v') : v.Leaves l := by
  cases hs with
  | dispatch =>
    intro hst f hf
    obtain ⟨t, hcalls⟩ | hidle | ⟨htick, ⟨t, ht, huse⟩, p, hcontrol, -⟩ := hp hst
    · rw [hcalls.progress] at hf
      cases hf
      rfl
    · rw [hidle] at hf
      cases hf
    · exact (huse (hok htick (by rw [hcontrol]; rfl) t ht)).elim
  | _ => trivial

end View

/-! ## Reachable states -/

variable {m : Machine}

/-- The thread `t` is inside `malloc369` or `free369`: the processor is there, or the timer signal
has switched it out there. -/
def InAllocator (m : Machine) (t : Tid) : Prop :=
  (t = m.currentThread ∧ ∃ p, m.control = .alloc p) ∨
    (m.threads t).state ≠ .Destroyed ∧
      ∃ c p, (m.threads t).ucontext = .saved c ∧ .interruptHandler (.alloc p) ∈ c.stack

/-- A thread that the signal has interrupted inside the allocator is in a function that calls it. -/
lemma Suspended.allocates {k : Stack} {pr : Progress} {p : AllocPoint} (h : Suspended k pr)
    (hk : .interruptHandler (.alloc p) ∈ k) : pr.fn = some p.fn := by
  cases h with
  | tick ha what =>
    obtain rfl : .alloc p = what := by simpa using hk
    rfl
  | _ => simp at hk

/-- In unpreempted runs the other threads are outside the allocator. -/
lemma ReachableBy.outside (h : ReachableBy Unpreempted m) (hrun : ¬ Stopped m) :
    (abs m).Outside := by
  have hview := h.view (I := fun v => v.Life ∧ v.Outside) (fun g => ?_) ?_
  · exact (hview.resolve_left hrun).2.2
  · exact ⟨life_threadInit g, fun t _ _ f hf => by cases hf⟩
  · rintro m a v l v' - - hok ⟨hlife, ho⟩ hv hpermits hs
    exact ⟨hlife.step hs, ho.step hlife (View.leaves_of_unpreempted hok hpermits hs) hs⟩

/-- **Only the current thread is inside the allocator**, in unpreempted runs.

**Proof sketch.** A thread that is inside the allocator and not the current one has been interrupted
there: its frames hold the point of the allocator where the signal came, so its call is one that
allocates. Unpreempted runs have no such thread (`Outside`). -/
theorem allocator_exclusive (h : ReachableBy Unpreempted m) (hrun : ¬ Stopped m) {t : Tid}
    (ht : InAllocator m t) : t = m.currentThread := by
  obtain ⟨hb, -⟩ := ReachableBy.life h hrun
  obtain ⟨rfl, -⟩ | ⟨hst, c, p, hsaved, hmem⟩ := ht
  · rfl
  · by_contra hne
    obtain ⟨halive, k, hk, hsus⟩ := hb.parkedAt hne hst
    rw [hsaved] at hk
    cases hk
    have hout := h.outside hrun t hne halive p.fn (hsus.allocates hmem)
    rw [p.allocates_fn] at hout
    cases hout

/-- The signal strikes thread 0 inside the `malloc369` of `lock_create`, while thread 1 is in the
ready queue, but asleep on a wait queue. -/
theorem allocator_exclusive_asleep :
    let m := after 42 [.call .waitQueueCreate, .exec, .call (.threadCreate 7 8),
      .call (.threadYield 1), .exec, .call (.threadYield 0), .exec, .call (.threadYield 1), .exec,
      .call (.threadSleep 1), .exec, .call .lockCreate, .tick]
    (m.threads 1).state = .Sleep ∧ 0 = m.currentThread := by
  intro m
  exact ⟨by decide +kernel, allocator_exclusive (reachableBy_after (by decide +kernel))
    (by decide +kernel) (.inl ⟨by decide +kernel, .lockCreate, by decide +kernel⟩)⟩

/-- **The allocator is re-entered.** The signal strikes thread 0 inside the `malloc369` of
`lock_create`, and thread 1 enters the `malloc369` of `wait_queue_create`. -/
theorem allocator_reentered :
    let m := after 42 [.call (.threadCreate 7 8), .call .lockCreate, .tick, .exec,
      .call .waitQueueCreate]
    Reachable m ∧ ¬ Stopped m ∧ m.currentThread = 1 ∧ InAllocator m 0 ∧ InAllocator m 1 := by
  intro m
  refine ⟨reachable_after (by decide), by decide, by decide, .inr ⟨by decide, ?_⟩,
    .inl ⟨by decide, .waitQueueCreate, by decide⟩⟩
  exact ⟨⟨NULL, false, [.threadYield false 1 true, .interruptHandler (.alloc .lockCreate)]⟩,
    .lockCreate, by decide, by decide⟩

end UserThreads
