import UserSpaceThreads.Discipline

set_option relaxedAutoImplicit false
set_option autoImplicit false

/-!
# Waiter links

`threads[t].waiter` is set by `thread_wait(t)` and cleared only when the slot of `t` is filled
again. If the waiter is killed the link stays, and from then on it names a dead thread, or a new
one that got its id. In disciplined runs that do not kill waiters, every link of a live thread
leads to the thread that is suspended inside `thread_wait` of it.

## Main definitions

* `UserThreads.Careful` — the guard of such runs.
* `UserThreads.WaitersLinked` — what the waiter links are to mean.

## Main results

* `UserThreads.waiters_linked` — in careful runs all links are true.
* `UserThreads.waiter_stale` — a run after which a link leads to a dead thread, and the next
  death fails the assertion of `handle_death`.
-/

namespace UserThreads

open History (Always)

/-- A step of a disciplined run, which does not kill the waiter of a live thread. -/
def Careful (m : Machine) : Action → Prop
  | .call (.threadKill t) => NamesOther m t →
      ∀ x : ℤ, 0 ≤ x → x < THREAD_MAX_THREADS → (m.threads x).state ≠ .Destroyed →
        (m.threads x).waiter ≠ t
  | a => Disciplined m a

instance (m : Machine) (a : Action) : Decidable (Careful m a) := by
  unfold Careful
  split <;> infer_instance

/-- Careful runs are disciplined. -/
lemma Careful.disciplined {m : Machine} {a : Action} (h : Careful m a) : Disciplined m a := by
  unfold Careful at h
  split at h
  · trivial
  · exact h

/-- What the history says about deaths: the thread that a death makes Running has been asleep in
`thread_wait` of the dead thread. -/
def Releases (e : Event) (tr : List Event) : Prop :=
  match e with
  | .released t w => dormant w tr = some (.thread t)
  | _ => True

/-! ## The invariant -/

namespace View

variable {v v' : View} {l : Label}

/-- The waiters of live threads are alive and in `thread_wait`. -/
structure Attended (v : View) : Prop where
  waiter : ∀ x, v.state x ≠ .Destroyed → v.waiter x ≠ -1 →
    v.state (v.waiter x) ≠ .Destroyed ∧ (progress (v.waiter x) v.trace).waits = some x
  released : Always Releases v.trace

/-- The transaction does not kill the waiter of a live thread. -/
def Spares (v : View) : Label → Prop
  | .die t killed => killed = true → ∀ x, v.state x ≠ .Destroyed → v.waiter x ≠ t
  | .dieTo t _ killed => killed = true → ∀ x, v.state x ≠ .Destroyed → v.waiter x ≠ t
  | _ => True

/-- The current thread is not the waiter of a live thread. -/
lemma Orderly.waiter_ne_current (h : v.Orderly) (hcur : v.state v.current ≠ .Sleep)
    (ha : v.Attended) {x : Tid} (hx : v.state x ≠ .Destroyed) (hw : v.waiter x ≠ -1) :
    v.waiter x ≠ v.current := by
  intro heq
  have hst := (h.waiters x hx hw (ha.waiter x hx hw).1).1
  rw [heq] at hst
  exact hcur hst

/-- A transaction that does not touch waiters and lives, and of the calls only that of the
current thread. -/
lemma Attended.still (h : v.Attended) (ho : v.Orderly) (hcur : v.state v.current ≠ .Sleep)
    (hstate : ∀ t, v'.state t = .Destroyed ↔ v.state t = .Destroyed)
    (hwaiter : v'.waiter = v.waiter)
    (hprogress : ∀ t, t ≠ v.current → progress t v'.trace = progress t v.trace)
    (hr : Always Releases v'.trace) : v'.Attended where
  waiter x hx hw := by
    rw [hwaiter] at hw ⊢
    have hx' : v.state x ≠ .Destroyed := fun hd => hx ((hstate x).mpr hd)
    obtain ⟨hst, hwaits⟩ := h.waiter x hx' hw
    refine ⟨fun hd => hst ((hstate _).mp hd), ?_⟩
    rwa [hprogress _ (ho.waiter_ne_current hcur h hx' hw)]
  released := hr

/-- The end of a thread that is not the waiter of a live one. -/
lemma Attended.bury (h : v.Attended) {t : Tid}
    (hspares : ∀ x, v.state x ≠ .Destroyed → v.waiter x ≠ t) (killed : Bool) (rsp : Addr)
    (heap : Heap) : (v.bury t killed rsp heap).Attended where
  waiter x hx hw := by
    rw [View.bury_waiter] at hw ⊢
    have hxt : x ≠ t := by
      rintro rfl
      simp at hx
    have hx' : v.state x ≠ .Destroyed := by simpa [hxt] using hx
    obtain ⟨hst, hwaits⟩ := h.waiter x hx' hw
    refine ⟨?_, by simpa using hwaits⟩
    simpa [hspares x hx'] using hst
  released := View.always_bury _ _ _ _ _ (fun _ _ _ _ => trivial) (fun _ _ _ => trivial) h.released

/-- A transaction whose events concern the calls of the current thread only. -/
lemma Attended.quiet (h : v.Attended) (ho : v.Orderly) (hcur : v.state v.current ≠ .Sleep)
    (hstate : v'.state = v.state) (hwaiter : v'.waiter = v.waiter)
    (hprogress : ∀ t, t ≠ v.current → progress t v'.trace = progress t v.trace)
    (hr : Always Releases v'.trace) : v'.Attended :=
  h.still ho hcur (fun _ => by rw [hstate]) hwaiter hprogress hr

/-- **Every transaction of a careful step keeps the waiters where the links lead.**

**Proof sketch.** By the transaction. The waiter of a live thread is never the current thread
(`waiter_ne_current`), so what the current thread does to itself does not touch a link. A waiter
that is killed is what the condition on the run excludes. A waiter that is released belongs to the
thread that has just died, so its link counts no longer. -/
theorem Attended.step (h : v.Attended) (ho : v.Orderly) (hlife : v.Life)
    (hcur : v.state v.current ≠ .Sleep) (hord : v.Orders l) (hspares : v.Spares l)
    (hs : Step v l v') : v'.Attended := by
  have halive {f : Fn} (hc : v.Calls f) : v.state v.current ≠ .Destroyed :=
    hlife.alive _ hc.alive
  have hswitch {es : List Tid} {u : Tid} {tr : List Event} (t : Tid) (htr : Always Releases tr) :
      Always Releases (.switched t :: pushTrace es u tr) :=
    ⟨trivial, (always_pushTrace _ _ _ fun _ _ _ => trivial).mpr htr⟩
  -- a thread that dies by itself is the current one, and that is nobody's waiter
  have hself {t : Tid} {killed : Bool} {rsp : Addr} {heap : Heap} (hd : v.Dies t killed rsp heap)
      (hk : killed = true → ∀ x, v.state x ≠ .Destroyed → v.waiter x ≠ t) (x : Tid)
      (hx : v.state x ≠ .Destroyed) : v.waiter x ≠ t := by
    cases killed with
    | true => exact hk rfl x hx
    | false =>
      obtain ⟨rfl, -, -⟩ := hd.bySelf rfl
      by_cases hw : v.waiter x = -1
      · rw [hw]
        exact (ho.valid _ hd.state).ne.2.2.1.symm
      · exact ho.waiter_ne_current hcur h hx hw
  cases hs with
  | called | returned | started =>
    exact h.quiet ho hcur rfl rfl (fun t ht => by simp [ht.symm]) ⟨trivial, h.released⟩
  | exit => exact h.quiet ho hcur rfl rfl (fun _ _ => rfl) ⟨trivial, h.released⟩
  | @create num fn parg calls pos valid dead =>
    refine ⟨fun x hx hw => ?_, (always_pushTrace _ _ _ fun _ _ _ => trivial).mpr
      ⟨trivial, h.released⟩⟩
    have hne : x ≠ num := by
      rintro rfl
      simp at hw
    have hx' : v.state x ≠ .Destroyed := by simpa [hne] using hx
    obtain ⟨hst, hwaits⟩ := h.waiter x hx' (by simpa [hne] using hw)
    have hwne : v.waiter x ≠ num := fun heq => hst (heq ▸ dead)
    simpa [hne, hwne, hwne.symm] using ⟨hst, hwaits⟩
  | discard => exact h.quiet ho hcur rfl rfl (fun _ _ => rfl) h.released
  | dispatch | yieldTo =>
    exact h.quiet ho hcur rfl rfl (fun _ _ => by simp) (hswitch _ h.released)
  | sleep calls =>
    refine h.still ho hcur (fun t => ?_) rfl (fun _ _ => by simp) (hswitch _ ⟨trivial, h.released⟩)
    rcases eq_or_ne t v.current with rfl | hne
    · simp [halive calls]
    · simp [hne]
  | sleepNone calls =>
    refine h.still ho hcur (fun t => ?_) rfl (fun _ _ => rfl) ⟨trivial, trivial, h.released⟩
    rcases eq_or_ne t v.current with rfl | hne
    · simp [halive calls]
    · simp [hne]
  | @wait x t c ts calls valid state ne waiter picks =>
    refine ⟨fun y hy hw => ?_, hswitch _ ⟨trivial, h.released⟩⟩
    rcases eq_or_ne y x with rfl | hyx
    · simp
    · have hy' : v.state y ≠ .Destroyed := by
        rcases eq_or_ne y v.current with rfl | hyc
        · exact halive calls
        · simpa [hyc] using hy
      have hw' : v.waiter y ≠ -1 := by simpa [hyx] using hw
      have hne := ho.waiter_ne_current hcur h hy' hw'
      simpa [hyx, hne, hne.symm] using h.waiter y hy' hw'
  | waitNone => exact hord.elim
  | @wake f q o o' t es calls wakes access queue state =>
    refine h.still ho hcur (fun u => ?_) rfl (fun _ _ => by simp)
      ((always_pushTrace _ _ _ fun _ _ _ => trivial).mpr ⟨trivial, h.released⟩)
    rcases eq_or_ne u t with rfl | hne
    · simp [state]
    · simp [hne]
  | skip => exact h.quiet ho hcur rfl rfl (fun _ _ => rfl) h.released
  | die dies waiter => exact h.bury (hself dies hspares) _ _ _
  | @dieTo t w killed rsp heap dies waiter valid state ne =>
    have hb := h.bury (hself dies hspares) killed rsp heap
    have hdorm : dormant w v.trace = some (.thread t) := by
      have hwait := ho.waiters t dies.state (by rw [waiter]; exact valid.ne.2.2.1)
        (by rw [waiter, state]; decide)
      rw [waiter] at hwait
      exact hwait.2
    refine ⟨fun x hx hw => ?_, hswitch _ ⟨by simpa [Releases] using hdorm, hb.released⟩⟩
    obtain ⟨hst, hwaits⟩ := hb.waiter x (by
      rcases eq_or_ne x w with rfl | hxw
      · simp [ne, state]
      · simpa [hxw] using hx) (by simpa using hw)
    refine ⟨?_, by simpa using hwaits⟩
    rcases eq_or_ne (v.waiter x) w with heq | hxw
    · simp [heq]
    · simpa [hxw] using hst
  | dieBack dies waiter state => exact (hcur state).elim
  | take | give => exact h.quiet ho hcur rfl rfl (fun _ _ => rfl) h.released
  | newQueue | newLock | newCv =>
    exact h.quiet ho hcur rfl rfl (fun t ht => by simp [ht.symm]) ⟨trivial, trivial, h.released⟩
  | newHalf =>
    exact h.quiet ho hcur rfl rfl (fun t ht => by simp [ht.symm]) ⟨trivial, h.released⟩
  | dropQueue | dropHalf | dropLock | dropCv =>
    exact h.quiet ho hcur rfl rfl (fun t ht => by simp [ht.symm]) ⟨trivial, trivial, h.released⟩

/-- A careful step does not kill the waiter of a live thread. -/
lemma spares_of_careful {m : Machine} {a : Action} (h : v.Orderly) (hok : Careful m a)
    (hp : Permits m a v l) (hs : Step v l v') : v.Spares l := by
  have hkill {t : Tid} {rsp : Addr} {heap : Heap} (hd : v.Dies t true rsp heap)
      (hpk : a = .call (.threadKill t) ∧ Unchanged m v) (x : Tid) (hx : v.state x ≠ .Destroyed) :
      v.waiter x ≠ t := by
    obtain ⟨rfl, hu⟩ := hpk
    obtain ⟨hx0, hx1⟩ := h.valid x hx
    obtain ⟨-, hne, -⟩ := hd.byOther rfl
    have hst := hd.state
    rw [Unchanged] at hu
    rw [hu] at hx hst hne ⊢
    exact hok ⟨hne, hd.valid, hst⟩ x hx0 hx1 hx
  cases hs with
  | die dies =>
    rintro rfl
    exact hkill dies (hp rfl)
  | dieTo dies =>
    rintro rfl
    exact hkill dies (hp.1 rfl)
  | _ => trivial

end View

/-! ## Reachable states -/

variable {m : Machine}

/-- What the waiter links are to mean. -/
structure WaitersLinked (m : Machine) : Prop where
  /-- the waiter of a live thread is asleep in `thread_wait` of it -/
  waiter : ∀ t w, (m.threads t).state ≠ .Destroyed → (m.threads t).waiter = w → w ≠ -1 →
    (m.threads w).state = .Sleep ∧ dormant w m.trace = some (.thread t) ∧
      ∃ a c, (m.threads w).ucontext = .saved ⟨(m.threads w).stackStart, false,
        [.threadYield false a true, .threadWait t c true, .user (.threadWait t c)]⟩
  /-- different live threads have different waiters -/
  unique : ∀ t u, (m.threads t).state ≠ .Destroyed → (m.threads u).state ≠ .Destroyed →
    (m.threads t).waiter ≠ -1 → (m.threads t).waiter = (m.threads u).waiter → t = u
  /-- the assertion of `handle_death` does not fail -/
  death : ∀ t k m', (m.threads t).state ≠ .Destroyed → handleDeath t k m = .jump m' →
    m'.control ≠ .aborted
  /-- `thread_wait` of a live thread is refused only if another thread is waiting for it -/
  refusal : ∀ t c k m', isValidThread t → (m.threads t).state ≠ .Destroyed →
    t ≠ m.currentThread → threadWait t c k m = .ret ⟨THREAD_INVALID, none⟩ m' →
      ∃ w, w ≠ m.currentThread ∧ (m.threads w).state = .Sleep ∧
        dormant w m.trace = some (.thread t)

/-- The stack of a thread that waits for another one. -/
lemma Suspended.of_waits {k : Stack} {p : Progress} {x : Tid} (h : Suspended k p)
    (hw : p.waits = some x) : ∃ a c,
      k = [.threadYield false a true, .threadWait x c true, .user (.threadWait x c)] := by
  cases h with
  | wait ha hx c =>
    cases hw
    exact ⟨_, c, rfl⟩
  | tick ha what => cases what <;> cases hw
  | _ => cases hw

/-- A death gives the processor to a sleeping waiter that has a saved context, or keeps it. -/
lemma handleDeath_control {t w : Tid} {k : Stack} {m' : Machine} (hw : (m.threads t).waiter = w)
    (hlink : w ≠ -1 → isValidThread w ∧ (m.threads w).state = .Sleep ∧ w ≠ m.currentThread ∧
      ∃ c, (m.threads w).ucontext = .saved c)
    (h : handleDeath t k m = .jump m') : m'.control ≠ .aborted := by
  by_cases halone : w = -1 ∨ w = t
  · rw [handleDeath_alone fun hne => .inl (hw.trans (halone.resolve_left (hw ▸ hne)))] at h
    cases h
  · obtain ⟨hnone, hne⟩ := not_or.mp halone
    obtain ⟨hv, hst, hcur, c, hc⟩ := hlink hnone
    rw [handleDeath_waited hw hne hv (by rw [hst]; decide), hst, if_neg (by decide),
      if_neg hcur] at h
    cases h
    rw [threadYieldSwitch_control (c := c) (by simpa using hcur)]
    · exact nofun
    · simp [Function.update_of_ne hne, hc]

/-- `thread_wait` of a live thread is refused if it has a waiter. -/
lemma waiter_of_refused {t : Tid} {c : Bool} {k : Stack} {m' : Machine} (hv : isValidThread t)
    (hst : (m.threads t).state ≠ .Destroyed) (hne : t ≠ m.currentThread)
    (h : threadWait t c k m = .ret ⟨THREAD_INVALID, none⟩ m') : (m.threads t).waiter ≠ -1 := by
  intro hw
  rw [threadWait] at h
  simp only [Machine.interruptsSet_threads, Machine.interruptsSet_currentThread] at h
  split_ifs at h with _ hkilled hwaiter
  · exact hst hkilled.1
  · exact hwaiter hw
  · -- behind its `thread_yield`, `thread_wait` answers `t`
    generalize threadYield THREAD_ANY _ _ = o at h
    cases o with
    | jump m₁ => cases h
    | ret a m₁ =>
      rw [Outcome.bind, threadWaitAfterYield] at h
      split_ifs at h
      simp only [threadWaitFinish, Outcome.ret.injEq, Ret.mk.injEq] at h
      obtain ⟨⟨rfl, -⟩, -⟩ := h
      exact absurd hv (by decide)

/-- **The waiter links of live threads are true** in careful runs.

**Proof sketch.** `Attended` says that the waiter of a live thread is inside `thread_wait`, and
`Orderly` that it sleeps there, on that thread. Where it is suspended follows from the frames that a
thread in `thread_wait` can have (`of_waits`). A sleeper has one link only, so two threads do not
share a waiter. The last two parts read the code with these facts. -/
theorem waiters_linked (h : ReachableBy Careful m) (hrun : ¬ Stopped m) :
    Always Releases m.trace ∧ WaitersLinked m := by
  have hview := h.view (I := fun v => v.Life ∧ v.Orderly ∧ v.state v.current ≠ .Sleep ∧ v.Attended)
    (fun g => ⟨life_threadInit g, orderly_threadInit g, by simp [threadInit], ?_, trivial⟩) ?_
  · obtain ⟨hb, hlife, ho, hcur, hatt⟩ := hview.resolve_left hrun
    have hlink (t w : Tid) (ht : (m.threads t).state ≠ .Destroyed) (hw : (m.threads t).waiter = w)
        (hne : w ≠ -1) : (m.threads w).state = .Sleep ∧ dormant w m.trace = some (.thread t) ∧
          ∃ a c, (m.threads w).ucontext = .saved ⟨(m.threads w).stackStart, false,
            [.threadYield false a true, .threadWait t c true, .user (.threadWait t c)]⟩ := by
      subst hw
      obtain ⟨hst, hwaits⟩ := hatt.waiter t ht hne
      obtain ⟨hsleep, hdorm⟩ := ho.waiters t ht hne hst
      have hother := ho.waiter_ne_current hcur hatt ht hne
      obtain ⟨-, k, hk, hsus⟩ := hb.parkedAt hother hst
      obtain ⟨a, c, rfl⟩ := hsus.of_waits hwaits
      exact ⟨hsleep, hdorm, a, c, hk⟩
    refine ⟨hatt.released, hlink, fun t u ht hu hne heq => ?_, fun t k m' ht hdeath => ?_,
      fun t c k m' hv ht hne hwait => ?_⟩
    · have hdorm := (hlink t _ ht rfl hne).2.1
      rw [(hlink u _ hu heq.symm hne).2.1] at hdorm
      cases hdorm
      rfl
    · refine handleDeath_control rfl (fun hne => ?_) hdeath
      obtain ⟨hsleep, -, a, c, hu⟩ := hlink t _ ht rfl hne
      exact ⟨ho.valid _ (by rw [abs_state, hsleep]; decide), hsleep,
        ho.waiter_ne_current hcur hatt ht hne, _, hu⟩
    · have hw := waiter_of_refused hv ht hne hwait
      obtain ⟨hsleep, hdorm, -⟩ := hlink t _ ht rfl hw
      exact ⟨_, ho.waiter_ne_current hcur hatt ht hw, hsleep, hdorm⟩
  · intro x _ hw
    refine (hw ?_).elim
    rw [abs_waiter, threadInit]
    dsimp only
    split_ifs <;> rfl
  · rintro m a v l v' - - ha ⟨hlife, ho, hcur, hatt⟩ hv hpermits hs
    have horders := View.orders_of_disciplined ho ha.disciplined hpermits hs
    obtain ⟨ho', hcur'⟩ := ho.step hcur hlife hv horders hs
    exact ⟨hlife.step hs, ho', hcur',
      hatt.step ho hlife hcur horders (View.spares_of_careful ho ha hpermits hs) hs⟩

/-- Thread 0 waits for thread 1 while thread 2 runs. -/
theorem waiters_linked_waiting :
    let m := after 42 [.call (.threadCreate 7 8), .call (.threadCreate 7 9),
      .call (.threadWait 1 true), .exec, .call (.threadYield 2), .exec]
    Always Releases m.trace ∧ WaitersLinked m :=
  waiters_linked (reachableBy_after (by decide +kernel)) (by decide)

/-- The calls after which thread 2 has a dead waiter. -/
def staleRun : List Action :=
  [.call (.threadCreate 7 8), .call (.threadCreate 7 9), .call (.threadYield 1), .exec,
    .call (.threadWait 2 true), .exec, .tick, .exec, .call (.threadKill 1)]

/-- **A waiter link goes stale.** Thread 1 waits for thread 2 and is killed: the link of thread 2
leads to a dead thread. When a new thread gets the id 1, the death of thread 2 fails the
assertion of `handle_death`. -/
theorem waiter_stale :
    let m := after 42 staleRun
    let m' := after 42 (staleRun ++ [.call (.threadCreate 7 10), .call (.threadKill 2)])
    Reachable m ∧ m.control = .user ∧ (m.threads 2).state = .Running ∧ (m.threads 2).waiter = 1 ∧
      (m.threads 1).state = .Destroyed ∧ ¬ WaitersLinked m ∧
      Reachable m' ∧ m'.control = .aborted := by
  intro m m'
  have halive : (m.threads 2).state = .Running := by decide
  have hwaiter : (m.threads 2).waiter = 1 := by decide
  have hdead : (m.threads 1).state = .Destroyed := by decide
  refine ⟨reachable_after (by decide), by decide, halive, hwaiter, hdead, fun h => ?_,
    reachable_after (by decide), by decide⟩
  have hsleep := (h.waiter 2 1 (by rw [halive]; decide) hwaiter (by decide)).1
  rw [hdead] at hsleep
  cases hsleep

end UserThreads
