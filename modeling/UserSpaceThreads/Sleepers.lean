import UserSpaceThreads.Pointers
import UserSpaceThreads.Ready

set_option relaxedAutoImplicit false
set_option autoImplicit false

/-!
# What sleepers sleep on

The only way back from the state Sleep is an id in a wait queue or in the field `waiter` of a
live thread. `wait_queue_destroy` and `cv_destroy` free a wait queue without looking whether it
is empty, although `thread.h` asks for it, and `thread_sleep` ignores that `queue_push` may refuse
an entry. In runs in which neither costs a sleeper its link, every sleeper can be woken.

## Main definitions

* `UserThreads.Sheltered` — the guard.
* `UserThreads.View.Anchored` — the invariant.
* `UserThreads.NoOrphans` — what it means for the machine.

## Main results

* `UserThreads.View.Anchored.step` — every transaction of a sheltered step keeps the invariant.
* `UserThreads.no_orphans` — sleepers keep their links in sheltered runs.
* `UserThreads.sleeper_orphaned` — a wait queue is destroyed under its sleeper.
-/

namespace UserThreads

/-! ## The guard -/

/-- A thread that goes to sleep finds room in the wait queue, and no thread is asleep on a wait
queue that is freed. -/
def Sheltered (m : Machine) (a : Action) : Prop :=
  (∀ q ∈ sleepQueue m a, ∀ wq ∈ m.waitQueues q, Roomy wq.queue.entries m.currentThread) ∧
    ∀ q ∈ freedQueue m a, ∀ wq ∈ m.waitQueues q, ∀ t ∈ wq.queue.entries,
      (m.threads t).state = .Sleep → dormant t m.trace ≠ some (.queue q)

instance (m : Machine) (a : Action) : Decidable (Sheltered m a) :=
  inferInstanceAs (Decidable (_ ∧ _))

/-- A wait queue that has lost entries at its head still has room. -/
lemma Roomy.of_suffix {es es₀ : List Tid} {t : Tid} (h : Roomy es₀ t) (hes : es <:+ es₀)
    (hlen : (es₀.length : ℤ) ≤ QUEUE_CAPACITY) : Roomy es t := by
  obtain ⟨ds, rfl⟩ := hes
  rw [List.length_append] at hlen
  rcases ds with - | ⟨d, ds⟩
  · exact h
  · left
    rw [List.length_cons] at hlen
    push_cast at hlen
    omega

/-! ## The invariant -/

namespace View

variable {v v' : View} {l : Label}

/-- The thread `t` can be woken from `b`. -/
def Held (v : View) (t : Tid) : Blocker → Prop
  | .queue q => ∃ o es, v.queues q = some (o, es) ∧ t ∈ es
  | .thread x => v.state x ≠ .Destroyed ∧ v.waiter x = t

/-- A thread in the state Sleep has suspended itself on something, and can be woken from it. -/
structure Anchored (v : View) : Prop where
  valid : ∀ t, v.state t ≠ .Destroyed → isValidThread t
  asleep : ∀ t, v.state t = .Sleep → ∃ b, dormant t v.trace = some b ∧ v.Held t b

/-- What the guard says about a transaction. -/
def Shelters (v : View) : Label → Prop
  | .sleep q _ _ => ∀ o es, v.queues q = some (o, es) → Roomy es v.current
  | .dropQueue q => ∀ t, v.state t = .Sleep → dormant t v.trace ≠ some (.queue q)
  | .dropHalf _ q => ∀ t, v.state t = .Sleep → dormant t v.trace ≠ some (.queue q)
  | _ => True

/-- A transaction in which no thread goes to sleep, and sleepers keep their links. -/
lemma Anchored.keeps (h : v.Anchored)
    (hvalid : ∀ t, v'.state t ≠ .Destroyed → v.state t ≠ .Destroyed ∨ isValidThread t)
    (hasleep : ∀ t, v'.state t = .Sleep → v.state t = .Sleep ∧
      dormant t v'.trace = dormant t v.trace)
    (hheld : ∀ t b, v'.state t = .Sleep → dormant t v.trace = some b → v.Held t b → v'.Held t b) :
    v'.Anchored where
  valid t ht := (hvalid t ht).elim (h.valid t) id
  asleep t ht := by
    obtain ⟨hst, hdormant⟩ := hasleep t ht
    obtain ⟨b, hb, hheld'⟩ := h.asleep t hst
    exact ⟨b, hdormant.trans hb, hheld t b ht hb hheld'⟩

/-- A transaction that does not concern sleepers. -/
lemma Anchored.quiet (h : v.Anchored) (hstate : v'.state = v.state) (hwaiter : v'.waiter = v.waiter)
    (hqueues : v'.queues = v.queues) (hdormant : ∀ t, dormant t v'.trace = dormant t v.trace) :
    v'.Anchored := by
  refine h.keeps (fun t ht => .inl (hstate ▸ ht)) (fun t ht => ⟨hstate ▸ ht, hdormant t⟩)
    fun t b _ _ hb => ?_
  cases b with
  | queue q =>
    obtain ⟨o, es, hq, hmem⟩ := hb
    exact ⟨o, es, hqueues ▸ hq, hmem⟩
  | thread x =>
    rw [Held, hstate, hwaiter]
    exact hb

/-- The wait queue `q` changes, but keeps the threads that are asleep. -/
lemma Held.update {t : Tid} {b : Blocker} (h : v.Held t b) {q : Addr} {o o' : Owner}
    {es es' : List Tid} (hq : v.queues q = some (o, es)) (hes : t ∈ es → t ∈ es')
    (hqueues : v'.queues = Function.update v.queues q (some (o', es')))
    (hstate : ∀ x, v.state x ≠ .Destroyed → v'.state x ≠ .Destroyed)
    (hwaiter : v'.waiter = v.waiter) :
    v'.Held t b := by
  cases b with
  | queue p =>
    obtain ⟨o₁, es₁, hp, hmem⟩ := h
    rcases eq_or_ne p q with rfl | hne
    · rw [hq] at hp
      cases hp
      exact ⟨o', es', by simp [hqueues], hes hmem⟩
    · exact ⟨o₁, es₁, by simpa [hqueues, hne] using hp, hmem⟩
  | thread x =>
    rw [Held, hwaiter]
    exact ⟨hstate x h.1, h.2⟩

/-- The thread `t` goes to sleep on a wait queue that has room. -/
lemma Anchored.asleepOn (h : v.Anchored) {t : Tid} (ht : v.state t ≠ .Destroyed) {q : Addr}
    {o : Owner} {es : List Tid} (hq : v.queues q = some (o, es)) (hroom : Roomy es t) :
    (v.asleep t q o es).Anchored where
  valid u hu := by
    rcases eq_or_ne u t with rfl | hne
    · exact h.valid u ht
    · exact h.valid u (by simpa [hne] using hu)
  asleep u hu := by
    rcases eq_or_ne u t with rfl | hne
    · exact ⟨.queue q, by simp, o, pushEntry es u, by simp, hroom.mem⟩
    · obtain ⟨b, hb, hheld⟩ := h.asleep u (by simpa [hne] using hu)
      refine ⟨b, by simpa [hne.symm] using hb,
        hheld.update hq mem_pushEntry_of_mem rfl (fun x hx => ?_) rfl⟩
      rcases eq_or_ne x t with rfl | hxt
      · simp
      · simpa [hxt] using hx

/-- The thread `t` starts to wait for a live thread that has no waiter.

**Proof sketch.** The new link leads to a live thread whose waiter is now the sleeper. No other link
led there, as that thread had no waiter. -/
lemma Anchored.awaitingFor (h : v.Anchored) {t x : Tid} (ht : v.state t ≠ .Destroyed)
    (hx : v.state x ≠ .Destroyed) (hne : x ≠ t) (hwaiter : v.waiter x = -1) :
    (v.awaiting t x).Anchored where
  valid u hu := by
    rcases eq_or_ne u t with rfl | hut
    · exact h.valid u ht
    · exact h.valid u (by simpa [hut] using hu)
  asleep u hu := by
    rcases eq_or_ne u t with rfl | hut
    · exact ⟨.thread x, by simp, by simpa [hne] using hx, by simp⟩
    · have hst : v.state u = .Sleep := by simpa [hut] using hu
      obtain ⟨b, hb, hheld⟩ := h.asleep u hst
      refine ⟨b, by simpa [hut.symm] using hb, ?_⟩
      cases b with
      | queue q => exact hheld
      | thread y =>
        obtain ⟨hy, hwy⟩ := hheld
        have hyx : y ≠ x := by
          rintro rfl
          have hvalid := h.valid u (by rw [hst]; decide)
          exact hvalid.ne.2.2.1 (hwy.symm.trans hwaiter)
        refine ⟨?_, by simpa [hyx] using hwy⟩
        rcases eq_or_ne y t with rfl | hyt
        · simp
        · simpa [hyt] using hy

/-- The first entry of a wait queue is removed, and its thread is not asleep any more. -/
lemma Anchored.popped (h : v.Anchored) {q : Addr} {o : Owner} {t : Tid} {es : List Tid}
    (hq : v.queues q = some (o, t :: es))
    (hqueues : v'.queues = Function.update v.queues q (some (o, es)))
    (hstate : ∀ u, u ≠ t → v'.state u = v.state u) (ht : v'.state t ≠ .Sleep)
    (hlive : v'.state t ≠ .Destroyed ↔ v.state t ≠ .Destroyed) (hwaiter : v'.waiter = v.waiter)
    (hdormant : ∀ u, u ≠ t → dormant u v'.trace = dormant u v.trace) : v'.Anchored := by
  have hne (u : Tid) (hu : v'.state u = .Sleep) : u ≠ t := by
    rintro rfl
    exact ht hu
  have hiff (u : Tid) : v'.state u ≠ .Destroyed ↔ v.state u ≠ .Destroyed := by
    rcases eq_or_ne u t with rfl | hut
    · exact hlive
    · rw [hstate u hut]
  refine h.keeps (fun u hu => .inl ((hiff u).mp hu))
    (fun u hu => ⟨(hstate u (hne u hu)).symm.trans hu, hdormant u (hne u hu)⟩)
    fun u b hu _ hheld => ?_
  exact hheld.update hq (fun hmem => (List.mem_cons.mp hmem).resolve_left (hne u hu)) hqueues
    (fun x hx => (hiff x).mpr hx) hwaiter

/-- A sleeper whose link does not lead to a thread that dies keeps it.

**Proof sketch.** A link to the dying thread belongs to its waiter, which by the premise is not
asleep. -/
lemma Anchored.bury (h : v.Anchored) {t : Tid} (killed : Bool) (rsp : Addr) (heap : Heap)
    (hwaiter : v.waiter t ≠ -1 → v.waiter t = t ∨ v.state (v.waiter t) ≠ .Sleep) :
    (v.bury t killed rsp heap).Anchored := by
  have hne (u : Tid) (hu : (v.bury t killed rsp heap).state u = .Sleep) : u ≠ t := by
    rintro rfl
    simp at hu
  have hst (u : Tid) (hut : u ≠ t) : (v.bury t killed rsp heap).state u = v.state u := by simp [hut]
  refine h.keeps (fun u hu => ?_) (fun u hu => ⟨?_, by simp⟩) fun u b hu _ hheld => ?_
  · rcases eq_or_ne u t with rfl | hut
    · simp at hu
    · exact .inl (hst u hut ▸ hu)
  · rwa [hst u (hne u hu)] at hu
  · have hut := hne u hu
    rw [hst u hut] at hu
    cases b with
    | queue q =>
      obtain ⟨o, es, hq, hmem⟩ := hheld
      exact ⟨o, es, by simpa using hq, hmem⟩
    | thread x =>
      obtain ⟨hx, hw⟩ := hheld
      have hxt : x ≠ t := by
        rintro rfl
        have hvalid := h.valid u (by rw [hu]; decide)
        rw [hw] at hwaiter
        rcases hwaiter hvalid.ne.2.2.1 with heq | hns
        · exact hut heq
        · exact hns hu
      exact ⟨by rwa [hst x hxt], by simpa using hw⟩

/-- A thread dies, and its waiter is released.

**Proof sketch.** The only link to the dying thread is that of its waiter, which is no longer
asleep. -/
lemma Anchored.buryRelease (h : v.Anchored) {t w : Tid} (hw : v.waiter t = w)
    (hlive : v.state w ≠ .Destroyed) (hne : w ≠ t) (killed : Bool) (rsp : Addr) (heap : Heap) :
    ((v.bury t killed rsp heap).release t w).Anchored := by
  have hst (u : Tid) (hut : u ≠ t) (huw : u ≠ w) :
      ((v.bury t killed rsp heap).release t w).state u = v.state u := by simp [hut, huw]
  have hother (u : Tid) (hu : ((v.bury t killed rsp heap).release t w).state u = .Sleep) :
      u ≠ t ∧ u ≠ w := by
    refine ⟨?_, ?_⟩
    · rintro rfl
      simp [hne.symm] at hu
    · rintro rfl
      simp at hu
  refine h.keeps (fun u hu => ?_) (fun u hu => ?_) fun u b hu hb hheld => ?_
  · rcases eq_or_ne u w with rfl | huw
    · exact .inl hlive
    · rcases eq_or_ne u t with rfl | hut
      · simp [huw] at hu
      · exact .inl (hst u hut huw ▸ hu)
  · obtain ⟨hut, huw⟩ := hother u hu
    exact ⟨hst u hut huw ▸ hu, by simp [huw.symm]⟩
  · obtain ⟨hut, huw⟩ := hother u hu
    cases b with
    | queue q =>
      obtain ⟨o, es, hq, hmem⟩ := hheld
      exact ⟨o, es, by simpa using hq, hmem⟩
    | thread x =>
      obtain ⟨hx, hwx⟩ := hheld
      have hxt : x ≠ t := by
        rintro rfl
        exact huw (hwx.symm.trans hw)
      refine ⟨?_, by simpa using hwx⟩
      rcases eq_or_ne x w with rfl | hxw
      · simp
      · rwa [hst x hxt hxw]

/-- Nobody is asleep on the wait queue that is freed. -/
lemma Anchored.drop (h : v.Anchored) {q : Addr}
    (hqueues : v'.queues = Function.update v.queues q none)
    (hstate : v'.state = v.state) (hwaiter : v'.waiter = v.waiter)
    (hdormant : ∀ t, dormant t v'.trace = dormant t v.trace)
    (hnobody : ∀ t, v.state t = .Sleep → dormant t v.trace ≠ some (.queue q)) : v'.Anchored := by
  refine h.keeps (fun t ht => .inl (hstate ▸ ht)) (fun t ht => ⟨hstate ▸ ht, hdormant t⟩)
    fun t b ht hb hheld => ?_
  cases b with
  | queue p =>
    obtain ⟨o, es, hp, hmem⟩ := hheld
    have hne : p ≠ q := by
      rintro rfl
      exact hnobody t (hstate ▸ ht) hb
    exact ⟨o, es, by rwa [hqueues, Function.update_of_ne hne], hmem⟩
  | thread x =>
    rw [Held, hstate, hwaiter]
    exact hheld

/-- A new wait queue is no one's. -/
lemma Anchored.newQueue (h : v.Anchored) (hp : v.Pointed) (o : Owner) :
    (v.newQueue o).Anchored := by
  refine h.keeps (fun t ht => .inl ht) (fun t ht => ⟨ht, rfl⟩) fun t b _ _ hheld => ?_
  cases b with
  | queue q =>
    obtain ⟨o', es, hq, hmem⟩ := hheld
    have hne : q ≠ v.brk := hp.ne_brk (.queue hq)
    exact ⟨o', es, by simpa [hne] using hq, hmem⟩
  | thread x => exact hheld

/-- **Every transaction of a sheltered step leaves sleepers their links.**

**Proof sketch.** By the transaction. A thread that falls asleep gets its link in the same
transaction (`asleepOn`, `awaitingFor`); the guard says that the push is not refused. A link goes
when its thread is woken or its target dies, and then the thread is no longer asleep, or when a wait
queue is freed, on which by the guard nobody sleeps. -/
theorem Anchored.step (h : v.Anchored) (hlife : v.Life) (hp : v.Pointed) (ho : v.Shelters l)
    (hs : Step v l v') : v'.Anchored := by
  have hlive {f : Fn} (hc : v.Calls f) : v.state v.current ≠ .Destroyed := hlife.alive _ hc.alive
  cases hs with
  | called | returned | started | exit | discard | take | give | newHalf | dropLock | dropCv =>
    exact h.quiet rfl rfl rfl fun _ => rfl
  | dispatch | yieldTo => exact h.quiet rfl rfl rfl (by simp)
  | @create num fn parg calls pos valid dead =>
    have hne (t : Tid) (ht : Function.update v.state num .Running t = .Sleep) : t ≠ num := by
      rintro rfl
      simp at ht
    refine h.keeps (fun t ht => ?_) (fun t ht => ?_) fun t b ht _ hheld => ?_
    · rcases eq_or_ne t num with rfl | htn
      · exact .inr valid
      · exact .inl (by simpa [htn] using ht)
    · have htn := hne t ht
      exact ⟨by simpa [htn] using ht, by simp [htn.symm]⟩
    · cases b with
      | queue q => exact hheld
      | thread x =>
        have hx : x ≠ num := by
          rintro rfl
          exact hheld.1 dead
        simpa [Held, hx] using hheld
  | @sleep f q o o' t es ts calls sleeps access queue lock picks =>
    exact (h.asleepOn (hlive calls) queue (ho o' es queue)).quiet rfl rfl rfl (by simp)
  | @sleepNone f q o o' es es' calls sleeps access queue lock ready last =>
    have hne (t : Tid) (ht : Function.update (Function.update v.state v.current .Sleep) v.current
        .Running t = .Sleep) : t ≠ v.current := by
      rintro rfl
      simp at ht
    have hst (t : Tid) (hne : t ≠ v.current) : Function.update (Function.update v.state v.current
        .Sleep) v.current .Running t = v.state t := by simp [hne]
    refine h.keeps (fun t ht => ?_) (fun t ht => ?_) fun t b ht _ hheld => ?_
    · rcases eq_or_ne t v.current with rfl | htc
      · exact .inl (hlive calls)
      · exact .inl (hst t htc ▸ ht)
    · have htc := hne t ht
      exact ⟨hst t htc ▸ ht, by simp [htc.symm]⟩
    · refine hheld.update queue (fun hmem => ?_) (Function.update_idem ..) (fun x hx => ?_) rfl
      · have hpushed := mem_pushEntry_of_mem (t := v.current) hmem
        rw [last] at hpushed
        simpa [hne t ht] using hpushed
      · rcases eq_or_ne x v.current with rfl | hxc
        · simp
        · exact (hst x hxc).trans_ne hx
  | @wait x t c ts calls valid state ne waiter picks =>
    exact (h.awaitingFor (hlive calls) state ne waiter).quiet rfl rfl rfl (by simp)
  | @waitNone x c calls valid state ne waiter ready =>
    exact (h.awaitingFor (hlive calls) state ne waiter).quiet rfl rfl rfl fun _ => rfl
  | @wake f q o o' t es calls wakes access queue state =>
    refine h.popped queue rfl (fun u hu => ?_) ?_ ?_ rfl fun u hu => ?_
    · simp [hu]
    · simp
    · simp [state]
    · simp [hu.symm]
  | @skip f q o o' t es calls wakes access queue state =>
    refine h.popped queue rfl (fun u _ => rfl) ?_ Iff.rfl rfl fun u _ => rfl
    rw [setQueue_state, state]
    decide
  | @die t killed rsp heap dies waiter =>
    refine h.bury killed rsp heap fun hw => (waiter hw).imp_right fun hdead => ?_
    rw [hdead]
    decide
  | @dieTo t w killed rsp heap dies waiter valid state ne =>
    exact (h.buryRelease waiter (by rw [state]; decide) ne killed rsp heap).quiet rfl rfl rfl
      (by simp)
  | @dieBack t killed rsp heap dies waiter state ne =>
    exact h.buryRelease waiter (by rw [state]; decide) ne killed rsp heap
  | newQueue => exact (h.newQueue hp .user).quiet rfl rfl rfl fun _ => rfl
  | @newLock l => exact (h.newQueue hp (.lock l)).quiet rfl rfl rfl fun _ => rfl
  | @newCv c => exact (h.newQueue hp (.cv c)).quiet rfl rfl rfl fun _ => rfl
  | dropQueue => exact h.drop rfl rfl rfl (fun _ => rfl) ho
  | dropHalf => exact h.drop rfl rfl rfl (fun _ => rfl) ho

/-- A sheltered step carries out transactions that spare the sleepers. -/
lemma shelters_of_sheltered {m : Machine} {a : Action} (h : v.Anchored) (hok : Sheltered m a)
    (hp : Permits m a v l) (hs : Step v l v') : v.Shelters l := by
  have hnobody {q : Addr} (hq : freedQueue m a = some q) (hv : v = abs m) (t : Tid)
      (ht : v.state t = .Sleep) : dormant t v.trace ≠ some (.queue q) := by
    subst hv
    intro hdormant
    obtain ⟨b, hb, hheld⟩ := h.asleep t ht
    obtain rfl : .queue q = b := Option.some.inj (hdormant.symm.trans hb)
    obtain ⟨o, es, hqueue, hmem⟩ := hheld
    obtain ⟨wq, hwq, -, rfl⟩ := waitQueue_of_abs hqueue
    exact hok.2 q hq wq hwq t hmem ht hdormant
  cases hs with
  | @sleep f q =>
    intro o es hq
    obtain ⟨es₀, hq₀, hsuffix⟩ := hp.trims o es hq
    obtain ⟨wq, hwq, -, rfl⟩ := waitQueue_of_abs hq₀
    rw [hp.current]
    refine (hok.1 q hp.queue wq hwq).of_suffix hsuffix ?_
    rw [Queue.length_entries]
    exact wq.queue.size_le
  | dropQueue => exact hnobody hp.1 hp.2
  | dropHalf => exact hnobody hp.1 hp.2
  | _ => trivial

end View

/-! ## Reachable states -/

variable {m : Machine}

/-- At the start nobody sleeps. -/
lemma anchored_threadInit (garbage : ℤ) : (abs (threadInit garbage)).Anchored := by
  have hst (t : Tid) :
      (abs (threadInit garbage)).state t = if t = 0 then .Running else .Destroyed := by
    rw [abs_state, threadInit]
    dsimp only
    split_ifs <;> rfl
  refine ⟨fun t ht => ?_, fun t ht => ?_⟩
  · rw [hst] at ht
    split_ifs at ht with h0
    · rw [h0]
      decide
    · exact (ht rfl).elim
  · rw [hst] at ht
    split_ifs at ht

/-- Sheltered runs leave sleepers their links. -/
lemma ReachableBy.anchored (h : ReachableBy Sheltered m) (hrun : ¬ Stopped m) :
    (abs m).Anchored := by
  have hview := h.view (I := fun v => v.Life ∧ v.Pointed ∧ v.Anchored)
    (fun g => ⟨life_threadInit g, pointed_threadInit g, anchored_threadInit g⟩) ?_
  · exact (hview.resolve_left hrun).2.2.2
  · rintro m a v l v' - - hok ⟨hlife, hp, ha⟩ hv hpermits hs
    exact ⟨hlife.step hs, hp.step hlife (View.entitled_of_permits hpermits) hs,
      ha.step hlife hp (View.shelters_of_sheltered ha hok hpermits hs) hs⟩

/-- No sleeper is orphaned. -/
structure NoOrphans (m : Machine) : Prop where
  /-- a sleeping thread has an entry in the wait queue that it has gone to sleep on, or is the
  waiter of the live thread that it has called `thread_wait` on -/
  linked : ∀ t, (m.threads t).state = .Sleep →
    (∃ q wq, dormant t m.trace = some (.queue q) ∧ m.waitQueues q = some wq ∧
      t ∈ wq.queue.entries) ∨
    ∃ x, dormant t m.trace = some (.thread x) ∧ (m.threads x).state ≠ .Destroyed ∧
      (m.threads x).waiter = t
  /-- nobody is asleep on a destroyed wait queue -/
  destroyed : ∀ q, m.waitQueues q = none →
    ∀ t, (m.threads t).state = .Sleep → dormant t m.trace ≠ some (.queue q)

/-- **No sleeper is orphaned**, in sheltered runs.

**Proof sketch.** The links are `Anchored`, which every sheltered run keeps. A wait queue that is
gone has no entries, so nobody has his link there. -/
theorem no_orphans (h : ReachableBy Sheltered m) (hrun : ¬ Stopped m) : NoOrphans m := by
  have ha := h.anchored hrun
  have hlinked (t : Tid) (ht : (m.threads t).state = .Sleep) :
      (∃ q wq, dormant t m.trace = some (.queue q) ∧ m.waitQueues q = some wq ∧
        t ∈ wq.queue.entries) ∨
      ∃ x, dormant t m.trace = some (.thread x) ∧ (m.threads x).state ≠ .Destroyed ∧
        (m.threads x).waiter = t := by
    obtain ⟨b, hb, hheld⟩ := ha.asleep t ht
    cases b with
    | queue q =>
      obtain ⟨o, es, hq, hmem⟩ := hheld
      obtain ⟨wq, hwq, -, rfl⟩ := waitQueue_of_abs hq
      exact .inl ⟨q, wq, hb, hwq, hmem⟩
    | thread x => exact .inr ⟨x, hb, hheld⟩
  refine ⟨hlinked, fun q hq t ht hdormant => ?_⟩
  obtain ⟨p, wq, hp, hwq, -⟩ | ⟨x, hx, -⟩ := hlinked t ht
  · rw [hdormant] at hp
    cases hp
    rw [hq] at hwq
    cases hwq
  · rw [hdormant] at hx
    cases hx

/-- Thread 1 sleeps on one wait queue, and thread 0 destroys another one. -/
theorem no_orphans_other :
    NoOrphans (after 42 [.call .waitQueueCreate, .exec, .call .waitQueueCreate, .exec,
      .call (.threadCreate 7 8), .call (.threadYield 1), .exec, .call (.threadSleep 1), .exec,
      .call (.waitQueueDestroy 2), .exec]) :=
  no_orphans (reachableBy_after (by decide +kernel)) (by decide)

/-- **A sleeper is orphaned.** Thread 1 sleeps on a wait queue, and thread 0 destroys it. -/
theorem sleeper_orphaned :
    let m := after 42 [.call .waitQueueCreate, .exec, .call (.threadCreate 7 8),
      .call (.threadYield 1), .exec, .call (.threadSleep 1), .exec,
      .call (.waitQueueDestroy 1), .exec]
    Reachable m ∧ m.control = .user ∧ m.currentThread = 0 ∧ (m.threads 1).state = .Sleep ∧
      dormant 1 m.trace = some (.queue 1) ∧ m.waitQueues 1 = none ∧ ¬ NoOrphans m := by
  intro m
  have hst : (m.threads 1).state = .Sleep := by decide
  have hdormant : dormant 1 m.trace = some (.queue 1) := by decide
  have hgone : m.waitQueues 1 = none := by decide
  exact ⟨reachable_after (by decide), by decide, by decide, hst, hdormant, hgone,
    fun h => h.destroyed 1 hgone 1 hst hdormant⟩

end UserThreads
