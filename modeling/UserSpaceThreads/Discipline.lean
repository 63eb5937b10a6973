import Mathlib.Data.Int.Interval
import Mathlib.Data.Int.Range
import UserSpaceThreads.Life

set_option relaxedAutoImplicit false
set_option autoImplicit false

/-!
# Sleeping threads

A thread goes to sleep in `thread_sleep` or `thread_wait` and is to stay asleep until the event
that it sleeps on. Three ways of using the library break this: a `thread_yield` that names a
sleeping thread resumes it; a `thread_wait` with no other thread to run returns at once; and a
`thread_create` may give a new thread an id under which a wait queue or a live thread still
knows a dead one. In a *disciplined* run none of them happens, and then a sleeping thread has
exactly one entry in the wait queue that it sleeps on, or is the waiter of the live thread that
it waits for.

## Main definitions

* `UserThreads.Disciplined` — the guard of disciplined runs.
* `UserThreads.View.Orderly` — the invariant.
* `UserThreads.Patient` — what it means for the history.

## Main results

* `UserThreads.View.Orderly.step` — every transaction of a disciplined step keeps the invariant.
* `UserThreads.sleeper_stays_asleep` — in disciplined runs no thread runs before it is woken.
-/

namespace UserThreads

open History (Always)

/-! ## Disciplined runs -/

/-- No wait queue has an entry `num`, and no live thread has the waiter `num`. -/
def Unnamed (m : Machine) (num : Tid) : Prop :=
  (∀ q < m.brk, ∀ wq ∈ m.waitQueues q, num ∉ wq.queue.entries) ∧
    ∀ x : ℤ, 0 ≤ x → x < THREAD_MAX_THREADS → (m.threads x).state ≠ .Destroyed →
      (m.threads x).waiter ≠ num

instance (m : Machine) (num : Tid) : Decidable (Unnamed m num) :=
  inferInstanceAs (Decidable (_ ∧ _))

/-- The step does not resume a sleeping thread by its id, does not wait with no other thread to
run, and does not give a new thread an id that is still in use. -/
def Disciplined (m : Machine) : Action → Prop
  | .call (.threadYield t) => NamesOther m t → (m.threads t).state ≠ .Sleep
  | .call (.threadWait x _) => WaitSleeps m x → ∃ t ∈ m.threadQueue.entries, ¬ Useless m t
  | .call (.threadCreate _ _) => ∀ num ∈ threadNumToCreate m, Unnamed m num
  | _ => True

instance (m : Machine) (a : Action) : Decidable (Disciplined m a) := by
  unfold Disciplined
  split <;> infer_instance

/-! ## The invariant -/

namespace View

variable {v v' : View} {l : Label}

/-- The thread `t` can be woken from what it sleeps on. -/
def Linked (v : View) (t : Tid) : Blocker → Prop
  | .queue q => q < v.brk ∧ ∀ o es, v.queues q = some (o, es) → t ∈ es
  | .thread x => v.state x ≠ .Destroyed ∧ v.waiter x = t

/-- A thread asleep on something according to its state is so according to the history, and can
be woken from it; and the entries of wait queues and the waiters of live threads that are not
dead are asleep on them. -/
structure Orderly (v : View) : Prop where
  valid : ∀ t, v.state t ≠ .Destroyed → isValidThread t
  bound : ∀ q o es, v.queues q = some (o, es) → q < v.brk
  asleep : ∀ t, v.state t = .Sleep → ∃ b, dormant t v.trace = some b ∧ v.Linked t b
  awake : ∀ t, v.state t = .Running → dormant t v.trace = none
  nodup : ∀ q o es, v.queues q = some (o, es) → es.Nodup
  entries : ∀ q o es, v.queues q = some (o, es) → ∀ t ∈ es, v.state t ≠ .Destroyed →
    v.state t = .Sleep ∧ dormant t v.trace = some (.queue q)
  waiters : ∀ x, v.state x ≠ .Destroyed → v.waiter x ≠ -1 → v.state (v.waiter x) ≠ .Destroyed →
    v.state (v.waiter x) = .Sleep ∧ dormant (v.waiter x) v.trace = some (.thread x)

/-- What the discipline says about a transaction. -/
def Orders (v : View) : Label → Prop
  | .create num _ _ => (∀ q o es, v.queues q = some (o, es) → num ∉ es) ∧
      ∀ x, v.state x ≠ .Destroyed → v.waiter x ≠ num
  | .yieldTo t => v.state t ≠ .Sleep
  | .waitNone _ => False
  | _ => True

/-- Nothing has changed that concerns sleeping threads. -/
structure Still (v v' : View) : Prop where
  state : v'.state = v.state
  waiter : v'.waiter = v.waiter
  queues : v'.queues = v.queues
  brk : v.brk ≤ v'.brk
  dormant : ∀ t, dormant t v'.trace = dormant t v.trace

/-- A transaction that does not concern sleeping threads. -/
lemma Orderly.still (h : v.Orderly) (hs : v.Still v') : v'.Orderly where
  valid t ht := h.valid t (hs.state ▸ ht)
  bound q o es hq := (h.bound q o es (hs.queues ▸ hq)).trans_le hs.brk
  asleep t ht := by
    obtain ⟨b, hb, hlink⟩ := h.asleep t (hs.state ▸ ht)
    refine ⟨b, (hs.dormant t).trans hb, ?_⟩
    cases b with
    | queue q => exact ⟨hlink.1.trans_le hs.brk, hs.queues ▸ hlink.2⟩
    | thread x =>
      rw [Linked, hs.state, hs.waiter]
      exact hlink
  awake t ht := (hs.dormant t).trans (h.awake t (hs.state ▸ ht))
  nodup q o es hq := h.nodup q o es (hs.queues ▸ hq)
  entries q o es hq t ht hst := by
    rw [hs.state] at hst ⊢
    rw [hs.dormant]
    exact h.entries q o es (hs.queues ▸ hq) t ht hst
  waiters x hx hw hst := by
    rw [hs.state] at hx hst ⊢
    rw [hs.waiter] at hw hst ⊢
    rw [hs.dormant]
    exact h.waiters x hx hw hst

/-- Different threads in the wait queues of an orderly state: there is room for one more. -/
lemma Orderly.pushEntry (h : v.Orderly) (hv : v.Valid) {q : Addr} {o : Owner} {es : List Tid}
    (hq : v.queues q = some (o, es)) (t : Tid) : pushEntry es t = es ++ [t] := by
  have hsub : es.toFinset ⊆ Finset.Ico 0 THREAD_MAX_THREADS := by
    intro u hu
    rw [Finset.mem_Ico]
    exact hv.queues q o es hq u (List.mem_toFinset.mp hu)
  have hcard := Finset.card_le_card hsub
  rw [List.toFinset_card_of_nodup (h.nodup q o es hq), Int.card_Ico] at hcard
  have hmax : (THREAD_MAX_THREADS - 0).toNat = 1024 := by decide
  have hcap := queue_capacity
  rw [UserThreads.pushEntry, if_neg]
  omega

/-- A new thread, with an id that is not in use.

**Proof sketch.** No sleeper is linked to the id, which was dead, and by the discipline no wait
queue has an old entry of it and no live thread has it as waiter. So the links of the others are
what they were. -/
lemma Orderly.spawn (h : v.Orderly) {num : Tid} (hnum : isValidThread num)
    (hdead : v.state num = .Destroyed) {fn parg : ℕ} (ho : v.Orders (.create num fn parg)) :
    (v.spawn num fn parg).Orderly where
  valid t ht := by
    rcases eq_or_ne t num with rfl | hne
    · exact hnum
    · exact h.valid t (by simpa [hne] using ht)
  bound q o es hq := (h.bound q o es hq).trans (Nat.lt_succ_self _)
  asleep t ht := by
    have hne : t ≠ num := by
      rintro rfl
      simp at ht
    obtain ⟨b, hb, hlink⟩ := h.asleep t (by simpa [hne] using ht)
    refine ⟨b, by simpa [hne.symm] using hb, ?_⟩
    cases b with
    | queue q => exact ⟨hlink.1.trans (Nat.lt_succ_self _), hlink.2⟩
    | thread x =>
      have hx : x ≠ num := fun heq => hlink.1 (heq ▸ hdead)
      simpa [Linked, hx] using hlink
  awake t ht := by
    rcases eq_or_ne t num with rfl | hne
    · simp
    · simpa [hne.symm] using h.awake t (by simpa [hne] using ht)
  nodup := h.nodup
  entries q o es hq t ht hst := by
    have hne : t ≠ num := fun heq => ho.1 q o es hq (heq ▸ ht)
    simpa [hne, hne.symm] using h.entries q o es hq t ht (by simpa [hne] using hst)
  waiters x hx hw hst := by
    rcases eq_or_ne x num with rfl | hne
    · simp at hw
    · simp only [spawn_state, spawn_waiter, Function.update_of_ne hne] at hx hw hst ⊢
      have hwne : v.waiter x ≠ num := ho.2 x hx
      rw [Function.update_of_ne hwne] at hst ⊢
      simpa [hwne.symm] using h.waiters x hx hw hst

/-- A Running thread goes to sleep on a wait queue.

**Proof sketch.** Its new entry is the only one: a Running thread has no entry in any wait queue
(`entries`), and nobody has it recorded as waiter. For all other threads nothing changes. -/
lemma Orderly.asleepOn (h : v.Orderly) (hv : v.Valid) {t : Tid} (ht : v.state t = .Running)
    {q : Addr} {o : Owner} {es : List Tid} (hq : v.queues q = some (o, es)) :
    (v.asleep t q o es).Orderly where
  valid u hu := by
    rcases eq_or_ne u t with rfl | hne
    · exact h.valid u (by rw [ht]; decide)
    · exact h.valid u (by simpa [hne] using hu)
  bound p o' es' hp := by
    rcases eq_or_ne p q with rfl | hne
    · exact h.bound p o es hq
    · exact h.bound p o' es' (by simpa [hne] using hp)
  asleep u hu := by
    rcases eq_or_ne u t with rfl | hne
    · refine ⟨.queue q, by simp, h.bound q o es hq, fun o' es' hq' => ?_⟩
      obtain ⟨-, rfl⟩ : o = o' ∧ UserThreads.pushEntry es u = es' := by simpa using hq'
      simp [h.pushEntry hv hq]
    · obtain ⟨b, hb, hlink⟩ := h.asleep u (by simpa [hne] using hu)
      refine ⟨b, by simpa [hne.symm] using hb, ?_⟩
      cases b with
      | queue p =>
        refine ⟨hlink.1, fun o' es' hp => ?_⟩
        rcases eq_or_ne p q with rfl | hpq
        · obtain ⟨-, rfl⟩ : o = o' ∧ UserThreads.pushEntry es t = es' := by simpa using hp
          exact mem_pushEntry_of_mem (hlink.2 o es hq)
        · exact hlink.2 o' es' (by simpa [hpq] using hp)
      | thread x =>
        refine ⟨?_, hlink.2⟩
        rcases eq_or_ne x t with rfl | hx
        · simp
        · simpa [hx] using hlink.1
  awake u hu := by
    have hne : u ≠ t := by
      rintro rfl
      simp at hu
    simpa [hne.symm] using h.awake u (by simpa [hne] using hu)
  nodup p o' es' hp := by
    rcases eq_or_ne p q with rfl | hne
    · obtain ⟨-, rfl⟩ : o = o' ∧ UserThreads.pushEntry es t = es' := by simpa using hp
      have hmem : t ∉ es := fun hmem => by
        have hst := (h.entries p o es hq t hmem (by rw [ht]; decide)).1
        rw [ht] at hst
        cases hst
      rw [h.pushEntry hv hq, ← List.concat_eq_append]
      exact (h.nodup p o es hq).concat hmem
    · exact h.nodup p o' es' (by simpa [hne] using hp)
  entries p o' es' hp u hu hst := by
    rcases eq_or_ne u t with rfl | hut
    · rcases eq_or_ne p q with rfl | hpq
      · simp
      · have hst' := (h.entries p o' es' (by simpa [hpq] using hp) u hu (by rw [ht]; decide)).1
        rw [ht] at hst'
        cases hst'
    · have hst' : v.state u ≠ .Destroyed := by simpa [hut] using hst
      suffices v.state u = .Sleep ∧ dormant u v.trace = some (.queue p) by
        simpa [hut, hut.symm] using this
      rcases eq_or_ne p q with rfl | hpq
      · obtain ⟨-, rfl⟩ : o = o' ∧ UserThreads.pushEntry es t = es' := by simpa using hp
        exact h.entries p o es hq u ((mem_pushEntry hu).resolve_right hut) hst'
      · exact h.entries p o' es' (by simpa [hpq] using hp) u hu hst'
  waiters x hx hw hst := by
    simp only [asleep_state, asleep_waiter] at hx hw hst ⊢
    have hx' : v.state x ≠ .Destroyed := by
      rcases eq_or_ne x t with rfl | hne
      · rw [ht]
        decide
      · simpa [hne] using hx
    have hwne : v.waiter x ≠ t := by
      intro heq
      have hst' := (h.waiters x hx' hw (by rw [heq, ht]; decide)).1
      rw [heq, ht] at hst'
      cases hst'
    rw [Function.update_of_ne hwne] at hst ⊢
    simpa [hwne.symm] using h.waiters x hx' hw hst

/-- A thread that is not asleep is not the waiter of a live thread. -/
lemma Orderly.waiter_ne (h : v.Orderly) {t x : Tid} (ht : v.state t = .Running)
    (hx : v.state x ≠ .Destroyed) : v.waiter x ≠ t := by
  rintro rfl
  have hne : v.waiter x ≠ -1 := by
    intro heq
    have hvalid := (h.valid _ (by rw [ht]; decide)).1
    rw [heq] at hvalid
    exact absurd hvalid (by decide)
  have hst := (h.waiters x hx hne (by rw [ht]; decide)).1
  rw [ht] at hst
  cases hst

/-- A Running thread starts to wait for another one.

**Proof sketch.** The target had no waiter, so the new link replaces none. A Running thread has no
entry in a wait queue and is nobody's waiter, so the new link is also its only one. -/
lemma Orderly.awaitingFor (h : v.Orderly) {t x : Tid} (ht : v.state t = .Running)
    (hx : v.state x ≠ .Destroyed) (hne : x ≠ t) (hw : v.waiter x = -1) :
    (v.awaiting t x).Orderly where
  valid u hu := by
    rcases eq_or_ne u t with rfl | hut
    · exact h.valid u (by rw [ht]; decide)
    · exact h.valid u (by simpa [hut] using hu)
  bound := h.bound
  asleep u hu := by
    rcases eq_or_ne u t with rfl | hut
    · refine ⟨.thread x, by simp, ?_⟩
      simpa [Linked, hne] using hx
    · have hu' : v.state u = .Sleep := by simpa [hut] using hu
      obtain ⟨b, hb, hlink⟩ := h.asleep u hu'
      refine ⟨b, by simpa [hut.symm] using hb, ?_⟩
      cases b with
      | queue q => exact hlink
      | thread y =>
        have hyx : y ≠ x := by
          rintro rfl
          have hvalid := (h.valid u (by rw [hu']; decide)).1
          rw [← hlink.2, hw] at hvalid
          exact absurd hvalid (by decide)
        refine ⟨?_, by simpa [hyx] using hlink.2⟩
        rcases eq_or_ne y t with rfl | hyt
        · simp
        · simpa [hyt] using hlink.1
  awake u hu := by
    have hut : u ≠ t := by
      rintro rfl
      simp at hu
    simpa [hut.symm] using h.awake u (by simpa [hut] using hu)
  nodup := h.nodup
  entries q o es hq u hu hst := by
    have hut : u ≠ t := by
      rintro rfl
      have hst' := (h.entries q o es hq u hu (by rw [ht]; decide)).1
      rw [ht] at hst'
      cases hst'
    simpa [hut, hut.symm] using h.entries q o es hq u hu (by simpa [hut] using hst)
  waiters y hy hyw hst := by
    simp only [awaiting_state, awaiting_waiter] at hy hyw hst ⊢
    rcases eq_or_ne y x with rfl | hyx
    · simp
    · rw [Function.update_of_ne hyx] at hyw hst ⊢
      have hy' : v.state y ≠ .Destroyed := by
        rcases eq_or_ne y t with rfl | hyt
        · rw [ht]
          decide
        · simpa [hyt] using hy
      have hwt := h.waiter_ne ht hy'
      rw [Function.update_of_ne hwt] at hst ⊢
      simpa [hwt.symm] using h.waiters y hy' hyw hst

/-- What becomes of the wait queues when the first entry of `q` is dropped. -/
lemma tail_cases {q p : Addr} {o o' : Owner} {t : Tid} {es es' : List Tid}
    (hq : v.queues q = some (o, t :: es))
    (hp : (v.setQueue q (some (o, es))).queues p = some (o', es')) :
    ∃ es₀, v.queues p = some (o', es₀) ∧ (p = q ∧ es₀ = t :: es' ∨ p ≠ q ∧ es₀ = es') := by
  rcases eq_or_ne p q with rfl | hne
  · obtain ⟨rfl, rfl⟩ : o = o' ∧ es = es' := by simpa using hp
    exact ⟨_, hq, .inl ⟨rfl, rfl⟩⟩
  · exact ⟨_, by simpa [hne] using hp, .inr ⟨hne, rfl⟩⟩

/-- The first entry of a wait queue belongs to a dead thread and is dropped.

**Proof sketch.** The entry that is dropped is nobody's link, as its thread does not sleep. The
others stay in their order. -/
lemma Orderly.skip (h : v.Orderly) {q : Addr} {o : Owner} {t : Tid} {es : List Tid}
    (hq : v.queues q = some (o, t :: es)) (ht : v.state t ≠ .Sleep) :
    (v.setQueue q (some (o, es))).Orderly where
  valid := h.valid
  bound p o' es' hp := by
    obtain ⟨es₀, hp₀, -⟩ := tail_cases hq hp
    exact h.bound p o' es₀ hp₀
  asleep u hu := by
    obtain ⟨b, hb, hlink⟩ := h.asleep u hu
    refine ⟨b, hb, ?_⟩
    cases b with
    | queue p =>
      refine ⟨hlink.1, fun o' es' hp => ?_⟩
      obtain ⟨es₀, hp₀, ⟨-, rfl⟩ | ⟨-, rfl⟩⟩ := tail_cases hq hp
      · exact (List.mem_cons.mp (hlink.2 o' _ hp₀)).resolve_left fun heq => ht (heq ▸ hu)
      · exact hlink.2 o' _ hp₀
    | thread x => exact hlink
  awake := h.awake
  nodup p o' es' hp := by
    obtain ⟨es₀, hp₀, ⟨-, rfl⟩ | ⟨-, rfl⟩⟩ := tail_cases hq hp
    · exact (List.nodup_cons.mp (h.nodup p o' _ hp₀)).2
    · exact h.nodup p o' _ hp₀
  entries p o' es' hp u hu hst := by
    obtain ⟨es₀, hp₀, ⟨-, rfl⟩ | ⟨-, rfl⟩⟩ := tail_cases hq hp
    · exact h.entries p o' _ hp₀ u (List.mem_cons_of_mem _ hu) hst
    · exact h.entries p o' _ hp₀ u hu hst
  waiters := h.waiters

/-- The first entry of a wait queue is dropped and its thread is woken.

**Proof sketch.** The woken thread sleeps on this queue, so by `entries` it has no entry in another
one, and by `nodup` no second entry in this one. It is nobody's waiter either, since it does not
sleep in `thread_wait`. -/
lemma Orderly.wake (h : v.Orderly) {q : Addr} {o : Owner} {t : Tid} {es : List Tid}
    (hq : v.queues q = some (o, t :: es)) (ht : v.state t = .Sleep) :
    (((v.setQueue q (some (o, es))).setState t .Running).emit (.woken t q)).Orderly := by
  have hdorm : dormant t v.trace = some (.queue q) :=
    (h.entries q o _ hq t (List.mem_cons_self ..) (by rw [ht]; decide)).2
  have hother (u : Tid) (hu : u ≠ t) : dormant u (.woken t q :: v.trace) = dormant u v.trace := by
    simp [hu.symm]
  have hstate (u : Tid) (hu : Function.update v.state t .Running u ≠ .Destroyed) :
      v.state u ≠ .Destroyed := by
    rcases eq_or_ne u t with rfl | hut
    · rw [ht]
      decide
    · rwa [Function.update_of_ne hut] at hu
  refine ⟨fun u hu => h.valid u (hstate u hu), fun p o' es' hp => ?_, fun u hu => ?_,
    fun u hu => ?_, fun p o' es' hp => ?_, fun p o' es' hp u hu hst => ?_,
    fun x hx hw hst => ?_⟩
  · obtain ⟨es₀, hp₀, -⟩ := tail_cases hq hp
    exact h.bound p o' es₀ hp₀
  · have hut : u ≠ t := by
      rintro rfl
      simp at hu
    have hu' : v.state u = .Sleep := by simpa [hut] using hu
    obtain ⟨b, hb, hlink⟩ := h.asleep u hu'
    refine ⟨b, (hother u hut).trans hb, ?_⟩
    cases b with
    | queue p =>
      refine ⟨hlink.1, fun o' es' hp => ?_⟩
      obtain ⟨es₀, hp₀, ⟨-, rfl⟩ | ⟨-, rfl⟩⟩ := tail_cases hq hp
      · exact (List.mem_cons.mp (hlink.2 o' _ hp₀)).resolve_left hut
      · exact hlink.2 o' _ hp₀
    | thread x =>
      refine ⟨?_, hlink.2⟩
      rcases eq_or_ne x t with rfl | hx
      · simp
      · simpa [hx] using hlink.1
  · rcases eq_or_ne u t with rfl | hut
    · simp [hdorm]
    · exact (hother u hut).trans (h.awake u (by simpa [hut] using hu))
  · obtain ⟨es₀, hp₀, ⟨-, rfl⟩ | ⟨-, rfl⟩⟩ := tail_cases hq hp
    · exact (List.nodup_cons.mp (h.nodup p o' _ hp₀)).2
    · exact h.nodup p o' _ hp₀
  · -- the woken thread had no other entry
    have hut : u ≠ t := by
      rintro rfl
      obtain ⟨es₀, hp₀, ⟨-, rfl⟩ | ⟨hpq, rfl⟩⟩ := tail_cases hq hp
      · exact (List.nodup_cons.mp (h.nodup p o' _ hp₀)).1 hu
      · have hdorm' := (h.entries p o' _ hp₀ u hu (by rw [ht]; decide)).2
        rw [hdorm] at hdorm'
        cases hdorm'
        exact hpq rfl
    have hst' : v.state u ≠ .Destroyed := hstate u hst
    have hmem : v.state u = .Sleep ∧ dormant u v.trace = some (.queue p) := by
      obtain ⟨es₀, hp₀, ⟨-, rfl⟩ | ⟨-, rfl⟩⟩ := tail_cases hq hp
      · exact h.entries p o' _ hp₀ u (List.mem_cons_of_mem _ hu) hst'
      · exact h.entries p o' _ hp₀ u hu hst'
    refine ⟨?_, (hother u hut).trans hmem.2⟩
    simpa [hut] using hmem.1
  · have hx' : v.state x ≠ .Destroyed := hstate x hx
    have hold := h.waiters x hx' hw (hstate _ hst)
    have hwt : v.waiter x ≠ t := by
      intro heq
      rw [heq, hdorm] at hold
      cases hold.2
    refine ⟨?_, (hother _ hwt).trans hold.2⟩
    show Function.update v.state t .Running (v.waiter x) = _
    rw [Function.update_of_ne hwt]
    exact hold.1

/-- The end of a thread that no sleeping thread is waiting for.

**Proof sketch.** A sleeper that is linked to the dying thread would be its waiter, which is
excluded by the premise. Every other link leads to a wait queue or to another live thread. -/
lemma Orderly.bury (h : v.Orderly) {t : Tid}
    (hw : v.waiter t ≠ -1 → v.waiter t = t ∨ v.state (v.waiter t) = .Destroyed) (killed : Bool)
    (rsp : Addr) (heap : Heap) : (v.bury t killed rsp heap).Orderly := by
  have hstate (u : Tid) (hu : (v.bury t killed rsp heap).state u ≠ .Destroyed) :
      u ≠ t ∧ v.state u ≠ .Destroyed := by
    have hut : u ≠ t := by
      rintro rfl
      simp at hu
    exact ⟨hut, by simpa [hut] using hu⟩
  refine ⟨fun u hu => h.valid u (hstate u hu).2, ?_, fun u hu => ?_, fun u hu => ?_, ?_,
    fun q o es hq u hu hst => ?_, fun x hx hxw hst => ?_⟩
  · simpa using h.bound
  · obtain ⟨hut, -⟩ := hstate u (by rw [hu]; decide)
    have hu' : v.state u = .Sleep := by simpa [hut] using hu
    obtain ⟨b, hb, hlink⟩ := h.asleep u hu'
    refine ⟨b, by simpa using hb, ?_⟩
    cases b with
    | queue q => simpa [Linked] using hlink
    | thread x =>
      have hxt : x ≠ t := by
        rintro rfl
        obtain ⟨hx, rfl⟩ := hlink
        have hvalid := (h.valid _ (by rw [hu']; decide)).ne.2.2.1
        rcases hw hvalid with heq | hdead
        · exact hut heq
        · rw [hu'] at hdead
          cases hdead
      simpa [Linked, hxt] using hlink
  · obtain ⟨hut, -⟩ := hstate u (by rw [hu]; decide)
    simpa using h.awake u (by simpa [hut] using hu)
  · simpa using h.nodup
  · obtain ⟨hut, hu'⟩ := hstate u hst
    rw [View.bury_queues] at hq
    simpa [hut] using h.entries q o es hq u hu hu'
  · rw [View.bury_waiter] at hxw hst ⊢
    obtain ⟨-, hx'⟩ := hstate x hx
    obtain ⟨hwt, hw'⟩ := hstate _ hst
    simpa [hwt] using h.waiters x hx' hxw hw'

/-- The end of a thread, and its waiter is released.

**Proof sketch.** The waiter of the dying thread sleeps in a `thread_wait` for that thread, so it
has no entry in a wait queue and waits for nobody else. It may run again. The slot of the dead
thread no longer counts. -/
lemma Orderly.buryRelease (h : v.Orderly) {t w : Tid} (ht : v.state t ≠ .Destroyed)
    (hw : v.waiter t = w) (hwt : w ≠ t) (hst : v.state w = .Sleep) (killed : Bool) (rsp : Addr)
    (heap : Heap) : ((v.bury t killed rsp heap).release t w).Orderly := by
  have hvalid : isValidThread w := h.valid w (by rw [hst]; decide)
  have hdorm : dormant w v.trace = some (.thread t) := by
    have hwait := h.waiters t ht (by rw [hw]; exact hvalid.ne.2.2.1) (by rw [hw, hst]; decide)
    rw [hw] at hwait
    exact hwait.2
  have hother (u : Tid) (hu : u ≠ w) :
      dormant u ((v.bury t killed rsp heap).release t w).trace = dormant u v.trace := by
    simp [hu.symm]
  have hstate (u : Tid) (hu : ((v.bury t killed rsp heap).release t w).state u ≠ .Destroyed) :
      u ≠ t ∧ v.state u ≠ .Destroyed := by
    have hut : u ≠ t := by
      rintro rfl
      simp [hwt.symm] at hu
    rcases eq_or_ne u w with rfl | huw
    · exact ⟨hut, by rw [hst]; decide⟩
    · exact ⟨hut, by simpa [hut, huw] using hu⟩
  refine ⟨fun u hu => h.valid u (hstate u hu).2, ?_, fun u hu => ?_, fun u hu => ?_, ?_,
    fun q o es hq u hu hsu => ?_, fun x hx hxw hsx => ?_⟩
  · simpa using h.bound
  · have huw : u ≠ w := by
      rintro rfl
      simp at hu
    obtain ⟨hut, -⟩ := hstate u (by rw [hu]; decide)
    have hu' : v.state u = .Sleep := by simpa [hut, huw] using hu
    obtain ⟨b, hb, hlink⟩ := h.asleep u hu'
    refine ⟨b, (hother u huw).trans hb, ?_⟩
    cases b with
    | queue q => simpa [Linked] using hlink
    | thread x =>
      have hxt : x ≠ t := by
        rintro rfl
        exact huw (hlink.2.symm.trans hw)
      refine ⟨?_, by simpa using hlink.2⟩
      rcases eq_or_ne x w with rfl | hxw
      · simp
      · simpa [hxt, hxw] using hlink.1
  · rcases eq_or_ne u w with rfl | huw
    · simp [hdorm]
    · obtain ⟨hut, -⟩ := hstate u (by rw [hu]; decide)
      exact (hother u huw).trans (h.awake u (by simpa [hut, huw] using hu))
  · simpa using h.nodup
  · obtain ⟨hut, hu'⟩ := hstate u hsu
    have hmem := h.entries q o es (by simpa using hq) u hu hu'
    have huw : u ≠ w := by
      rintro rfl
      rw [hdorm] at hmem
      cases hmem.2
    refine ⟨?_, (hother u huw).trans hmem.2⟩
    simpa [hut, huw] using hmem.1
  · have hxw' : ((v.bury t killed rsp heap).release t w).waiter x = v.waiter x := by simp
    rw [hxw'] at hxw hsx ⊢
    obtain ⟨hxt, hx'⟩ := hstate x hx
    obtain ⟨hut, hu'⟩ := hstate _ hsx
    have hold := h.waiters x hx' hxw hu'
    have huw : v.waiter x ≠ w := by
      intro heq
      rw [heq, hdorm] at hold
      cases hold.2
      exact hxt rfl
    refine ⟨?_, (hother _ huw).trans hold.2⟩
    simpa [hut, huw] using hold.1

/-- A new wait queue.

**Proof sketch.** The address is fresh, so no link leads there (`bound`), and the new queue is
empty. -/
lemma Orderly.newQueue (h : v.Orderly) (o : Owner) : (v.newQueue o).Orderly := by
  have hcases (q : Addr) (o' : Owner) (es : List Tid)
      (hq : (v.newQueue o).queues q = some (o', es)) :
      q = v.brk ∧ es = [] ∨ v.queues q = some (o', es) := by
    rcases eq_or_ne q v.brk with rfl | hne
    · obtain ⟨-, rfl⟩ : o = o' ∧ [] = es := by simpa using hq
      exact .inl ⟨rfl, rfl⟩
    · exact .inr (by simpa [hne] using hq)
  refine ⟨h.valid, fun q o' es hq => ?_, fun u hu => ?_, h.awake, fun q o' es hq => ?_,
    fun q o' es hq u hu hst => ?_, h.waiters⟩
  · rcases hcases q o' es hq with ⟨rfl, -⟩ | hq
    · exact Nat.lt_succ_self _
    · exact (h.bound q o' es hq).trans (Nat.lt_succ_self _)
  · obtain ⟨b, hb, hlink⟩ := h.asleep u hu
    refine ⟨b, hb, ?_⟩
    cases b with
    | queue q =>
      refine ⟨hlink.1.trans (Nat.lt_succ_self _), fun o' es hq => ?_⟩
      rcases hcases q o' es hq with ⟨rfl, -⟩ | hq
      · exact (lt_irrefl _ hlink.1).elim
      · exact hlink.2 o' es hq
    | thread x => exact hlink
  · rcases hcases q o' es hq with ⟨-, rfl⟩ | hq
    · exact List.nodup_nil
    · exact h.nodup q o' es hq
  · rcases hcases q o' es hq with ⟨-, rfl⟩ | hq
    · cases hu
    · exact h.entries q o' es hq u hu hst

/-- A wait queue is destroyed. -/
lemma Orderly.dropQueue (h : v.Orderly) (q : Addr) : (v.setQueue q none).Orderly := by
  have hq (p : Addr) (o : Owner) (es : List Tid)
      (hp : (v.setQueue q none).queues p = some (o, es)) :
      v.queues p = some (o, es) := by
    rcases eq_or_ne p q with rfl | hne
    · simp at hp
    · simpa [hne] using hp
  refine ⟨h.valid, fun p o es hp => h.bound p o es (hq p o es hp), fun u hu => ?_, h.awake,
    fun p o es hp => h.nodup p o es (hq p o es hp),
    fun p o es hp => h.entries p o es (hq p o es hp), h.waiters⟩
  obtain ⟨b, hb, hlink⟩ := h.asleep u hu
  refine ⟨b, hb, ?_⟩
  cases b with
  | queue p => exact ⟨hlink.1, fun o es hp => hlink.2 o es (hq p o es hp)⟩
  | thread x => exact hlink

/-- The processor goes to another thread. -/
lemma Orderly.switchTo (h : v.Orderly) (t : Tid) : (v.switchTo t).Orderly :=
  h.still ⟨rfl, rfl, rfl, le_rfl, fun _ => by simp⟩

/-- A sleep that fails leaves no trace of itself. -/
lemma Orderly.sleptNone (h : v.Orderly) (hv : v.Valid) {t : Tid} (ht : v.state t = .Running)
    {q : Addr} {o : Owner} {es es' : List Tid} (hq : v.queues q = some (o, es))
    (hlast : UserThreads.pushEntry es t = es' ++ [t]) :
    v.Still ((((v.asleep t q o es).setState t .Running).setQueue q (some (o, es'))).emit
      (.sleptNone t q)) := by
  obtain rfl : es = es' := by
    rw [h.pushEntry hv hq] at hlast
    exact List.append_cancel_right hlast
  refine ⟨?_, rfl, ?_, le_rfl, fun u => ?_⟩
  · funext u
    rcases eq_or_ne u t with rfl | hut
    · simp [ht]
    · simp [hut]
  · funext p
    rcases eq_or_ne p q with rfl | hpq
    · simp [hq]
    · simp [hpq]
  · rcases eq_or_ne t u with rfl | hut
    · simp [h.awake t ht]
    · simp [hut]

/-- **Every transaction of a disciplined step keeps sleeping threads where they can be woken**,
and does not let one of them run.

**Proof sketch.** By the transaction. The ones that move a thread between running and sleeping have
a lemma each: `asleepOn`, `sleptNone`, `awaitingFor`, `wake` and `buryRelease`. The thread that gets
the processor has been picked as Running, or has just been released; the discipline excludes a
`thread_yield` to a sleeping thread, and a `thread_wait` that returns with its caller still recorded
as waiter. -/
theorem Orderly.step (h : v.Orderly) (hcur : v.state v.current ≠ .Sleep) (hlife : v.Life)
    (hv : v.Valid) (ho : v.Orders l) (hs : Step v l v') :
    v'.Orderly ∧ v'.state v'.current ≠ .Sleep := by
  have hrunning {f : Fn} (hc : v.Calls f) : v.state v.current = .Running :=
    State.eq_running (hlife.alive _ hc.alive) hcur
  have hsame (hs : v.Still v') (hc : v'.current = v.current) :
      v'.Orderly ∧ v'.state v'.current ≠ .Sleep :=
    ⟨h.still hs, by rw [hs.state, hc]; exact hcur⟩
  cases hs with
  | called => exact hsame ⟨rfl, rfl, rfl, le_rfl, fun _ => rfl⟩ rfl
  | returned => exact hsame ⟨rfl, rfl, rfl, le_rfl, fun _ => rfl⟩ rfl
  | started => exact hsame ⟨rfl, rfl, rfl, le_rfl, fun _ => rfl⟩ rfl
  | exit => exact hsame ⟨rfl, rfl, rfl, le_rfl, fun _ => rfl⟩ rfl
  | @create num fn parg calls pos valid dead =>
    have hspawn := h.spawn valid dead ho
    refine ⟨hspawn.still ⟨rfl, rfl, rfl, le_rfl, fun _ => by simp⟩, ?_⟩
    have hne : v.current ≠ num := fun heq => hlife.alive _ calls.alive (heq ▸ dead)
    simpa [hne] using hcur
  | discard => exact hsame ⟨rfl, rfl, rfl, le_rfl, fun _ => rfl⟩ rfl
  | @dispatch t ts picks =>
    have hready : (v.setReady ts).Orderly := h.still ⟨rfl, rfl, rfl, le_rfl, fun _ => rfl⟩
    refine ⟨hready.switchTo t, ?_⟩
    show v.state t ≠ .Sleep
    rw [picks.running]
    decide
  | yieldTo => exact ⟨h.switchTo _, ho⟩
  | @sleep f q o o' t es ts calls sleeps access queue lock picks =>
    have hasleep : ((v.asleep v.current q o' es).setReady ts).Orderly :=
      (h.asleepOn hv (hrunning calls) queue).still ⟨rfl, rfl, rfl, le_rfl, fun _ => rfl⟩
    refine ⟨hasleep.switchTo t, ?_⟩
    simp [picks.ne, picks.running]
  | @sleepNone f q o o' es es' calls sleeps access queue lock ready last =>
    refine ⟨h.still (h.sleptNone hv (hrunning calls) queue last), ?_⟩
    simp
  | @wait x t c ts calls valid state ne waiter picks =>
    have hawaiting : ((v.awaiting v.current x).setReady ts).Orderly :=
      (h.awaitingFor (hrunning calls) state ne waiter).still ⟨rfl, rfl, rfl, le_rfl, fun _ => rfl⟩
    refine ⟨hawaiting.switchTo t, ?_⟩
    simp [picks.ne, picks.running]
  | waitNone => exact ho.elim
  | @wake f q o o' t es calls wakes access queue state =>
    refine ⟨(h.wake queue state).still ⟨rfl, rfl, rfl, le_rfl, fun _ => by simp⟩, ?_⟩
    have hne : v.current ≠ t := by
      rintro rfl
      exact hcur state
    simpa [hne] using hcur
  | skip calls wakes access queue state =>
    exact ⟨h.skip queue (by rw [state]; decide), hcur⟩
  | @die t killed rsp heap dies waiter =>
    refine ⟨h.bury waiter killed rsp heap, ?_⟩
    rw [View.bury_current, View.bury_state]
    rcases eq_or_ne v.current t with rfl | hne
    · simp
    · rwa [Function.update_of_ne hne]
  | @dieTo t w killed rsp heap dies waiter valid state ne other =>
    refine ⟨(h.buryRelease dies.state waiter ne state killed rsp heap).switchTo w, ?_⟩
    simp
  | dieBack dies waiter state => exact (hcur state).elim
  | take => exact hsame ⟨rfl, rfl, rfl, le_rfl, fun _ => rfl⟩ rfl
  | give => exact hsame ⟨rfl, rfl, rfl, le_rfl, fun _ => rfl⟩ rfl
  | newQueue => exact ⟨(h.newQueue .user).still ⟨rfl, rfl, rfl, le_rfl, fun _ => rfl⟩, hcur⟩
  | newHalf => exact hsame ⟨rfl, rfl, rfl, Nat.le_succ _, fun _ => rfl⟩ rfl
  | @newLock l =>
    exact ⟨(h.newQueue (.lock l)).still ⟨rfl, rfl, rfl, le_rfl, fun _ => rfl⟩, hcur⟩
  | @newCv c =>
    exact ⟨(h.newQueue (.cv c)).still ⟨rfl, rfl, rfl, le_rfl, fun _ => rfl⟩, hcur⟩
  | dropQueue => exact ⟨(h.dropQueue _).still ⟨rfl, rfl, rfl, le_rfl, fun _ => rfl⟩, hcur⟩
  | dropHalf => exact ⟨(h.dropQueue _).still ⟨rfl, rfl, rfl, le_rfl, fun _ => rfl⟩, hcur⟩
  | dropLock => exact hsame ⟨rfl, rfl, rfl, le_rfl, fun _ => rfl⟩ rfl
  | dropCv => exact hsame ⟨rfl, rfl, rfl, le_rfl, fun _ => rfl⟩ rfl

/-- A disciplined step carries out transactions that respect the order.

**Proof sketch.** The discipline speaks of the state at the start of the step, and these
transactions are the first ones of their steps that change anything, so the view is still that of
the state. -/
lemma orders_of_disciplined {m : Machine} {a : Action} (h : v.Orderly) (hok : Disciplined m a)
    (hp : Permits m a v l) (hs : Step v l v') : v.Orders l := by
  have hview (hu : Unchanged m v) : v.state = (abs m).state ∧ v.waiter = (abs m).waiter ∧
      v.queues = (abs m).queues ∧ v.brk = m.brk ∧ v.current = m.currentThread := by
    rw [Unchanged] at hu
    rw [hu]
    exact ⟨rfl, rfl, rfl, rfl, rfl⟩
  cases hs with
  | @create num fn parg =>
    obtain ⟨rfl, hnum, hu, -⟩ := hp
    obtain ⟨hst, hw, hqs, hbrk, -⟩ := hview hu
    obtain ⟨hqueues, hwaiters⟩ := hok num hnum
    refine ⟨fun q o es hq hmem => ?_, fun x hx => ?_⟩
    · have hlt := h.bound q o es hq
      rw [hbrk] at hlt
      rw [hqs, abs_queues] at hq
      obtain ⟨wq, hwq, -, rfl⟩ := waitQueue_of_abs hq
      exact hqueues q hlt wq hwq hmem
    · obtain ⟨hx0, hx1⟩ := h.valid x hx
      rw [hst] at hx
      rw [hw]
      exact hwaiters x hx0 hx1 hx
  | @yieldTo t calls valid state ne =>
    obtain ⟨rfl, hu, -⟩ := hp
    obtain ⟨hst, -, -, -, hcur⟩ := hview hu
    rw [hst] at state
    rw [hcur] at ne
    show v.state t ≠ .Sleep
    rw [hst]
    exact hok ⟨ne, valid, state⟩
  | waitNone =>
    obtain ⟨c, rfl, hsleeps, hall⟩ := hp
    obtain ⟨t, ht, huse⟩ := hok hsleeps
    exact huse (hall t ht)
  | _ => trivial

end View

/-! ## Sleeping threads stay asleep -/

/-- What the history says about sleeping threads: a thread that has gone to sleep gets the
processor only when it has been woken from what it sleeps on. -/
def Patient (e : Event) (tr : List Event) : Prop :=
  match e with
  | .switched t => dormant t tr = none
  | _ => True

namespace View

variable {v v' : View} {l : Label}

/-- The history after a switch to a thread that is not asleep. -/
lemma patient_switch {es : List Tid} {t u : Tid} {tr : List Event} (h : Always Patient tr)
    (ht : dormant t tr = none) : Always Patient (.switched t :: pushTrace es u tr) :=
  ⟨(dormant_pushTrace es u tr t).trans ht, (always_pushTrace es u tr fun _ _ _ => trivial).mpr h⟩

/-- **In an orderly state the processor goes to threads that are not asleep.**

**Proof sketch.** A thread that gets the processor has been picked as Running, has been named by a
`thread_yield` and is not asleep, or has just been released. In each case it is not dormant
(`awake`). -/
lemma Orderly.patient (h : v.Orderly) (ho : v.Orders l) (hp : Always Patient v.trace)
    (hs : Step v l v') : Always Patient v'.trace := by
  have hpick {t : Tid} {ts : List Tid} (hpicks : v.Picks t ts) : dormant t v.trace = none :=
    h.awake t hpicks.running
  cases hs with
  | called | returned | started | exit => exact ⟨trivial, hp⟩
  | create => exact (always_pushTrace _ _ _ fun _ _ _ => trivial).mpr ⟨trivial, hp⟩
  | discard => exact hp
  | dispatch picks => exact patient_switch hp (hpick picks)
  | @yieldTo t calls valid state ne =>
    exact patient_switch hp (h.awake t (State.eq_running state ho))
  | @sleep f q o o' t es ts calls sleeps access queue lock picks =>
    have hne : v.current ≠ t := picks.ne.symm
    exact patient_switch ⟨trivial, hp⟩ (by simp [hne, hpick picks])
  | sleepNone => exact ⟨trivial, trivial, hp⟩
  | @wait x t c ts calls valid state ne waiter picks =>
    have hne : v.current ≠ t := picks.ne.symm
    exact patient_switch ⟨trivial, hp⟩ (by simp [hne, hpick picks])
  | waitNone => exact ⟨trivial, trivial, hp⟩
  | wake => exact (always_pushTrace _ _ _ fun _ _ _ => trivial).mpr ⟨trivial, hp⟩
  | skip | take | give => exact hp
  | die => exact View.always_bury _ _ _ _ _ (fun _ _ _ _ => trivial) (fun _ _ _ => trivial) hp
  | @dieTo t w killed rsp heap dies waiter valid state ne =>
    have hb := View.always_bury v t killed rsp heap (p := Patient) (fun _ _ _ _ => trivial)
      (fun _ _ _ => trivial) hp
    have hw := (h.buryRelease dies.state waiter ne state killed rsp heap).awake w (by simp)
    exact patient_switch ⟨trivial, hb⟩ hw
  | @dieBack t killed rsp heap =>
    have hb := View.always_bury v t killed rsp heap (p := Patient) (fun _ _ _ _ => trivial)
      (fun _ _ _ => trivial) hp
    exact ⟨trivial, hb⟩
  | newQueue | newLock | newCv => exact ⟨trivial, trivial, hp⟩
  | newHalf => exact ⟨trivial, hp⟩
  | dropQueue | dropHalf | dropLock | dropCv => exact ⟨trivial, trivial, hp⟩

end View

/-! ## Reachable states -/

variable {m : Machine} {ok : Machine → Action → Prop}

/-- At the start nobody sleeps. -/
lemma orderly_threadInit (garbage : ℤ) : (abs (threadInit garbage)).Orderly := by
  have hst (t : Tid) :
      (abs (threadInit garbage)).state t = if t = 0 then .Running else .Destroyed := by
    rw [abs_state, threadInit]
    dsimp only
    split_ifs <;> rfl
  refine ⟨fun t ht => ?_, by simp [threadInit], fun t ht => ?_, fun _ _ => rfl,
    by simp [threadInit], by simp [threadInit], fun x _ hw => (hw ?_).elim⟩
  · rw [hst] at ht
    split_ifs at ht with h0
    · rw [h0]
      decide
    · exact (ht rfl).elim
  · rw [hst] at ht
    split_ifs at ht
  · rw [abs_waiter, threadInit]
    dsimp only
    split_ifs <;> rfl

/-- **Disciplined runs are orderly.**

**Proof sketch.** The conjuncts are kept together, transaction by transaction (`Orderly.step`,
`Orderly.patient`), since the discipline is a condition on the state before the step. -/
theorem ReachableBy.orderly (hok : ∀ m a, ok m a → Disciplined m a) (h : ReachableBy ok m)
    (hrun : ¬ Stopped m) : Base m ∧ (abs m).Life ∧ (abs m).Orderly ∧
      (m.threads m.currentThread).state ≠ .Sleep ∧ Always Patient m.trace := by
  have hview := h.view (I := fun v => v.Life ∧ v.Orderly ∧ v.state v.current ≠ .Sleep ∧
    Always Patient v.trace)
    (fun g => ⟨life_threadInit g, orderly_threadInit g, by simp [threadInit],
      trivial⟩) ?_
  · exact hview.resolve_left hrun
  · rintro m a v l v' - - ha ⟨hlife, ho, hcur, hp⟩ hv hpermits hs
    have horders := View.orders_of_disciplined ho (hok m a ha) hpermits hs
    obtain ⟨ho', hcur'⟩ := ho.step hcur hlife hv horders hs
    exact ⟨hlife.step hs, ho', hcur', ho.patient horders hp hs⟩

/-- **A sleeping thread does not run before it is woken**, in disciplined runs.

**Proof sketch.** `ReachableBy.orderly` gives both parts: the history is patient, and the current
thread is not in the state Sleep. While user code runs it is alive as well, so it is Running. -/
theorem sleeper_stays_asleep (h : ReachableBy Disciplined m) (hrun : ¬ Stopped m) :
    Always Patient m.trace ∧
      (m.control = .user → (m.threads m.currentThread).state = .Running) := by
  obtain ⟨hb, hlife, -, hcur, hp⟩ := h.orderly (fun _ _ h => h) hrun
  refine ⟨hp, fun hu => ?_⟩
  have hc := hb.control
  rw [ControlOk, hu] at hc
  exact State.eq_running hc.1.state hcur

/-- Thread 1 sleeps on a wait queue, and thread 0 wakes it and yields to it. -/
theorem sleeper_stays_asleep_woken :
    let m := after 42 [.call (.threadCreate 7 8), .call (.threadYield 1), .exec,
      .call .waitQueueCreate, .exec, .call (.threadSleep 2), .exec, .call (.threadWakeup 2 1)]
    Always Patient m.trace ∧
      (m.control = .user → (m.threads m.currentThread).state = .Running) :=
  sleeper_stays_asleep (reachableBy_after (by decide +kernel)) (by decide)

/-- **A sleeping thread runs.** Thread 1 sleeps on a wait queue, thread 0 yields to it by its id,
and user code of thread 1 goes on, although nobody has woken it. -/
theorem sleeper_resumed :
    let m := after 42 [.call (.threadCreate 7 8), .call (.threadYield 1), .exec,
      .call .waitQueueCreate, .exec, .call (.threadSleep 2), .exec, .call (.threadYield 1), .exec]
    Reachable m ∧ m.control = .user ∧ m.currentThread = 1 ∧
      dormant 1 m.trace = some (.queue 2) ∧ (m.threads m.currentThread).state = .Sleep :=
  ⟨reachable_after (by decide), by decide, by decide, by decide, by decide⟩

end UserThreads
