import UserSpaceThreads.Discipline

set_option relaxedAutoImplicit false
set_option autoImplicit false

/-!
# Wakeups

In disciplined runs the live entries of a wait queue are the threads that the history says are
asleep on it, in the order in which they have gone to sleep, and `thread_wakeup` wakes exactly
these. Entries of dead threads are dropped; what breaks the order is an entry whose id has been
given to a new thread.

## Main definitions

* `UserThreads.View.Roster` — the invariant.

## Main results

* `UserThreads.View.Orderly.roster` — every transaction of a disciplined step keeps it.
* `UserThreads.thread_wakeup_exact` — `thread_wakeup` wakes the sleepers of its queue.
-/

namespace UserThreads

namespace View

variable {v v' : View} {l : Label}

/-- The live entries of a wait queue are the threads that have gone to sleep on it and have not
been woken. -/
def Roster (v : View) : Prop :=
  ∀ q o es, v.queues q = some (o, es) →
    sleepers q v.trace = es.filter fun t => v.state t ≠ .Destroyed

/-- The sleepers of a wait queue after a death. -/
lemma sleepers_bury (v : View) (t : Tid) (killed : Bool) (rsp : Addr) (heap : Heap) (q : Addr) :
    sleepers q (v.bury t killed rsp heap).trace =
      if killed then (sleepers q v.trace).erase t else sleepers q v.trace := by
  rw [View.bury_trace]
  rcases eq_or_ne t 0 with rfl | h0 <;> cases killed
  · rfl
  · rfl
  · simp [h0]
  · simp [h0]

/-- A Running thread has no entry in a wait queue. -/
lemma Orderly.not_mem (h : v.Orderly) {t : Tid} (ht : v.state t = .Running) {q : Addr} {o : Owner}
    {es : List Tid} (hq : v.queues q = some (o, es)) : t ∉ es := by
  intro hmem
  have hst := (h.entries q o es hq t hmem (by rw [ht]; decide)).1
  rw [ht] at hst
  cases hst

/-- A change of state of a thread without an entry. -/
lemma filter_update {es : List Tid} {t : Tid} (ht : t ∉ es) (st : Tid → State) (s : State) :
    (es.filter fun u => Function.update st t s u ≠ .Destroyed) =
      es.filter fun u => st u ≠ .Destroyed := by
  refine List.filter_congr fun u hu => ?_
  have hne : u ≠ t := fun heq => ht (heq ▸ hu)
  rw [Function.update_of_ne hne]

/-- The death of a thread with an entry. -/
lemma filter_update_dead {es : List Tid} (h : es.Nodup) (t : Tid) (st : Tid → State) :
    (es.filter fun u => Function.update st t .Destroyed u ≠ .Destroyed) =
      (es.filter fun u => st u ≠ .Destroyed).erase t := by
  rw [(h.filter _).erase_eq_filter, List.filter_filter]
  refine List.filter_congr fun u _ => ?_
  rcases eq_or_ne u t with rfl | hne
  · simp
  · simp [hne]

/-- Nothing has changed in the wait queues, and no sleeper has come or gone. -/
lemma Roster.of_eq (h : v.Roster) (hst : v'.state = v.state) (hq : v'.queues = v.queues)
    (hs : ∀ q, sleepers q v'.trace = sleepers q v.trace) : v'.Roster := by
  intro q o es hqueue
  rw [hs, hst]
  exact h q o es (hq ▸ hqueue)

/-- A thread without entries changes its state. -/
lemma Roster.setState (h : v.Roster) {t : Tid} (ht : ∀ q o es, v.queues q = some (o, es) → t ∉ es)
    (s : State) : (v.setState t s).Roster := by
  intro q o es hq
  show sleepers q v.trace = es.filter fun u => Function.update v.state t s u ≠ .Destroyed
  rw [filter_update (ht q o es hq)]
  exact h q o es hq

/-- A Running thread goes to sleep on a wait queue. -/
lemma Roster.asleepOn (h : v.Roster) (ho : v.Orderly) (hv : v.Valid) {t : Tid}
    (ht : v.state t = .Running) {q : Addr} {o : Owner} {es : List Tid}
    (hq : v.queues q = some (o, es)) : (v.asleep t q o es).Roster := by
  intro p o' es' hp
  rcases eq_or_ne p q with rfl | hne
  · obtain ⟨-, rfl⟩ : o = o' ∧ UserThreads.pushEntry es t = es' := by simpa using hp
    have hmem := ho.not_mem ht hq
    have hnew : ([t].filter fun u => Function.update v.state t .Sleep u ≠ .Destroyed) = [t] := by
      simp
    show sleepers p (.slept t p :: v.trace) =
      (UserThreads.pushEntry es t).filter fun u => Function.update v.state t .Sleep u ≠ .Destroyed
    rw [ho.pushEntry hv hq, List.filter_append, filter_update hmem, hnew, sleepers, if_pos rfl,
      h p o es hq]
  · have hp' : v.queues p = some (o', es') := by simpa [hne] using hp
    show sleepers p (.slept t q :: v.trace) =
      es'.filter fun u => Function.update v.state t .Sleep u ≠ .Destroyed
    rw [filter_update (ho.not_mem ht hp'), sleepers, if_neg hne.symm]
    exact h p o' es' hp'

/-- A sleep that fails. -/
lemma Roster.sleptNone (h : v.Roster) (ho : v.Orderly) (hv : v.Valid) {t : Tid}
    (ht : v.state t = .Running) {q : Addr} {o : Owner} {es es' : List Tid}
    (hq : v.queues q = some (o, es)) (hlast : UserThreads.pushEntry es t = es' ++ [t]) :
    ((((v.asleep t q o es).setState t .Running).setQueue q (some (o, es'))).emit
      (.sleptNone t q)).Roster := by
  have hstill := ho.sleptNone hv ht hq hlast
  have hmem : t ∉ sleepers q v.trace := by
    rw [h q o es hq]
    exact fun hmem => ho.not_mem ht hq (List.mem_of_mem_filter hmem)
  refine h.of_eq hstill.state hstill.queues fun p => ?_
  rcases eq_or_ne q p with rfl | hqp
  · simp [List.erase_append_right _ hmem]
  · simp [hqp]

/-- The first entry of a wait queue belongs to a dead thread and is dropped. -/
lemma Roster.skip (h : v.Roster) {q : Addr} {o : Owner} {t : Tid} {es : List Tid}
    (hq : v.queues q = some (o, t :: es)) (ht : v.state t = .Destroyed) :
    (v.setQueue q (some (o, es))).Roster := by
  intro p o' es' hp
  obtain ⟨es₀, hp₀, ⟨-, rfl⟩ | ⟨-, rfl⟩⟩ := tail_cases hq hp
  · have hold := h p o' _ hp₀
    rwa [List.filter_cons_of_neg (by simp [ht])] at hold
  · exact h p o' _ hp₀

/-- The first entry of a wait queue is dropped and its thread is woken. -/
lemma Roster.wake (h : v.Roster) (ho : v.Orderly) {q : Addr} {o : Owner} {t : Tid} {es : List Tid}
    (hq : v.queues q = some (o, t :: es)) (ht : v.state t = .Sleep) :
    (((v.setQueue q (some (o, es))).setState t .Running).emit (.woken t q)).Roster := by
  intro p o' es' hp
  show sleepers p (.woken t q :: v.trace) =
    es'.filter fun u => Function.update v.state t .Running u ≠ .Destroyed
  obtain ⟨es₀, hp₀, ⟨rfl, rfl⟩ | ⟨hpq, rfl⟩⟩ := tail_cases hq hp
  · have hold := h p o' _ hp₀
    rw [List.filter_cons_of_pos (by simp [ht])] at hold
    have hmem : t ∉ es' := (List.nodup_cons.mp (ho.nodup p o' _ hp₀)).1
    rw [filter_update hmem, sleepers, if_pos rfl, hold, List.erase_cons_head]
  · have hmem : t ∉ es₀ := by
      intro hmem
      have hdorm := (ho.entries q o _ hq t (List.mem_cons_self ..) (by rw [ht]; decide)).2
      rw [(ho.entries p o' _ hp₀ t hmem (by rw [ht]; decide)).2] at hdorm
      cases hdorm
      exact hpq rfl
    rw [filter_update hmem, sleepers, if_neg (Ne.symm hpq)]
    exact h p o' _ hp₀

/-- The end of a thread. A thread that ends itself is not asleep. -/
lemma Roster.bury (h : v.Roster) (ho : v.Orderly) {t : Tid} {killed : Bool}
    (ht : killed = false → v.state t = .Running) (rsp : Addr) (heap : Heap) :
    (v.bury t killed rsp heap).Roster := by
  intro q o es hq
  rw [View.bury_queues] at hq
  rw [sleepers_bury, View.bury_state]
  cases killed with
  | false =>
    rw [filter_update (ho.not_mem (ht rfl) hq)]
    exact h q o es hq
  | true =>
    rw [filter_update_dead (ho.nodup q o es hq), if_pos rfl, h q o es hq]

/-- A new wait queue. -/
lemma Roster.newQueue (h : v.Roster) (o : Owner) : (v.newQueue o).Roster := by
  intro q o' es hq
  rcases eq_or_ne q v.brk with rfl | hne
  · obtain ⟨-, rfl⟩ : o = o' ∧ [] = es := by simpa using hq
    simp
  · have hq' : v.queues q = some (o', es) := by simpa [hne] using hq
    simpa [hne.symm] using h q o' es hq'

/-- A wait queue is destroyed. -/
lemma Roster.dropQueue (h : v.Roster) (q : Addr) : (v.setQueue q none).Roster := by
  intro p o es hp
  rcases eq_or_ne p q with rfl | hne
  · simp at hp
  · exact h p o es (by simpa [hne] using hp)

/-- **Every transaction of a disciplined step keeps the sleepers in their queues.**

**Proof sketch.** By the transaction. A Running thread has no entry in a wait queue, so what it does
to its own state does not matter. A sleep adds the thread at the end of both lists (`asleepOn`), a
wakeup takes it out of both (`wake`), and a death takes it out of the sleepers and makes its entry
useless (`bury`). -/
theorem Orderly.roster (ho : v.Orderly) (h : v.Roster) (hcur : v.state v.current ≠ .Sleep)
    (hlife : v.Life) (hv : v.Valid) (horders : v.Orders l) (hs : Step v l v') : v'.Roster := by
  have hrunning (hst : v.state v.current ≠ .Destroyed) : v.state v.current = .Running :=
    State.eq_running hst hcur
  have hcalls {f : Fn} (hc : v.Calls f) : v.state v.current = .Running :=
    hrunning (hlife.alive _ hc.alive)
  have hself {t : Tid} {killed : Bool} {rsp : Addr} {heap : Heap}
      (hd : v.Dies t killed rsp heap) (hk : killed = false) : v.state t = .Running := by
    obtain ⟨rfl, -⟩ := hd.bySelf hk
    exact hrunning hd.state
  cases hs with
  | called | returned | started => exact h.of_eq rfl rfl fun _ => rfl
  | exit calls =>
    intro q o es hq
    have hmem : v.current ∉ sleepers q v.trace := by
      rw [h q o es hq]
      exact fun hmem => ho.not_mem (hcalls calls) hq (List.mem_of_mem_filter hmem)
    exact (List.erase_of_not_mem hmem).trans (h q o es hq)
  | @create num fn parg =>
    intro q o es hq
    show sleepers q (pushTrace _ _ (.created num fn parg :: v.trace)) =
      es.filter fun u => Function.update v.state num .Running u ≠ .Destroyed
    rw [filter_update (horders.1 q o es hq), sleepers_pushTrace]
    exact h q o es hq
  | discard => exact h.of_eq rfl rfl fun _ => rfl
  | dispatch => exact h.of_eq rfl rfl fun _ => by simp
  | yieldTo => exact h.of_eq rfl rfl fun _ => by simp
  | @sleep f q o o' t es ts calls sleeps access queue =>
    exact (h.asleepOn ho hv (hcalls calls) queue).of_eq rfl rfl fun _ => by simp
  | @sleepNone f q o o' es es' calls sleeps access queue lock ready last =>
    exact h.sleptNone ho hv (hcalls calls) queue last
  | @wait x t c ts calls =>
    have hst := h.setState (fun q o es hq => ho.not_mem (hcalls calls) hq) .Sleep
    exact hst.of_eq rfl rfl fun _ => by simp
  | waitNone => exact horders.elim
  | wake calls wakes access queue state =>
    exact (h.wake ho queue state).of_eq rfl rfl fun _ => by simp
  | skip calls wakes access queue state => exact h.skip queue state
  | die dies => exact h.bury ho (hself dies) _ _
  | @dieTo t w killed rsp heap dies waiter valid state ne =>
    have hb := h.bury ho (hself dies) rsp heap
    have hmem (q : Addr) (o : Owner) (es : List Tid) (hq : v.queues q = some (o, es)) : w ∉ es := by
      intro hmem
      have hdorm := (ho.entries q o es hq w hmem (by rw [state]; decide)).2
      have hwait := ho.waiters t dies.state (by rw [waiter]; exact valid.ne.2.2.1)
        (by rw [waiter, state]; decide)
      rw [waiter, hdorm] at hwait
      cases hwait.2
    have hrelease := hb.setState (t := w) (fun q o es hq => hmem q o es (by simpa using hq))
      .Running
    exact hrelease.of_eq rfl rfl fun _ => by simp
  | dieBack dies waiter state => exact (hcur state).elim
  | take | give => exact h.of_eq rfl rfl fun _ => rfl
  | newQueue => exact (h.newQueue .user).of_eq rfl rfl fun _ => rfl
  | newHalf => exact h.of_eq rfl rfl fun _ => rfl
  | @newLock l => exact (h.newQueue (.lock l)).of_eq rfl rfl fun _ => rfl
  | @newCv c => exact (h.newQueue (.cv c)).of_eq rfl rfl fun _ => rfl
  | dropQueue | dropHalf => exact (h.dropQueue _).of_eq rfl rfl fun _ => rfl
  | dropLock | dropCv => exact h.of_eq rfl rfl fun _ => rfl

end View

/-! ## `thread_wakeup` -/

/-- Without Running threads among them, the loop of `thread_wakeup` wakes the live threads of
the queue: all of them, or the first one.

**Proof sketch.** Induction on the entries. The entry of a dead thread is dropped, that of a
sleeping one is woken, and making it Running does not change what is done with the rest, which does
not name it again. -/
lemma wakeList_eq {all : ℤ} {st : Tid → State} {es : List Tid} (h : es.Nodup)
    (hrun : ∀ t ∈ es, st t ≠ .Running) :
    wakeList all st es =
      if all = 0 then (es.filter fun t => st t ≠ .Destroyed).take 1
      else es.filter fun t => st t ≠ .Destroyed := by
  induction es generalizing st with
  | nil => simp [wakeList]
  | cons t ts ih =>
    obtain ⟨hmem, hnodup⟩ := List.nodup_cons.mp h
    have hrest : ∀ u ∈ ts, st u ≠ .Running := fun u hu => hrun u (List.mem_cons_of_mem _ hu)
    cases hst : st t with
    | Running => exact (hrun t (List.mem_cons_self ..) hst).elim
    | Destroyed =>
      rw [wakeList, hst, List.filter_cons_of_neg (by simp [hst])]
      exact ih hnodup hrest
    | Sleep =>
      rw [wakeList, hst, List.filter_cons_of_pos (by simp [hst])]
      dsimp only
      split_ifs with hall
      · rfl
      · have hne (u : Tid) (hu : u ∈ ts) : u ≠ t := fun heq => hmem (heq ▸ hu)
        have hrun' : ∀ u ∈ ts, Function.update st t .Running u ≠ .Running := fun u hu => by
          rw [Function.update_of_ne (hne u hu)]
          exact hrest u hu
        rw [ih hnodup hrun', if_neg hall, View.filter_update hmem]

/-- Without Running threads in the queue, the loop of `thread_wakeup` returns.

**Proof sketch.** Induction on the number of rounds. The entry of a dead thread is dropped. A
sleeping one is woken, and the rest of the queue does not name it again (`hnodup`), so the states of
its threads are what they were. -/
lemma threadWakeupLoop_returns {q : Addr} {all : ℤ} (n : ℕ) :
    ∀ (wq : WaitQueue) (num : ℤ) (m : Machine), wq.queue.size < n → m.waitQueues q = some wq →
      (∀ t ∈ wq.queue.entries, isValidThread t) → wq.queue.entries.Nodup →
      (∀ t ∈ wq.queue.entries, (m.threads t).state ≠ .Running) →
      ∃ m', threadWakeupLoop q all n wq num m = .ret (num +
          (wakeList all (fun t => (m.threads t).state) wq.queue.entries).length) m' ∧
        Woken q all (wakeList all (fun t => (m.threads t).state) wq.queue.entries) m m' := by
  induction n with
  | zero => intro wq _ _ hn; omega
  | succ n ih =>
    intro wq num m hn hq hv hnodup hrun
    cases hes : wq.queue.entries with
    | nil => exact ⟨m, by simp [threadWakeupLoop_nil n hq hes, wakeList], woken_none hq hes⟩
    | cons t ts =>
      rw [threadWakeupLoop]
      obtain ⟨hpop, hrest⟩ := Queue.pop_of_cons hes
      rw [hes] at hv hnodup hrun
      obtain ⟨hmem, hnodup'⟩ := List.nodup_cons.mp hnodup
      have ht : isValidThread t := hv t (List.mem_cons_self ..)
      set wq' : WaitQueue := { wq with queue := wq.queue.pop.2 } with hwq'
      have hts : wq'.queue.entries = ts := hrest
      have hsize : wq'.queue.size < n := by
        rw [← Queue.length_entries] at hn ⊢
        rw [hes, List.length_cons] at hn
        rw [hts]
        omega
      have hv' : ∀ u ∈ wq'.queue.entries, isValidThread u := fun u hu =>
        hv u (List.mem_cons_of_mem _ (hts ▸ hu))
      have htrims := @trims_setWaitQueue m q wq wq' t hq (by rw [hes, hts]) rfl
      rw [hpop, if_neg ht.ne.1]
      dsimp only
      rw [Machine.setWaitQueue_threads]
      cases hst : (m.threads t).state with
      | Running => exact (hrun t (List.mem_cons_self ..) hst).elim
      | Destroyed =>
        rw [if_neg (by decide), if_neg (by decide)]
        obtain ⟨m', hm', hwoken⟩ := ih wq' num (m.setWaitQueue q (some wq')) hsize (by simp) hv'
          (hts ▸ hnodup') fun u hu => hrun u (List.mem_cons_of_mem _ (hts ▸ hu))
        rw [hts] at hm' hwoken
        rw [wakeList_cons_destroyed (s := fun t => (m.threads t).state) hst]
        exact ⟨m', hm', woken_skip hwoken htrims⟩
      | Sleep =>
        rw [if_neg (by decide), if_pos rfl]
        have hone := woken_one m q wq' hst htrims
        rw [wakeList_cons_sleep (s := fun t => (m.threads t).state) hst]
        by_cases hall : all = 0
        · rw [if_pos hall, if_pos hall, hall]
          exact ⟨wokenOne m q wq' t, by simp, hone⟩
        · rw [if_neg hall, if_neg hall]
          have hstate : (fun u => ((wokenOne m q wq' t).threads u).state) =
              Function.update (fun u => (m.threads u).state) t .Running :=
            state_setState m t .Running
          obtain ⟨m', hm', hwoken⟩ := ih wq' (num + 1) (wokenOne m q wq' t) hsize (by simp) hv'
            (hts ▸ hnodup') fun u hu => by
              have hne : u ≠ t := fun heq => hmem (heq ▸ hts ▸ hu)
              have hu' := congrFun hstate u
              rw [Function.update_of_ne hne] at hu'
              rw [hu']
              exact hrun u (List.mem_cons_of_mem _ (hts ▸ hu))
          rw [hts, hstate] at hm' hwoken
          refine ⟨m', ?_, hone.cons hwoken⟩
          rw [hm', List.length_cons]
          push_cast
          congr 1
          ring

/-- Without Running threads in the queue, `thread_wakeup` returns. -/
lemma threadWakeup_returns {m : Machine} {q : Addr} {wq : WaitQueue} (hv : (abs m).Valid)
    (hq : m.waitQueues q = some wq) (hnodup : wq.queue.entries.Nodup)
    (hrun : ∀ t ∈ wq.queue.entries, (m.threads t).state ≠ .Running) (all : ℤ) :
    ∃ m', threadWakeup q all m = .ret (wakes m q all).length m' ∧
      Woken q all (wakes m q all) m m' := by
  have hqueue : (abs m).queues q = some (wq.owner, wq.queue.entries) := by simp [hq, absQueue]
  have hlist : wakes m q all = wakeList all (fun t => (m.threads t).state) wq.queue.entries := by
    rw [wakes, hq]
  obtain ⟨m₁, hm₁, hwoken⟩ := @threadWakeupLoop_returns q all (wq.queue.size + 1) wq 0
    (m.interruptsSet false) (Nat.lt_succ_self _) hq (hv.queues q _ _ hqueue) hnodup hrun
  rw [show wakeList all (fun t => ((m.interruptsSet false).threads t).state) wq.queue.entries =
    wakes m q all from hlist.symm] at hm₁ hwoken
  refine ⟨m₁.interruptsSet m.interrupts, ?_,
    ⟨((keeps_interruptsSet m false).trans hwoken.keeps).trans (keeps_interruptsSet ..),
      hwoken.quiet, hwoken.holds, rfl, hwoken.locks, hwoken.cvs, hwoken.state, hwoken.others,
      hwoken.emptied, hwoken.trims, hwoken.ready⟩⟩
  rw [threadWakeup, if_neg (hv.ne_null hqueue)]
  simp only [Machine.interruptsSet_waitQueues, hq, hm₁, Outcome.bind_ret, zero_add]

/-! ## Reachable states -/

variable {m : Machine}

/-- Disciplined runs keep the sleepers in their queues. -/
lemma ReachableBy.roster (h : ReachableBy Disciplined m) (hrun : ¬ Stopped m) :
    (abs m).Life ∧ (abs m).Orderly ∧ (abs m).Roster := by
  have hview := h.view (I := fun v => v.Life ∧ v.Orderly ∧ v.state v.current ≠ .Sleep ∧ v.Roster)
    (fun g => ⟨life_threadInit g, orderly_threadInit g, by simp [threadInit],
      by simp [View.Roster, threadInit]⟩) ?_
  · obtain ⟨-, hlife, ho, -, hroster⟩ := hview.resolve_left hrun
    exact ⟨hlife, ho, hroster⟩
  · rintro m a v l v' - - ha ⟨hlife, ho, hcur, hroster⟩ hv hpermits hs
    have horders := View.orders_of_disciplined ho ha hpermits hs
    obtain ⟨ho', hcur'⟩ := ho.step hcur hlife hv horders hs
    exact ⟨hlife.step hs, ho', hcur', ho.roster hroster hcur hlife hv horders hs⟩

/-- The threads that `thread_wakeup(q, all)` is to wake: all that are asleep on `q`, or the one
asleep longest. -/
def toWake (m : Machine) (q : Addr) (all : ℤ) : List Tid :=
  if all = 0 then (sleepers q m.trace).take 1 else sleepers q m.trace

/-- **`thread_wakeup` wakes exactly the sleepers of its queue**, in disciplined runs: it returns
their number, makes them Running, and leaves the states of all other threads alone.

**Proof sketch.** The entries of a wait queue are its sleepers, in their order, and entries of dead
threads (`Roster`). None of them is Running, so the assertion of `thread_wakeup` holds and the loop
returns (`threadWakeup_returns`). What it wakes is `wakeList` of the entries, and that is
`toWake`. -/
theorem thread_wakeup_exact (h : ReachableBy Disciplined m) (hrun : ¬ Stopped m) {q : Addr}
    (hq : (m.waitQueues q).isSome = true) (all : ℤ) :
    ∃ m', threadWakeup q all m = .ret (toWake m q all).length m' ∧
      (∀ t ∈ toWake m q all, (m.threads t).state = .Sleep ∧ (m'.threads t).state = .Running) ∧
      (∀ t, t ∉ toWake m q all → (m'.threads t).state = (m.threads t).state) ∧
      ∀ t, dormant t m.trace ≠ some (.queue q) → t ∉ toWake m q all := by
  obtain ⟨hlife, ho, hroster⟩ := ReachableBy.roster h hrun
  obtain ⟨hb, -⟩ := ReachableBy.life h hrun
  obtain ⟨wq, hwq⟩ := Option.isSome_iff_exists.mp hq
  have hqueue : (abs m).queues q = some (wq.owner, wq.queue.entries) := by simp [hwq, absQueue]
  have hnodup := ho.nodup q _ _ hqueue
  have hentries := ho.entries q _ _ hqueue
  have hnot : ∀ t ∈ wq.queue.entries, (m.threads t).state ≠ .Running := by
    intro t ht hst
    have hsleep := (hentries t ht (by rw [abs_state, hst]; decide)).1
    rw [abs_state, hst] at hsleep
    cases hsleep
  have hlist : wakes m q all = toWake m q all := by
    rw [wakes, hwq]
    dsimp only
    rw [wakeList_eq hnodup hnot, toWake, show sleepers q m.trace = _ from hroster q _ _ hqueue]
    rfl
  have hasleep (t : Tid) (ht : t ∈ toWake m q all) :
      (m.threads t).state = .Sleep ∧ dormant t m.trace = some (.queue q) := by
    have hmem : t ∈ sleepers q m.trace := by
      unfold toWake at ht
      split_ifs at ht
      · exact List.mem_of_mem_take ht
      · exact ht
    rw [show sleepers q m.trace = _ from hroster q _ _ hqueue, List.mem_filter] at hmem
    exact hentries t hmem.1 (by simpa using hmem.2)
  obtain ⟨m', hm', hwoken⟩ := threadWakeup_returns hb.valid hwq hnodup hnot all
  rw [hlist] at hm' hwoken
  exact ⟨m', hm', fun t ht => ⟨(hasleep t ht).1, (hwoken.state t).trans (if_pos ht)⟩,
    fun t ht => (hwoken.state t).trans (if_neg ht), fun t ht hmem => ht (hasleep t hmem).2⟩

/-- Threads 1 and 2 sleep on a wait queue, and one of them has been killed. -/
theorem thread_wakeup_exact_killed :
    let m := after 42 [.call (.threadCreate 7 8), .call (.threadCreate 7 9), .call .waitQueueCreate,
      .exec, .call (.threadYield 1), .exec, .call (.threadSleep 3), .exec, .call (.threadSleep 3),
      .exec, .call (.threadKill 1)]
    ∃ m', threadWakeup 3 1 m = .ret (toWake m 3 1).length m' ∧
      (∀ t ∈ toWake m 3 1, (m.threads t).state = .Sleep ∧ (m'.threads t).state = .Running) ∧
      (∀ t, t ∉ toWake m 3 1 → (m'.threads t).state = (m.threads t).state) ∧
      ∀ t, dormant t m.trace ≠ some (.queue 3) → t ∉ toWake m 3 1 :=
  thread_wakeup_exact (reachableBy_after (by decide +kernel)) (by decide) (by decide) 1

/-- **A wakeup that aborts.** Thread 1 is killed in its sleep, its id goes to a new thread, and
the entry that it has left in the wait queue makes the assertion of `thread_wakeup` fail. -/
theorem thread_wakeup_aborts :
    let m := after 42 [.call (.threadCreate 7 8), .call .waitQueueCreate, .exec,
      .call (.threadYield 1), .exec, .call (.threadSleep 2), .exec, .call (.threadKill 1),
      .call (.threadCreate 7 9)]
    Reachable m ∧ m.control = .user ∧ toWake m 2 1 = [] ∧
      (step m (.call (.threadWakeup 2 1))).map Machine.control = some .aborted :=
  ⟨reachable_after (by decide), by decide, by decide, by decide⟩

end UserThreads
