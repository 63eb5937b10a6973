import UserSpaceThreads.Permits

set_option relaxedAutoImplicit false
set_option autoImplicit false

/-!
# Specifications of the functions

For every function of `thread.c` that user code calls, the transactions that it carries out and
what it leaves of the invariant. `Run P v m` says that the processor is inside a function, in
the machine `m`, after transactions permitted by `P` from the view `v`; `Lands P v m'` says that
control has left the function, in a state that satisfies the invariant or with the run over.

## Main definitions

* `UserThreads.Run`, `UserThreads.Lands`.

## Main results

* `UserThreads.Run.threadYield_any_spec`, `UserThreads.Run.threadSleep_spec`,
  `UserThreads.Run.threadWakeup_spec`, … — the specifications.
-/

namespace UserThreads

variable {P : View → Label → Prop} {v : View} {m m' : Machine} {f : Fn}

/-! ## Inside a function -/

/-- The processor is inside a function, after permitted transactions from `v`. -/
structure Run (P : View → Label → Prop) (v : View) (m : Machine) : Prop where
  start : v.Valid
  inside : Inside m
  path : Runs.Path View.Step P v (abs m)

/-- Control has left the function. -/
def Lands (P : View → Label → Prop) (v : View) (m : Machine) : Prop :=
  Stopped m ∨ Base m ∧ Runs.Path View.Step P v (abs m)

/-- Transactions keep the ids valid. -/
lemma valid_of_path {u : View} (hv : v.Valid) (h : Runs.Path View.Step P v u) : u.Valid :=
  h.invariant (fun _ _ _ hi _ hs => hs.valid hi) hv

/-- The ids are valid inside a function. -/
lemma Run.valid (h : Run P v m) : (abs m).Valid := valid_of_path h.start h.path

/-- One more transaction. -/
lemma Run.step (h : Run P v m) {l : Label} (hi : Inside m') (hP : P (abs m) l)
    (hs : View.Step (abs m) l (abs m')) : Run P v m' :=
  ⟨h.start, hi, h.path.tail hP hs⟩

/-- An update that the view does not show. -/
lemma Run.same (h : Run P v m) (hi : Inside m') (habs : abs m' = abs m) : Run P v m' :=
  ⟨h.start, hi, by rw [habs]; exact h.path⟩

/-- The run is over after a failed assertion. -/
lemma lands_abort : Lands P v m.abort := .inl (.inl rfl)

/-- The run is over after undefined behaviour. -/
lemma lands_undef : Lands P v m.undef := .inl (.inr (.inr rfl))

/-- The run is over after `exit`. -/
lemma lands_exit (n : ℤ) : Lands P v (m.exit n) := .inl (.inr (.inl ⟨n, rfl⟩))

/-- A final transaction that leaves the function. -/
lemma Run.lands (h : Run P v m) {l : Label} (hb : ControlOk m') (hP : P (abs m) l)
    (hs : View.Step (abs m) l (abs m')) : Lands P v m' :=
  .inr ⟨⟨hs.valid h.valid, hb⟩, h.path.tail hP hs⟩

/-! ## Updates that keep the contexts -/

/-- No new events. -/
lemma Quiet.refl (tr : List Event) : Quiet tr tr := ⟨fun _ => rfl, fun _ => rfl⟩

/-- Setting the signal mask keeps the contexts of all threads. -/
lemma keeps_interruptsSet (m : Machine) (b : Bool) : Keeps m (m.interruptsSet b) :=
  keeps_of_quiet rfl rfl rfl (fun _ => rfl) (fun _ => rfl) (fun _ h => h) (.refl _)

/-- Moving the processor keeps the contexts of all threads. -/
lemma keeps_setControl (m : Machine) (c : Control) : Keeps m (m.setControl c) :=
  keeps_of_quiet rfl rfl rfl (fun _ => rfl) (fun _ => rfl) (fun _ h => h) (.refl _)

/-- Writing a wait queue keeps the contexts of all threads. -/
lemma keeps_setWaitQueue (m : Machine) (q : Addr) (wq : Option WaitQueue) :
    Keeps m (m.setWaitQueue q wq) :=
  keeps_of_quiet rfl rfl rfl (fun _ => rfl) (fun _ => rfl) (fun _ h => h) (.refl _)

/-- Writing a lock keeps the contexts of all threads. -/
lemma keeps_setLock (m : Machine) (l : Addr) (lock : Option Lock) : Keeps m (m.setLock l lock) :=
  keeps_of_quiet rfl rfl rfl (fun _ => rfl) (fun _ => rfl) (fun _ h => h) (.refl _)

/-- Writing a condition variable keeps the contexts of all threads. -/
lemma keeps_setCv (m : Machine) (c : Addr) (cv : Option Cv) : Keeps m (m.setCv c cv) :=
  keeps_of_quiet rfl rfl rfl (fun _ => rfl) (fun _ => rfl) (fun _ h => h) (.refl _)

/-- Writing the ready queue keeps the contexts of all threads. -/
lemma keeps_setThreadQueue (m : Machine) (q : Queue) : Keeps m (m.setThreadQueue q) :=
  keeps_of_quiet rfl rfl rfl (fun _ => rfl) (fun _ => rfl) (fun _ h => h) (.refl _)

/-- An allocation keeps the contexts of all threads. -/
lemma keeps_afterMalloc369 (m : Machine) (size : BitVec 64) : Keeps m (m.afterMalloc369 size) :=
  keeps_of_quiet rfl rfl rfl (fun _ => rfl) (fun _ => rfl) (fun _ h => h) (.refl _)

/-- Freeing a block keeps the contexts of all threads, and its event is a quiet one. -/
lemma keeps_afterFree369 (m : Machine) (p : Addr) (heap : Heap) :
    Keeps m (m.afterFree369 p heap) :=
  keeps_of_quiet rfl rfl rfl (fun _ => rfl) (fun _ => rfl) (fun _ h => h)
    ⟨fun _ => rfl, fun _ => rfl⟩

/-- A quiet event keeps what the history says of the threads. -/
lemma keeps_emit (m : Machine) {e : Event} (he : Quiet m.trace (e :: m.trace)) :
    Keeps m (m.emit e) :=
  keeps_of_quiet rfl rfl rfl (fun _ => rfl) (fun _ => rfl) (fun _ h => h) he

/-- A push onto the ready queue keeps the contexts of all threads; if it is refused, its event is a
quiet one. -/
lemma keeps_pushReady (m : Machine) (t : Tid) : Keeps m (m.pushReady t) :=
  keeps_of_quiet rfl rfl rfl (fun _ => rfl) (fun _ => rfl) (fun _ h => h) (by
    rw [Machine.pushReady_trace, pushTrace_eq]
    exact quiet_pushTrace ..)

/-- Writing a slot, but not its context and its stack. -/
lemma keeps_setThread (m : Machine) (t : Tid) (th : Thread)
    (hu : th.ucontext = (m.threads t).ucontext) (hs : th.stackStart = (m.threads t).stackStart)
    (hst : th.state ≠ .Destroyed → (m.threads t).state ≠ .Destroyed) :
    Keeps m (m.setThread t th) := by
  refine keeps_of_quiet rfl rfl rfl (fun u => ?_) (fun u => ?_) (fun u h => ?_) (.refl _)
  · exact congrFun (field_update_same Thread.ucontext m.threads t th hu) u
  · exact congrFun (field_update_same Thread.stackStart m.threads t th hs) u
  · rcases eq_or_ne u t with rfl | hne
    · rw [Machine.setThread_threads, Function.update_self] at h
      exact hst h
    · rwa [Machine.setThread_threads, Function.update_of_ne hne] at h

/-- A new state keeps the contexts of all threads, as long as no thread comes to life. -/
lemma keeps_setState (m : Machine) (t : Tid) {s : State}
    (hs : s ≠ .Destroyed → (m.threads t).state ≠ .Destroyed) : Keeps m (m.setState t s) :=
  keeps_setThread m t _ rfl rfl hs

/-- Writing a waiter keeps the contexts of all threads. -/
lemma keeps_setWaiter (m : Machine) (t w : Tid) : Keeps m (m.setWaiter t w) :=
  keeps_setThread m t _ rfl rfl id

/-! ## `thread_wakeup` -/

/-- What the loop of `thread_wakeup` on `q` does to the machine when it makes the threads `ws`
Running. -/
structure Woken (q : Addr) (all : ℤ) (ws : List Tid) (m m' : Machine) : Prop where
  keeps : Keeps m m'
  quiet : Quiet m.trace m'.trace
  holds : ∀ t l, holds t l m'.trace = holds t l m.trace
  interrupts : m'.interrupts = m.interrupts
  locks : m'.locks = m.locks
  cvs : m'.cvs = m.cvs
  state : ∀ t, (m'.threads t).state = if t ∈ ws then .Running else (m.threads t).state
  others : ∀ p, p ≠ q → m'.waitQueues p = m.waitQueues p
  emptied : all ≠ 0 → ∀ wq, m'.waitQueues q = some wq → wq.queue.entries = []
  trims : ∀ p, (abs m).Trims (abs m') p
  ready : m'.threadQueue.entries = pushAll m.threadQueue.entries ws

/-- The wait queue stays reachable while the history grows. -/
lemma View.Access.of_trace {q : Addr} {o : Owner} {u u' : View} (h : u.Access q o)
    (hl : u'.locks = u.locks) (hc : u'.cvs = u.cvs) (ht : ∀ e ∈ u.trace, e ∈ u'.trace) :
    u'.Access q o := by
  cases o with
  | user =>
    obtain ⟨e, he, hg⟩ := h
    exact ⟨e, ht e he, hg⟩
  | lock l => rwa [View.Access, hl]
  | cv c => rwa [View.Access, hc]

/-- A call goes on while only quiet events happen. -/
lemma View.Calls.of_quiet {u u' : View} (h : u.Calls f) (hcur : u'.current = u.current)
    (hq : Quiet u.trace u'.trace) : u'.Calls f := by
  refine ⟨?_, ?_⟩
  · rw [hcur, hq.fate]
    exact h.alive
  · rw [hcur, hq.progress]
    exact h.progress

/-- The states after one slot has been made Running. -/
lemma state_setState (m : Machine) (t : Tid) (s : State) :
    (fun u => ((m.setState t s).threads u).state) =
      Function.update (fun u => (m.threads u).state) t s :=
  field_update Thread.state m.threads t _

/-- Nothing is taken from the wait queue. -/
lemma View.Trims.refl (u : View) (q : Addr) : u.Trims u q := fun _ es hq => ⟨es, hq, es.suffix_refl⟩

/-- Entries are taken from the front of the wait queue one time and again. -/
lemma View.Trims.trans {u w x : View} {q : Addr} (h : u.Trims w q) (h' : w.Trims x q) :
    u.Trims x q := by
  intro o es hq
  obtain ⟨es₁, hq₁, hsuffix₁⟩ := h' o es hq
  obtain ⟨es₀, hq₀, hsuffix₀⟩ := h o es₁ hq₁
  exact ⟨es₀, hq₀, hsuffix₁.trans hsuffix₀⟩

/-- The first entry of a wait queue is removed. -/
lemma trims_setWaitQueue {q : Addr} {wq wq' : WaitQueue} {t : Tid} (hq : m.waitQueues q = some wq)
    (hes : wq.queue.entries = t :: wq'.queue.entries) (hown : wq'.owner = wq.owner) (p : Addr) :
    (abs m).Trims (abs (m.setWaitQueue q (some wq'))) p := by
  intro o es hp
  rw [abs_setWaitQueue] at hp
  rcases eq_or_ne p q with rfl | hne
  · obtain ⟨rfl, rfl⟩ : wq'.owner = o ∧ wq'.queue.entries = es := by simpa [absQueue] using hp
    exact ⟨wq.queue.entries, by simp [hq, absQueue, hown], [t], by rw [hes]; rfl⟩
  · exact ⟨es, by simpa [hne] using hp, es.suffix_refl⟩

/-- One round of the loop that finds a dead thread. -/
lemma woken_skip {q : Addr} {all : ℤ} {ws : List Tid} {wq : WaitQueue}
    (h : Woken q all ws (m.setWaitQueue q (some wq)) m')
    (htrims : ∀ p, (abs m).Trims (abs (m.setWaitQueue q (some wq))) p) : Woken q all ws m m' :=
  ⟨(keeps_setWaitQueue ..).trans h.keeps, h.quiet, h.holds, h.interrupts, h.locks, h.cvs, h.state,
    fun p hp => (h.others p hp).trans (by simp [hp]), h.emptied,
    fun p => (htrims p).trans (h.trims p),
    h.ready⟩

/-- The machine after a round of the loop that wakes `t`. -/
abbrev wokenOne (m : Machine) (q : Addr) (wq : WaitQueue) (t : Tid) : Machine :=
  (((m.setWaitQueue q (some wq)).setState t .Running).emit (.woken t q)).pushReady t

/-- The history after a round of the loop that wakes `t`. -/
lemma quiet_wokenOne (m : Machine) (q : Addr) (wq : WaitQueue) (t : Tid) :
    Quiet m.trace (wokenOne m q wq t).trace ∧
      ∀ u l, holds u l (wokenOne m q wq t).trace = holds u l m.trace := by
  rw [wokenOne, Machine.pushReady_trace, pushTrace_eq]
  unfold pushTrace
  split_ifs <;> exact ⟨⟨fun _ => rfl, fun _ => rfl⟩, fun _ _ => rfl⟩

/-- One round of the loop that wakes a thread. -/
lemma woken_one (m : Machine) (q : Addr) (wq : WaitQueue) {t : Tid}
    (ht : (m.threads t).state = .Sleep)
    (htrims : ∀ p, (abs m).Trims (abs (m.setWaitQueue q (some wq))) p) :
    Woken q 0 [t] m (wokenOne m q wq t) := by
  obtain ⟨hq, hh⟩ := quiet_wokenOne m q wq t
  refine ⟨?_, hq, hh, rfl, rfl, rfl, fun u => ?_, fun p hp => ?_, fun h => (h rfl).elim, htrims,
    Queue.entries_push_eq ..⟩
  · refine (((keeps_setWaitQueue m q (some wq)).trans (keeps_setState _ t fun _ => ?_)).trans
      (keeps_emit _ ⟨fun _ => rfl, fun _ => rfl⟩)).trans (keeps_pushReady _ t)
    rw [Machine.setWaitQueue_threads, ht]
    decide
  · rcases eq_or_ne u t with rfl | hne
    · simp
    · simp [hne]
  · simp [hp]

/-- A round that wakes a thread, and the rounds behind it. -/
lemma Woken.cons {q : Addr} {all : ℤ} {ws : List Tid} {t : Tid} {m₁ : Machine}
    (h : Woken q 0 [t] m m₁) (h' : Woken q all ws m₁ m') : Woken q all (t :: ws) m m' where
  keeps := h.keeps.trans h'.keeps
  quiet := ⟨fun u => (h'.quiet.fate u).trans (h.quiet.fate u),
    fun u => (h'.quiet.progress u).trans (h.quiet.progress u)⟩
  holds u l := (h'.holds u l).trans (h.holds u l)
  interrupts := h'.interrupts.trans h.interrupts
  locks := h'.locks.trans h.locks
  cvs := h'.cvs.trans h.cvs
  state u := by
    rw [h'.state, h.state]
    simp only [List.mem_cons]
    split_ifs <;> simp_all
  others p hp := (h'.others p hp).trans (h.others p hp)
  emptied := h'.emptied
  trims p := (h.trims p).trans (h'.trims p)
  ready := by
    rw [h'.ready, h.ready]
    rfl

/-- The view of a machine, but with the locks `L`. -/
def absWith (L : Addr → Option Lock) (m : Machine) : View := { abs m with locks := L }

/-- The transaction of a round that wakes a thread, whatever the locks are. -/
lemma step_wakeOne {L : Addr → Option Lock} {q : Addr} {o : Owner} {wq wq' : WaitQueue} {t : Tid}
    (hcalls : (abs m).Calls f) (hwakes : f.wakesOn o = true) (hacc : (absWith L m).Access q o)
    (hq : m.waitQueues q = some wq) (hes : wq.queue.entries = t :: wq'.queue.entries)
    (hown : wq'.owner = wq.owner) (ht : (m.threads t).state = .Sleep) :
    View.Step (absWith L m) (.wake q t) (absWith L (wokenOne m q wq' t)) := by
  have hqueue : (absWith L m).queues q = some (wq.owner, t :: wq'.queue.entries) := by
    simp [absWith, hq, absQueue, hes]
  have hstep := View.Step.wake (v := absWith L m) ⟨hcalls.alive, hcalls.progress⟩ hwakes hacc
    hqueue ht
  have habs : absWith L (wokenOne m q wq' t) = ((((absWith L m).setQueue q
      (some (wq.owner, wq'.queue.entries))).setState t .Running).emit (.woken t q)).pushReady
      t := by
    rw [absWith, wokenOne]
    simp only [abs_pushReady, abs_emit, abs_setState, abs_setWaitQueue, Option.map_some, absQueue,
      hown]
    rfl
  rw [habs]
  exact hstep

/-- The transaction of a round that finds a dead thread, whatever the locks are. -/
lemma step_skipOne {L : Addr → Option Lock} {q : Addr} {o : Owner} {wq wq' : WaitQueue} {t : Tid}
    (hcalls : (abs m).Calls f) (hwakes : f.wakesOn o = true) (hacc : (absWith L m).Access q o)
    (hq : m.waitQueues q = some wq) (hes : wq.queue.entries = t :: wq'.queue.entries)
    (hown : wq'.owner = wq.owner) (ht : (m.threads t).state = .Destroyed) :
    View.Step (absWith L m) (.skip q t) (absWith L (m.setWaitQueue q (some wq'))) := by
  have hqueue : (absWith L m).queues q = some (wq.owner, t :: wq'.queue.entries) := by
    simp [absWith, hq, absQueue, hes]
  have hstep := View.Step.skip (v := absWith L m) ⟨hcalls.alive, hcalls.progress⟩ hwakes hacc
    hqueue ht
  have habs : absWith L (m.setWaitQueue q (some wq')) =
      (absWith L m).setQueue q (some (wq.owner, wq'.queue.entries)) := by
    rw [absWith]
    simp only [abs_setWaitQueue, Option.map_some, absQueue, hown]
    rfl
  rw [habs]
  exact hstep

/-- The loop drops the entry of a dead thread. -/
lemma wakeList_cons_destroyed {all : ℤ} {s : Tid → State} {t : Tid} {ts : List Tid}
    (ht : s t = .Destroyed) : wakeList all s (t :: ts) = wakeList all s ts := by
  simp [wakeList, ht]

/-- The loop wakes a sleeping thread, and ends there unless it is to wake all. -/
lemma wakeList_cons_sleep {all : ℤ} {s : Tid → State} {t : Tid} {ts : List Tid}
    (ht : s t = .Sleep) : wakeList all s (t :: ts) =
      if all = 0 then [t] else t :: wakeList all (Function.update s t .Running) ts := by
  simp [wakeList, ht]

/-- Nothing happens when the queue is empty. -/
lemma woken_none {q : Addr} {all : ℤ} {wq : WaitQueue} (hq : m.waitQueues q = some wq)
    (hes : wq.queue.entries = []) : Woken q all [] m m := by
  refine ⟨.refl m, .refl _, fun _ _ => rfl, rfl, rfl, rfl, by simp, fun _ _ => rfl,
    fun _ wq' hwq' => ?_, View.Trims.refl _, rfl⟩
  rw [hq] at hwq'
  cases hwq'
  exact hes

/-- The loop ends at once when the queue is empty. -/
lemma threadWakeupLoop_nil {q : Addr} {all num : ℤ} {wq : WaitQueue} (n : ℕ)
    (hq : m.waitQueues q = some wq) (hes : wq.queue.entries = []) :
    threadWakeupLoop q all (n + 1) wq num m = .ret num m := by
  have hset : m.setWaitQueue q (some { wq with queue := wq.queue }) = m := by
    rw [Machine.setWaitQueue, ← hq, Function.update_eq_self]
  rw [threadWakeupLoop, Queue.pop_of_nil hes, if_pos rfl, hset]

/-- **The loop of `thread_wakeup`.** It ends, with the threads of `wakeList` made Running and
their number as its result, unless its assertion fails.

**Proof sketch.** Induction on the number of rounds, which the size of the queue bounds. A round
takes the first entry. If its thread is dead, the entry is dropped (`skip`), and the rounds behind
it do what they would have done without it. If it is asleep, it is woken (`wake`), and the loop ends
or goes on with the rest. If it is Running, the assertion of the loop fails. -/
lemma threadWakeupLoop_spec {L : Addr → Option Lock} {q : Addr} {all : ℤ} {o : Owner}
    (hfree : ∀ u l, Label.free l = true → P u l) (hwakes : f.wakesOn o = true) (n : ℕ) :
    ∀ (wq : WaitQueue) (num : ℤ) (m : Machine), wq.queue.size < n → m.waitQueues q = some wq →
      (∀ t ∈ wq.queue.entries, isValidThread t) → (abs m).Calls f → (absWith L m).Access q o →
      (∀ before t after,
        wakeList all (fun t => (m.threads t).state) wq.queue.entries = before ++ t :: after →
        ∀ u : View, u.ready = pushAll m.threadQueue.entries before → P u (.wake q t)) →
      (threadWakeupLoop q all n wq num m).All
        (fun r m' =>
          r = num + (wakeList all (fun t => (m.threads t).state) wq.queue.entries).length ∧
          Woken q all (wakeList all (fun t => (m.threads t).state) wq.queue.entries) m m' ∧
          Runs.Path View.Step P (absWith L m) (absWith L m'))
        Stopped := by
  induction n with
  | zero => intro wq _ _ hn; omega
  | succ n ih =>
    intro wq num m hn hq hv hcalls hacc hP
    cases hes : wq.queue.entries with
    | nil =>
      rw [threadWakeupLoop_nil n hq hes]
      exact ⟨by simp [wakeList], woken_none hq hes, .refl⟩
    | cons t ts =>
      rw [threadWakeupLoop]
      obtain ⟨hpop, hrest⟩ := Queue.pop_of_cons hes
      have ht : isValidThread t := hv t (by rw [hes]; exact List.mem_cons_self ..)
      set wq' : WaitQueue := { wq with queue := wq.queue.pop.2 } with hwq'
      have hes' : wq.queue.entries = t :: wq'.queue.entries := by rw [hes, hwq', hrest]
      have hsize : wq'.queue.size < n := by
        rw [← Queue.length_entries] at hn ⊢
        rw [hes', List.length_cons] at hn
        omega
      have hv' : ∀ u ∈ wq'.queue.entries, isValidThread u := fun u hu =>
        hv u (by rw [hes']; exact List.mem_cons_of_mem _ hu)
      have htrims := @trims_setWaitQueue _ _ _ wq' _ hq hes' rfl
      rw [hpop, if_neg ht.ne.1]
      rw [hes'] at hP
      rw [show t :: ts = t :: wq'.queue.entries from by rw [← hes', hes]]
      dsimp only
      rw [Machine.setWaitQueue_threads]
      cases hst : (m.threads t).state with
      | Running => exact .inl rfl
      | Destroyed =>
        -- a dead thread's entry is dropped
        rw [if_neg (by decide), if_neg (by decide)]
        rw [wakeList_cons_destroyed (s := fun t => (m.threads t).state) hst] at hP ⊢
        have hstep := step_skipOne hcalls hwakes hacc hq hes' rfl hst
        refine (ih wq' num (m.setWaitQueue q (some wq')) hsize (by simp) hv'
          ⟨hcalls.alive, hcalls.progress⟩ (hacc.of_trace rfl rfl fun _ h => h) hP).mono ?_
          fun _ h => h
        rintro r m' ⟨hr, hwoken, hpath⟩
        exact ⟨hr, woken_skip hwoken htrims,
          (Runs.Path.refl.tail (hfree _ _ rfl) hstep).trans hpath⟩
      | Sleep =>
        rw [if_neg (by decide), if_pos rfl]
        have hstate : (fun u => ((wokenOne m q wq' t).threads u).state) =
            Function.update (fun u => (m.threads u).state) t .Running :=
          state_setState m t .Running
        rw [wakeList_cons_sleep (s := fun t => (m.threads t).state) hst, ← hstate] at hP ⊢
        have hstep := step_wakeOne hcalls hwakes hacc hq hes' rfl hst
        have hone := woken_one m q wq' hst htrims
        by_cases hall : all = 0
        · rw [if_pos hall] at hP ⊢
          rw [if_pos hall, hall]
          exact ⟨by simp, hone, Runs.Path.refl.tail (hP [] t [] rfl _ rfl) hstep⟩
        · rw [if_neg hall] at hP ⊢
          rw [if_neg hall]
          have hready : (wokenOne m q wq' t).threadQueue.entries =
              pushAll m.threadQueue.entries [t] := Queue.entries_push_eq ..
          refine (ih wq' (num + 1) (wokenOne m q wq' t) hsize (by simp) hv'
            (hcalls.of_quiet rfl hone.quiet) (hacc.of_trace rfl rfl fun e he => ?_)
            fun before u after hbefore w hw => ?_).mono ?_ fun _ h => h
          · show e ∈ (wokenOne m q wq' t).trace
            rw [wokenOne, Machine.pushReady_trace]
            split_ifs
            · exact List.mem_cons_of_mem _ he
            · exact List.mem_cons_of_mem _ (List.mem_cons_of_mem _ he)
          · refine hP (t :: before) u after (by rw [hbefore]; rfl) w ?_
            rw [hw, hready]
            rfl
          · rintro r m' ⟨hr, hwoken, hpath⟩
            refine ⟨?_, hone.cons hwoken,
              (Runs.Path.refl.tail (hP [] t _ rfl _ rfl) hstep).trans hpath⟩
            rw [hr, List.length_cons]
            push_cast
            ring

/-- What a function leaves when it returns to its caller inside the call `f`. -/
structure Back (P : View → Label → Prop) (v : View) (f : Fn) (m m' : Machine) : Prop where
  run : Run P v m'
  calls : (abs m').Calls f
  interrupts : m'.interrupts = m.interrupts
  current : m'.currentThread = m.currentThread

/-- `thread_wakeup`, when the view is taken with the locks `L`.

**Proof sketch.** There is no wait queue at the null pointer, and nothing happens. At an address
without a wait queue the behaviour is undefined. Otherwise the function is its loop
(`threadWakeupLoop_spec`) between two calls of `interrupts_set`. -/
lemma threadWakeup_result {L : Addr → Option Lock} {q : Addr} {all : ℤ} {o : Owner}
    (hfree : ∀ u l, Label.free l = true → P u l) (hwakes : f.wakesOn o = true)
    (hv : (abs m).Valid) (hcalls : (abs m).Calls f) (hacc : q ≠ NULL → (absWith L m).Access q o)
    (hP : ∀ before t after, wakes m q all = before ++ t :: after →
      ∀ u : View, u.ready = pushAll m.threadQueue.entries before → P u (.wake q t)) :
    (threadWakeup q all m).All
      (fun r m' => r = ((wakes m q all).length : ℤ) ∧ Woken q all (wakes m q all) m m' ∧
        Runs.Path View.Step P (absWith L m) (absWith L m'))
      Stopped := by
  rw [threadWakeup]
  by_cases hq0 : q = NULL
  · have hnone : m.waitQueues q = none := by
      have := hv.null
      rw [← hq0] at this
      simpa using this
    have hw : wakes m q all = [] := by rw [wakes, hnone]
    rw [if_pos hq0, hw]
    refine ⟨rfl, ⟨.refl m, .refl _, fun _ _ => rfl, rfl, rfl, rfl, by simp, fun _ _ => rfl,
      fun _ wq hwq => ?_, View.Trims.refl _, rfl⟩, .refl⟩
    rw [hnone] at hwq
    cases hwq
  · rw [if_neg hq0]
    simp only [Machine.interruptsSet_waitQueues]
    cases hq : m.waitQueues q with
    | none => exact .inr (.inr rfl)
    | some wq =>
      have hw : wakes m q all = wakeList all (fun t => (m.threads t).state) wq.queue.entries := by
        rw [wakes, hq]
      rw [hw] at hP ⊢
      have hes : ∀ t ∈ wq.queue.entries, isValidThread t :=
        hv.queues q wq.owner wq.queue.entries (by simp [hq, absQueue])
      refine (threadWakeupLoop_spec hfree hwakes _ wq 0 (m.interruptsSet false)
        (Nat.lt_succ_self _) hq hes ⟨hcalls.alive, hcalls.progress⟩ (hacc hq0) hP).bind ?_
      rintro r m' ⟨hr, hwoken, hpath⟩
      refine ⟨by rw [hr]; simp, ?_, hpath⟩
      exact ⟨((keeps_interruptsSet m false).trans hwoken.keeps).trans (keeps_interruptsSet ..),
        hwoken.quiet, hwoken.holds, rfl, hwoken.locks, hwoken.cvs, hwoken.state, hwoken.others,
        hwoken.emptied, hwoken.trims, hwoken.ready⟩

/-- A thread stays alive while others are woken. -/
lemma Woken.inside {q : Addr} {all : ℤ} {ws : List Tid} (h : Woken q all ws m m')
    (hi : Inside m) : Inside m' := by
  refine h.keeps.inside hi ?_
  rw [h.state]
  split_ifs
  · decide
  · exact hi.state

/-- **`thread_wakeup`** on a wait queue of user code or of a condition variable. -/
lemma Run.threadWakeup_spec {q : Addr} {all : ℤ} {o : Owner} (h : Run P v m)
    (hfree : ∀ u l, Label.free l = true → P u l) (hwakes : f.wakesOn o = true)
    (hcalls : (abs m).Calls f) (hacc : q ≠ NULL → (abs m).Access q o)
    (hP : ∀ before t after, wakes m q all = before ++ t :: after →
      ∀ u : View, u.ready = pushAll m.threadQueue.entries before → P u (.wake q t)) :
    (threadWakeup q all m).All (fun _ m' => Back P v f m m') (Lands P v) := by
  refine (threadWakeup_result (L := m.locks) hfree hwakes h.valid hcalls hacc hP).mono ?_
    fun _ hs => Or.inl hs
  rintro r m' ⟨-, hw, hpath⟩
  have habs : absWith m.locks m' = abs m' := by rw [absWith, ← hw.locks]; rfl
  rw [habs] at hpath
  exact ⟨⟨h.start, hw.inside h.inside, h.path.trans hpath⟩,
    hcalls.of_quiet hw.keeps.current hw.quiet, hw.interrupts, hw.keeps.current⟩

/-! ## `thread_yield` -/

/-- `thread_yield(THREAD_ANY)` gives the processor to the first useful entry. -/
lemma lands_dispatch {k : Stack} {ds ts : List Tid} {t : Tid} {q : Queue} (hv : v.Valid)
    (hpath : Runs.Path View.Step P v (abs m)) (hfree : ∀ u l, Label.free l = true → P u l)
    (hes : m.threadQueue.entries = ds ++ t :: ts) (hq : q.entries = ts)
    (hds : ∀ d ∈ ds, Useless m d) (ht : isValidThread t) (hrun : (m.threads t).state = .Running)
    (hne : t ≠ m.currentThread) (hP : P ((abs m).setReady (t :: ts)) (.dispatch t))
    (hawake : (m.threads m.currentThread).state ≠ .Destroyed → (abs m).Awake)
    (hleave : MayLeave ((m.interruptsSet false).setThreadQueue q) m.interrupts k) :
    Lands P v (threadYieldSwitch m.interrupts t k ((m.interruptsSet false).setThreadQueue q)) := by
  have hdiscard : View.Step (abs m) (.discard ds) ((abs m).setReady (t :: ts)) := .discard hes hds
  have hdispatch : View.Step ((abs m).setReady (t :: ts)) (.dispatch t)
      (abs (threadYieldSwitch m.interrupts t k ((m.interruptsSet false).setThreadQueue q))) := by
    rw [abs_threadYieldSwitch, abs_setThreadQueue, abs_interruptsSet, hq]
    exact .dispatch ⟨rfl, hrun, hne⟩ fun hst => ⟨(hawake hst).alive, (hawake hst).waits⟩
  refine .inr ⟨⟨hdispatch.valid (hdiscard.valid (valid_of_path hv hpath)), ?_⟩,
    (hpath.tail (hfree _ _ rfl) hdiscard).tail hP hdispatch⟩
  exact controlOk_threadYieldSwitch hleave ht (fun hd => absurd (hrun.symm.trans hd) (by decide))
    hne

/-- **`thread_yield(THREAD_ANY)`** by a thread that is not asleep. -/
lemma Run.threadYield_any_spec {k : Stack} (h : Run P v m)
    (hfree : ∀ u l, Label.free l = true → P u l)
    (hP : ∀ t ts, t ∈ m.threadQueue.entries → ¬ Useless m t → P ((abs m).setReady ts) (.dispatch t))
    (hwaits : (progress m.currentThread m.trace).waits = none)
    (hs : ∀ a, isValidThread a →
      Suspended (.threadYield m.interrupts a true :: k) (progress m.currentThread m.trace)) :
    (threadYield THREAD_ANY k m).All (fun r m' => r = THREAD_NONE ∧ Run P v m' ∧
      ∃ q', m' = m.setThreadQueue q') (Lands P v) := by
  rcases threadYield_any_cases k h.valid.current h.valid.ready with
    ⟨q', hnil, hall, heq⟩ | ⟨ds, t, ts, q', hes, hts, ht, hrun, hne, hds, heq⟩
  · rw [heq]
    refine ⟨rfl, ?_, q', rfl⟩
    refine h.step (l := .discard m.threadQueue.entries)
      ((keeps_setThreadQueue m q').inside h.inside h.inside.state) (hfree _ _ rfl) ?_
    rw [abs_setThreadQueue, hnil]
    exact .discard (by simp) hall
  · rw [heq]
    have hi :
        Inside ((m.interruptsSet false).setThreadQueue q') := ((keeps_interruptsSet m false).trans
      (keeps_setThreadQueue _ q')).inside h.inside h.inside.state
    exact lands_dispatch h.start h.path hfree hes hts hds ht hrun hne
      (hP t _ (by simp [hes]) (not_not.mpr ⟨hrun, hne⟩)) (fun _ => ⟨h.inside.alive, hwaits⟩)
      (hi.mayLeave rfl hs)

/-! ## `thread_sleep` -/

/-- The machine in `thread_sleep` when it calls `thread_yield`. -/
abbrev asleepAt (m : Machine) (q : Addr) (wq : WaitQueue) : Machine :=
  (((m.interruptsSet false).setState m.currentThread .Sleep).setWaitQueue q
    (some { wq with queue := wq.queue.push m.currentThread })).emit (.slept m.currentThread q)

/-- The current thread of a run that has gone to sleep is still inside its function. -/
lemma Inside.asleepAt (h : Inside m) (q : Addr) (wq : WaitQueue) : Inside (asleepAt m q wq) := by
  refine (((((keeps_interruptsSet m false).trans
    (keeps_setState _ m.currentThread fun _ => ?_)).trans
    (keeps_setWaitQueue _ q _)).trans (keeps_emit _ ⟨fun _ => rfl, fun _ => rfl⟩)).inside
    h ?_)
  · exact h.state
  · simp

/-- The view of a machine in `thread_sleep` when it calls `thread_yield`. -/
lemma abs_asleepAt (m : Machine) (q : Addr) (wq : WaitQueue) :
    abs (asleepAt m q wq) =
      (abs m).asleep m.currentThread q wq.owner wq.queue.entries := by
  unfold UserThreads.asleepAt View.asleep
  simp only [abs_emit, abs_setWaitQueue, abs_setState, abs_interruptsSet, Option.map_some,
    absQueue, Queue.entries_push_eq]

/-- For `get_thread_any`, it makes no difference whether the current thread is asleep. -/
lemma useless_asleepAt {q : Addr} {wq : WaitQueue} {t : Tid} (h : Useless (asleepAt m q wq) t) :
    Useless m t := by
  rintro ⟨hrun, hne⟩
  refine h ⟨?_, hne⟩
  have hne' : t ≠ m.currentThread := hne
  simpa [hne'] using hrun

/-- The entries of a queue after a push end with the pushed id, if `queue_pop_last` answers
it. -/
lemma Queue.popLast_push {q : Queue} {t : Tid} (h : (q.push t).popLast.1 = t) :
    pushEntry q.entries t = (q.push t).popLast.2.entries ++ [t] := by
  rcases List.eq_nil_or_concat (q.push t).entries with hnil | ⟨es, x, hes⟩
  · rw [Queue.entries_push_eq] at hnil
    unfold pushEntry at hnil
    split_ifs at hnil with hfull
    · rw [hnil] at hfull
      exact absurd hfull (by decide)
    · exact absurd hnil (by simp)
  · rw [List.concat_eq_append] at hes
    obtain ⟨hx, hrest⟩ := Queue.popLast_of_append hes
    rw [← Queue.entries_push_eq, hrest, hes, ← hx, h]

/-- An entry that has been pushed onto a queue with room is the last one. -/
lemma Queue.popLast_push_of_room {q : Queue} {t : Tid}
    (h : (q.entries.length : ℤ) < QUEUE_CAPACITY) :
    (q.push t).popLast.1 = t ∧ (q.push t).popLast.2.entries = q.entries := by
  apply Queue.popLast_of_append
  rw [Queue.entries_push, if_pos h]

/-- `thread_sleep` behind a `thread_yield` that has found no other thread. -/
lemma threadSleepAfterYield_none {q : Addr} {s : Bool} {wq : WaitQueue}
    (hq : m.waitQueues q = some wq) :
    threadSleepAfterYield q s THREAD_NONE m =
      if wq.queue.popLast.1 = m.currentThread then
        .ret THREAD_NONE ((((m.setState m.currentThread .Running).setWaitQueue q
          (some { wq with queue := wq.queue.popLast.2 })).emit
          (.sleptNone m.currentThread q)).interruptsSet s)
      else .jump ((m.setState m.currentThread .Running).setWaitQueue q
        (some { wq with queue := wq.queue.popLast.2 })).abort := by
  rw [threadSleepAfterYield, if_pos rfl]
  simp only [Machine.setState_waitQueues, hq, Machine.setWaitQueue_currentThread,
    Machine.setState_currentThread]
  split_ifs <;> rfl

/-- The machine after a `thread_sleep` that has taken its entry back. -/
abbrev sleptNoneAt (m : Machine) (q : Addr) (wq : WaitQueue) (q' : Queue) : Machine :=
  (((((asleepAt m q wq).setThreadQueue q').setState m.currentThread .Running).setWaitQueue q
    (some { wq with queue := (wq.queue.push m.currentThread).popLast.2 })).emit
    (.sleptNone m.currentThread q)).interruptsSet m.interrupts

/-- **The outcomes of `thread_sleep`** on a wait queue.

**Proof sketch.** The function puts its thread in the wait queue and calls `thread_yield`, whose
outcomes are those of `threadYield_any_cases`: nobody can be given the processor, and the entry is
taken back, or somebody is. -/
lemma threadSleep_cases {q : Addr} {wq : WaitQueue} (hv : (abs m).Valid)
    (hq : m.waitQueues q = some wq) (k : Stack) :
    (∃ q', q'.entries = [] ∧ (∀ t ∈ m.threadQueue.entries, Useless m t) ∧
      threadSleep q k m =
        if (wq.queue.push m.currentThread).popLast.1 = m.currentThread then
          .ret THREAD_NONE (sleptNoneAt m q wq q')
        else .jump ((((asleepAt m q wq).setThreadQueue q').setState m.currentThread
          .Running).setWaitQueue q
            (some { wq with queue := (wq.queue.push m.currentThread).popLast.2 })).abort) ∨
    ∃ ds t ts q', m.threadQueue.entries = ds ++ t :: ts ∧ q'.entries = ts ∧ isValidThread t ∧
      (m.threads t).state = .Running ∧ t ≠ m.currentThread ∧ (∀ d ∈ ds, Useless m d) ∧
      threadSleep q k m = .jump (threadYieldSwitch false t (.threadSleep q m.interrupts :: k)
        (((asleepAt m q wq).interruptsSet false).setThreadQueue q')) := by
  have hqueue : (abs m).queues q = some (wq.owner, wq.queue.entries) := by simp [hq, absQueue]
  have hv' : (abs (asleepAt m q wq)).Valid := by
    rw [abs_asleepAt]
    exact hv.asleep hqueue
  have hsleep : threadSleep q k m =
      (threadYield THREAD_ANY (.threadSleep q m.interrupts :: k) (asleepAt m q wq)).bind
        (threadSleepAfterYield q m.interrupts) := by
    rw [threadSleep, if_neg (hv.ne_null hqueue)]
    simp only [Machine.interruptsSet_waitQueues, hq]
    rfl
  rcases threadYield_any_cases (.threadSleep q m.interrupts :: k) hv'.current hv'.ready with
    ⟨q', hnil, hall, heq⟩ | ⟨ds, t, ts, q', hes, hts, ht, hrun, hne, hds, heq⟩
  · refine .inl ⟨q', hnil, fun t ht => useless_asleepAt (hall t ht), ?_⟩
    have hat : ((asleepAt m q wq).setThreadQueue q').waitQueues q =
        some { wq with queue := wq.queue.push m.currentThread } := by simp
    rw [hsleep, heq, Outcome.bind_ret, threadSleepAfterYield_none hat]
    rfl
  · have hne' : t ≠ m.currentThread := hne
    refine .inr ⟨ds, t, ts, q', hes, hts, ht, by simpa [hne'] using hrun, hne',
      fun d hd => useless_asleepAt (hds d hd), ?_⟩
    rw [hsleep, heq]
    rfl

/-- A sleep that is undone leaves the thread inside its function. -/
lemma Inside.sleptNone (h : Inside m) (q : Addr) (wq : Option WaitQueue) (s : Bool) :
    Inside ((((m.setState m.currentThread .Running).setWaitQueue q wq).emit
      (.sleptNone m.currentThread q)).interruptsSet s) := by
  refine ((((keeps_setState m m.currentThread fun _ => h.state).trans
    (keeps_setWaitQueue _ q wq)).trans (keeps_emit _ ⟨fun _ => rfl, fun _ => rfl⟩)).trans
      (keeps_interruptsSet _ s)).inside h ?_
  simp

/-- **`thread_sleep`**.

**Proof sketch.** By the two outcomes of `threadSleep_cases`. If no other thread can run, all
entries of the ready queue are dropped (`discard`), and the thread that has put its entry in the
queue takes it back (`sleepNone`); if the queue was full, the entry that it takes back is not its
own, and the assertion fails. Otherwise the entries before that of `t` are dropped, and the thread
goes to sleep (`sleep`). -/
lemma Run.threadSleep_spec {q : Addr} {k : Stack} {o : Owner} (h : Run P v m)
    (hfree : ∀ u l, Label.free l = true → P u l) (hcalls : (abs m).Calls f)
    (hsleeps : f.sleepsOn o = true) (hacc : q ≠ NULL → (abs m).Access q o)
    (hlock : ∀ l lock, o = .lock l → m.locks l = some lock → lock.current ≠ -1)
    (hP : ∀ t ts, P ((abs m).setReady (t :: ts)) (.sleep q o t))
    (hk : ∀ a, isValidThread a → Suspended
      (.threadYield false a true :: .threadSleep q m.interrupts :: k) { fn := some f }) :
    (threadSleep q k m).All (fun _ m' => Back P v f m m' ∧ m'.locks = m.locks) (Lands P v) := by
  by_cases hq0 : q = NULL
  · rw [threadSleep, if_pos hq0]
    exact ⟨⟨h, hcalls, rfl, rfl⟩, rfl⟩
  cases hq : m.waitQueues q with
  | none =>
    rw [threadSleep, if_neg hq0]
    simp only [Machine.interruptsSet_waitQueues, hq]
    exact lands_undef
  | some wq =>
    have hqueue : (abs m).queues q = some (wq.owner, wq.queue.entries) := by simp [hq, absQueue]
    have hi := h.inside.asleepAt q wq
    rcases threadSleep_cases h.valid hq k with
      ⟨q', hnil, hall, heq⟩ | ⟨ds, t, ts, q', hes, hts, ht, hrun, hne, hds, heq⟩
    · -- no other thread can run: the sleep is undone
      have hdiscard : View.Step (abs m) (.discard m.threadQueue.entries) ((abs m).setReady []) :=
        .discard (by simp) hall
      rw [heq]
      by_cases hlast : (wq.queue.push m.currentThread).popLast.1 = m.currentThread
      · rw [if_pos hlast]
        have hpush := Queue.popLast_push hlast
        refine ⟨⟨⟨h.start, ?_, (h.path.tail (hfree _ _ rfl) hdiscard).tail (l := .sleepNone q)
          (hfree _ _ rfl) ?_⟩, hcalls.of_quiet rfl ⟨fun _ => rfl, fun _ => rfl⟩, rfl,
          rfl⟩, rfl⟩
        · exact ((keeps_setThreadQueue _ q').inside hi hi.state).sleptNone q _ _
        · have hstep := View.Step.sleepNone (v := (abs m).setReady [])
            ⟨hcalls.alive, hcalls.progress⟩ hsleeps (hacc hq0) hqueue hlock rfl hpush
          have habs : abs (sleptNoneAt m q wq q') =
              (((((abs m).setReady []).asleep m.currentThread q wq.owner wq.queue.entries).setState
                m.currentThread .Running).setQueue q
                (some (wq.owner, (wq.queue.push m.currentThread).popLast.2.entries))).emit
                (.sleptNone m.currentThread q) := by
            simp only [abs_interruptsSet, abs_emit, abs_setWaitQueue, abs_setState,
              abs_setThreadQueue, hnil, Option.map_some, absQueue, Queue.entries_push_eq]
            rfl
          exact habs ▸ hstep
      · rw [if_neg hlast]
        exact lands_abort
    · -- the processor goes to `t`
      have hdiscard : View.Step (abs m) (.discard ds) ((abs m).setReady (t :: ts)) :=
        .discard hes hds
      set m₁ := ((asleepAt m q wq).interruptsSet false).setThreadQueue q' with hm₁
      rw [heq]
      have hsleep : View.Step ((abs m).setReady (t :: ts)) (.sleep q o t)
          (abs (threadYieldSwitch false t (.threadSleep q m.interrupts :: k) m₁)) := by
        have habs : abs m₁ =
            ((abs m).asleep m.currentThread q wq.owner wq.queue.entries).setReady ts := by
          rw [hm₁, abs_setThreadQueue, abs_interruptsSet, abs_asleepAt, hts]
        rw [abs_threadYieldSwitch, habs]
        exact View.Step.sleep (v := (abs m).setReady (t :: ts))
          ⟨hcalls.alive, hcalls.progress⟩ hsleeps (hacc hq0) hqueue hlock ⟨rfl, hrun, hne⟩
      refine .inr ⟨⟨hsleep.valid (hdiscard.valid h.valid), ?_⟩,
        (h.path.tail (hfree _ _ rfl) hdiscard).tail (hP t ts) hsleep⟩
      have hi₁ : Inside m₁ := ((keeps_interruptsSet _ false).trans
        (keeps_setThreadQueue _ q')).inside hi hi.state
      have hlive : (m₁.threads t).state ≠ .Destroyed := by
        have hstate : (m₁.threads t).state = (m.threads t).state := by simp [hm₁, hne]
        rw [hstate, hrun]
        decide
      refine controlOk_threadYieldSwitch (hi₁.mayLeave rfl fun a ha => ?_) ht hlive hne
      have hprogress : progress m₁.currentThread m₁.trace = { fn := some f } := hcalls.progress
      rw [hprogress]
      exact hk a ha

end UserThreads
