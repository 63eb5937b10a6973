import UserSpaceThreads.Turns
import UserSpaceThreads.Wakeups

set_option relaxedAutoImplicit false
set_option autoImplicit false

/-!
# The order in which woken threads run

`thread_wakeup(queue, 1)` pushes the sleepers of the queue onto `thread_queue` in the order in
which they have gone to sleep. But `thread_sleep` gives up the processor with `thread_yield`, which
has pushed each of them onto `thread_queue` already. While its thread is asleep, such an entry is
dropped if `get_thread_any` comes to it; if it is still there at the wakeup, it counts again. So a
sleeper can be overtaken by one that has gone to sleep after it, if the entry of the first has been
dropped and the entry of the second has not.

## Main definitions

* `UserThreads.InOrder` — threads come in a certain order in a list.
* `UserThreads.Unpassed` — no sleeper has an entry that puts it in front of an earlier one.

## Main results

* `UserThreads.woken_run_in_order` — then, and only then, woken threads run in their order.
* `UserThreads.sleeper_passed` — a run in which they do not.
-/

namespace UserThreads

variable {m m' m'' : Machine} {q : Addr}

/-! ## Orders -/

/-- The first entries of the threads `ss` in the list `xs` come in the order of `ss`; threads
without an entry come last. -/
def InOrder (ss xs : List Tid) : Prop := ss.Pairwise fun s t => xs.idxOf s ≤ xs.idxOf t

instance (ss xs : List Tid) : Decidable (InOrder ss xs) :=
  inferInstanceAs (Decidable (ss.Pairwise _))

/-- In `thread_queue`, with the sleepers of `q` pushed onto it as far as there is room, every
sleeper has an entry, and the first entries of the sleepers come in the order in which they have
gone to sleep. -/
structure Unpassed (m : Machine) (q : Addr) : Prop where
  mem : ∀ s ∈ sleepers q m.trace, s ∈ pushAll m.threadQueue.entries (sleepers q m.trace)
  order : InOrder (sleepers q m.trace) (pushAll m.threadQueue.entries (sleepers q m.trace))

/-- The entries of the wait queue `q` whose threads are not dead are its sleepers, in the order in
which they have gone to sleep; none of them runs. -/
structure Enrolled (m : Machine) (q : Addr) : Prop where
  queue : ∃ wq, m.waitQueues q = some wq ∧ wq.queue.entries.Nodup ∧
    (∀ t ∈ wq.queue.entries, (m.threads t).state ≠ .Running) ∧
    sleepers q m.trace = wq.queue.entries.filter fun t => (m.threads t).state ≠ .Destroyed
  caller : m.currentThread ∉ sleepers q m.trace

/-- Two different members of a list have different indices. -/
lemma idxOf_lt_of_le {xs : List Tid} {s t : Tid} (hs : s ∈ xs) (hne : s ≠ t)
    (h : xs.idxOf s ≤ xs.idxOf t) : xs.idxOf s < xs.idxOf t := by
  refine lt_of_le_of_ne h fun heq => hne ?_
  exact (List.idxOf_inj hs).mp heq

/-- In disciplined runs, sleepers are enrolled. -/
lemma ReachableBy.enrolled (h : ReachableBy Disciplined m) (hrun : ¬ Stopped m)
    (hcaller : (m.threads m.currentThread).state ≠ .Sleep) (hq : (m.waitQueues q).isSome = true) :
    Enrolled m q := by
  obtain ⟨-, ho, hroster⟩ := ReachableBy.roster h hrun
  obtain ⟨wq, hwq⟩ := Option.isSome_iff_exists.mp hq
  have hqueue : (abs m).queues q = some (wq.owner, wq.queue.entries) := by simp [hwq, absQueue]
  have hsleepers := hroster q _ _ hqueue
  refine ⟨⟨wq, hwq, ho.nodup q _ _ hqueue, fun t ht hst => ?_, hsleepers⟩, fun hmem => ?_⟩
  · have hsleep := (ho.entries q _ _ hqueue t ht (by rw [abs_state, hst]; decide)).1
    rw [abs_state, hst] at hsleep
    cases hsleep
  · rw [show sleepers q m.trace = _ from hsleepers, List.mem_filter] at hmem
    exact hcaller (ho.entries q _ _ hqueue _ hmem.1 (by simpa using hmem.2)).1

/-! ## The wakeup -/

/-- The sleepers are different threads, and they are asleep. -/
lemma Enrolled.asleep (h : Enrolled m q) : (sleepers q m.trace).Nodup ∧
    ∀ s ∈ sleepers q m.trace, (m.threads s).state = .Sleep := by
  obtain ⟨wq, -, hnodup, hnot, hsleepers⟩ := h.queue
  rw [hsleepers]
  refine ⟨hnodup.filter _, fun s hs => ?_⟩
  obtain ⟨hmem, hst⟩ := List.mem_filter.mp hs
  cases hstate : (m.threads s).state with
  | Running => exact (hnot s hmem hstate).elim
  | Destroyed => simp [hstate] at hst
  | Sleep => rfl

/-- `thread_wakeup(q, 1)` wakes the sleepers, and pushes them onto `thread_queue` in their order. -/
lemma Enrolled.wakeup (h : Enrolled m q) (hv : (abs m).Valid) : ∃ num m₁,
    threadWakeup q 1 m = .ret num m₁ ∧ Woken q 1 (sleepers q m.trace) m m₁ := by
  obtain ⟨wq, hwq, hnodup, hnot, hsleepers⟩ := h.queue
  have hlist : wakes m q 1 = sleepers q m.trace := by
    rw [wakes, hwq]
    dsimp only
    rw [wakeList_eq hnodup hnot, if_neg (by decide), hsleepers]
  obtain ⟨m₁, hm₁, hwoken⟩ := threadWakeup_returns hv hwq hnodup hnot 1
  rw [hlist] at hm₁ hwoken
  exact ⟨_, m₁, hm₁, hwoken⟩

/-- The state after a call of `thread_wakeup(q, 1)` by user code. -/
lemma Enrolled.call (h : Enrolled m q) (hv : (abs m).Valid)
    (hs : step m (.call (.threadWakeup q 1)) = some m') :
    m'.currentThread = m.currentThread ∧ m'.administrativeMode = m.administrativeMode ∧
      m'.threadQueue.entries = pushAll m.threadQueue.entries (sleepers q m.trace) ∧
      ∀ s ∈ sleepers q m.trace, (m'.threads s).state = .Running := by
  have hcalled : Enrolled (calledAt m (.threadWakeup q 1)) q := ⟨h.queue, h.caller⟩
  obtain ⟨num, m₁, heq, hw⟩ := hcalled.wakeup (hv.retrace ..)
  have hm' : m' = userReturn (.threadWakeup q 1) ⟨num, none⟩ m₁ := by
    rw [step] at hs
    split_ifs at hs
    have hcall : UserThreads.call (.threadWakeup q 1) m =
        andThen (threadWakeup q 1 (calledAt m (.threadWakeup q 1)))
          fun v m => userReturn (.threadWakeup q 1) ⟨v, none⟩ m := rfl
    rw [hcall, heq] at hs
    exact (Option.some.inj hs).symm
  rw [hm']
  exact ⟨hw.keeps.current, hw.keeps.admin, hw.ready, fun s hs => (hw.state s).trans (if_pos hs)⟩

/-! ## The runs after the wakeup -/

/-- Two threads that are ready have their turns in the order of their entries. -/
lemma Drained.idxOf_le {cs done rest more : List Tid} {v : View} (h : Drained m cs v done rest more)
    {s t : Tid} (hs : Ready m s) (ht : Ready m t)
    (hle : m.threadQueue.entries.idxOf s ≤ m.threadQueue.entries.idxOf t) :
    cs.idxOf s ≤ cs.idxOf t := by
  rcases eq_or_ne s t with rfl | hne
  · exact le_rfl
  have hlt := idxOf_lt_of_le hs.mem hne hle
  by_cases hcs : s ∈ cs
  · exact ((h.order s t hs ht hcs).mpr hlt).le
  · -- `s` has not had its turn yet, and neither has `t`
    have htcs : t ∉ cs := fun hmem => by
      have hindex := List.idxOf_lt_length_of_mem hmem
      have hback := (h.order t s ht hs hmem).mp (by rwa [List.idxOf_eq_length hcs])
      omega
    rw [List.idxOf_eq_length hcs, List.idxOf_eq_length htcs]

/-- **Woken threads run in the order in which they have gone to sleep if no entry of
`thread_queue` puts one in front of an earlier one.** After `thread_wakeup(q, 1)`, in every run in
which threads do nothing but yield, the sleepers of `q` have their first turns in their order, and
a sleeper that waits for its turn is never refused it by a `thread_yield` that finds no thread to
run. Conversely, once all sleepers have had their turns, these have been in that order only
if the condition holds.

**Proof sketch.** The wakeup pushes the sleepers behind what is in `thread_queue` (`Enrolled.call`),
so each sleeper that has an entry is ready. By `Drained` the first turns come in the order of the
first entries. `Unpassed` says that the first entries are in the order of the sleepers; if they are
not, neither are the turns. That a turn comes is `Turns.waiting`. -/
theorem woken_run_in_order {cs : List Tid} (h : Reachable m) (hq : Enrolled m q)
    (hs : step m (.call (.threadWakeup q 1)) = some m') (hturns : Turns m' cs m'')
    (hrun : ¬ Stopped m'') :
    (Unpassed m q → InOrder (sleepers q m.trace) cs ∧ ∀ s ∈ sleepers q m.trace, s ∉ cs →
      cs.length ≤ (pushAll m.threadQueue.entries (sleepers q m.trace)).idxOf s ∧
        ∀ k, ∃ m₁ c, threadYield THREAD_ANY k m'' = .jump m₁ ∧ m₁.control = .resumed c) ∧
    ((∀ s ∈ sleepers q m.trace, s ∈ cs) → InOrder (sleepers q m.trace) cs → Unpassed m q) := by
  have hgo : ¬ Stopped m := fun hst => by
    rw [hst.step_none] at hs
    cases hs
  have hb := ReachableBy.base h hgo
  have hadmin : m.administrativeMode = false := by
    have hc := hb.control
    rw [step] at hs
    split_ifs at hs with huser
    rw [ControlOk, huser.1] at hc
    exact hc.1.admin
  obtain ⟨hcur, hadmin', hes, hrunning⟩ := hq.call hb.valid hs
  have hr' : Reachable m' := .step h trivial hs
  rw [hadmin] at hadmin'
  obtain ⟨-, hd⟩ := hturns.drained hr' hadmin'
  obtain ⟨-, done, rest, more, hd⟩ := hd.resolve_left hrun
  have hready (s : Tid) (hmem : s ∈ sleepers q m.trace)
      (hin : s ∈ pushAll m.threadQueue.entries (sleepers q m.trace)) : Ready m' s := by
    refine ⟨hrunning s hmem, ?_, by rwa [hes]⟩
    rw [hcur]
    rintro rfl
    exact hq.caller hmem
  constructor
  · intro hok
    refine ⟨hok.order.imp_of_mem fun ha hb hle => ?_, fun s hmem hcs => ?_⟩
    · exact hd.idxOf_le (hready _ ha (hok.mem _ ha)) (hready _ hb (hok.mem _ hb)) (by rwa [hes])
    · obtain ⟨hlength, hnext⟩ :=
        hturns.waiting hr' hadmin' (hready s hmem (hok.mem s hmem)) hcs hrun
      rw [hes] at hlength
      refine ⟨hlength, fun k => ?_⟩
      obtain ⟨m₁, c, hyield, hcontrol, -⟩ := hnext k
      exact ⟨m₁, c, hyield, hcontrol⟩
  · intro hall horder
    have hin (s : Tid) (hmem : s ∈ sleepers q m.trace) :
        s ∈ pushAll m.threadQueue.entries (sleepers q m.trace) := by
      rw [← hes]
      refine (hd.entered s (hall s hmem)).resolve_right ?_
      rw [hcur]
      rintro rfl
      exact hq.caller hmem
    refine ⟨hin, horder.imp_of_mem fun {s t} ha hb hle => ?_⟩
    rw [← hes]
    by_contra hlt
    have hback := (hd.order t s (hready t hb (hin t hb)) (hready s ha (hin s ha)) (hall t hb)).mpr
      (by omega)
    omega

/-- Threads 1 and 2 sleep, and the entries that they have left in `thread_queue` are both there. -/
theorem woken_run_in_order_two :
    let m := after 0 [.call .waitQueueCreate, .exec, .call (.threadCreate 0 0),
      .call (.threadCreate 0 0), .call (.threadYield THREAD_ANY), .exec, .call (.threadSleep 1),
      .exec, .call (.threadSleep 1), .exec]
    let m' := call (.threadWakeup 1 1) m
    let m'' := (Runs.follow step m' [.call (.threadYield THREAD_ANY), .exec]).getD m'
    sleepers 1 m.trace = [1, 2] ∧ InOrder (sleepers 1 m.trace) [1] ∧
      ∃ m₁, threadYield THREAD_ANY [] m'' = .jump m₁ := by
  intro m m' m''
  have hs : step m (.call (.threadWakeup 1 1)) = some m' := by
    rw [step]
    exact if_pos ⟨by decide +kernel, by decide +kernel⟩
  have hturns : Turns m' [1] m'' :=
    turns_of_follow (by decide) (by decide +kernel) (by decide +kernel)
  have henrolled : Enrolled m 1 := ReachableBy.enrolled (reachableBy_after (by decide +kernel))
    (by decide +kernel) (by decide +kernel) (by decide +kernel)
  obtain ⟨horder, hnext⟩ := (woken_run_in_order (reachable_after (by decide +kernel)) henrolled hs
    hturns (by decide +kernel)).1 ⟨by decide +kernel, by decide +kernel⟩
  obtain ⟨m₁, c, hm₁, -⟩ := (hnext 2 (by decide +kernel) (by decide)).2 []
  exact ⟨by decide +kernel, horder, m₁, hm₁⟩

/-- **A sleeper that is passed.** Thread 1 goes to sleep before thread 2. The entry that it has
left in `thread_queue` is dropped while it sleeps, and that of thread 2 is still there when thread
3 wakes both: thread 2 runs before thread 1 has run. -/
theorem sleeper_passed :
    let m := after 0 [.call .waitQueueCreate, .exec, .call (.threadCreate 0 0),
      .call (.threadCreate 0 0), .call (.threadCreate 0 0), .call (.threadYield THREAD_ANY), .exec,
      .call (.threadSleep 1), .exec, .call (.threadYield THREAD_ANY), .exec,
      .call (.threadYield THREAD_ANY), .exec, .call (.threadYield THREAD_ANY), .exec,
      .call (.threadSleep 1), .exec]
    Reachable m ∧ sleepers 1 m.trace = [1, 2] ∧
      ∃ m' m'', step m (.call (.threadWakeup 1 1)) = some m' ∧ Turns m' [0, 2] m'' ∧
        m''.currentThread = 2 ∧ ¬ InOrder [1, 2] [0, 2] := by
  intro m
  have hs : step m (.call (.threadWakeup 1 1)) = some (call (.threadWakeup 1 1) m) := by
    rw [step]
    exact if_pos ⟨by decide +kernel, by decide +kernel⟩
  let as : List Action :=
    [.call (.threadYield THREAD_ANY), .exec, .call (.threadYield THREAD_ANY)]
  let m' := call (.threadWakeup 1 1) m
  have hturns : Turns m' [0, 2] ((Runs.follow step m' as).getD m') :=
    turns_of_follow (by decide) (by decide +kernel) (by decide +kernel)
  exact ⟨reachable_after (by decide +kernel), by decide +kernel, _, _, hs, hturns,
    by decide +kernel, by decide⟩

end UserThreads
