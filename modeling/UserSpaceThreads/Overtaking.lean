import UserSpaceThreads.Turns

set_option relaxedAutoImplicit false
set_option autoImplicit false

/-!
# Bounded overtaking

A Running thread whose first entry in `thread_queue` is at the position `p` is overtaken by at most
`p` others: when threads do nothing but yield, it has the processor after at most `p + 1` calls of
`thread_yield(THREAD_ANY)`. Until then no call finds `thread_queue` without a thread to run. The
loop of `get_thread_any`, which has no bound in the source, ends in all of these calls.

## Main definitions

* `UserThreads.LoopEnds` — the loop of `get_thread_any` ends.

## Main results

* `UserThreads.bounded_overtaking` — the bound.
-/

namespace UserThreads

variable {m m' : Machine}

/-- The loop of `get_thread_any` ends: it has the same result for every bound on the number of its
rounds above the size of the queue, and the entries that it leaves are the last ones of those that
it has found. -/
def LoopEnds (m : Machine) : Prop :=
  (getThreadAny m.currentThread m).2.entries <:+ m.threadQueue.entries ∧
    ∀ n, m.threadQueue.size < n →
      getThreadAnyLoop m.threads m.currentThread n m.threadQueue = getThreadAny m.currentThread m

/-- More rounds than there are entries make no difference. -/
lemma getThreadAnyLoop_eq (threads : Tid → Thread) (current : Tid) {n k : ℕ} {q : Queue}
    (hn : q.size < n) (hk : q.size < k) :
    getThreadAnyLoop threads current n q = getThreadAnyLoop threads current k q := by
  induction n generalizing q k with
  | zero => omega
  | succ n ih =>
    obtain ⟨k, rfl⟩ : ∃ j, k = j + 1 := ⟨k - 1, by omega⟩
    rw [getThreadAnyLoop, getThreadAnyLoop]
    cases he : q.entries with
    | nil => rw [Queue.pop_of_nil he, if_pos rfl, if_pos rfl]
    | cons t ts =>
      obtain ⟨-, hrest⟩ := Queue.pop_of_cons he
      have hsize : q.size = q.pop.2.size + 1 := by
        rw [← Queue.length_entries, ← Queue.length_entries, he, hrest, List.length_cons]
      rw [ih (q := q.pop.2) (k := k) (by omega) (by omega)]

/-- The loop of `get_thread_any` ends. -/
lemma loopEnds (hv : (abs m).Valid) : LoopEnds m := by
  refine ⟨?_, fun n hn => getThreadAnyLoop_eq _ _ hn (Nat.lt_succ_self _)⟩
  rcases getThreadAny_cases m hv.ready with ⟨q', hq', hnil, -⟩ |
    ⟨ds, t, ts, q', hq', hes, hts, -, -⟩
  · rw [hq', hnil]
    exact List.nil_suffix
  · rw [hq', hts, hes]
    exact ⟨ds ++ [t], by simp⟩

/-- **Bounded overtaking.** Let the thread `t` be Running, not have the processor, and have its
first entry in `thread_queue` at the position `p`. While threads only yield and `t` has not had its
turn, at most `p` others have had theirs; the next `thread_yield(THREAD_ANY)`, whoever calls it,
gives the processor to another thread, and to `t` if `p` others have had their turns; and the loop
of `get_thread_any` ends.

**Proof sketch.** The count and the next turn are `Turns.waiting`, and that the loop ends is
`loopEnds`, which holds in every state. -/
theorem bounded_overtaking {t : Tid} {cs : List Tid} (h : Reachable m)
    (hadmin : m.administrativeMode = false) (hready : Ready m t) (hturns : Turns m cs m')
    (hwaits : t ∉ cs) (hrun : ¬ Stopped m') :
    cs.length ≤ m.threadQueue.entries.idxOf t ∧ LoopEnds m' ∧ ∀ k, ∃ m'' c,
      threadYield THREAD_ANY k m' = .jump m'' ∧ m''.control = .resumed c ∧
      m''.currentThread ≠ m'.currentThread ∧
      (cs.length = m.threadQueue.entries.idxOf t → m''.currentThread = t) := by
  have hb := ReachableBy.base (hturns.drained h hadmin).1 hrun
  obtain ⟨hlength, hnext⟩ := hturns.waiting h hadmin hready hwaits hrun
  exact ⟨hlength, loopEnds hb.valid, hnext⟩

/-- Thread 2 waits behind thread 1, which has been given the processor. -/
theorem bounded_overtaking_two :
    let m := after 0 [.call (.threadCreate 0 0), .call (.threadCreate 0 0)]
    let m' := (Runs.follow step m [.call (.threadYield THREAD_ANY), .exec]).getD m
    LoopEnds m' ∧ ∀ k, ∃ m'' c, threadYield THREAD_ANY k m' = .jump m'' ∧
      m''.control = .resumed c ∧ m''.currentThread = 2 := by
  intro m m'
  have hturns : Turns m [1] m' :=
    turns_of_follow (by decide) (by decide +kernel) (by decide +kernel)
  obtain ⟨-, hloop, hnext⟩ := bounded_overtaking (t := 2) (reachable_after (by decide +kernel)) rfl
    ⟨by decide +kernel, by decide +kernel, by decide +kernel⟩ hturns (by decide) (by decide +kernel)
  refine ⟨hloop, fun k => ?_⟩
  obtain ⟨m'', c, hyield, hcontrol, -, hcur⟩ := hnext k
  exact ⟨m'', c, hyield, hcontrol, hcur (by decide +kernel)⟩

end UserThreads
