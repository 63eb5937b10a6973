import UserSpaceThreads.TestLock

set_option relaxedAutoImplicit false
set_option autoImplicit false

/-!
# The tests of condition variables

`test_cv_signal_thread` of `test_cv_signal.c` and `test_cv_broadcast_thread` of
`test_cv_broadcast.c`, as code of a process. Each thread waits until it is its turn, prints a line
and gives the turn to the thread with the next lower number. The tests announce that "threads
should print out in reverse order", and so they do, in all runs. This rests on the lock only: the
condition variables say when it may be worth looking at `turn`.

The two functions differ in the condition variables that they use. A line is printed with the timer
signal blocked, in one step. How long a `cv_wait` takes is left to the environment.

## Main definitions

* `UserThreads.testCvSignalThread`, `UserThreads.testCvBroadcastThread` — the code of the threads.
* `UserThreads.TestCv.outline` — its proof outline.

## Main results

* `UserThreads.test_cv_in_order` — the threads print in reverse order, and no assertion fails.
-/

namespace UserThreads

open History ProofOutline

/-- `NTHREADS`, the number of threads that a test creates. -/
def NTHREADS : ℕ := 128

namespace TestCv

/-- The condition variables: one for every thread, or one for all. -/
inductive Cvs
  /-- `testcv_signal` -/
  | signal (testcv : ℕ → Addr)
  /-- `testcv_broadcast` -/
  | broadcast (testcv : Addr)

/-- The condition variable that the thread with the number `num` waits on. -/
def Cvs.wait : Cvs → ℕ → Addr
  | .signal testcv, num => testcv num
  | .broadcast testcv, _ => testcv

/-- The call that wakes the thread with the number `turn`. -/
def Cvs.wakeup (lock : Addr) : Cvs → ℕ → Fn
  | .signal testcv, turn => .cvSignal (testcv turn) lock
  | .broadcast testcv, _ => .cvBroadcast testcv lock

/-- What the test threads share. -/
structure Shared where
  /-- `turn` -/
  turn : BitVec 64
  /-- `done` -/
  done : ℤ
  /-- the lines that say that a thread passes: an `i` and a `num` each, newest first -/
  passes : List (ℕ × BitVec 64)

/-- Where a test thread is. -/
inductive Point
  /-- at `i < LOOPS` -/
  | outer
  /-- at an `assert(interrupts_enabled())` -/
  | enabled (next : Point)
  /-- at `lock_acquire` -/
  | acquire
  /-- at `turn != num` -/
  | test
  /-- at `cv_wait` -/
  | wait
  /-- at the test whether `cv_wait` was too fast -/
  | clock
  /-- at the `unintr_printf` behind the loop -/
  | print
  /-- at the assignment of `turn`, before it is read -/
  | loadTurn
  /-- at the assignment of `turn`, with the value that has been read -/
  | storeTurn (turn : BitVec 64)
  /-- at `cv_signal` or `cv_broadcast`, before `turn` is read; a broadcast does not use it -/
  | loadIndex
  /-- at `cv_signal` or `cv_broadcast` -/
  | wakeup (turn : BitVec 64)
  /-- at `lock_release` -/
  | release
  /-- at `out`, before `__atomic_add_fetch` -/
  | add
  /-- behind it -/
  | finish
  deriving DecidableEq, Repr

/-- A test thread: its argument, its variable, and where it is. -/
structure Thread where
  num : BitVec 64
  i : ℕ
  point : Point
  deriving DecidableEq, Repr

/-- The thread goes to `point`. -/
def Thread.goto (l : Thread) (point : Point) : Thread := { l with point := point }

/-- `test_cv_signal_thread` and `test_cv_broadcast_thread`. -/
def code (lock : Addr) (cvs : Cvs) (l : Thread) : Instr Bool Shared Thread Fn Ret :=
  match l.point with
  | .outer => .step fun s => (s, l.goto (if l.i < LOOPS then .enabled .acquire else .add))
  | .enabled next => .check (fun interrupts _ => interrupts) (l.goto next)
  | .acquire => .call (.lockAcquire lock) fun _ => l.goto (.enabled .test)
  | .test => .step fun s => (s, l.goto (if s.turn ≠ l.num then .enabled .wait else .print))
  | .wait => .call (.cvWait (cvs.wait l.num.toNat) lock) fun _ => l.goto (.enabled .clock)
  | .clock => .choose fun tooFast => l.goto (if tooFast then .add else .test)
  | .print => .step fun s => ({ s with passes := (l.i, l.num) :: s.passes }, l.goto .loadTurn)
  | .loadTurn => .step fun s => (s, l.goto (.storeTurn s.turn))
  | .storeTurn turn => .step fun s =>
    ({ s with turn := (turn + BitVec.ofNat 64 NTHREADS - 1) % BitVec.ofNat 64 NTHREADS },
      l.goto (.enabled .loadIndex))
  | .loadIndex => .step fun s => (s, l.goto (.wakeup s.turn))
  | .wakeup turn => .call (cvs.wakeup lock turn.toNat) fun _ => l.goto (.enabled .release)
  | .release => .call (.lockRelease lock) fun _ => { l with i := l.i + 1, point := .enabled .outer }
  | .add => .step fun s => ({ s with done := s.done + 1 }, l.goto .finish)
  | .finish => .call .threadReturn fun _ => l

/-! ## The proof outline -/

/-- The number of the thread that passes after `k` threads have passed. -/
def expected (k : ℕ) : ℕ := NTHREADS - 1 - k % NTHREADS

/-- The threads have passed in order. -/
def InOrder : List (ℕ × BitVec 64) → Prop
  | [] => True
  | (_, num) :: ps => num.toNat = expected ps.length ∧ InOrder ps

/-- The threads have passed in order, and it is the turn of the next one. -/
def Next (turn : BitVec 64) (passes : List (ℕ × BitVec 64)) : Prop :=
  InOrder passes ∧ turn.toNat = expected passes.length

/-- The threads have passed in order, and it is still the turn of the last one. -/
def Passed (turn : BitVec 64) (passes : List (ℕ × BitVec 64)) : Prop :=
  InOrder passes ∧ ∃ k, passes.length = k + 1 ∧ turn.toNat = expected k

/-- The point is in the body of the loop. -/
def Point.inLoop : Point → Prop
  | .outer => False
  | .enabled next => next.inLoop
  | .add => False
  | .finish => False
  | _ => True

/-- The thread has `testlock`. -/
def Point.inside (i : ℕ) : Point → Prop
  | .outer => False
  | .enabled next => next.inside i
  | .acquire => False
  -- the `goto` leads out of the loop without a `lock_release`
  | .add => i < LOOPS
  | .finish => i < LOOPS
  | _ => True

/-- What is known of the shared variables at a point of the critical section. -/
def Point.pre (num turn : BitVec 64) (passes : List (ℕ × BitVec 64)) : Point → Prop
  | .enabled next => next.pre num turn passes
  | .print => Next turn passes ∧ turn = num
  | .loadTurn => Passed turn passes
  | .storeTurn turn' => Passed turn passes ∧ turn' = turn
  | _ => Next turn passes

/-- What is known where a thread is. -/
structure Thread.Pre (l : Thread) (s : Shared) : Prop where
  inLoop : l.point.inLoop → l.i < LOOPS
  pre : l.point.inside l.i → l.point.pre l.num s.turn s.passes

/-- The number of a thread is below `NTHREADS`. -/
lemma expected_lt (k : ℕ) : expected k < NTHREADS := by
  unfold expected NTHREADS
  omega

/-- A thread passes when it is its turn. -/
lemma Next.passed {turn : BitVec 64} {passes : List (ℕ × BitVec 64)} (h : Next turn passes)
    (i : ℕ) : Passed turn ((i, turn) :: passes) :=
  ⟨⟨h.2, h.1⟩, passes.length, rfl, h.2⟩

/-- The turn goes to the thread with the next lower number. -/
lemma Passed.next {turn : BitVec 64} {passes : List (ℕ × BitVec 64)} (h : Passed turn passes) :
    Next ((turn + BitVec.ofNat 64 NTHREADS - 1) % BitVec.ofNat 64 NTHREADS) passes := by
  obtain ⟨horder, k, hlength, hturn⟩ := h
  refine ⟨horder, ?_⟩
  rw [hlength]
  unfold expected NTHREADS at *
  simp only [BitVec.toNat_umod, BitVec.toNat_sub, BitVec.toNat_add, BitVec.toNat_ofNat,
    BitVec.ofNat_eq_ofNat, Nat.reducePow, Nat.reduceMod]
  omega

variable {lock : Addr} {cvs : Cvs} {l : Thread} {s s' : Shared}

/-- A step of a test thread.

**Proof sketch.** By the place in the code. `print` and `storeTurn` are the two that change anything
which the invariant speaks of: the first adds a pass (`passed`), and the second gives the turn to
the next number (`next`). -/
lemma code_step {f : Shared → Shared × Thread} (hcode : code lock cvs l = .step f)
    (hpre : l.Pre s) :
    ((f s).2.point.inside (f s).2.i ↔ l.point.inside l.i) ∧ (f s).2.Pre (f s).1 ∧
      (¬ l.point.inside l.i → (f s).1.turn = s.turn ∧ (f s).1.passes = s.passes) := by
  obtain ⟨num, i, point⟩ := l
  obtain ⟨hloop, hpre⟩ := hpre
  cases point with
  | outer =>
    cases hcode
    dsimp only [Thread.goto]
    split_ifs with hi
    · exact ⟨Iff.rfl, ⟨fun _ => hi, False.elim⟩, fun _ => ⟨rfl, rfl⟩⟩
    · exact ⟨⟨fun h => (hi h).elim, False.elim⟩, ⟨False.elim, fun h => (hi h).elim⟩,
        fun _ => ⟨rfl, rfl⟩⟩
  | test =>
    cases hcode
    dsimp only [Thread.goto]
    split_ifs with hturn
    · exact ⟨Iff.rfl, ⟨hloop, hpre⟩, fun _ => ⟨rfl, rfl⟩⟩
    · exact ⟨Iff.rfl, ⟨hloop, fun h => ⟨hpre h, not_not.mp hturn⟩⟩, fun _ => ⟨rfl, rfl⟩⟩
  | print =>
    cases hcode
    obtain ⟨hnext, rfl⟩ := hpre trivial
    exact ⟨Iff.rfl, ⟨hloop, fun _ => hnext.passed i⟩, fun hout => (hout trivial).elim⟩
  | loadTurn =>
    cases hcode
    exact ⟨Iff.rfl, ⟨hloop, fun h => ⟨hpre h, rfl⟩⟩, fun _ => ⟨rfl, rfl⟩⟩
  | storeTurn turn =>
    cases hcode
    obtain ⟨hpassed, rfl⟩ := hpre trivial
    exact ⟨Iff.rfl, ⟨hloop, fun _ => hpassed.next⟩, fun hout => (hout trivial).elim⟩
  | loadIndex | add =>
    cases hcode
    exact ⟨Iff.rfl, ⟨hloop, hpre⟩, fun _ => ⟨rfl, rfl⟩⟩
  | _ => cases hcode

/-- The assertions of a test thread are about the signal mask. -/
lemma code_check {q : Bool → Shared → Bool} {next : Thread}
    (hcode : code lock cvs l = .check q next)
    (hpre : l.Pre s) {interrupts : Bool} (hint : interrupts = true) :
    q interrupts s = true ∧ (next.point.inside next.i ↔ l.point.inside l.i) ∧ next.Pre s := by
  obtain ⟨num, i, point⟩ := l
  cases point with
  | enabled next =>
    cases hcode
    exact ⟨hint, Iff.rfl, hpre.inLoop, hpre.pre⟩
  | _ => cases hcode

/-- The clock of a test thread. -/
lemma code_choose {next : Bool → Thread} (hcode : code lock cvs l = .choose next) (hpre : l.Pre s)
    (b : Bool) : ((next b).point.inside (next b).i ↔ l.point.inside l.i) ∧ (next b).Pre s := by
  obtain ⟨num, i, point⟩ := l
  obtain ⟨hloop, hpre⟩ := hpre
  cases point with
  | clock =>
    cases hcode
    cases b with
    | false => exact ⟨Iff.rfl, hloop, hpre⟩
    | true => exact ⟨⟨fun _ => trivial, hloop⟩, False.elim, fun _ => hpre trivial⟩
  | _ => cases hcode

/-- The calls of a test thread. -/
lemma code_call {f : Fn} {next : Ret → Thread} (hcode : code lock cvs l = .call f next) :
    (l.point = .acquire ∧ f = .lockAcquire lock ∧ next = fun _ => l.goto (.enabled .test)) ∨
      (l.point = .wait ∧ f = .cvWait (cvs.wait l.num.toNat) lock ∧
        next = fun _ => l.goto (.enabled .clock)) ∨
      (∃ turn, l.point = .wakeup turn ∧ f = cvs.wakeup lock turn.toNat ∧
        next = fun _ => l.goto (.enabled .release)) ∨
      (l.point = .release ∧ f = .lockRelease lock ∧
        next = fun _ => { l with i := l.i + 1, point := .enabled .outer }) ∨
      l.point = .finish ∧ f = .threadReturn := by
  obtain ⟨num, i, point⟩ := l
  cases point with
  | acquire =>
    cases hcode
    exact .inl ⟨rfl, rfl, rfl⟩
  | wait =>
    cases hcode
    exact .inr (.inl ⟨rfl, rfl, rfl⟩)
  | wakeup turn =>
    cases hcode
    exact .inr (.inr (.inl ⟨turn, rfl, rfl, rfl⟩))
  | release =>
    cases hcode
    exact .inr (.inr (.inr (.inl ⟨rfl, rfl, rfl⟩)))
  | finish =>
    cases hcode
    exact .inr (.inr (.inr (.inr ⟨rfl, rfl⟩)))
  | _ => cases hcode

/-- The calls that wake other threads do not touch the lock. -/
lemma Cvs.wakeup_usage (cvs : Cvs) (turn : ℕ) :
    (lockUsage lock).acquires (cvs.wakeup lock turn) = false ∧
      (lockUsage lock).releases (cvs.wakeup lock turn) = false ∧
      (lockUsage lock).ends (cvs.wakeup lock turn) = false := by
  cases cvs <;> exact ⟨rfl, rfl, rfl⟩

/-- The proof outline. -/
def outline (lock : Addr) (cvs : Cvs) :
    Outline (code lock cvs) (lockUsage lock) (fun interrupts => interrupts = true) Fn.Replies where
  inside l := l.point.inside l.i
  pre l s := l.Pre s
  resource s := Next s.turn s.passes
  stable l s s' hout hpre := ⟨hpre.inLoop, fun hin => (hout hin).elim⟩
  step l f s hcode hpre := ⟨(code_step hcode hpre).1, (code_step hcode hpre).2.1⟩
  free l f s hcode hout hpre := by
    obtain ⟨hturn, hpasses⟩ := (code_step hcode hpre).2.2 hout
    refine ⟨fun l' hl' => ⟨hl'.inLoop, fun hin => ?_⟩, fun h => ?_⟩
    · rw [hturn, hpasses]
      exact hl'.pre hin
    · rw [hturn, hpasses]
      exact h
  check l q next s e hcode hpre he := code_check hcode hpre he
  choose l next s b hcode hpre := code_choose hcode hpre b
  plain l f next s r hcode hacq hrel hpre hr := by
    obtain ⟨hp, rfl, -⟩ | ⟨hp, rfl, -⟩ | ⟨turn, hp, -, rfl⟩ | ⟨hp, rfl, -⟩ | ⟨hp, rfl⟩ :=
      code_call hcode
    · simp [lockUsage, Fn.acquires] at hacq
    · simp [lockUsage, Fn.acquires] at hacq
    · obtain ⟨hloop, hpre⟩ := hpre
      rw [hp] at hloop hpre ⊢
      exact ⟨Iff.rfl, hloop, hpre⟩
    · simp [lockUsage, Fn.releases] at hrel
    · exact hr.elim
  enter l f next hcode hacq hin := by
    obtain ⟨hp, rfl, -⟩ | ⟨hp, rfl, -⟩ | ⟨turn, hp, rfl, -⟩ | ⟨hp, rfl, -⟩ | ⟨hp, rfl⟩ :=
      code_call hcode
    · rw [hp] at hin
      exact hin.elim
    · simp [lockUsage, Fn.releases]
    · rw [(cvs.wakeup_usage _).1] at hacq
      cases hacq
    · cases hacq
    · cases hacq
  acquire l f next s₀ s r hcode hacq hpre hr hresource := by
    obtain ⟨hloop, -⟩ := hpre
    obtain ⟨hp, rfl, rfl⟩ | ⟨hp, rfl, rfl⟩ | ⟨turn, hp, rfl, -⟩ | ⟨hp, rfl, -⟩ | ⟨hp, rfl⟩ :=
      code_call hcode
    · rw [hp] at hloop
      exact ⟨trivial, hloop, fun _ => hresource⟩
    · rw [hp] at hloop
      exact ⟨trivial, hloop, fun _ => hresource⟩
    · rw [(cvs.wakeup_usage _).1] at hacq
      cases hacq
    · cases hacq
    · cases hacq
  release l f next s hcode hrel hin hpre := by
    obtain ⟨-, hpre⟩ := hpre
    obtain ⟨hp, rfl, -⟩ | ⟨hp, rfl, -⟩ | ⟨turn, hp, rfl, -⟩ | ⟨hp, rfl, -⟩ | ⟨hp, rfl⟩ :=
      code_call hcode
    · cases hrel
    · rw [hp] at hpre
      exact hpre trivial
    · rw [(cvs.wakeup_usage _).2.1] at hrel
      cases hrel
    · rw [hp] at hpre
      exact hpre trivial
    · cases hrel
  finish l f next s hcode hends hin hpre := by
    obtain ⟨-, hpre⟩ := hpre
    obtain ⟨hp, rfl, -⟩ | ⟨hp, rfl, -⟩ | ⟨turn, hp, rfl, -⟩ | ⟨hp, rfl, -⟩ | ⟨hp, rfl⟩ :=
      code_call hcode
    · cases hends
    · cases hends
    · rw [(cvs.wakeup_usage _).2.2] at hends
      cases hends
    · cases hends
    · have hnext := hpre hin
      rw [hp] at hnext
      exact hnext
  released l f next s₀ s r hcode hrel hacq hpre hr := by
    obtain ⟨hp, rfl, -⟩ | ⟨hp, rfl, -⟩ | ⟨turn, hp, rfl, -⟩ | ⟨hp, rfl, rfl⟩ | ⟨hp, rfl⟩ :=
      code_call hcode
    · cases hrel
    · simp [lockUsage, Fn.acquires] at hacq
    · rw [(cvs.wakeup_usage _).2.1] at hrel
      cases hrel
    · exact ⟨id, False.elim, False.elim⟩
    · cases hrel

/-- In the critical section the threads have passed in order, too. -/
lemma Point.pre.inOrder {num turn : BitVec 64} {passes : List (ℕ × BitVec 64)} {point : Point}
    (h : point.pre num turn passes) : InOrder passes ∧ turn.toNat < NTHREADS := by
  have hnext (h : Next turn passes) : InOrder passes ∧ turn.toNat < NTHREADS :=
    ⟨h.1, h.2 ▸ expected_lt _⟩
  have hpassed (h : Passed turn passes) : InOrder passes ∧ turn.toNat < NTHREADS := by
    obtain ⟨horder, k, -, hk⟩ := h
    exact ⟨horder, hk ▸ expected_lt _⟩
  induction point with
  | enabled next ih => exact ih h
  | print => exact hnext h.1
  | loadTurn => exact hpassed h
  | storeTurn turn => exact hpassed h.1
  | _ => exact hnext h

/-- The numbers of threads that have passed in order. -/
lemma InOrder.eq {passes : List (ℕ × BitVec 64)} (h : InOrder passes) :
    passes.reverse.map (fun line => line.2.toNat) = (List.range passes.length).map expected := by
  induction passes with
  | nil => rfl
  | cons line passes ih =>
    obtain ⟨hline, hrest⟩ := h
    rw [List.reverse_cons, List.map_append, ih hrest, List.length_cons, List.range_succ,
      List.map_append, List.map_singleton, List.map_singleton, hline]

end TestCv

/-- Threads that run one of the two functions, which is at the address `fn`, with `testlock` at
`lock`. -/
def testCvThread (fn : ℕ) (lock : Addr) (cvs : TestCv.Cvs) :
    Client TestCv.Shared TestCv.Thread where
  code := TestCv.code lock cvs
  entry fn' parg := if fn' = fn then some ⟨BitVec.ofNat 64 parg, 0, .outer⟩ else none
  mask l f next hcode b := by
    rintro rfl
    obtain ⟨num, i, point⟩ := l
    cases point with
    | wakeup turn => cases cvs <;> cases hcode
    | _ => cases hcode

/-- Threads that run `test_cv_signal_thread`. -/
def testCvSignalThread (fn : ℕ) (lock : Addr) (testcv : ℕ → Addr) :
    Client TestCv.Shared TestCv.Thread := testCvThread fn lock (.signal testcv)

/-- Threads that run `test_cv_broadcast_thread`. -/
def testCvBroadcastThread (fn : ℕ) (lock testcv : Addr) :
    Client TestCv.Shared TestCv.Thread := testCvThread fn lock (.broadcast testcv)

variable {fn : ℕ} {lock : Addr} {cvs : TestCv.Cvs} {d : ℤ} {p : Process TestCv.Shared TestCv.Thread}

/-- At the start it is the turn of the thread with the highest number. -/
lemma TestCv.resource_init : (TestCv.outline lock cvs).resource ⟨127#64, d, []⟩ := ⟨trivial, rfl⟩

/-- The proof outline suits the runs in which no thread is killed while it has `testlock`. -/
lemma TestCv.fits {tr : List Event} (hkilled : Always (KilledFree lock) tr) :
    Always (Client.Fits (c := testCvThread fn lock cvs) (TestCv.outline lock cvs)) tr := by
  refine hkilled.mono fun e tr he => ?_
  cases e with
  | started t fn' parg =>
    intro l hl
    rw [testCvThread] at hl
    dsimp only at hl
    split_ifs at hl
    cases hl
    exact ⟨id, fun s => ⟨False.elim, False.elim⟩⟩
  | killed t => exact .inl he
  | _ => trivial

/-- **The threads print in reverse order**, in any run, however many threads run the test, whatever
the other threads do, and wherever the timer strikes, if no thread is killed while it has
`testlock`: first the thread with the number `NTHREADS - 1`, then the one with the next lower
number, and so on, and after thread 0 from the start. `turn` stays an index into the array of
condition variables, and no assertion fails. The numbers of the threads are below `NTHREADS`: a
larger one reads `testcv_signal` out of its bounds.

**Proof sketch.** The outline protects `turn` and the lines printed with `testlock`: when nobody has
the lock, the lines are in order and `turn` is the number that comes next (`TestCv.Next`). Only a
thread whose number is `turn` prints, and it gives the turn on before it releases the lock; while it
does, the lines are in order all the same. -/
theorem test_cv_in_order (h : (testCvThread fn lock cvs).Reachable ⟨127#64, d, []⟩ p)
    (hkilled : Always (KilledFree lock) p.machine.trace) :
    p.shared.passes.reverse.map (fun line => line.2.toNat) =
        (List.range p.shared.passes.length).map (fun k => NTHREADS - 1 - k % NTHREADS) ∧
      p.shared.turn.toNat < NTHREADS ∧ ¬ (testCvThread fn lock cvs).Fails p := by
  have hinit : (TestCv.outline lock cvs).resource ⟨127#64, d, []⟩ := TestCv.resource_init
  have hfits : Always (Client.Fits (c := testCvThread fn lock cvs) (TestCv.outline lock cvs))
      p.machine.trace := TestCv.fits hkilled
  obtain ⟨-, ls, tr, hsound⟩ := h.sound hinit hfits
  have horder : TestCv.InOrder p.shared.passes ∧ p.shared.turn.toNat < NTHREADS := by
    rcases hsound.sound.resource_or_inside with hnext | ⟨l, hin, hpre⟩
    · exact ⟨hnext.1, hnext.2 ▸ TestCv.expected_lt _⟩
    · exact (hpre.pre hin).inOrder
  exact ⟨horder.1.eq, horder.2, h.passes hinit hfits⟩

/-- The thread with the number 127 passes and waits for its next turn, and then the thread with the
number 126 passes. -/
theorem test_cv_in_order_126 :
    let c := testCvBroadcastThread 7 3 1
    let run := Move.run false
    let exec := Move.machine .exec
    let p := c.after ⟨127, 0, []⟩ 0 [.machine (.call .cvCreate), exec, exec,
      .machine (.call .lockCreate), exec, exec, .machine (.call (.threadCreate 7 127)),
      .machine (.call (.threadCreate 7 126)), .machine (.call (.threadYield 1)), exec, run, run,
      .machine (.call (.lockAcquire 3)), run, run, run, run, run, run, run,
      .machine (.call (.cvBroadcast 1 3)), run, .machine (.call (.lockRelease 3)), run, run, run,
      .machine (.call (.lockAcquire 3)), run, run, run, .machine (.call (.cvWait 1 3)), exec, run,
      run, .machine (.call (.lockAcquire 3)), run, run, run]
    p.machine.currentThread = 2 ∧ p.shared.passes = [(0, 126), (0, 127)] ∧
      p.shared.passes.reverse.map (fun line => line.2.toNat) =
        (List.range p.shared.passes.length).map (fun k => NTHREADS - 1 - k % NTHREADS) := by
  intro c run exec p
  have hreach : (testCvThread 7 3 (.broadcast 1)).Reachable ⟨127, 0, []⟩ p :=
    Client.reachable_after (by decide +kernel)
  exact ⟨by decide +kernel, by decide +kernel, (test_cv_in_order hreach (by decide +kernel)).1⟩

end UserThreads
