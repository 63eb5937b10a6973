import UserSpaceThreads.Clients

set_option relaxedAutoImplicit false
set_option autoImplicit false

/-!
# The lock test

`test_lock_thread` of `test_lock.c`, as code of a process: every access to the volatile variables
is a step of its own, and between two steps the timer may strike. The test passes if no assertion
fails.

## Main definitions

* `UserThreads.testLockThread` — the code of the test threads.
* `UserThreads.TestLock.outline` — its proof outline.

## Main results

* `UserThreads.test_lock_passes` — no assertion of the test fails, in any run.
-/

namespace UserThreads

open History ProofOutline

/-- `LOOPS`, how often the threads of a test do what it tests. -/
def LOOPS : ℕ := 10

/-- `NLOCKLOOPS`. -/
def NLOCKLOOPS : ℕ := 100

namespace TestLock

/-- The variables that `testlock` protects. -/
inductive Var
  | testval1
  | testval2
  | testval3
  deriving DecidableEq, Repr

/-- What the test threads share. -/
structure Shared where
  /-- `testval1`, `testval2`, `testval3` -/
  vals : Var → BitVec 64
  /-- `done` -/
  done : ℤ
  /-- the lines that have been printed: an `i` and a `num` each, newest first -/
  printed : List (ℕ × BitVec 64)

/-- Where a test thread is. -/
inductive Point
  /-- at `i < LOOPS` -/
  | outer
  /-- at `j < NLOCKLOOPS` -/
  | inner
  /-- at an `assert(interrupts_enabled())` -/
  | enabled (next : Point)
  /-- at `lock_acquire` -/
  | acquire
  /-- at the assignment of a variable -/
  | store (v : Var)
  /-- at the `thread_yield` before the assignment of a variable -/
  | yield (v : Var)
  /-- at the assertion on the answer of this `thread_yield` -/
  | ret (v : Var) (ret : ℤ)
  /-- at an assertion on the variables, with the values that have been read for it -/
  | assertion (k : ℕ) (loaded : List (BitVec 64))
  /-- at `lock_release` -/
  | release
  /-- at the `unintr_printf` -/
  | print
  /-- at `__atomic_add_fetch` -/
  | add
  /-- behind it -/
  | finish
  deriving DecidableEq, Repr

/-- A test thread: its argument, its variables, and where it is. -/
structure Thread where
  num : BitVec 64
  i : ℕ
  j : ℕ
  point : Point
  deriving DecidableEq, Repr

/-- The thread goes to `point`. -/
def Thread.goto (l : Thread) (point : Point) : Thread := { l with point := point }

/-- The value that a variable is given. -/
def value (num : BitVec 64) : Var → BitVec 64
  | .testval1 => num
  | .testval2 => num * num
  | .testval3 => num % 3

/-- What comes after the assignment of a variable. -/
def afterStore : Var → Point
  | .testval1 => .enabled (.yield .testval2)
  | .testval2 => .enabled (.yield .testval3)
  | .testval3 => .assertion 0 []

/-- The variables that an assertion reads, in this order. -/
def reads : ℕ → List Var
  | 0 => [.testval2, .testval1, .testval1]
  | 1 => [.testval2, .testval3, .testval3]
  | 2 => [.testval3, .testval1]
  | 3 => [.testval1]
  | 4 => [.testval2]
  | _ => [.testval3]

/-- What it asserts of the values that it has read. -/
def asserts (num : BitVec 64) : ℕ → List (BitVec 64) → Bool
  | 0, [a, b, c] => a = b * c
  | 1, [a, b, c] => a % 3 = (b * c) % 3
  | 2, [a, b] => a = b % 3
  | 3, [a] => a = num
  | 4, [a] => a = num * num
  | 5, [a] => a = num % 3
  | _, _ => false

/-- `test_lock_thread`. -/
def code (lock : Addr) (l : Thread) : Instr Bool Shared Thread Fn Ret :=
  match l.point with
  | .outer => .step fun s =>
    (s, if l.i < LOOPS then { l with j := 0, point := .inner } else l.goto .add)
  | .inner => .step fun s =>
    (s, if l.j < NLOCKLOOPS then l.goto (.enabled .acquire) else l.goto .print)
  | .enabled next => .check (fun interrupts _ => interrupts) (l.goto next)
  | .acquire => .call (.lockAcquire lock) fun _ => l.goto (.enabled (.store .testval1))
  | .store v => .step fun s =>
    ({ s with vals := Function.update s.vals v (value l.num v) }, l.goto (afterStore v))
  | .yield v => .call (.threadYield THREAD_ANY) fun r => l.goto (.ret v r.value)
  | .ret v ret => .check (fun _ _ => threadRetOk ret || ret = THREAD_NONE) (l.goto (.store v))
  | .assertion k loaded =>
    match (reads k).drop loaded.length with
    | v :: _ => .step fun s => (s, l.goto (.assertion k (loaded ++ [s.vals v])))
    | [] => .check (fun _ _ => asserts l.num k loaded)
      (l.goto (if k < 5 then .assertion (k + 1) [] else .enabled .release))
  | .release => .call (.lockRelease lock) fun _ => { l with j := l.j + 1, point := .enabled .inner }
  | .print => .step fun s =>
    ({ s with printed := (l.i, l.num) :: s.printed }, { l with i := l.i + 1, point := .outer })
  | .add => .step fun s => ({ s with done := s.done + 1 }, l.goto .finish)
  | .finish => .call .threadReturn fun _ => l

/-! ## The proof outline -/

/-- The thread has `testlock`. -/
def Point.inside : Point → Prop
  | .enabled next => next.inside
  | .store _ => True
  | .yield _ => True
  | .ret _ _ => True
  | .assertion _ _ => True
  | .release => True
  | _ => False

/-- The variables before `v` have their values. -/
def Stored (num : BitVec 64) (vals : Var → BitVec 64) : Var → Prop
  | .testval1 => True
  | .testval2 => vals .testval1 = value num .testval1
  | .testval3 => vals .testval1 = value num .testval1 ∧ vals .testval2 = value num .testval2

/-- What is known of the variables at a point. -/
def Point.pre (num : BitVec 64) (vals : Var → BitVec 64) : Point → Prop
  | .enabled next => next.pre num vals
  | .store v => Stored num vals v
  | .yield v => Stored num vals v
  | .ret v r => Stored num vals v ∧ (threadRetOk r || r = THREAD_NONE) = true
  | .assertion k loaded => vals = value num ∧ k ≤ 5 ∧ loaded <+: (reads k).map (value num)
  | _ => True

/-- Each assignment gives a variable its value. -/
lemma stored_afterStore {num : BitVec 64} {vals : Var → BitVec 64} {v : Var}
    (h : Stored num vals v) :
    (afterStore v).pre num (Function.update vals v (value num v)) := by
  cases v with
  | testval1 => rfl
  | testval2 => exact ⟨h, rfl⟩
  | testval3 =>
    refine ⟨funext fun w => ?_, by decide, List.nil_prefix⟩
    cases w with
    | testval1 => exact h.1
    | testval2 => exact h.2
    | testval3 => rfl

/-- Squares of numbers below `2 ^ 32` are exact. -/
lemma square_mod {num : BitVec 64} (h : num.toNat < 2 ^ 32) :
    num * num % 3#64 = num % 3#64 * (num % 3#64) % 3#64 := by
  have hsquare : num.toNat * num.toNat < 2 ^ 64 := by
    calc num.toNat * num.toNat < 2 ^ 32 * 2 ^ 32 := Nat.mul_lt_mul'' h h
      _ = 2 ^ 64 := rfl
  have hsmall : num.toNat % 3 * (num.toNat % 3) < 2 ^ 64 := by
    have h3 : num.toNat % 3 < 3 := Nat.mod_lt _ (by decide)
    calc num.toNat % 3 * (num.toNat % 3) < 3 * 3 := Nat.mul_lt_mul'' h3 h3
      _ < 2 ^ 64 := by decide
  have h3 : (3#64).toNat = 3 := rfl
  apply BitVec.eq_of_toNat_eq
  rw [BitVec.toNat_umod, BitVec.toNat_umod, BitVec.toNat_mul, BitVec.toNat_mul, BitVec.toNat_umod,
    h3, Nat.mod_eq_of_lt hsquare, Nat.mod_eq_of_lt hsmall, Nat.mul_mod]

/-- The assertions are true of the values. -/
lemma asserts_value {num : BitVec 64} (h : num.toNat < 2 ^ 32) {k : ℕ} (hk : k ≤ 5) :
    asserts num k ((reads k).map (value num)) = true := by
  match k, hk with
  | 0, _ => exact decide_eq_true rfl
  | 1, _ => exact decide_eq_true (square_mod h)
  | 2, _ => exact decide_eq_true rfl
  | 3, _ => exact decide_eq_true rfl
  | 4, _ => exact decide_eq_true rfl
  | 5, _ => exact decide_eq_true rfl

/-- An assertion reads one more variable. -/
lemma prefix_read {num : BitVec 64} {k : ℕ} {loaded : List (BitVec 64)} {v : Var} {vs : List Var}
    (h : loaded <+: (reads k).map (value num)) (hv : (reads k).drop loaded.length = v :: vs) :
    loaded ++ [value num v] <+: (reads k).map (value num) := by
  obtain ⟨rest, heq⟩ := h
  have hrest : rest = (v :: vs).map (value num) := by
    rw [← hv, List.map_drop, ← heq, List.drop_left]
  refine ⟨vs.map (value num), ?_⟩
  rw [← heq, hrest, List.append_assoc]
  rfl

/-- An assertion has read all its variables. -/
lemma eq_of_read {num : BitVec 64} {k : ℕ} {loaded : List (BitVec 64)}
    (h : loaded <+: (reads k).map (value num)) (hv : (reads k).drop loaded.length = []) :
    loaded = (reads k).map (value num) := by
  obtain ⟨rest, heq⟩ := h
  have hrest : rest = [] := by
    have hdrop : rest = ((reads k).drop loaded.length).map (value num) := by
      rw [List.map_drop, ← heq, List.drop_left]
    rw [hdrop, hv, List.map_nil]
  rw [← heq, hrest, List.append_nil]

/-- What is known of the shared variables where a thread is. -/
def Thread.Pre (l : Thread) (s : Shared) : Prop :=
  l.num.toNat < 2 ^ 32 ∧ l.point.pre l.num s.vals

variable {lock : Addr} {l : Thread} {s s' : Shared}

/-- Outside of the critical section nothing is known of the variables. -/
lemma Point.pre_stable {num : BitVec 64} {vals vals' : Var → BitVec 64} {point : Point}
    (hout : ¬ point.inside) (h : point.pre num vals) : point.pre num vals' := by
  induction point with
  | enabled next ih => exact ih hout h
  | store | yield | ret | assertion | release => exact (hout trivial).elim
  | _ => trivial

/-- A step of a test thread.

**Proof sketch.** By the place in the code. A store is the step that establishes what the next
places rely on (`stored_afterStore`), and a read of an assertion adds one value to those that have
been read. -/
lemma code_step {f : Shared → Shared × Thread} (hcode : code lock l = .step f) (hpre : l.Pre s) :
    ((f s).2.point.inside ↔ l.point.inside) ∧ (f s).2.Pre (f s).1 ∧
      (¬ l.point.inside → (f s).1.vals = s.vals) := by
  obtain ⟨num, i, j, point⟩ := l
  obtain ⟨hnum, hpre⟩ := hpre
  cases point with
  | outer =>
    cases hcode
    dsimp only
    split_ifs <;> exact ⟨Iff.rfl, ⟨hnum, trivial⟩, fun _ => rfl⟩
  | inner =>
    cases hcode
    dsimp only
    split_ifs <;> exact ⟨Iff.rfl, ⟨hnum, trivial⟩, fun _ => rfl⟩
  | store v =>
    cases hcode
    refine ⟨?_, ⟨hnum, stored_afterStore hpre⟩, fun hout => (hout trivial).elim⟩
    cases v <;> exact Iff.rfl
  | print | add =>
    cases hcode
    exact ⟨Iff.rfl, ⟨hnum, trivial⟩, fun _ => rfl⟩
  | assertion k loaded =>
    obtain ⟨hvals, hk, hloaded⟩ := hpre
    rw [code] at hcode
    dsimp only at hcode
    split at hcode
    · next v vs hv =>
      cases hcode
      refine ⟨Iff.rfl, ⟨hnum, hvals, hk, ?_⟩, fun _ => rfl⟩
      rw [hvals]
      exact prefix_read hloaded hv
    · cases hcode
  | _ => cases hcode

/-- An assertion of a test thread is true.

**Proof sketch.** By the place in the code. The assertions on the variables have read all their
values, and these are the ones that were stored (`asserts_value`); the others are about the mask and
the result of a `thread_yield`. -/
lemma code_check {q : Bool → Shared → Bool} {next : Thread} (hcode : code lock l = .check q next)
    (hpre : l.Pre s) {interrupts : Bool} (hint : interrupts = true) :
    q interrupts s = true ∧ (next.point.inside ↔ l.point.inside) ∧ next.Pre s := by
  obtain ⟨num, i, j, point⟩ := l
  obtain ⟨hnum, hpre⟩ := hpre
  cases point with
  | enabled next =>
    cases hcode
    exact ⟨hint, Iff.rfl, hnum, hpre⟩
  | ret v r =>
    cases hcode
    exact ⟨hpre.2, Iff.rfl, hnum, hpre.1⟩
  | assertion k loaded =>
    obtain ⟨hvals, hk, hloaded⟩ := hpre
    rw [code] at hcode
    dsimp only at hcode
    split at hcode
    · cases hcode
    · next hv =>
      cases hcode
      rw [eq_of_read hloaded hv]
      refine ⟨asserts_value hnum hk, ?_⟩
      rw [Thread.goto]
      dsimp only
      split_ifs with hlast
      · exact ⟨Iff.rfl, hnum, hvals, hlast, List.nil_prefix⟩
      · exact ⟨Iff.rfl, hnum, trivial⟩
  | _ => cases hcode

/-- The calls of a test thread. -/
lemma code_call {f : Fn} {next : Ret → Thread} (hcode : code lock l = .call f next) :
    (l.point = .acquire ∧ f = .lockAcquire lock ∧
        next = fun _ => l.goto (.enabled (.store .testval1))) ∨
      (∃ v, l.point = .yield v ∧ f = .threadYield THREAD_ANY ∧
        next = fun r => l.goto (.ret v r.value)) ∨
      (l.point = .release ∧ f = .lockRelease lock ∧
        next = fun _ => { l with j := l.j + 1, point := .enabled .inner }) ∨
      l.point = .finish ∧ f = .threadReturn := by
  obtain ⟨num, i, j, point⟩ := l
  cases point with
  | acquire =>
    cases hcode
    exact .inl ⟨rfl, rfl, rfl⟩
  | yield v =>
    cases hcode
    exact .inr (.inl ⟨v, rfl, rfl, rfl⟩)
  | release =>
    cases hcode
    exact .inr (.inr (.inl ⟨rfl, rfl, rfl⟩))
  | finish =>
    cases hcode
    exact .inr (.inr (.inr ⟨rfl, rfl⟩))
  | assertion k loaded =>
    rw [code] at hcode
    dsimp only at hcode
    split at hcode <;> cases hcode
  | _ => cases hcode

/-- The proof outline. -/
def outline (lock : Addr) :
    Outline (code lock) (lockUsage lock) (fun interrupts => interrupts = true) Fn.Replies where
  inside l := l.point.inside
  pre l s := l.Pre s
  resource _ := True
  stable l s s' hout hpre := ⟨hpre.1, Point.pre_stable hout hpre.2⟩
  step l f s hcode hpre := ⟨(code_step hcode hpre).1, (code_step hcode hpre).2.1⟩
  free l f s hcode hout hpre := by
    refine ⟨fun l' hl' => ?_, id⟩
    rw [Thread.Pre, (code_step hcode hpre).2.2 hout]
    exact hl'
  check l q next s e hcode hpre he := code_check hcode hpre he
  choose l next s b hcode := by
    obtain ⟨num, i, j, point⟩ := l
    cases point with
    | assertion k loaded =>
      rw [code] at hcode
      dsimp only at hcode
      split at hcode <;> cases hcode
    | _ => cases hcode
  plain l f next s r hcode hacq hrel hpre hr := by
    obtain ⟨hp, rfl, -⟩ | ⟨v, hp, rfl, rfl⟩ | ⟨hp, rfl, -⟩ | ⟨hp, rfl⟩ := code_call hcode
    · simp [lockUsage, Fn.acquires] at hacq
    · obtain ⟨hnum, hpre⟩ := hpre
      rw [hp] at hpre ⊢
      refine ⟨Iff.rfl, hnum, hpre, ?_⟩
      rcases hr with hvalid | hnone
      · simp [hvalid.ret_ok]
      · simpa using .inr hnone
    · simp [lockUsage, Fn.releases] at hrel
    · exact hr.elim
  enter l f next hcode hacq hin := by
    obtain ⟨hp, rfl, -⟩ | ⟨v, hp, rfl, -⟩ | ⟨hp, rfl, -⟩ | ⟨hp, rfl⟩ := code_call hcode
    · rw [hp] at hin
      exact hin.elim
    · cases hacq
    · cases hacq
    · cases hacq
  acquire l f next s₀ s r hcode hacq hpre hr _ := by
    obtain ⟨hp, rfl, rfl⟩ | ⟨v, hp, rfl, -⟩ | ⟨hp, rfl, -⟩ | ⟨hp, rfl⟩ := code_call hcode
    · exact ⟨trivial, hpre.1, trivial⟩
    · cases hacq
    · cases hacq
    · cases hacq
  release _ _ _ _ _ _ _ _ := trivial
  finish _ _ _ _ _ _ _ _ := trivial
  released l f next s₀ s r hcode hrel hacq hpre hr := by
    obtain ⟨hp, rfl, -⟩ | ⟨v, hp, rfl, -⟩ | ⟨hp, rfl, rfl⟩ | ⟨hp, rfl⟩ := code_call hcode
    · cases hrel
    · cases hrel
    · exact ⟨id, hpre.1, trivial⟩
    · cases hrel

end TestLock

/-- Threads that run `test_lock_thread`, which is at the address `fn`, with `testlock` at `lock`. -/
def testLockThread (fn : ℕ) (lock : Addr) : Client TestLock.Shared TestLock.Thread where
  code := TestLock.code lock
  entry fn' parg := if fn' = fn then some ⟨BitVec.ofNat 64 parg, 0, 0, .outer⟩ else none
  mask l f next hcode b := by
    rintro rfl
    obtain ⟨num, i, j, point⟩ := l
    cases point with
    | assertion k loaded =>
      rw [TestLock.code] at hcode
      dsimp only at hcode
      split at hcode <;> cases hcode
    | _ => cases hcode

variable {fn : ℕ} {lock : Addr} {s₀ : TestLock.Shared} {p : Process TestLock.Shared TestLock.Thread}

/-- The proof outline suits the runs in which the numbers of the test threads are below `2 ^ 32`. -/
lemma TestLock.fits {tr : List Event} (hnum : ∀ parg ∈ startedWith fn tr, parg < 2 ^ 32) :
    Always (Client.Fits (c := testLockThread fn lock) (TestLock.outline lock)) tr := by
  refine always_iff.mpr fun later e earlier heq => ?_
  cases e with
  | started t fn' parg =>
    intro l hl
    rw [testLockThread] at hl
    dsimp only at hl
    split_ifs at hl with hfn
    subst hfn
    cases hl
    have hparg := hnum parg (mem_startedWith (t := t) (by rw [heq]; simp))
    refine ⟨id, fun s => ⟨?_, trivial⟩⟩
    rw [BitVec.toNat_ofNat]
    exact (Nat.mod_le _ _).trans_lt hparg
  | killed t => exact .inr fun _ => trivial
  | _ => trivial

/-- **No assertion of the lock test fails**, in any run, however many threads run it, whatever the
other threads do, and wherever the timer strikes, if the numbers of the test threads are below
`2 ^ 32`.

**Proof sketch.** The code has a proof outline without a resource (`TestLock.outline`): a thread
that has the lock knows what it has written to the three variables, since no other thread writes
them meanwhile. The bound keeps the square of the number modulo 3 the same in 64 bits. -/
theorem test_lock_passes (h : (testLockThread fn lock).Reachable s₀ p)
    (hnum : ∀ parg ∈ startedWith fn p.machine.trace, parg < 2 ^ 32) :
    ¬ (testLockThread fn lock).Fails p :=
  h.passes (O := TestLock.outline lock) trivial (TestLock.fits hnum)

/-- A test thread is preempted while it has the lock, and yields twice to thread 0; it has read the
variables for its first assertion on them. -/
theorem test_lock_passes_preempted :
    let c := testLockThread 7 1
    let run := Move.run false
    let yield := Move.machine (.call (.threadYield THREAD_ANY))
    let exec := Move.machine .exec
    let p := c.after ⟨fun _ => 0, 0, []⟩ 0 [.machine (.call .lockCreate), exec, exec,
      .machine (.call (.threadCreate 7 5)), yield, exec, run, run, run,
      .machine (.call (.lockAcquire 1)), run, run, .machine .tick, exec, yield, exec, run, yield,
      exec, yield, exec, run, run, run, yield, exec, yield, exec, run, run, run, run, run]
    p.locals 1 = some (.ready ⟨5, 0, 0, .assertion 0 [25, 5, 5]⟩) ∧ ¬ c.Fails p := by
  intro c run yield exec p
  exact ⟨by decide +kernel,
    test_lock_passes (Client.reachable_after (by decide +kernel)) (by decide +kernel)⟩

/-- With the number `2 ^ 32` the assertion `testval2 % 3 == (testval3 * testval3) % 3` fails: the
square overflows. -/
theorem test_lock_overflow :
    ∃ p, (testLockThread 7 1).Reachable ⟨fun _ => 0, 0, []⟩ p ∧
      startedWith 7 p.machine.trace = [2 ^ 32] ∧ (testLockThread 7 1).Fails p := by
  let run := Move.run false
  let yield := Move.machine (.call (.threadYield THREAD_ANY))
  let exec := Move.machine .exec
  let moves := [.machine (.call .lockCreate), exec, exec,
    .machine (.call (.threadCreate 7 (2 ^ 32))), yield, exec, run, run, run,
    .machine (.call (.lockAcquire 1)), run, run, run, yield, exec, yield, exec, run, run, run,
    yield, exec, yield, exec, run, run, run, run, run, run, run, run, run]
  refine ⟨(testLockThread 7 1).after ⟨fun _ => 0, 0, []⟩ 0 moves,
    Client.reachable_after (by decide +kernel), by decide +kernel, by decide +kernel, ?_⟩
  exact ⟨⟨2 ^ 32, 0, 0, .assertion 1 [0, 1, 1]⟩, _, _, by decide +kernel, rfl, by decide +kernel⟩

end UserThreads
