import UserSpaceThreads.Life

set_option relaxedAutoImplicit false
set_option autoImplicit false

/-!
# What pointers point to

The library keeps the addresses of stacks in `threads`, of wait queues in locks and condition
variables, and hands out the addresses of wait queues, locks and condition variables to user
code. An address is never used for two things: wherever the library or user code keeps it, it
stands for the same stack, the wait queue of the same holder, a lock or a condition variable.
This holds in all runs, whatever is destroyed when, since `malloc` does not answer an address
again.

## Main definitions

* `UserThreads.Role` — what an address stands for.
* `UserThreads.View.Refers` — the addresses that are kept somewhere, with their roles.
* `UserThreads.View.Pointed` — the invariant.

## Main results

* `UserThreads.View.Pointed.step` — every transaction keeps the roles.
-/

namespace UserThreads

open History (Always Adds)

/-! ## Histories -/

/-- The event does not concern pointers. -/
def Event.plain : Event → Bool
  | .returned _ f _ => !f.creates
  | .halfway _ _ => false
  | _ => true

/-- Some events have happened that do not concern pointers. -/
abbrev Plainly : List Event → List Event → Prop := Adds fun e => e.plain = true

/-- A pointer that user code has been given stays given. -/
lemma Gave.append {f : Fn} {p : Addr} {tr : List Event} (h : Gave f p tr) (es : List Event) :
    Gave f p (es ++ tr) := by
  obtain ⟨e, he, hg⟩ := h
  exact ⟨e, List.mem_append_right _ he, hg⟩

/-- A pointer that user code has been given stays given. -/
lemma Gave.cons {f : Fn} {p : Addr} {tr : List Event} (h : Gave f p tr) (e : Event) :
    Gave f p (e :: tr) := h.append [e]

/-- Plain events give no pointers of create functions. -/
lemma gave_iff_of_plainly {tr tr' : List Event} (h : Plainly tr tr') {f : Fn}
    (hf : f.creates = true)
    (p : Addr) : Gave f p tr' ↔ Gave f p tr := by
  constructor
  swap
  · rintro ⟨e, he, hg⟩
    exact ⟨e, h.mem he, hg⟩
  rintro ⟨e, he, hg⟩
  refine ⟨e, (h.mem_or he).resolve_left fun hplain => ?_, hg⟩
  cases e with
  | returned t g r =>
    obtain ⟨rfl, -⟩ : g = f ∧ r.value = p := by simpa [Event.gives] using hg
    simp [Event.plain, hf] at hplain
  | _ => cases hg

/-- Plain events make and destroy nothing halfway. -/
lemma halfway_iff_of_plainly {tr tr' : List Event} (h : Plainly tr tr') (t : Tid) (p : Addr) :
    .halfway t p ∈ tr' ↔ .halfway t p ∈ tr :=
  ⟨fun hmem => (h.mem_or hmem).resolve_left (by simp [Event.plain]), h.mem⟩

/-- The destroy function has got its pointer from the create function, or it is null. -/
def Fn.Entitled (tr : List Event) : Fn → Prop
  | .waitQueueDestroy q => q = NULL ∨ Gave .waitQueueCreate q tr
  | .lockDestroy l => l = NULL ∨ Gave .lockCreate l tr
  | .cvDestroy c => c = NULL ∨ Gave .cvCreate c tr
  | _ => True

/-- User code destroys only what it has been given. -/
def Entitled (e : Event) (tr : List Event) : Prop :=
  match e with
  | .called _ f => f.Entitled tr
  | _ => True

/-- What user code is entitled to, it stays entitled to. -/
lemma Fn.Entitled.cons {f : Fn} {tr : List Event} (h : f.Entitled tr) (e : Event) :
    f.Entitled (e :: tr) := by
  cases f with
  | waitQueueDestroy q => exact h.imp_right fun hg => Gave.cons hg e
  | lockDestroy l => exact h.imp_right fun hg => Gave.cons hg e
  | cvDestroy c => exact h.imp_right fun hg => Gave.cons hg e
  | _ => trivial

/-- A thread in a destroy function is entitled to it. -/
lemma entitled_of_fn {t : Tid} {f : Fn} {tr : List Event} (h : Always Entitled tr)
    (hf : (progress t tr).fn = some f) : f.Entitled tr := by
  induction tr with
  | nil => cases hf
  | cons e tr ih =>
    have hrest (hf : (progress t tr).fn = some f) : f.Entitled (e :: tr) := (ih h.2 hf).cons e
    cases e with
    | called u g =>
      rw [progress] at hf
      split_ifs at hf
      · obtain rfl : g = f := by simpa using hf
        exact Fn.Entitled.cons h.1 _
      · exact hrest hf
    | waited u x | halfway u p =>
      rw [progress] at hf
      split_ifs at hf <;> exact hrest hf
    | returned u g r | created u g p | started u g p =>
      rw [progress] at hf
      split_ifs at hf
      exact hrest hf
    | _ => exact hrest hf

/-! ## Roles -/

/-- What an address stands for: the stack of a thread, a wait queue, a lock or a condition
variable, or a lock or condition variable that a thread is about to make. -/
inductive Role
  | stack (t : Tid)
  | queue (o : Owner)
  | lock
  | cv
  | half (t : Tid)
  deriving DecidableEq, Repr

namespace View

/-- The addresses that somebody keeps, with their roles. -/
inductive Refers (v : View) : Addr → Role → Prop
  /-- the stack of a live thread -/
  | stack {t : Tid} (ne : t ≠ 0) (state : v.state t ≠ .Destroyed) :
      Refers v (v.stackStart t) (.stack t)
  /-- a wait queue -/
  | queue {q : Addr} {o : Owner} {es : List Tid} (queue : v.queues q = some (o, es)) :
      Refers v q (.queue o)
  /-- the wait queue of a lock -/
  | lockQueue {l : Addr} {lock : Lock} (lockAt : v.locks l = some lock) :
      Refers v lock.queue (.queue (.lock l))
  /-- the wait queue of a condition variable -/
  | cvQueue {c : Addr} {cv : Cv} (cvAt : v.cvs c = some cv) : Refers v cv.queue (.queue (.cv c))
  /-- a wait queue that user code has been given -/
  | userQueue {q : Addr} (gave : Gave .waitQueueCreate q v.trace) : Refers v q (.queue .user)
  /-- a lock that user code has been given -/
  | lock {l : Addr} (gave : Gave .lockCreate l v.trace) : Refers v l .lock
  /-- a condition variable that user code has been given -/
  | cv {c : Addr} (gave : Gave .cvCreate c v.trace) : Refers v c .cv
  /-- what a thread has made one half of, and not given to user code -/
  | half {t : Tid} {p : Addr} (halfway : .halfway t p ∈ v.trace)
      (notLock : ¬ Gave .lockCreate p v.trace) (notCv : ¬ Gave .cvCreate p v.trace) :
      Refers v p (.half t)

/-- What is half made has not been given to user code. -/
lemma Refers.of_half {v : View} {p : Addr} {t : Tid} (h : v.Refers p (.half t)) :
    .halfway t p ∈ v.trace ∧ ¬ Gave .lockCreate p v.trace ∧ ¬ Gave .cvCreate p v.trace := by
  generalize hr : Role.half t = r at h
  cases h with
  | half halfway notLock notCv =>
    cases hr
    exact ⟨halfway, notLock, notCv⟩
  | _ => cases hr

/-- Addresses in use have been answered by `malloc`, and have one role each. -/
structure Pointed (v : View) : Prop where
  bound : ∀ p r, v.Refers p r → p < v.brk
  unique : ∀ p r r', v.Refers p r → v.Refers p r' → r = r'
  locks : ∀ l lock, v.locks l = some lock → Gave .lockCreate l v.trace
  cvs : ∀ c cv, v.cvs c = some cv → Gave .cvCreate c v.trace
  making : ∀ t f p, fate t v.trace = some .alive →
    progress t v.trace = { fn := some f, block := some p } → f.creates = true →
      v.Refers p (.half t)
  entitled : Always Entitled v.trace

variable {v v' : View} {l : Label}

/-- The wait queue that a holder keeps. -/
lemma Access.refers {q : Addr} {o : Owner} (h : v.Access q o) : v.Refers q (.queue o) := by
  cases o with
  | user => exact .userQueue h
  | lock a =>
    obtain ⟨lock, hl, rfl⟩ := h
    exact .lockQueue hl
  | cv c =>
    obtain ⟨cv, hc, rfl⟩ := h
    exact .cvQueue hc

/-- The holder of the pointer to a wait queue is the one recorded there. -/
lemma Pointed.owner_eq (h : v.Pointed) {q : Addr} {o o' : Owner} {es : List Tid}
    (ha : v.Access q o) (hq : v.queues q = some (o', es)) : o' = o := by
  cases h.unique q _ _ ha.refers (.queue hq)
  rfl

/-- Nothing has changed that concerns pointers, but for things that are gone. -/
structure Keeps (v v' : View) : Prop where
  stackStart : v'.stackStart = v.stackStart
  state : ∀ t, v'.state t ≠ .Destroyed → v.state t ≠ .Destroyed
  queues : ∀ q o es, v'.queues q = some (o, es) → ∃ es', v.queues q = some (o, es')
  locks : ∀ l lock, v'.locks l = some lock → ∃ c, v.locks l = some { lock with current := c }
  cvs : ∀ c cv, v'.cvs c = some cv → v.cvs c = some cv
  brk : v.brk ≤ v'.brk
  trace : Plainly v.trace v'.trace

/-- The references after such a transaction. -/
lemma Keeps.refers (h : v.Keeps v') {p : Addr} {r : Role} (hr : v'.Refers p r) : v.Refers p r := by
  cases hr with
  | stack ne state => exact h.stackStart ▸ .stack ne (h.state _ state)
  | queue queue =>
    obtain ⟨es', hes⟩ := h.queues _ _ _ queue
    exact .queue hes
  | @lockQueue l lock lockAt =>
    obtain ⟨c, hl⟩ := h.locks _ _ lockAt
    have hold := Refers.lockQueue hl
    exact hold
  | cvQueue cvAt => exact .cvQueue (h.cvs _ _ cvAt)
  | userQueue gave => exact .userQueue ((gave_iff_of_plainly h.trace rfl _).mp gave)
  | lock gave => exact .lock ((gave_iff_of_plainly h.trace rfl _).mp gave)
  | cv gave => exact .cv ((gave_iff_of_plainly h.trace rfl _).mp gave)
  | half halfway notLock notCv =>
    rw [gave_iff_of_plainly h.trace rfl] at notLock notCv
    exact .half ((halfway_iff_of_plainly h.trace _ _).mp halfway) notLock notCv

/-- What is half made stays half made. -/
lemma Keeps.half (h : v.Keeps v') {p : Addr} {t : Tid} (hr : v.Refers p (.half t)) :
    v'.Refers p (.half t) := by
  cases hr with
  | half halfway notLock notCv =>
    rw [← gave_iff_of_plainly h.trace rfl] at notLock notCv
    exact .half ((halfway_iff_of_plainly h.trace _ _).mpr halfway) notLock notCv

/-- A transaction that does not concern pointers. -/
lemma Pointed.keeps (h : v.Pointed) (hk : v.Keeps v')
    (hprogress : ∀ t, fate t v'.trace = some .alive → (progress t v'.trace).block = none ∨
      fate t v.trace = some .alive ∧ progress t v'.trace = progress t v.trace)
    (he : Always Entitled v'.trace) : v'.Pointed where
  bound p r hr := (h.bound p r (hk.refers hr)).trans_le hk.brk
  unique p r r' hr hr' := h.unique p r r' (hk.refers hr) (hk.refers hr')
  locks l lock hl := by
    obtain ⟨c, hl'⟩ := hk.locks l lock hl
    exact (gave_iff_of_plainly hk.trace rfl l).mpr (h.locks l _ hl')
  cvs c cv hc := (gave_iff_of_plainly hk.trace rfl c).mpr (h.cvs c cv (hk.cvs c cv hc))
  making t f p ht hp hf := by
    obtain hnone | ⟨ht', hsame⟩ := hprogress t ht
    · rw [hp] at hnone
      cases hnone
    · exact hk.half (h.making t f p ht' (hsame ▸ hp) hf)
  entitled := he

/-- The address `b` gets the role `r₀`, and nobody keeps it in its old role. -/
lemma Pointed.assign (h : v.Pointed) {b : Addr} {r₀ : Role} (hbrk : v.brk ≤ v'.brk)
    (hb : b < v'.brk) (hr : ∀ p r, v'.Refers p r → v.Refers p r ∧ p ≠ b ∨ p = b ∧ r = r₀) :
    (∀ p r, v'.Refers p r → p < v'.brk) ∧
      ∀ p r r', v'.Refers p r → v'.Refers p r' → r = r' := by
  refine ⟨fun p r hp => ?_, fun p r r' hp hp' => ?_⟩
  · obtain ⟨hp, -⟩ | ⟨rfl, -⟩ := hr p r hp
    · exact (h.bound p r hp).trans_le hbrk
    · exact hb
  · obtain ⟨hp, hne⟩ | ⟨rfl, rfl⟩ := hr p r hp
    · obtain ⟨hp', -⟩ | ⟨rfl, -⟩ := hr p r' hp'
      · exact h.unique p r r' hp hp'
      · exact (hne rfl).elim
    · obtain ⟨-, hne⟩ | ⟨-, rfl⟩ := hr _ r' hp'
      · exact (hne rfl).elim
      · rfl

/-! ## Fresh addresses -/

/-- User code has the pointer from the newest event or from before. -/
@[simp] lemma gave_cons {f : Fn} {p : Addr} {e : Event} {tr : List Event} :
    Gave f p (e :: tr) ↔ e.gives f p = true ∨ Gave f p tr := by
  simp [Gave]

/-- Nobody keeps the next address. -/
lemma Pointed.ne_brk (h : v.Pointed) {p : Addr} {r : Role} (hr : v.Refers p r) : p ≠ v.brk :=
  (h.bound p r hr).ne

/-- A new thread.

**Proof sketch.** The block at `brk` is given out for the stack. Nothing has referred to that
address (`ne_brk`), so `assign` keeps the roles apart. -/
lemma Pointed.spawn (h : v.Pointed) {num : Tid} (fn parg : ℕ) :
    (v.spawn num fn parg).Pointed := by
  have hk : v.Keeps { v with trace := .created num fn parg :: v.trace } :=
    ⟨rfl, fun _ ht => ht, fun _ _ es hq => ⟨es, hq⟩, fun _ lock hl => ⟨lock.current, hl⟩,
      fun _ _ hc => hc, le_rfl, (Adds.refl _ _).cons rfl⟩
  have hr (p : Addr) (r : Role) (hp : (v.spawn num fn parg).Refers p r) :
      v.Refers p r ∧ p ≠ v.brk ∨ p = v.brk ∧ r = .stack num := by
    have hold (hp : v.Refers p r) : v.Refers p r ∧ p ≠ v.brk ∨ p = v.brk ∧ r = .stack num :=
      .inl ⟨hp, h.ne_brk hp⟩
    cases hp with
    | @stack t ne state =>
      rcases eq_or_ne t num with rfl | hne
      · exact .inr ⟨by simp, rfl⟩
      · have hst : v.state t ≠ .Destroyed := by simpa [hne] using state
        have hstart : (v.spawn num fn parg).stackStart t = v.stackStart t := by simp [hne]
        rw [hstart] at hold ⊢
        exact hold (.stack ne hst)
    | queue queue => exact hold (.queue queue)
    | lockQueue lockAt => exact hold (.lockQueue lockAt)
    | cvQueue cvAt => exact hold (.cvQueue cvAt)
    | userQueue gave => exact hold (hk.refers (.userQueue gave))
    | lock gave => exact hold (hk.refers (.lock gave))
    | cv gave => exact hold (hk.refers (.cv gave))
    | half halfway notLock notCv => exact hold (hk.refers (.half halfway notLock notCv))
  obtain ⟨hbound, hunique⟩ := h.assign (Nat.le_succ _) (Nat.lt_succ_self _) hr
  refine ⟨hbound, hunique, fun l lock hl => (h.locks l lock hl).cons _,
    fun c cv hc => (h.cvs c cv hc).cons _, fun t f p ht hp hf => ?_, trivial, h.entitled⟩
  rcases eq_or_ne num t with rfl | hne
  · simp at hp
  · have hhalf := hk.half (h.making t f p (by simpa [hne] using ht) (by simpa [hne] using hp) hf)
    cases hhalf with
    | half halfway notLock notCv => exact .half halfway notLock notCv

/-- A new wait queue.

**Proof sketch.** As for a new thread: the block at `brk` is fresh, and becomes the wait queue
(`assign`). -/
lemma Pointed.newQueue (h : v.Pointed) (o : Owner) : (v.newQueue o).Pointed := by
  have hk : v.Keeps { v with trace := .queueCreated v.brk :: v.trace } :=
    ⟨rfl, fun _ ht => ht, fun _ _ es hq => ⟨es, hq⟩, fun _ lock hl => ⟨lock.current, hl⟩,
      fun _ _ hc => hc, le_rfl, (Adds.refl _ _).cons rfl⟩
  have hr (p : Addr) (r : Role) (hp : (v.newQueue o).Refers p r) :
      v.Refers p r ∧ p ≠ v.brk ∨ p = v.brk ∧ r = .queue o := by
    have hold (hp : v.Refers p r) : v.Refers p r ∧ p ≠ v.brk ∨ p = v.brk ∧ r = .queue o :=
      .inl ⟨hp, h.ne_brk hp⟩
    cases hp with
    | stack ne state => exact hold (.stack ne state)
    | @queue _ o' es queue =>
      rcases eq_or_ne p v.brk with rfl | hne
      · obtain ⟨rfl, -⟩ : o = o' ∧ [] = es := by simpa using queue
        exact .inr ⟨rfl, rfl⟩
      · exact hold (@Refers.queue _ _ _ es (by simpa [hne] using queue))
    | lockQueue lockAt => exact hold (.lockQueue lockAt)
    | cvQueue cvAt => exact hold (.cvQueue cvAt)
    | userQueue gave => exact hold (hk.refers (.userQueue gave))
    | lock gave => exact hold (hk.refers (.lock gave))
    | cv gave => exact hold (hk.refers (.cv gave))
    | half halfway notLock notCv => exact hold (hk.refers (.half halfway notLock notCv))
  obtain ⟨hbound, hunique⟩ := h.assign (Nat.le_succ _) (Nat.lt_succ_self _) hr
  refine ⟨hbound, hunique, fun l lock hl => (h.locks l lock hl).cons _,
    fun c cv hc => (h.cvs c cv hc).cons _, fun t f p ht hp hf => ?_, trivial, h.entitled⟩
  cases hk.half (h.making t f p ht hp hf) with
  | half halfway notLock notCv => exact .half halfway notLock notCv

/-- One half of a lock or condition variable.

**Proof sketch.** The block at `brk` is fresh, so it has not been given to user code as a lock or a
condition variable, and it is now half of one (`assign`). -/
lemma Pointed.newHalf (h : v.Pointed) (size : BitVec 64) :
    ((v.malloc size).emit (.halfway v.current v.brk)).Pointed := by
  have hold {p : Addr} {r : Role} (hp : v.Refers p r) :
      v.Refers p r ∧ p ≠ v.brk ∨ p = v.brk ∧ r = .half v.current := .inl ⟨hp, h.ne_brk hp⟩
  have hr (p : Addr) (r : Role)
      (hp : ((v.malloc size).emit (.halfway v.current v.brk)).Refers p r) :
      v.Refers p r ∧ p ≠ v.brk ∨ p = v.brk ∧ r = .half v.current := by
    cases hp with
    | stack ne state => exact hold (.stack ne state)
    | queue queue => exact hold (.queue queue)
    | lockQueue lockAt => exact hold (.lockQueue lockAt)
    | cvQueue cvAt => exact hold (.cvQueue cvAt)
    | userQueue gave => exact hold (.userQueue (by simpa [Event.gives] using gave))
    | lock gave => exact hold (.lock (by simpa [Event.gives] using gave))
    | cv gave => exact hold (.cv (by simpa [Event.gives] using gave))
    | @half t p halfway notLock notCv =>
      rcases List.mem_cons.mp halfway with heq | halfway
      · cases heq
        exact .inr ⟨rfl, rfl⟩
      · exact hold (.half halfway (fun hg => notLock (hg.cons _)) fun hg => notCv (hg.cons _))
  obtain ⟨hbound, hunique⟩ := h.assign (Nat.le_succ _) (Nat.lt_succ_self _) hr
  have hnone (f : Fn)
      (hf : ∀ p, Gave f p v.trace → v.Refers p (if f = .lockCreate then .lock else .cv)) :
      ¬ Gave f v.brk v.trace := fun hg => h.ne_brk (hf _ hg) rfl
  refine ⟨hbound, hunique, fun l lock hl => (h.locks l lock hl).cons _,
    fun c cv hc => (h.cvs c cv hc).cons _, fun t f p ht hp hf => ?_, trivial, h.entitled⟩
  rcases eq_or_ne v.current t with rfl | hne
  · obtain rfl : v.brk = p := by
      have hblock := congrArg Progress.block hp
      simpa using hblock
    refine .half (List.mem_cons_self ..) ?_ ?_
    · simpa [Event.gives] using hnone .lockCreate fun p hg => .lock hg
    · simpa [Event.gives] using hnone .cvCreate fun p hg => .cv hg
  · cases h.making t f p ht (by simpa [hne] using hp) hf with
    | half halfway notLock notCv =>
      exact .half (List.mem_cons_of_mem _ halfway) (by simpa [Event.gives] using notLock)
        (by simpa [Event.gives] using notCv)

/-- User code is given a wait queue.

**Proof sketch.** The pointer that user code is given refers to a wait queue of its own already; all
other references are old ones. -/
lemma Pointed.giveQueue (h : v.Pointed) {q : Addr} (hq : v.Refers q (.queue .user)) :
    (v.back .waitQueueCreate ⟨q, none⟩).Pointed := by
  have hr (p : Addr) (r : Role) (hp : (v.back .waitQueueCreate ⟨q, none⟩).Refers p r) :
      v.Refers p r := by
    cases hp with
    | stack ne state => exact .stack ne state
    | queue queue => exact .queue queue
    | lockQueue lockAt => exact .lockQueue lockAt
    | cvQueue cvAt => exact .cvQueue cvAt
    | userQueue gave =>
      rcases gave_cons.mp gave with heq | gave
      · obtain rfl : q = p := by simpa [Event.gives] using heq
        exact hq
      · exact .userQueue gave
    | lock gave => exact .lock (by simpa [Event.gives] using gave)
    | cv gave => exact .cv (by simpa [Event.gives] using gave)
    | half halfway notLock notCv =>
      exact .half (by simpa using halfway) (fun hg => notLock (hg.cons _))
        fun hg => notCv (hg.cons _)
  refine ⟨fun p r hp => h.bound p r (hr p r hp), fun p r r' hp hp' =>
    h.unique p r r' (hr p r hp) (hr p r' hp'), fun l lock hl => (h.locks l lock hl).cons _,
    fun c cv hc => (h.cvs c cv hc).cons _, fun t f p ht hp hf => ?_, trivial, h.entitled⟩
  rcases eq_or_ne v.current t with rfl | hne
  · simp at hp
  · cases h.making t f p ht (by simpa [hne] using hp) hf with
    | half halfway notLock notCv =>
      exact .half (List.mem_cons_of_mem _ halfway) (by simpa [Event.gives] using notLock)
        (by simpa [Event.gives] using notCv)

/-- User code is given what a thread has been making at `b`.

**Proof sketch.** The block `b` changes its role, from half an object to `r₀`. By uniqueness it had
no other one (`assign`), and the other threads are making other blocks. -/
lemma Pointed.give (h : v.Pointed) {b : Addr} {r₀ : Role} {f₀ : Fn}
    (hb : v.Refers b (.half v.current)) (hbrk : v'.brk = v.brk)
    (hr : ∀ p r, v'.Refers p r → v.Refers p r ∨ p = b ∧ r = r₀)
    (hhalf : ∀ t, ¬ v'.Refers b (.half t))
    (hhalf' : ∀ t p, p ≠ b → v.Refers p (.half t) → v'.Refers p (.half t))
    (htrace : v'.trace = .returned v.current f₀ ⟨b, none⟩ :: v.trace)
    (hlocks : ∀ l lock, v'.locks l = some lock → Gave .lockCreate l v'.trace)
    (hcvs : ∀ c cv, v'.cvs c = some cv → Gave .cvCreate c v'.trace) : v'.Pointed := by
  have hr' (p : Addr) (r : Role) (hp : v'.Refers p r) :
      v.Refers p r ∧ p ≠ b ∨ p = b ∧ r = r₀ := by
    rcases hr p r hp with hold | hnew
    · refine .inl ⟨hold, ?_⟩
      rintro rfl
      rw [h.unique _ r _ hold hb] at hp
      exact hhalf _ hp
    · exact .inr hnew
  obtain ⟨hbound, hunique⟩ := h.assign hbrk.ge (by rw [hbrk]; exact h.bound b _ hb) hr'
  refine ⟨hbound, hunique, hlocks, hcvs, fun t f p ht hp hf => ?_, ?_⟩
  · rw [htrace] at ht hp
    rcases eq_or_ne v.current t with rfl | hne
    · simp at hp
    · have hold := h.making t f p ht (by simpa [hne] using hp) hf
      refine hhalf' t p ?_ hold
      rintro rfl
      cases h.unique p _ _ hold hb
      exact hne rfl
  · rw [htrace]
    exact ⟨trivial, h.entitled⟩

/-- User code is given a lock.

**Proof sketch.** `Pointed.give` with the role of a lock. The wait queue of the new lock is the one
that has been made for it. -/
lemma Pointed.giveLock (h : v.Pointed) {b q : Addr} (hb : v.Refers b (.half v.current))
    (hq : v.Refers q (.queue (.lock b))) :
    ((v.setLock b (some ⟨q, -1⟩)).back .lockCreate ⟨b, none⟩).Pointed := by
  refine @Pointed.give _ _ h b .lock _ hb rfl (fun p r hp => ?_) (fun t hp => ?_)
    (fun t p hne hp => ?_) rfl (fun l lock hl => ?_) fun c cv hc => (h.cvs c cv hc).cons _
  · cases hp with
    | stack ne state => exact .inl (.stack ne state)
    | queue queue => exact .inl (.queue queue)
    | @lockQueue l lock lockAt =>
      rcases eq_or_ne l b with rfl | hne
      · obtain rfl : ⟨q, -1⟩ = lock := by simpa using lockAt
        exact .inl hq
      · exact .inl (.lockQueue (l := l) (by simpa [hne] using lockAt))
    | cvQueue cvAt => exact .inl (.cvQueue cvAt)
    | userQueue gave => exact .inl (.userQueue (by simpa [Event.gives] using gave))
    | lock gave =>
      rcases gave_cons.mp gave with heq | gave
      · obtain rfl : b = p := by simpa [Event.gives] using heq
        exact .inr ⟨rfl, rfl⟩
      · exact .inl (.lock gave)
    | cv gave => exact .inl (.cv (by simpa [Event.gives] using gave))
    | half halfway notLock notCv =>
      exact .inl (.half (by simpa using halfway) (fun hg => notLock (hg.cons _))
        fun hg => notCv (hg.cons _))
  · exact hp.of_half.2.1 (by simp [Event.gives])
  · cases hp with
    | half halfway notLock notCv =>
      exact .half (List.mem_cons_of_mem _ halfway) (by simpa [Event.gives, hne.symm] using notLock)
        (by simpa [Event.gives] using notCv)
  · rcases eq_or_ne l b with rfl | hne
    · simp [Event.gives]
    · exact (h.locks l lock (by simpa [hne] using hl)).cons _

/-- User code is given a condition variable.

**Proof sketch.** `Pointed.give` with the role of a condition variable. Its wait queue is the one
that has been made for it. -/
lemma Pointed.giveCv (h : v.Pointed) {b q : Addr} (hb : v.Refers b (.half v.current))
    (hq : v.Refers q (.queue (.cv b))) :
    ((v.setCv b (some ⟨q⟩)).back .cvCreate ⟨b, none⟩).Pointed := by
  refine @Pointed.give _ _ h b .cv _ hb rfl (fun p r hp => ?_) (fun t hp => ?_)
    (fun t p hne hp => ?_) rfl (fun l lock hl => (h.locks l lock hl).cons _) fun c cv hc => ?_
  · cases hp with
    | stack ne state => exact .inl (.stack ne state)
    | queue queue => exact .inl (.queue queue)
    | lockQueue lockAt => exact .inl (.lockQueue lockAt)
    | @cvQueue c cv cvAt =>
      rcases eq_or_ne c b with rfl | hne
      · obtain rfl : ⟨q⟩ = cv := by simpa using cvAt
        exact .inl hq
      · exact .inl (.cvQueue (c := c) (by simpa [hne] using cvAt))
    | userQueue gave => exact .inl (.userQueue (by simpa [Event.gives] using gave))
    | lock gave => exact .inl (.lock (by simpa [Event.gives] using gave))
    | cv gave =>
      rcases gave_cons.mp gave with heq | gave
      · obtain rfl : b = p := by simpa [Event.gives] using heq
        exact .inr ⟨rfl, rfl⟩
      · exact .inl (.cv gave)
    | half halfway notLock notCv =>
      exact .inl (.half (by simpa using halfway) (fun hg => notLock (hg.cons _))
        fun hg => notCv (hg.cons _))
  · exact hp.of_half.2.2 (by simp [Event.gives])
  · cases hp with
    | half halfway notLock notCv =>
      exact .half (List.mem_cons_of_mem _ halfway) (by simpa [Event.gives] using notLock)
        (by simpa [Event.gives, hne.symm] using notCv)
  · rcases eq_or_ne c b with rfl | hne
    · simp [Event.gives]
    · exact (h.cvs c cv (by simpa [hne] using hc)).cons _

/-- The first of the two blocks of a lock or condition variable is freed.

**Proof sketch.** What is left is half an object in the history, but user code was given it before,
so it does not get the role of a half. -/
lemma Pointed.dropHalf (h : v.Pointed) {p : Addr} (hp : Gave .lockCreate p v.trace ∨
    Gave .cvCreate p v.trace) {f : Fn} (hf : f.creates = false) (hc : v.Calls f) :
    (v.emit (.halfway v.current p)).Pointed := by
  have hr (a : Addr) (r : Role) (ha : (v.emit (.halfway v.current p)).Refers a r) :
      v.Refers a r := by
    cases ha with
    | stack ne state => exact .stack ne state
    | queue queue => exact .queue queue
    | lockQueue lockAt => exact .lockQueue lockAt
    | cvQueue cvAt => exact .cvQueue cvAt
    | userQueue gave => exact .userQueue (by simpa [Event.gives] using gave)
    | lock gave => exact .lock (by simpa [Event.gives] using gave)
    | cv gave => exact .cv (by simpa [Event.gives] using gave)
    | half halfway notLock notCv =>
      rcases List.mem_cons.mp halfway with heq | halfway
      · cases heq
        rcases hp with hp | hp
        · exact (notLock (hp.cons _)).elim
        · exact (notCv (hp.cons _)).elim
      · exact .half halfway (fun hg => notLock (hg.cons _)) fun hg => notCv (hg.cons _)
  refine ⟨fun a r ha => h.bound a r (hr a r ha), fun a r r' ha ha' =>
    h.unique a r r' (hr a r ha) (hr a r' ha'), fun l lock hl => (h.locks l lock hl).cons _,
    fun c cv hc => (h.cvs c cv hc).cons _, fun t g a ht ha hg => ?_, trivial, h.entitled⟩
  rcases eq_or_ne v.current t with rfl | hne
  · have hfn := congrArg Progress.fn ha
    obtain rfl : f = g := by simpa [hc.progress] using hfn
    rw [hf] at hg
    cases hg
  · cases h.making t g a ht (by simpa [hne] using ha) hg with
    | half halfway notLock notCv =>
      exact .half (List.mem_cons_of_mem _ halfway) (by simpa [Event.gives] using notLock)
        (by simpa [Event.gives] using notCv)

/-! ## Transactions -/

/-- The wait queues after one of them has been written. -/
lemma queues_of_update {q : Addr} {o : Owner} {es es' : List Tid} (hq : v.queues q = some (o, es))
    (p : Addr) (o' : Owner) (es₁ : List Tid)
    (hp : Function.update v.queues q (some (o, es')) p = some (o', es₁)) :
    ∃ es₀, v.queues p = some (o', es₀) := by
  rcases eq_or_ne p q with rfl | hne
  · obtain ⟨rfl, -⟩ : o = o' ∧ es' = es₁ := by simpa using hp
    exact ⟨es, hq⟩
  · exact ⟨es₁, by simpa [hne] using hp⟩

/-- The wait queues after one of them has been destroyed. -/
lemma queues_of_update_none (q p : Addr) (o : Owner) (es : List Tid)
    (hp : Function.update v.queues q none p = some (o, es)) :
    ∃ es', v.queues p = some (o, es') := by
  rcases eq_or_ne p q with rfl | hne
  · simp at hp
  · exact ⟨es, by simpa [hne] using hp⟩

/-- The locks after the owner of one of them has changed. -/
lemma locks_of_update {l : Addr} {lock : Lock} (hl : v.locks l = some lock) (t : Tid) (p : Addr)
    (lock' : Lock)
    (hp : Function.update v.locks l (some { lock with current := t }) p = some lock') :
    ∃ c, v.locks p = some { lock' with current := c } := by
  rcases eq_or_ne p l with rfl | hne
  · obtain rfl : { lock with current := t } = lock' := by simpa using hp
    exact ⟨lock.current, hl⟩
  · exact ⟨lock'.current, by simpa [hne] using hp⟩

/-- What is left of a partial map after an entry has been removed. -/
lemma eq_some_of_update_none {α : Type} {f : Addr → Option α} {a p : Addr} {x : α}
    (hp : Function.update f a none p = some x) : f p = some x := by
  rcases eq_or_ne p a with rfl | hne
  · simp at hp
  · simpa [hne] using hp

/-- A transaction that changes lists of threads and the owners of locks only. -/
lemma keeps_of (hs : v'.stackStart = v.stackStart)
    (hst : ∀ t, v'.state t ≠ .Destroyed → v.state t ≠ .Destroyed)
    (hq : ∀ q o es, v'.queues q = some (o, es) → ∃ es', v.queues q = some (o, es'))
    (hl : v'.locks = v.locks) (hc : v'.cvs = v.cvs) (hb : v'.brk = v.brk)
    (ht : Plainly v.trace v'.trace) : v.Keeps v' :=
  ⟨hs, hst, hq, fun _ lock hlock => ⟨lock.current, hl ▸ hlock⟩, fun _ _ hcv => hc ▸ hcv, hb.ge, ht⟩

/-- A transaction that does not touch the objects and the states of threads. -/
lemma keeps_of_eq (hs : v'.stackStart = v.stackStart) (hst : v'.state = v.state)
    (hq : v'.queues = v.queues) (hl : v'.locks = v.locks) (hc : v'.cvs = v.cvs)
    (hb : v'.brk = v.brk) (ht : Plainly v.trace v'.trace) : v.Keeps v' :=
  keeps_of hs (fun _ h => hst ▸ h) (fun _ _ es h => ⟨es, hq ▸ h⟩) hl hc hb ht

/-- The states after a live thread has been given another one. -/
lemma state_of_update {t u : Tid} {s : State} (ht : v.state t ≠ .Destroyed)
    (hu : Function.update v.state t s u ≠ .Destroyed) : v.state u ≠ .Destroyed := by
  rcases eq_or_ne u t with rfl | hne
  · exact ht
  · rwa [Function.update_of_ne hne] at hu

/-- The end of a thread makes nothing. -/
lemma keeps_bury (v : View) (t : Tid) (killed : Bool) (rsp : Addr) (heap : Heap) :
    v.Keeps (v.bury t killed rsp heap) := by
  refine keeps_of (View.bury_stackStart ..) (fun u hu => ?_) (fun q o es hq => ⟨es, ?_⟩)
    (View.bury_locks ..) (View.bury_cvs ..) (View.bury_brk ..)
    (adds_bury v t killed rsp heap (fun _ => rfl) rfl)
  · have hne : u ≠ t := by
      rintro rfl
      simp at hu
    simpa [hne] using hu
  · rwa [View.bury_queues] at hq

/-- The end of a thread. -/
lemma Pointed.bury (h : v.Pointed) {t : Tid} {killed : Bool} {rsp : Addr} {heap : Heap}
    (hd : v.Dies t killed rsp heap) : (v.bury t killed rsp heap).Pointed :=
  h.keeps (keeps_bury v t killed rsp heap) (fun u hu => .inr ⟨(hd.ne_of_alive hu).2, by simp⟩)
    (View.always_bury _ _ _ _ _ (fun _ _ _ _ => trivial) (fun _ _ _ => trivial) h.entitled)

/-- The ready queue changes. -/
lemma Pointed.setReady (h : v.Pointed) (es : List Tid) : (v.setReady es).Pointed :=
  h.keeps (keeps_of_eq rfl rfl rfl rfl rfl rfl (Adds.refl _ _)) (fun _ ht => .inr ⟨ht, rfl⟩)
    h.entitled

/-- A thread is put in the ready queue. -/
lemma Pointed.pushReady (h : v.Pointed) (t : Tid) : (v.pushReady t).Pointed :=
  h.keeps (keeps_of_eq rfl rfl rfl rfl rfl rfl (adds_pushTrace (Adds.refl _ _) fun _ _ => rfl))
    (fun u hu => .inr ⟨by simpa using hu, by simp⟩)
    ((always_pushTrace _ _ _ fun _ _ _ => trivial).mpr h.entitled)

/-- The processor is given away. -/
lemma Pointed.switchTo (h : v.Pointed) (t : Tid) : (v.switchTo t).Pointed :=
  h.keeps (keeps_of_eq rfl rfl rfl rfl rfl rfl
      ((adds_pushTrace (Adds.refl _ _) fun _ _ => rfl).cons rfl))
    (fun u hu => .inr ⟨by simpa using hu, by simp⟩)
    ⟨trivial, (always_pushTrace _ _ _ fun _ _ _ => trivial).mpr h.entitled⟩

/-- A call returns that gives user code no pointer. -/
lemma Pointed.back (h : v.Pointed) {f : Fn} {r : Ret}
    (hplain : (Event.returned v.current f r).plain = true) : (v.back f r).Pointed := by
  refine h.keeps (keeps_of_eq rfl rfl rfl rfl rfl rfl ((Adds.refl _ _).cons hplain))
    (fun u hu => ?_) ⟨trivial, h.entitled⟩
  rcases eq_or_ne v.current u with rfl | hne
  · exact .inl (by simp)
  · exact .inr ⟨hu, by simp [hne]⟩

/-- The current thread calls a function; it destroys only what user code has been given. -/
lemma Pointed.called (h : v.Pointed) {f : Fn} (hf : f.Entitled v.trace) :
    (v.emit (.called v.current f)).Pointed := by
  refine h.keeps (keeps_of_eq rfl rfl rfl rfl rfl rfl ((Adds.refl _ _).cons rfl))
    (fun u hu => ?_) ⟨hf, h.entitled⟩
  rcases eq_or_ne v.current u with rfl | hne
  · exact .inl (by simp)
  · exact .inr ⟨hu, by simp [hne]⟩

/-- A new thread starts. -/
lemma Pointed.started (h : v.Pointed) (fn parg : ℕ) :
    (v.emit (.started v.current fn parg)).Pointed := by
  refine h.keeps (keeps_of_eq rfl rfl rfl rfl rfl rfl ((Adds.refl _ _).cons rfl))
    (fun u hu => ?_) ⟨trivial, h.entitled⟩
  rcases eq_or_ne v.current u with rfl | hne
  · exact .inl (by simp)
  · exact .inr ⟨hu, by simp [hne]⟩

/-- The current thread calls `thread_exit`. -/
lemma Pointed.exited (h : v.Pointed) (c : ℤ) :
    ((v.emit (.exited v.current c)).setExitCode v.current c).Pointed := by
  refine h.keeps (keeps_of_eq rfl rfl rfl rfl rfl rfl ((Adds.refl _ _).cons rfl))
    (fun t ht => .inr ?_) ⟨trivial, h.entitled⟩
  have hne : v.current ≠ t := by
    rintro rfl
    simp at ht
  exact ⟨by simpa [hne] using ht, rfl⟩

/-- The current thread goes to sleep on a wait queue. -/
lemma Pointed.asleepOn (h : v.Pointed) (hlive : v.state v.current ≠ .Destroyed) {q : Addr}
    {o : Owner} {es : List Tid} (hq : v.queues q = some (o, es)) :
    (v.asleep v.current q o es).Pointed :=
  h.keeps (keeps_of rfl (fun _ => state_of_update hlive) (queues_of_update hq) rfl rfl rfl
      ((Adds.refl _ _).cons rfl))
    (fun _ ht => .inr ⟨ht, rfl⟩) ⟨trivial, h.entitled⟩

/-- The current thread has found nobody to sleep for, and takes its entry back. -/
lemma Pointed.sleptNone (h : v.Pointed) (hlive : v.state v.current ≠ .Destroyed) {q : Addr}
    {o : Owner} {es : List Tid} (hq : v.queues q = some (o, es)) (es' : List Tid) :
    ((((v.asleep v.current q o es).setState v.current .Running).setQueue q (some (o, es'))).emit
      (.sleptNone v.current q)).Pointed := by
  have hasleep := h.asleepOn hlive hq
  have hawake : ((v.asleep v.current q o es).setState v.current .Running).Pointed :=
    hasleep.keeps (keeps_of rfl (fun _ => state_of_update (by simp)) (fun _ _ es hq => ⟨es, hq⟩)
        rfl rfl rfl (Adds.refl _ _))
      (fun _ ht => .inr ⟨ht, rfl⟩) hasleep.entitled
  exact hawake.keeps (keeps_of rfl (fun _ hu => hu)
      (@queues_of_update _ q o (pushEntry es v.current) es' (by simp)) rfl rfl rfl
      ((Adds.refl _ _).cons rfl))
    (fun t ht => .inr ⟨ht, rfl⟩) ⟨trivial, hawake.entitled⟩

/-- The current thread starts to wait for another one. -/
lemma Pointed.awaitingFor (h : v.Pointed) (hlive : v.state v.current ≠ .Destroyed) {x : Tid}
    {c : Bool} (calls : v.Calls (.threadWait x c)) : (v.awaiting v.current x).Pointed := by
  refine h.keeps (keeps_of rfl (fun _ => state_of_update hlive) (fun _ _ es hq => ⟨es, hq⟩) rfl rfl
      rfl ((Adds.refl _ _).cons rfl))
    (fun u hu => ?_) ⟨trivial, h.entitled⟩
  rcases eq_or_ne v.current u with rfl | hne
  · exact .inl (by simp [calls.progress])
  · exact .inr ⟨hu, by simp [hne]⟩

/-- The first entry of a wait queue is woken. -/
lemma Pointed.wake (h : v.Pointed) {q : Addr} {o : Owner} {t : Tid} {es : List Tid}
    (hq : v.queues q = some (o, t :: es)) (hlive : v.state t ≠ .Destroyed) :
    (((v.setQueue q (some (o, es))).setState t .Running).emit (.woken t q)).Pointed :=
  h.keeps (keeps_of rfl (fun _ => state_of_update hlive) (queues_of_update hq) rfl rfl rfl
      ((Adds.refl _ _).cons rfl))
    (fun _ hu => .inr ⟨hu, rfl⟩) ⟨trivial, h.entitled⟩

/-- A waiter is released. -/
lemma Pointed.release (h : v.Pointed) (t : Tid) {w : Tid} (hlive : v.state w ≠ .Destroyed) :
    (v.release t w).Pointed :=
  h.keeps (keeps_of rfl (fun _ => state_of_update hlive) (fun _ _ es hq => ⟨es, hq⟩) rfl rfl rfl
      ((Adds.refl _ _).cons rfl))
    (fun _ hu => .inr ⟨hu, rfl⟩) ⟨trivial, h.entitled⟩

/-- A lock gets another owner. -/
lemma Pointed.setOwner (h : v.Pointed) {l : Addr} {lock : Lock} (hl : v.locks l = some lock)
    (t : Tid) : (v.setLock l (some { lock with current := t })).Pointed :=
  h.keeps ⟨rfl, fun _ ht => ht, fun _ _ es hq => ⟨es, hq⟩, locks_of_update hl _, fun _ _ hc => hc,
      le_rfl, Adds.refl _ _⟩
    (fun _ ht => .inr ⟨ht, rfl⟩) h.entitled

/-- A wait queue is freed. -/
lemma Pointed.freeQueue (h : v.Pointed) (q rsp : Addr) (heap : Heap) :
    ((v.free q rsp heap).setQueue q none).Pointed :=
  h.keeps (keeps_of rfl (fun _ ht => ht) (queues_of_update_none _) rfl rfl rfl
      ((Adds.refl _ _).cons rfl))
    (fun _ ht => .inr ⟨ht, rfl⟩) ⟨trivial, h.entitled⟩

/-- A lock is freed. -/
lemma Pointed.freeLock (h : v.Pointed) (l rsp : Addr) (heap : Heap) :
    ((v.free l rsp heap).setLock l none).Pointed :=
  h.keeps ⟨rfl, fun _ ht => ht, fun _ _ es hq => ⟨es, hq⟩,
      fun _ lock hl => ⟨lock.current, eq_some_of_update_none hl⟩, fun _ _ hc => hc, le_rfl,
      (Adds.refl _ _).cons rfl⟩
    (fun _ ht => .inr ⟨ht, rfl⟩) ⟨trivial, h.entitled⟩

/-- A condition variable is freed. -/
lemma Pointed.freeCv (h : v.Pointed) (c rsp : Addr) (heap : Heap) :
    ((v.free c rsp heap).setCv c none).Pointed :=
  h.keeps ⟨rfl, fun _ ht => ht, fun _ _ es hq => ⟨es, hq⟩,
      fun _ lock hl => ⟨lock.current, hl⟩, fun _ _ hc => eq_some_of_update_none hc, le_rfl,
      (Adds.refl _ _).cons rfl⟩
    (fun _ ht => .inr ⟨ht, rfl⟩) ⟨trivial, h.entitled⟩

/-- **Every transaction keeps the roles of addresses.**

**Proof sketch.** An address gets a role when its block is allocated, at `brk`, where nothing has
been before. A block on its way from one half of an object to the whole passes from the thread that
makes it to the object, and a freed block loses its role. All other transactions leave the roles
alone: what they do to threads and queues is done by the lemmas above, one for each kind. -/
theorem Pointed.step (h : v.Pointed) (hlife : v.Life)
    (hcalled : ∀ f, l = .called f → f.Entitled v.trace) (hs : Step v l v') : v'.Pointed := by
  have hlive {f : Fn} (calls : v.Calls f) : v.state v.current ≠ .Destroyed :=
    hlife.alive _ calls.alive
  cases hs with
  | @called f => exact h.called (hcalled f rfl)
  | @returned f r alive fn done =>
    exact h.back (by cases f <;> first | rfl | exact done.elim)
  | started => exact h.started _ _
  | exit => exact h.exited _
  | @create num fn parg => exact (h.spawn fn parg).pushReady num
  | discard => exact h.setReady _
  | @dispatch t ts => exact (h.setReady ts).switchTo t
  | @yieldTo t => exact h.switchTo t
  | @sleep f q o o' t es ts calls sleeps access queue lock picks =>
    exact ((h.asleepOn (hlive calls) queue).setReady ts).switchTo t
  | @sleepNone f q o o' es es' calls sleeps access queue lock ready last =>
    exact h.sleptNone (hlive calls) queue es'
  | @wait x t c ts calls valid state ne waiter picks =>
    exact ((h.awaitingFor (hlive calls) calls).setReady ts).switchTo t
  | waitNone calls => exact (h.awaitingFor (hlive calls) calls).back rfl
  | @wake f q o o' t es calls wakes access queue state =>
    exact (h.wake queue (by rw [state]; decide)).pushReady t
  | skip calls wakes access queue =>
    exact h.keeps (keeps_of rfl (fun _ hu => hu) (queues_of_update queue) rfl rfl rfl
      (Adds.refl _ _)) (fun _ ht => .inr ⟨ht, rfl⟩) h.entitled
  | die dies => exact h.bury dies
  | @dieTo t w killed rsp heap dies waiter valid state ne =>
    exact ((h.bury dies).release t (by simp [ne, state])).switchTo w
  | @dieBack t killed rsp heap dies waiter state ne =>
    exact (h.bury dies).release t (by simp [ne, state])
  | take calls acquires lockAt => exact h.setOwner lockAt _
  | give calls releases lockAt => exact h.setOwner lockAt _
  | newQueue =>
    exact (h.newQueue .user).giveQueue (@Refers.queue _ _ _ [] (by simp))
  | newHalf => exact h.newHalf _
  | @newLock l alive fn =>
    have h₁ := h.newQueue (.lock l)
    exact h₁.giveLock (h₁.making v.current .lockCreate l alive fn rfl)
      (@Refers.queue _ _ _ [] (by simp))
  | @newCv c alive fn =>
    have h₁ := h.newQueue (.cv c)
    exact h₁.giveCv (h₁.making v.current .cvCreate c alive fn rfl)
      (@Refers.queue _ _ _ [] (by simp))
  | dropQueue => exact (h.freeQueue _ _ _).back rfl
  | @dropHalf f p q heap calls destroys free =>
    have h₁ := h.freeQueue q (v.stackStart v.current) heap
    refine h₁.dropHalf (f := f) ?_ ?_ ⟨calls.alive, calls.progress⟩
    · rcases destroys with ⟨-, lock, hl, -⟩ | ⟨-, cv, hc, -⟩
      · exact .inl (h₁.locks p lock hl)
      · exact .inr (h₁.cvs p cv hc)
    · rcases destroys with ⟨rfl, -⟩ | ⟨rfl, -⟩ <;> rfl
  | dropLock => exact (h.freeLock _ _ _).back rfl
  | dropCv => exact (h.freeCv _ _ _).back rfl

/-- User code calls destroy functions with pointers that it has been given. -/
lemma entitled_of_permits {m : Machine} {a : Action} (hp : Permits m a v l) (f : Fn)
    (hl : l = .called f) : f.Entitled v.trace := by
  subst hl
  obtain ⟨-, rfl, hadm⟩ := hp
  cases f <;> first | exact hadm | trivial

end View

/-- At the start nobody keeps an address. -/
lemma pointed_threadInit (garbage : ℤ) : (abs (threadInit garbage)).Pointed := by
  have hr (p : Addr) (r : Role) : ¬ (abs (threadInit garbage)).Refers p r := by
    intro hp
    cases hp with
    | stack ne state => exact state (congrArg Thread.state (if_neg ne))
    | queue queue => cases queue
    | lockQueue lockAt => cases lockAt
    | cvQueue cvAt => cases cvAt
    | userQueue gave | lock gave | cv gave =>
      obtain ⟨e, he, -⟩ := gave
      cases he
    | half halfway => cases halfway
  refine ⟨fun p r hp => (hr p r hp).elim, fun p r _ hp => (hr p r hp).elim, fun l lock hl => ?_,
    fun c cv hc => ?_, fun t f p _ hp _ => ?_, trivial⟩
  · cases hl
  · cases hc
  · cases hp

end UserThreads
