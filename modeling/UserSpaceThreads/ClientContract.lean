import UserSpaceThreads.Contract
import UserSpaceThreads.TestCv

set_option relaxedAutoImplicit false
set_option autoImplicit false

/-!
# Code that keeps the contract

Threads of known code share the library with arbitrary ones. If the code has a proof outline for a
lock, and makes *tame* calls only, then its threads keep the contract of the library: what a tame
call asks for follows from the outline. If the other threads keep the contract as well, and destroy
what the code uses only when no thread is left that needs it, the process does not crash. The
threads of the lock test and of the condition variable tests are such. As in the contract,
`malloc369` is taken not to fail.

## Main definitions

* `UserThreads.Fn.Tame` — the calls, and what they ask for.
* `UserThreads.Client.Courteous` — what is asked of the other threads.

## Main results

* `UserThreads.Client.Tame.keeping` — the process keeps the contract and does not crash.
* `UserThreads.test_lock_healthy`, `UserThreads.test_cv_healthy` — the tests do not crash.
-/

namespace UserThreads

open History ProofOutline

variable {m : Machine} {f o : Fn} {lock : Addr} {e : Event} {tr : List Event}

/-! ## Tame calls -/

/-- The objects that a call uses, each under the name of the call that destroys it. -/
def Fn.needs : Fn → List Fn
  | .threadSleep q => [.waitQueueDestroy q]
  | .threadWakeup q _ => [.waitQueueDestroy q]
  | .lockAcquire l => [.lockDestroy l]
  | .lockRelease l => [.lockDestroy l]
  | .cvWait c l => [.cvDestroy c, .lockDestroy l]
  | .cvSignal c l => [.cvDestroy c, .lockDestroy l]
  | .cvBroadcast c l => [.cvDestroy c, .lockDestroy l]
  | _ => []

/-- A call that needs its objects, the signal unblocked, and at most that its caller has `lock`. -/
def Fn.Tame (lock : Addr) (owns : Prop) : Fn → Prop
  | .threadYield t => t = THREAD_ANY
  | .threadReturn => True
  | .lockAcquire _ => True
  | .lockRelease l => l = lock ∧ owns
  | .cvWait _ l => l = lock ∧ owns
  | .cvSignal _ l => l = lock ∧ owns
  | .cvBroadcast _ l => l = lock ∧ owns
  | _ => False

/-- Tame calls are careful. -/
lemma Fn.Tame.careful {owns : Prop} (h : f.Tame lock owns) : Careful m (.call f) := by
  cases f with
  | threadYield t =>
    obtain rfl : t = THREAD_ANY := h
    exact fun hnames => absurd hnames.2.1 (by decide)
  | threadReturn | lockAcquire | lockRelease | cvWait | cvSignal | cvBroadcast => trivial
  | _ => exact h.elim

/-- Tame calls destroy nothing. -/
lemma Fn.Tame.destroys {owns : Prop} (h : f.Tame lock owns) : f.destroys = none := by
  cases f <;> first | rfl | exact h.elim

/-- What is asked of a tame call. -/
lemma Fn.Tame.proper {owns : Prop} (h : f.Tame lock owns) (hint : m.interrupts = true)
    (hneeds : ∀ o ∈ f.needs, Usable o m.trace)
    (howns : owns → Usable (.lockDestroy lock) m.trace → OwnsLock m lock) : f.Proper m := by
  cases f with
  | threadYield => trivial
  | threadReturn => exact hint
  | lockAcquire l => exact hneeds _ (by simp [Fn.needs])
  | lockRelease l =>
    obtain ⟨rfl, hown⟩ := h
    have hl := hneeds (.lockDestroy l) (by simp [Fn.needs])
    exact ⟨hl, howns hown hl⟩
  | cvWait c l | cvSignal c l | cvBroadcast c l =>
    obtain ⟨rfl, hown⟩ := h
    have hl := hneeds (.lockDestroy l) (by simp [Fn.needs])
    exact ⟨hneeds (.cvDestroy c) (by simp [Fn.needs]), hl, howns hown hl⟩
  | _ => exact h.elim

/-- User code has been given the objects with which it can call a function. -/
lemma given_of_needs (hadm : f.Admissible m) (ho : o ∈ f.needs) (hne : o.destroys ≠ some NULL) :
    o.Given m.trace := by
  have hpointer {g : Fn} {p : Addr} (hp : Pointer m g p) (hnull : some p ≠ some NULL) :
      p ≠ NULL ∧ Gave g p m.trace := by
    have hp0 : p ≠ NULL := fun heq => hnull (congrArg some heq)
    exact ⟨hp0, hp.resolve_left hp0⟩
  cases f with
  | threadSleep q | threadWakeup q all | lockAcquire l | lockRelease l =>
    obtain rfl := List.mem_singleton.mp ho
    exact hpointer hadm hne
  | cvWait c l | cvSignal c l | cvBroadcast c l =>
    obtain rfl | ho := List.mem_cons.mp ho
    · exact hpointer hadm.1 hne
    · obtain rfl := List.mem_singleton.mp ho
      exact hpointer hadm.2 hne
  | _ => cases ho

namespace Client

variable {S L : Type} (c : Client S L)

/-! ## The other threads -/

/-- The local state of a thread is a spent one. -/
def Spent (spent : L → Prop) : Local L → Prop
  | .ready l => spent l
  | .calling l => spent l

instance (spent : L → Prop) [DecidablePred spent] : (x : Local L) → Decidable (Spent spent x)
  | .ready l => inferInstanceAs (Decidable (spent l))
  | .calling l => inferInstanceAs (Decidable (spent l))

/-- The threads that run the code are spent, and no live thread is going to run it. -/
def Finished (spent : L → Prop) (ls : Tid → Option (Local L)) (tr : List Event) : Prop :=
  ∀ t : ℤ, 0 ≤ t → t < THREAD_MAX_THREADS → (∀ x ∈ ls t, Spent spent x) ∧
    (fate t tr = some .alive → ∀ s ∈ (progress t tr).start, c.entry s.1 s.2 = none)

instance (spent : L → Prop) [DecidablePred spent] (ls : Tid → Option (Local L)) (tr : List Event) :
    Decidable (c.Finished spent ls tr) := by
  unfold Finished
  infer_instance

/-- The call creates a thread that is to run the code. -/
def recruits : Fn → Bool
  | .threadCreate fn parg => (c.entry fn parg).isSome
  | _ => false

/-- The event is a call that destroys one of the objects. -/
def disposes (uses : Fn → Prop) : Event → Prop
  | .called _ f => uses f
  | _ => False

instance (uses : Fn → Prop) [DecidablePred uses] : (e : Event) → Decidable (disposes uses e)
  | .called _ f => inferInstanceAs (Decidable (uses f))
  | .returned _ _ _ | .created _ _ _ | .started _ _ _ | .exited _ _ | .killed _ | .waited _ _
  | .halfway _ _ | .slept _ _ | .sleptNone _ _ | .woken _ _ | .released _ _ | .switched _
  | .refused _ _ | .queueCreated _ | .freed _ _ _ => isFalse id

/-- User code has called a function that destroys one of the objects. -/
def Disposed (uses : Fn → Prop) (tr : List Event) : Prop := ∃ e ∈ tr, disposes uses e

instance (uses : Fn → Prop) [DecidablePred uses] (tr : List Event) : Decidable (Disposed uses tr) :=
  inferInstanceAs (Decidable (∃ e ∈ tr, _))

/-- The threads whose code is not known keep the contract. They destroy the objects that the code
uses only when it is finished, and then create no thread for it. -/
def Courteous (uses : Fn → Prop) (spent : L → Prop) (p : Process S L) : Move → Prop
  | .machine (.call f) => p.locals p.machine.currentThread = none →
      Contract p.machine (.call f) ∧
      (uses f → c.Finished spent p.locals p.machine.trace) ∧
      (c.recruits f = true → ¬ Disposed uses p.machine.trace)
  | _ => True

instance (uses : Fn → Prop) [DecidablePred uses] (spent : L → Prop) [DecidablePred spent]
    (p : Process S L) : (move : Move) → Decidable (c.Courteous uses spent p move)
  | .machine (.call _) => inferInstanceAs (Decidable (_ → _))
  | .machine .exec | .machine .tick | .run _ => isTrue trivial

/-- Spent threads stay spent, and need no object. -/
def Lasts (spent : L → Prop) : Instr Bool S L Fn Ret → Prop
  | .step f => ∀ s, spent (f s).2
  | .check _ next => spent next
  | .choose next => ∀ b, spent (next b)
  | .call f next => f.needs = [] ∧ ∀ r, spent (next r)

variable {c} {ls : Tid → Option (Local L)} {uses : Fn → Prop} {spent : L → Prop}

/-- An object of which the destroy function has not been called. -/
lemma not_called (h : ¬ Disposed uses tr) (ho : uses o) : ¬ Called o tr := by
  rintro ⟨e, he, hcalls⟩
  refine h ⟨e, he, ?_⟩
  cases e with
  | called t g =>
    obtain rfl : g = o := by simpa [Event.calls] using hcalls
    exact ho
  | _ => cases hcalls

/-- A spent thread stays spent, and a thread runs the code only if it is started for it.

**Proof sketch.** Only the thread of the event moves. A call and a return lead from one place of the
code to the next, and code that is spent has only such places in front of it (`Lasts`); a start is
what the last premise excludes. -/
lemma spent_heed (hlasts : ∀ l, spent l → Lasts spent (c.code l)) {t : Tid}
    (h : ∀ x ∈ ls t, Spent spent x)
    (hstarted : ∀ fn parg, e = .started t fn parg → c.entry fn parg = none) (x : Local L)
    (hx : x ∈ c.heed e ls t) : Spent spent x := by
  rw [Client.heed] at hx
  cases he : c.note e with
  | none =>
    rw [he] at hx
    exact h x hx
  | some n =>
    rw [he] at hx
    by_cases ht : t = n.thread
    swap
    · exact h x ((Note.heed_of_ne c.code ht ls).symm.trans hx)
    subst ht
    replace hx : n.move c.code (ls n.thread) = some x := (n.heed_self c.code ls).symm.trans hx
    cases e with
    | called u f =>
      cases he
      obtain ⟨y, hy, rfl⟩ := Option.map_eq_some_iff.mp hx
      have hspent := h y hy
      cases y <;> exact hspent
    | returned u f r =>
      cases he
      obtain ⟨y, hy, rfl⟩ := Option.map_eq_some_iff.mp hx
      have hspent := h y hy
      cases y with
      | ready l => exact hspent
      | calling l =>
        have hcode := hlasts l hspent
        rw [Local.resume]
        split
        · next g next heq =>
          rw [heq] at hcode
          exact hcode.2 r
        · exact hspent
    | started u fn parg =>
      cases he
      obtain ⟨l, hl, -⟩ := Option.map_eq_some_iff.mp hx
      rw [hstarted fn parg rfl] at hl
      cases hl
    | created u fn parg | exited u k | killed u =>
      cases he
      cases hx
    | _ => cases he

/-- A thread is going to run the code only if it is created for it.

**Proof sketch.** By the event. A thread that is going to start has been created, and nothing has
happened to it since. -/
lemma start_cons {t : Tid}
    (h : fate t tr = some .alive → ∀ s ∈ (progress t tr).start, c.entry s.1 s.2 = none)
    (hcreated : ∀ fn parg, e = .created t fn parg → c.entry fn parg = none)
    (ht : fate t (e :: tr) = some .alive) (s : ℕ × ℕ) (hs : s ∈ (progress t (e :: tr)).start) :
    c.entry s.1 s.2 = none := by
  cases e with
  | called u f | returned u f r | started u fn parg =>
    by_cases hu : u = t
    · simp [hu] at hs
    · exact h ht s (by simpa [hu] using hs)
  | created u fn parg =>
    by_cases hu : u = t
    · subst hu
      obtain rfl : (fn, parg) = s := by simpa using hs
      exact hcreated fn parg rfl
    · exact h (by simpa [hu] using ht) s (by simpa [hu] using hs)
  | exited u x | killed u =>
    by_cases hu : u = t
    · simp [hu] at ht
    · exact h (by simpa [hu] using ht) s hs
  | waited u x | halfway u x =>
    refine h ht s ?_
    rw [progress] at hs
    split_ifs at hs <;> exact hs
  | _ => exact h ht s hs

/-- One event: the code stays finished. -/
lemma Finished.heed (hlasts : ∀ l, spent l → Lasts spent (c.code l))
    (h : c.Finished spent ls tr) (hlively : Lively e tr)
    (hcreated : ∀ u fn parg, e = .created u fn parg → c.entry fn parg = none) :
    c.Finished spent (c.heed e ls) (e :: tr) := by
  intro t h0 h1
  obtain ⟨hspent, hstart⟩ := h t h0 h1
  refine ⟨spent_heed hlasts hspent ?_, start_cons hstart (hcreated t)⟩
  rintro fn parg rfl
  exact hstart hlively.1 (fn, parg) hlively.2

/-- The events of one step. -/
lemma Finished.events (hlasts : ∀ l, spent l → Lasts spent (c.code l)) {es : List Event}
    (h : c.Finished spent ls tr) (hlively : Since Lively tr es)
    (hcreated : ∀ e ∈ es, ∀ u fn parg, e = .created u fn parg → c.entry fn parg = none) :
    c.Finished spent (es.foldr c.heed ls) (es ++ tr) := by
  induction es with
  | nil => exact h
  | cons e es ih =>
    exact (ih hlively.2 fun x hx => hcreated x (List.mem_cons_of_mem _ hx)).heed hlasts hlively.1
      (hcreated e (List.mem_cons_self ..))

/-! ## Steps -/

variable {O : c.ProofFor lock} {p p' : Process S L} {a : Action} {s₀ : S}

/-- A step of the machine in which no thread is created that is to run the code. -/
lemma Finished.machine (hlasts : ∀ l, spent l → Lasts spent (c.code l))
    (h : c.Finished spent p.locals p.machine.trace)
    (hreach : UserThreads.Reachable p.machine) (hs : c.step p (.machine a) = some p')
    (hrun : ¬ Stopped p'.machine)
    (hcreates : ∀ fn parg, a = .call (.threadCreate fn parg) → c.entry fn parg = none) :
    c.Finished spent p'.locals p'.machine.trace := by
  obtain ⟨-, hm, -, hlocals⟩ := step_machine hs
  have hb := ReachableBy.base hreach (not_stopped hs)
  obtain ⟨es, heq, hcaused⟩ := caused_by_call ((step_refines hb hm).resolve_left hrun).2
  have hlively : Always Lively p'.machine.trace :=
    (ReachableBy.life (hreach.step trivial hm) hrun).2.lively
  rw [hlocals, news_eq heq]
  rw [heq] at hlively ⊢
  refine h.events hlasts hlively.since.1 fun e he u fn parg hcreated => hcreates fn parg ?_
  subst hcreated
  exact hcaused _ he

/-- Only a call destroys an object. -/
lemma disposed_step (hreach : UserThreads.Reachable p.machine)
    (hs : c.step p (.machine a) = some p') (hrun : ¬ Stopped p'.machine)
    (h : Disposed uses p'.machine.trace) :
    Disposed uses p.machine.trace ∨ ∃ f, a = .call f ∧ uses f := by
  have hb := ReachableBy.base hreach (not_stopped hs)
  have hpath := ((step_refines hb (step_machine hs).2.1).resolve_left hrun).2
  obtain ⟨e, he, hdisposes⟩ := h
  rcases (caused_by_call hpath).mem_or he with hnew | hold
  · cases e with
    | called u f => exact .inr ⟨f, hnew, hdisposes⟩
    | _ => exact hdisposes.elim
  · exact .inl ⟨e, hold, hdisposes⟩

/-! ## The contract -/

/-- The code makes tame calls only, uses these objects, and needs none of them any more when it is
spent. -/
structure Tame (O : c.ProofFor lock) (uses : Fn → Prop) (spent : L → Prop) : Prop where
  call : ∀ l f next, c.code l = .call f next → f.Tame lock (O.inside l) ∧ ∀ o ∈ f.needs, uses o
  objects : ∀ o, uses o → o.destroys ≠ none ∧ o.destroys ≠ some NULL
  lasts : ∀ l, spent l → Lasts spent (c.code l)

/-- **The code keeps the contract**: its threads have the lock where they need it. -/
lemma Tame.call_contract (ht : Tame O uses spent)
    (hin : InStep O p.locals p.shared p.machine.trace) (h : ReachableBy Contract p.machine)
    (hcontrol : p.machine.control = .user) (hadm : f.Admissible p.machine) {l : L} {next : Ret → L}
    (hl : p.locals p.machine.currentThread = some (.ready l)) (hcode : c.code l = .call f next)
    (hspent : Disposed uses p.machine.trace → spent l) : Contract p.machine (.call f) := by
  have hrun : ¬ Stopped p.machine := by simp [Stopped, hcontrol]
  have hat := hin.linked _ _ hl
  have hint : p.machine.interrupts = true :=
    (ReachableBy.open h hrun ⟨hat.alive, hat.mask⟩).unmasked hcontrol
  obtain ⟨htame, hneeds⟩ := ht.call l f next hcode
  refine ⟨htame.careful, htame.proper hint (fun o ho => ⟨?_, ?_⟩) fun hinside husable => ?_⟩
  · exact given_of_needs hadm ho (ht.objects o (hneeds o ho)).2
  · refine not_called (fun hdisposed => ?_) (hneeds o ho)
    have hlasts := ht.lasts l (hspent hdisposed)
    rw [hcode] at hlasts
    rw [hlasts.1] at ho
    cases ho
  · obtain ⟨-, lock', hlock, -⟩ := h.lockThere hrun husable
    exact ⟨lock', hlock,
      (ReachableBy.locking h hrun).2.owner _ _ _ hlock (hin.sound.holds _ _ hl hinside)⟩

/-- The process has kept the contract and has not crashed, and when one of the objects has been
destroyed, the code is finished. -/
structure Keeping (c : Client S L) (uses : Fn → Prop) (spent : L → Prop) (p : Process S L) :
    Prop where
  contract : ReachableBy Contract p.machine
  healthy : Healthy p.machine
  finished : ¬ Stopped p.machine → Disposed uses p.machine.trace →
    c.Finished spent p.locals p.machine.trace

/-- The current thread is spent when one of the objects has been destroyed. -/
lemma Keeping.spent_current (h : c.Keeping uses spent p) (hrun : ¬ Stopped p.machine) {x : Local L}
    (hx : p.locals p.machine.currentThread = some x) (hdisposed : Disposed uses p.machine.trace) :
    Spent spent x := by
  obtain ⟨h0, h1⟩ := (ReachableBy.base h.contract hrun).valid.current
  exact (h.finished hrun hdisposed _ h0 h1).1 x hx

/-- A step of the machine in a process that keeps the contract.

**Proof sketch.** A call by a thread of the code keeps the contract by the proof outline
(`call_contract`), a call by another thread since it is courteous. So the step is under the contract
and does not crash. The objects are destroyed by other threads only, once the code is finished, and
from then on nobody starts it. -/
lemma Keeping.machine (h : c.Keeping uses spent p) (ht : Tame O uses spent)
    (hin : InStep O p.locals p.shared p.machine.trace)
    (hok : c.Courteous uses spent p (.machine a)) (hs : c.step p (.machine a) = some p') :
    c.Keeping uses spent p' := by
  have hrun := not_stopped hs
  have hreach : UserThreads.Reachable p.machine := h.contract.mono fun _ _ _ _ => trivial
  obtain ⟨hallows, hm, -, -⟩ := step_machine hs
  -- a thread that runs the code is at the call that it makes
  have hknown {f : Fn} (ha : a = .call f) {x : Local L}
      (hx : p.locals p.machine.currentThread = some x) :
      ∃ l next, x = .ready l ∧ c.code l = .call f next := by
    subst ha
    rw [allows, hx] at hallows
    exact Local.next_eq (by simpa using hallows)
  have hcontract : Contract p.machine a := by
    cases a with
    | exec | tick => trivial
    | call f =>
      cases hx : p.locals p.machine.currentThread with
      | none => exact (hok hx).1
      | some x =>
        obtain ⟨l, next, rfl, hcode⟩ := hknown rfl hx
        rw [UserThreads.step] at hm
        split_ifs at hm with hcond
        exact ht.call_contract hin h.contract hcond.1 hcond.2 hx hcode (h.spent_current hrun hx)
  refine ⟨h.contract.step hcontract hm, hcontract.step_healthy h.contract hm,
    fun hrun' hdisposed => ?_⟩
  -- other threads destroy the objects, when the code is finished, and then create none for it
  have hnone {f : Fn} (ha : a = .call f) (hf : ∀ owns, ¬ f.Tame lock owns) :
      p.locals p.machine.currentThread = none := by
    cases hx : p.locals p.machine.currentThread with
    | none => rfl
    | some x =>
      obtain ⟨l, next, rfl, hcode⟩ := hknown ha hx
      exact (hf _ (ht.call l f next hcode).1).elim
  obtain hold | ⟨f, rfl, hf⟩ := disposed_step hreach hs hrun' hdisposed
  · refine (h.finished hrun hold).machine ht.lasts hreach hs hrun' fun fn parg ha => ?_
    by_contra hentry
    subst ha
    exact (hok (hnone rfl fun _ htame => htame)).2.2 (Option.isSome_iff_ne_none.mpr hentry) hold
  · have hdestroys := (ht.objects f hf).1
    have hcourteous := hok (hnone rfl fun _ htame => hdestroys htame.destroys)
    refine (hcourteous.2.1 hf).machine ht.lasts hreach hs hrun' fun fn parg ha => ?_
    cases ha
    exact (hdestroys rfl).elim

/-- An instruction of the current thread does not fail.

**Proof sketch.** An instruction does not touch the library, and its assertions hold by the proof
outline (`passes`). Spent code stays spent (`Tame.lasts`). -/
lemma Keeping.run (h : c.Keeping uses spent p) (ht : Tame O uses spent)
    (hin : InStep O p.locals p.shared p.machine.trace) {b : Bool}
    (hs : c.step p (.run b) = some p') : c.Keeping uses spent p' := by
  have hrun := not_stopped hs
  have hreach : UserThreads.Reachable p.machine := h.contract.mono fun _ _ _ _ => trivial
  obtain ⟨hcontrol, l, hl, hcode⟩ := step_run hs
  have hlasts := ht.lasts l
  have hgoOn (s : S) (l' : L) (hspent : spent l → spent l') :
      c.Keeping uses spent (goOn p s l') := by
    refine ⟨h.contract, h.healthy, fun _ hdisposed t h0 h1 => ?_⟩
    obtain ⟨hold, hstart⟩ := h.finished hrun hdisposed t h0 h1
    refine ⟨fun x hx => ?_, hstart⟩
    by_cases ht : t = p.machine.currentThread
    · subst ht
      obtain rfl : .ready l' = x := by simpa [goOn] using hx
      exact hspent (h.spent_current hrun hl hdisposed)
    · exact hold x (by simpa [goOn, ht] using hx)
  split at hcode
  · next f heq =>
    rw [heq] at hlasts
    exact hcode ▸ hgoOn _ _ fun hspent => hlasts hspent _
  · next q next heq =>
    obtain ⟨-, hpass⟩ := hin.passes hreach hcontrol hl heq
    rw [heq] at hlasts
    rw [if_pos hpass] at hcode
    exact hcode ▸ hgoOn _ _ hlasts
  · next next heq =>
    rw [heq] at hlasts
    exact hcode ▸ hgoOn _ _ fun hspent => hlasts hspent _
  · exact hcode.elim

/-- **The process keeps the contract** if the threads of arbitrary code are courteous.

**Proof sketch.** Induction on the run, with the proof outline alongside (`Reachable.sound`): a move
of the machine is `Keeping.machine`, an instruction is `Keeping.run`. -/
theorem Tame.keeping (ht : Tame O uses spent)
    (h : Runs.Reachable c.step (c.Courteous uses spent) (Initial s₀) p) (hinit : O.resource s₀)
    (hfits : Always (Fits O) p.machine.trace) : c.Keeping uses spent p := by
  induction h with
  | init h =>
    obtain ⟨g, rfl⟩ := h
    refine ⟨.init ⟨g, rfl⟩, rfl, fun _ hdisposed => ?_⟩
    obtain ⟨e, he, -⟩ := hdisposed
    cases he
  | @step p p' move hp hok hs ih =>
    have hrun := not_stopped hs
    have hp' : c.Reachable s₀ p := hp.mono fun _ _ _ _ => trivial
    obtain ⟨es, htrace⟩ := step_trace ((Reachable.machine hp').resolve_left hrun) hs
    have hfits' := (Always.since (htrace ▸ hfits)).2
    have hin := (hp'.sound hinit hfits').1 hrun
    cases move with
    | machine a => exact (ih hfits').machine ht hin hok hs
    | run b => exact (ih hfits').run ht hin hs

end Client

/-- The state after a list of possible moves of courteous threads. -/
lemma Client.courteous_after {S L : Type} {c : Client S L} {uses : Fn → Prop} {spent : L → Prop}
    [∀ p move, Decidable (c.Courteous uses spent p move)] {s₀ : S} {garbage : ℤ} {moves : List Move}
    (h : (Runs.followOk c.step (c.Courteous uses spent) ⟨threadInit garbage, fun _ => none, s₀⟩
      moves).isSome = true) :
    Runs.Reachable c.step (c.Courteous uses spent) (Client.Initial s₀)
      (c.after s₀ garbage moves) := by
  obtain ⟨p, hp⟩ := Option.isSome_iff_exists.mp h
  rw [Client.after, Runs.follow_of_followOk hp]
  exact Runs.Reachable.followOk (.init ⟨garbage, rfl⟩) hp

/-! ## The tests -/

/-- What the lock test uses. -/
def TestLock.Uses (lock : Addr) (o : Fn) : Prop := o = .lockDestroy lock

instance (lock : Addr) : DecidablePred (TestLock.Uses lock) := fun _ =>
  inferInstanceAs (Decidable (_ = _))

/-- A test thread that is about to return. -/
def TestLock.Thread.Finished (l : TestLock.Thread) : Prop := l.point = .finish

instance : DecidablePred TestLock.Thread.Finished := fun _ => inferInstanceAs (Decidable (_ = _))

/-- The calls of `test_lock_thread`. -/
lemma TestLock.tame {fn : ℕ} (hlock : lock ≠ NULL) :
    Client.Tame (c := testLockThread fn lock) (TestLock.outline lock) (TestLock.Uses lock)
      TestLock.Thread.Finished where
  call l f next hcode := by
    have huses (o : Fn) (ho : o ∈ [Fn.lockDestroy lock]) : TestLock.Uses lock o :=
      List.mem_singleton.mp ho
    obtain ⟨-, rfl, -⟩ | ⟨v, -, rfl, -⟩ | ⟨hp, rfl, -⟩ | ⟨-, rfl⟩ := TestLock.code_call hcode
    · exact ⟨trivial, huses⟩
    · exact ⟨rfl, fun _ ho => (List.not_mem_nil ho).elim⟩
    · refine ⟨⟨rfl, ?_⟩, huses⟩
      show l.point.inside
      rw [hp]
      trivial
    · exact ⟨trivial, fun _ ho => (List.not_mem_nil ho).elim⟩
  objects o ho := by
    obtain rfl : o = .lockDestroy lock := ho
    exact ⟨by simp [Fn.destroys], by simpa [Fn.destroys] using hlock⟩
  lasts l hl := by
    obtain ⟨num, i, j, point⟩ := l
    obtain rfl : point = .finish := hl
    exact ⟨rfl, fun _ => rfl⟩

/-- **The lock test does not crash**: in every run in which the other threads keep the contract of
the library, and destroy `testlock` only when every live test thread is about to return, no
assertion fails, neither of the test nor of the library. `malloc369` is taken not to fail.

**Proof sketch.** The calls of `test_lock_thread` are tame (`TestLock.tame`): the proof outline says
that the lock is held where the code releases it. So the test threads keep the contract as well
(`Client.Tame.keeping`), and the process is healthy in every state of the run. -/
theorem test_lock_healthy {fn : ℕ} {s₀ : TestLock.Shared}
    {p : Process TestLock.Shared TestLock.Thread} (hlock : lock ≠ NULL)
    (h : Runs.Reachable (testLockThread fn lock).step
      ((testLockThread fn lock).Courteous (TestLock.Uses lock) TestLock.Thread.Finished)
      (Client.Initial s₀) p)
    (hnum : ∀ parg ∈ startedWith fn p.machine.trace, parg < 2 ^ 32) : Healthy p.machine :=
  ((TestLock.tame hlock).keeping h trivial (TestLock.fits hnum)).healthy

/-- A test thread is preempted before it takes the lock; thread 0 kills it and destroys the lock. -/
theorem test_lock_healthy_destroyed :
    let run := Move.run false
    let exec := Move.machine .exec
    let p := (testLockThread 7 1).after ⟨fun _ => 0, 0, []⟩ 0
      [.machine (.call .lockCreate), exec, exec, .machine (.call (.threadCreate 7 5)),
        .machine (.call (.threadYield THREAD_ANY)), exec, run, run, run, .machine .tick, exec,
        .machine (.call (.threadKill 1)), .machine (.call (.lockDestroy 1)), exec, exec]
    p.machine.control = .user ∧ (p.machine.locks 1).isNone = true ∧ Healthy p.machine := by
  intro run exec p
  exact ⟨by decide +kernel, by decide +kernel,
    test_lock_healthy (by decide) (Client.courteous_after (by decide +kernel)) (by decide +kernel)⟩

/-- What a condition variable test uses. -/
def TestCv.Uses (lock : Addr) (cvs : TestCv.Cvs) (o : Fn) : Prop :=
  o = .lockDestroy lock ∨ ∃ k, o = .cvDestroy (cvs.wait k)

/-- A test thread that is about to return. -/
def TestCv.Thread.Finished (l : TestCv.Thread) : Prop := l.point = .finish

instance : DecidablePred TestCv.Thread.Finished := fun _ => inferInstanceAs (Decidable (_ = _))

/-- The calls of `test_cv_signal_thread` and `test_cv_broadcast_thread`.

**Proof sketch.** The code makes five kinds of calls (`code_call`). Those that need the lock to be
held are at places inside the critical section. -/
lemma TestCv.tame {fn : ℕ} {cvs : TestCv.Cvs} (hlock : lock ≠ NULL)
    (hcvs : ∀ k, cvs.wait k ≠ NULL) :
    Client.Tame (c := testCvThread fn lock cvs) (TestCv.outline lock cvs) (TestCv.Uses lock cvs)
      TestCv.Thread.Finished where
  call l f next hcode := by
    have hinside (hp : l.point.inside l.i) : (TestCv.outline lock cvs).inside l := hp
    have hlocks (o : Fn) (ho : o ∈ [Fn.lockDestroy lock]) : TestCv.Uses lock cvs o :=
      .inl (List.mem_singleton.mp ho)
    have hboth (k : ℕ) (o : Fn) (ho : o ∈ [Fn.cvDestroy (cvs.wait k), Fn.lockDestroy lock]) :
        TestCv.Uses lock cvs o := (List.mem_cons.mp ho).elim (fun ho => .inr ⟨k, ho⟩) (hlocks o)
    obtain ⟨-, rfl, -⟩ | ⟨hp, rfl, -⟩ | ⟨turn, hp, rfl, -⟩ | ⟨hp, rfl, -⟩ | ⟨-, rfl⟩ :=
      TestCv.code_call hcode
    · exact ⟨trivial, hlocks⟩
    · exact ⟨⟨rfl, hinside (hp ▸ trivial)⟩, hboth _⟩
    · have hin : (TestCv.outline lock cvs).inside l := hinside (hp ▸ trivial)
      cases cvs <;> exact ⟨⟨rfl, hin⟩, hboth turn.toNat⟩
    · exact ⟨⟨rfl, hinside (hp ▸ trivial)⟩, hlocks⟩
    · exact ⟨trivial, fun _ ho => (List.not_mem_nil ho).elim⟩
  objects o ho := by
    rcases ho with rfl | ⟨k, rfl⟩
    · exact ⟨by simp [Fn.destroys], by simpa [Fn.destroys] using hlock⟩
    · exact ⟨by simp [Fn.destroys], by simpa [Fn.destroys] using hcvs k⟩
  lasts l hl := by
    obtain ⟨num, i, point⟩ := l
    obtain rfl : point = .finish := hl
    exact ⟨rfl, fun _ => rfl⟩

instance (lock testcv : Addr) : DecidablePred (TestCv.Uses lock (.broadcast testcv)) := fun o =>
  decidable_of_iff (o = .lockDestroy lock ∨ o = .cvDestroy testcv)
    (or_congr_right ⟨fun h => ⟨0, h⟩, fun h => h.elim fun _ h => h⟩)

end UserThreads
