import UserSpaceThreads.Lib.ProofOutline
import UserSpaceThreads.Locks
import UserSpaceThreads.Unmasked

set_option relaxedAutoImplicit false
set_option autoImplicit false

/-!
# Programs that use the library

So far user code was arbitrary. Here some threads execute known code: those that are started with
certain functions. Their code reads and writes shared variables, asserts things and calls the
library; between two of its instructions the timer may strike. All other threads are still
arbitrary, except that they do not write the shared variables.

If the code has a proof outline for one of the locks of the library, then no assertion in it fails,
in any run. That rests on the locks of the library being exclusive, on the answers of its
functions, and on the signal mask being what it was before a call.

## Main definitions

* `UserThreads.Client` — the code, and the functions that it belongs to.
* `UserThreads.Process` — a process with threads that execute this code; `UserThreads.Process.step`
  and `UserThreads.Process.Reachable` — its runs.
* `UserThreads.Process.Fails` — an assertion of the code is about to fail.

## Main results

* `UserThreads.Process.Reachable.sound` — a proof outline is sound in all runs.
* `UserThreads.Process.Reachable.passes` — no assertion fails.
-/

namespace UserThreads

open History ProofOutline

/-! ## What the history says about calls -/

/-- The functions that end their caller. -/
def Fn.exits : Fn → Bool
  | .threadExit _ => true
  | .threadReturn => true
  | _ => false

/-- A return ends the call that its thread is in; who gets a lock by it is the only one to have
it; and who exits has called `thread_exit`, or has returned to `thread_stub`. -/
def Rightly (e : Event) (tr : List Event) : Prop :=
  match e with
  | .returned t f _ => (progress t tr).fn = some f ∧
      ∀ l, f.acquires l = true → ∀ u, holds u l tr = true → u = t
  | .exited t _ => ∃ f, (progress t tr).fn = some f ∧ f.exits = true
  | _ => True

namespace View

variable {v v' : View} {l : Label}

/-- Every transaction writes returns rightly.

**Proof sketch.** By the transaction. A return is written by the thread that is in that call. If the
call takes the lock, its caller is the owner when it returns, and by `Locking` everybody who holds
the lock is the owner. -/
theorem Step.rightly (hs : Step v l v') (hlock : v.Locking) (h : Always Rightly v.trace) :
    Always Rightly v'.trace := by
  have hpush {es : List Tid} {u : Tid} {tr : List Event} (h : Always Rightly tr) :
      Always Rightly (pushTrace es u tr) := (always_pushTrace _ _ _ fun _ _ _ => trivial).mpr h
  have hbury (t : Tid) (killed : Bool) (rsp : Addr) (heap : Heap) :
      Always Rightly (v.bury t killed rsp heap).trace :=
    always_bury _ _ _ _ _ (fun _ _ _ _ => trivial) (fun _ _ _ => trivial) h
  have hback {f : Fn} {r : Ret} {tr : List Event} (h : Always Rightly tr)
      (hfn : (progress v.current tr).fn = some f) (hf : ∀ a, f.acquires a = false) :
      Always Rightly (.returned v.current f r :: tr) :=
    ⟨⟨hfn, fun a ha => by rw [hf a] at ha; cases ha⟩, h⟩
  cases hs with
  | called | started | newHalf => exact ⟨trivial, h⟩
  | discard | skip | take | give => exact h
  | create => exact hpush ⟨trivial, h⟩
  | dispatch | yieldTo => exact ⟨trivial, hpush h⟩
  | sleep | wait => exact ⟨trivial, hpush ⟨trivial, h⟩⟩
  | sleepNone => exact ⟨trivial, trivial, h⟩
  | wake => exact hpush ⟨trivial, h⟩
  | die => exact hbury ..
  | dieTo => exact ⟨trivial, hpush ⟨trivial, hbury ..⟩⟩
  | dieBack => exact ⟨trivial, hbury ..⟩
  | dropHalf => exact ⟨trivial, trivial, h⟩
  | @exit f c calls exits =>
    refine ⟨⟨f, congrArg Progress.fn calls.progress, ?_⟩, h⟩
    rcases exits with rfl | ⟨rfl, -⟩ <;> rfl
  | @returned f r alive fn done =>
    refine ⟨⟨fn, fun a ha u hu => ?_⟩, h⟩
    -- the caller is the owner, and so is everybody who holds the lock
    have howner : ∃ lock, v.locks a = some lock ∧ lock.current = v.current := by
      cases f with
      | lockAcquire b | cvWait c b =>
        obtain rfl : b = a := by simpa [Fn.acquires] using ha
        exact done
      | _ => cases ha
    obtain ⟨lock, hl, hcur⟩ := howner
    exact (hlock.owner u a lock hl hu).symm.trans hcur
  | @waitNone x _ calls =>
    have hwaited : Always Rightly (.waited v.current x :: v.trace) := ⟨trivial, h⟩
    refine hback hwaited ?_ fun _ => rfl
    simp [calls.progress]
  | newQueue calls => exact hback ⟨trivial, h⟩ (congrArg Progress.fn calls.progress) fun _ => rfl
  | newLock alive fn | newCv alive fn | dropLock alive fn | dropCv alive fn =>
    exact hback ⟨trivial, h⟩ (congrArg Progress.fn fn) fun _ => rfl
  | dropQueue calls => exact hback ⟨trivial, h⟩ (congrArg Progress.fn calls.progress) fun _ => rfl

end View

variable {m m' : Machine} {a : Action} {ok : Machine → Action → Prop} {t : Tid}

/-- Returns are right, in all runs. -/
lemma ReachableBy.rightly (h : ReachableBy ok m) (hrun : ¬ Stopped m) : Always Rightly m.trace := by
  have hview := h.view (I := fun v => (v.Life ∧ v.Pointed ∧ v.Locking) ∧ Always Rightly v.trace)
    (fun g => ?_) ?_
  · exact (hview.resolve_left hrun).2.2
  · exact ⟨⟨life_threadInit g, pointed_threadInit g, fun t l ht => (by cases ht),
      fun t l lock hl => (by cases hl), fun l lock o es hl => (by cases hl)⟩, trivial⟩
  · rintro m a v l v' - - - ⟨⟨hlife, hp, hlock⟩, hr⟩ hv hpermits hs
    exact ⟨⟨hlife.step hs, hp.step hlife (View.entitled_of_permits hpermits) hs,
      hlock.step hp hv hs⟩, hs.rightly hlock hr⟩

/-- The event is a call only if the step of the current thread is this call, and then it is the
first thing that happens. -/
def CalledBy (m : Machine) (a : Action) (e : Event) (tr : List Event) : Prop :=
  ∀ u f, e = .called u f → tr = m.trace ∧ u = m.currentThread ∧ a = .call f

/-- A call comes first in a step. -/
lemma since_calledBy (h : Runs.Path View.Step (Permits m a) (abs m) (abs m')) :
    ∃ es, m'.trace = es ++ m.trace ∧ Since (CalledBy m a) m.trace es := by
  refine h.invariant (I := fun v => ∃ es, v.trace = es ++ m.trace ∧ Since (CalledBy m a) m.trace es)
    (fun v l v' ih hp hs => ?_) ⟨[], rfl, trivial⟩
  obtain ⟨es, heq, hes⟩ := ih
  by_cases hl : ∃ f, l = .called f
  · obtain ⟨f, rfl⟩ := hl
    obtain ⟨ha, rfl, -⟩ := hp
    cases hs
    refine ⟨.called m.currentThread f :: es, congrArg _ heq, ⟨fun u g hg => ?_, hes⟩⟩
    cases hg
    exact ⟨heq.symm, rfl, ha⟩
  · obtain ⟨es', heq', hes'⟩ := hs.writes
    refine ⟨es' ++ es, by rw [heq', heq, List.append_assoc], hes.append fun e he tr u f hf => ?_⟩
    have hwrites := hes' e he
    rw [hf] at hwrites
    exact (hl ⟨f, hwrites.2⟩).elim

/-- The arguments of the threads that have been started with the function `fn`, newest first. -/
def startedWith (fn : ℕ) (tr : List Event) : List ℕ :=
  tr.filterMap fun
    | .started _ f parg => if f = fn then some parg else none
    | _ => none

/-- No thread is killed while it has the lock. -/
def KilledFree (lock : Addr) (e : Event) (tr : List Event) : Prop :=
  match e with
  | .killed t => holds t lock tr = false
  | _ => True

instance (lock : Addr) (e : Event) (tr : List Event) : Decidable (KilledFree lock e tr) := by
  cases e <;> unfold KilledFree <;> infer_instance

/-- The argument of a thread that has been started. -/
lemma mem_startedWith {tr : List Event} {fn parg : ℕ} (h : .started t fn parg ∈ tr) :
    parg ∈ startedWith fn tr :=
  List.mem_filterMap.mpr ⟨_, h, if_pos rfl⟩

/-! ## Processes with threads of known code -/

/-- Code of threads that use the library, and the functions that it belongs to. -/
structure Client (S L : Type) where
  code : Code Bool S L Fn Ret
  /-- where a thread begins that is to run `fn(parg)`, if the code is that of `fn` -/
  entry : ℕ → ℕ → Option L
  /-- the code does not change the signal mask -/
  mask : ∀ l f next, code l = .call f next → ∀ b, f ≠ .interruptsSet b

/-- How a lock is used. -/
def lockUsage (lock : Addr) : Usage Fn where
  acquires := Fn.acquires lock
  releases := Fn.releases lock
  ends := Fn.exits
  acquires_of_ends f hf := by
    cases f <;> first | rfl | cases hf

/-- A process some of whose threads run known code, with the variables that they share. -/
structure Process (S L : Type) where
  machine : Machine
  locals : Tid → Option (Local L)
  shared : S

/-- A step of a process: a step of the machine, or an instruction of the current thread between
two calls of the library, for which the environment makes a choice. -/
inductive Move
  | machine (a : Action)
  | run (b : Bool)
  deriving DecidableEq, Repr

namespace Client

variable {S L : Type} (c : Client S L)

/-- What an event says about the threads. A new thread of an id does not run any code until it is
started. -/
def note : Event → Option (Note Tid L Fn Ret)
  | .called t f => some (.called t f)
  | .returned t f r => some (.returned t f r)
  | .created t _ _ => some (.ended t)
  | .started t fn parg => some (.started t (c.entry fn parg))
  | .exited t _ => some (.ended t)
  | .killed t => some (.ended t)
  | _ => none

/-- The local states after an event. -/
def heed (e : Event) (ls : Tid → Option (Local L)) : Tid → Option (Local L) :=
  match c.note e with
  | none => ls
  | some n => n.heed c.code ls

/-- The events of a step. -/
def news (m m' : Machine) : List Event := m'.trace.take (m'.trace.length - m.trace.length)

/-- A thread with known code makes only the call that it has come to. -/
def allows (p : Process S L) : Action → Bool
  | .call f =>
    match p.locals p.machine.currentThread with
    | none => true
    | some x => x.next c.code = some f
  | _ => true

/-- The current thread goes on in the local state `l`. -/
def goOn (p : Process S L) (s : S) (l : L) : Process S L :=
  { p with
    shared := s
    locals := Function.update p.locals p.machine.currentThread (some (.ready l)) }

/-- One step of the process. -/
def step (p : Process S L) : Move → Option (Process S L)
  | .machine a =>
    if c.allows p a then
      (UserThreads.step p.machine a).map fun m' =>
        { p with machine := m', locals := (news p.machine m').foldr c.heed p.locals }
    else none
  | .run b =>
    if p.machine.control = .user then
      match p.locals p.machine.currentThread with
      | some (.ready l) =>
        match c.code l with
        | .step f => some (goOn p (f p.shared).1 (f p.shared).2)
        | .check q next =>
          if q p.machine.interrupts p.shared then some (goOn p p.shared next)
          else some { p with machine := p.machine.abort }
        | .choose next => some (goOn p p.shared (next b))
        | .call _ _ => none
      | _ => none
    else none

/-- At the start nobody runs the code yet. -/
def Initial (s : S) (p : Process S L) : Prop := ∃ g, p = ⟨threadInit g, fun _ => none, s⟩

/-- The states of the runs of a process in which the shared variables are `s` at first. -/
abbrev Reachable (s : S) : Process S L → Prop := Runs.Reachable c.step (fun _ _ => True) (Initial s)

/-- The current thread is about to execute an assertion, which will fail. -/
def Fails (p : Process S L) : Prop :=
  p.machine.control = .user ∧ ∃ l q next,
    p.locals p.machine.currentThread = some (.ready l) ∧ c.code l = .check q next ∧
      q p.machine.interrupts p.shared = false

/-- The threads and who has the lock, according to the history. -/
def config (lock : Addr) (ls : Tid → Option (Local L)) (s : S) (tr : List Event) : Config Tid S L :=
  ⟨ls, s, fun t => holds t lock tr⟩

/-- An event seen from the code. -/
lemma config_heed (lock : Addr) (e : Event) (ls : Tid → Option (Local L)) (s : S)
    (tr : List Event) : config lock (c.heed e ls) s (e :: tr) =
      match c.note e with
      | none => config lock ls s tr
      | some n => (config lock ls s tr).note c.code (lockUsage lock) n := by
  cases e <;> rfl

/-! ## The local states and the history -/

/-- A thread with the local state `x` is alive and has started, is in the call that its code is
at, and has not changed the mask. -/
structure At (tr : List Event) (t : Tid) (x : Local L) : Prop where
  alive : fate t tr = some .alive
  started : (progress t tr).start = none
  fn : (progress t tr).fn = x.pending c.code
  mask : setsMask t tr = false

/-- The local states are in step with the history. -/
def Linked (ls : Tid → Option (Local L)) (tr : List Event) : Prop :=
  ∀ t x, ls t = some x → c.At tr t x

variable {c} {ls : Tid → Option (Local L)} {tr : List Event} {e : Event} {x : Local L}

/-- What happens to other threads does not matter. -/
lemma At.other (h : c.At tr t x) {n : Note Tid L Fn Ret} (he : c.note e = some n)
    (ht : t ≠ n.thread) : c.At (e :: tr) t x := by
  obtain ⟨halive, hstarted, hfn, hmask⟩ := h
  have hne {u : Tid} (hu : u = n.thread) : u ≠ t := fun heq => ht (heq.symm.trans hu)
  cases e with
  | called u f =>
    cases he
    have hu : u ≠ t := hne rfl
    refine ⟨halive, by simpa [hu] using hstarted, by simpa [hu] using hfn, ?_⟩
    cases f <;> simpa [hu] using hmask
  | returned u f r | created u f r | started u f r | exited u f | killed u =>
    cases he
    have hu : u ≠ t := hne rfl
    exact ⟨by simpa [hu] using halive, by simpa [hu] using hstarted, by simpa [hu] using hfn,
      by simpa [hu] using hmask⟩
  | _ => cases he

/-- Events that say nothing about the threads' code. -/
lemma At.quiet (h : c.At tr t x) (he : c.note e = none) : c.At (e :: tr) t x := by
  obtain ⟨halive, hstarted, hfn, hmask⟩ := h
  cases e with
  | called | returned | created | started | exited | killed => cases he
  | waited u y | halfway u y =>
    refine ⟨halive, ?_, ?_, hmask⟩
    · rw [progress]
      split_ifs <;> exact hstarted
    · rw [progress]
      split_ifs <;> exact hfn
  | _ => exact ⟨halive, hstarted, hfn, hmask⟩

/-- A thread that has not started has not changed the mask. -/
lemma setsMask_of_start (h : (progress t tr).start ≠ none) : setsMask t tr = false := by
  induction tr with
  | nil => rfl
  | cons e tr ih =>
    cases e with
    | called u f =>
      have hu : u ≠ t := fun hu => h (by simp [hu])
      have hold := ih (by simpa [hu] using h)
      cases f <;> simpa [hu] using hold
    | created u fn parg =>
      by_cases hu : u = t
      · simp [hu]
      · simpa [hu] using ih (by simpa [hu] using h)
    | started u fn parg | returned u f r =>
      have hu : u ≠ t := fun hu => h (by simp [hu])
      exact ih (by simpa [hu] using h)
    | waited u y | halfway u y =>
      refine ih fun hold => h ?_
      rw [progress]
      split_ifs <;> exact hold
    | _ => exact ih h

/-- One event.

**Proof sketch.** Only the thread of the event moves (`other`). A call takes it to the place behind
that call, a return back to its code, and a start to its first instruction; an event that is not
noted moves nobody (`quiet`). -/
lemma Linked.heed (h : c.Linked ls tr) (hlively : Lively e tr) (hright : Rightly e tr)
    (hcall : ∀ u f, e = .called u f → ∀ y, ls u = some y → y.next c.code = some f) :
    c.Linked (c.heed e ls) (e :: tr) := by
  intro t x hx
  rw [Client.heed] at hx
  cases he : c.note e with
  | none =>
    rw [he] at hx
    exact (h t x hx).quiet he
  | some n =>
    rw [he] at hx
    by_cases ht : t = n.thread
    swap
    · exact (h t x ((Note.heed_of_ne c.code ht ls).symm.trans hx)).other he ht
    subst ht
    replace hx : n.move c.code (ls n.thread) = some x := (n.heed_self c.code ls).symm.trans hx
    cases e with
    | called u f =>
      cases he
      obtain ⟨y, hy, rfl⟩ := Option.map_eq_some_iff.mp hx
      obtain ⟨l, next, rfl, hcode⟩ := Local.next_eq (hcall u f rfl y hy)
      obtain ⟨halive, -, -, hmask⟩ := h u _ hy
      refine ⟨halive, by simp [Note.thread], ?_, ?_⟩
      · simp [Note.thread, Local.enter, Local.pending, hcode]
      · cases f with
        | interruptsSet b => exact (c.mask l _ next hcode b rfl).elim
        | _ => exact hmask
    | returned u f r =>
      cases he
      obtain ⟨y, hy, rfl⟩ := Option.map_eq_some_iff.mp hx
      obtain ⟨halive, -, hfn, hmask⟩ := h u y hy
      rw [hright.1] at hfn
      obtain ⟨l, next, rfl, hcode⟩ := Local.pending_eq hfn.symm
      refine ⟨halive, by simp [Note.thread], ?_, hmask⟩
      simp [Note.thread, Local.resume, Local.pending, hcode]
    | started u fn parg =>
      cases he
      obtain ⟨l, -, rfl⟩ := Option.map_eq_some_iff.mp hx
      have hmask : setsMask u tr = false := setsMask_of_start (by rw [hlively.2]; simp)
      exact ⟨hlively.1, by simp [Note.thread], by simp [Note.thread, Local.pending], hmask⟩
    | created u fn parg | exited u fn | killed u =>
      cases he
      cases hx
    | _ => cases he

/-! ## Proof outlines -/

/-- A proof outline of the code, for one of the locks. -/
abbrev ProofFor (c : Client S L) (lock : Addr) :=
  Outline c.code (lockUsage lock) (fun interrupts => interrupts = true) Fn.Replies

variable {lock : Addr} (O : c.ProofFor lock)

/-- What the proof outline relies on: threads start where it says nothing about the shared
variables, and none is killed while it has the lock, unless that protects nothing. -/
def Fits (e : Event) (tr : List Event) : Prop :=
  match e with
  | .started _ fn parg => ∀ l, c.entry fn parg = some l → ¬ O.inside l ∧ ∀ s, O.pre l s
  | .killed t => holds t lock tr = false ∨ ∀ s, O.resource s
  | _ => True

/-- The proof outline is sound, and the local states are in step with the history. -/
structure InStep (ls : Tid → Option (Local L)) (s : S) (tr : List Event) : Prop where
  sound : Sound O (config lock ls s tr)
  linked : c.Linked ls tr

variable {O} {s : S}

/-- What is noted of an event is legitimate.

**Proof sketch.** By the event. The links between the local state of a thread and the history say
that a return answers the call which the thread is in, and that a thread which starts or is created
has no local state yet. What the outline asks of kills is `Fits`. -/
lemma InStep.legit (h : InStep O ls s tr) (hlively : Lively e tr) (hright : Rightly e tr)
    (hdoc : e.Documented) (hfits : Fits O e tr)
    (hcall : ∀ u f, e = .called u f → ∀ y, ls u = some y → y.next c.code = some f)
    {n : Note Tid L Fn Ret} (he : c.note e = some n) : O.Legit (config lock ls s tr) n := by
  -- who is not alive has no local state
  have hnone {t : Tid} (ht : fate t tr ≠ some .alive) : ls t = none := by
    cases hx : ls t with
    | none => rfl
    | some x => exact (ht (h.linked t x hx).alive).elim
  cases e with
  | called u f =>
    cases he
    exact hcall u f rfl
  | returned u f r =>
    cases he
    refine ⟨fun x hx => ?_, hdoc u f r rfl, hright.2 lock⟩
    exact (h.linked u x hx).fn.symm.trans hright.1
  | created u fn parg =>
    cases he
    intro x hx
    cases (hnone hlively).symm.trans hx
  | started u fn parg =>
    cases he
    refine ⟨?_, hfits⟩
    cases hx : ls u with
    | none => exact hx
    | some x =>
      have hstarted := (h.linked u x hx).started
      rw [hlively.2] at hstarted
      cases hstarted
  | exited u code =>
    cases he
    obtain ⟨f, hfn, hf⟩ := hright
    exact h.sound.legit_ended fun x hx => ⟨f, (h.linked u x hx).fn.symm.trans hfn, hf⟩
  | killed u =>
    cases he
    intro x hx hin
    rcases hfits with hfree | hresource
    · have hholds : holds u lock tr = true := h.sound.holds u x hx hin
      rw [hfree] at hholds
      cases hholds
    · exact hresource s
  | _ => cases he

/-- **One event.** -/
theorem InStep.heed (h : InStep O ls s tr) (hlively : Lively e tr) (hright : Rightly e tr)
    (hdoc : e.Documented) (hfits : Fits O e tr)
    (hcall : ∀ u f, e = .called u f → ∀ y, ls u = some y → y.next c.code = some f) :
    InStep O (c.heed e ls) s (e :: tr) := by
  refine ⟨?_, h.linked.heed hlively hright hcall⟩
  rw [config_heed]
  cases he : c.note e with
  | none => exact h.sound
  | some n => exact h.sound.note n (h.legit hlively hright hdoc hfits hcall he)

/-- **The events of one step.**

**Proof sketch.** Induction on the events, the oldest of which is last in the list. Each one is
`InStep.heed`, whose premises hold at the history behind it. -/
theorem InStep.events {es : List Event} (h : InStep O ls s tr)
    (hlively : Since Lively tr es) (hright : Since Rightly tr es) (hdoc : ∀ e ∈ es, e.Documented)
    (hfits : Since (Fits O) tr es) (hcall : Since (fun e tr' => ∀ u f, e = .called u f →
      tr' = tr ∧ ∀ y, ls u = some y → y.next c.code = some f) tr es) :
    InStep O (es.foldr c.heed ls) s (es ++ tr) := by
  induction es with
  | nil => exact h
  | cons e es ih =>
    have hes := ih hlively.2 hright.2 (fun x hx => hdoc x (List.mem_cons_of_mem _ hx)) hfits.2
      hcall.2
    refine hes.heed hlively.1 hright.1 (hdoc e (List.mem_cons_self ..)) hfits.1 fun u f he => ?_
    -- a call is the first event
    obtain ⟨hfirst, hnext⟩ := hcall.1 u f he
    obtain rfl : es = [] := List.append_left_eq_self.mp hfirst
    exact hnext

/-! ## Steps -/

variable {p p' : Process S L}

/-- The events of a step. -/
lemma news_eq {es : List Event} (h : m'.trace = es ++ m.trace) : news m m' = es := by
  rw [news, h]
  simp

/-- No step follows when the run is over. -/
lemma not_stopped {move : Move} (hs : c.step p move = some p') : ¬ Stopped p.machine := by
  intro hst
  cases move with
  | machine a =>
    rw [Client.step, hst.step_none] at hs
    split_ifs at hs
    cases hs
  | run b =>
    rw [Client.step] at hs
    split_ifs at hs with hcontrol
    simp [Stopped, hcontrol] at hst

/-- A step of the machine. -/
lemma step_machine (hs : c.step p (.machine a) = some p') :
    c.allows p a = true ∧ UserThreads.step p.machine a = some p'.machine ∧
      p'.shared = p.shared ∧
      p'.locals = (news p.machine p'.machine).foldr c.heed p.locals := by
  rw [Client.step] at hs
  split_ifs at hs with hallows
  obtain ⟨m', hm', rfl⟩ := Option.map_eq_some_iff.mp hs
  exact ⟨hallows, hm', rfl, rfl⟩

/-- What an instruction of the current thread does: it goes on in a new local state, or fails. -/
lemma step_run {b : Bool} (hs : c.step p (.run b) = some p') :
    p.machine.control = .user ∧
      ∃ l, p.locals p.machine.currentThread = some (.ready l) ∧
        match c.code l with
        | .step f => p' = goOn p (f p.shared).1 (f p.shared).2
        | .check q next => if q p.machine.interrupts p.shared then p' = goOn p p.shared next
            else p' = { p with machine := p.machine.abort }
        | .choose next => p' = goOn p p.shared (next b)
        | .call _ _ => False := by
  rw [Client.step] at hs
  split_ifs at hs with hcontrol
  refine ⟨hcontrol, ?_⟩
  split at hs
  · next l hl =>
    refine ⟨l, hl, ?_⟩
    cases hcode : c.code l with
    | call f next =>
      rw [hcode] at hs
      cases hs
    | check q next =>
      rw [hcode] at hs
      dsimp only at hs ⊢
      split_ifs at hs ⊢ <;> cases hs <;> rfl
    | step f | choose next =>
      rw [hcode] at hs
      cases hs
      rfl
  · cases hs

/-- The machine in a process runs as it does without the code. -/
lemma Reachable.machine {s₀ : S} (h : c.Reachable s₀ p) :
    Stopped p.machine ∨ UserThreads.Reachable p.machine := by
  induction h with
  | init h =>
    obtain ⟨g, rfl⟩ := h
    exact .inr (.init ⟨g, rfl⟩)
  | @step p p' move _ _ hs ih =>
    have hreach := ih.resolve_left (not_stopped hs)
    cases move with
    | machine a => exact .inr (hreach.step trivial (step_machine hs).2.1)
    | run b =>
      obtain ⟨-, l, -, hcode⟩ := step_run hs
      split at hcode
      · exact .inr (hcode ▸ hreach)
      · split_ifs at hcode
        · exact .inr (hcode ▸ hreach)
        · exact .inl (hcode ▸ .inl rfl)
      · exact .inr (hcode ▸ hreach)
      · exact hcode.elim

/-- The history grows. -/
lemma step_trace {move : Move} (hreach : UserThreads.Reachable p.machine)
    (hs : c.step p move = some p') : ∃ es, p'.machine.trace = es ++ p.machine.trace := by
  cases move with
  | machine a =>
    have hb := ReachableBy.base hreach (not_stopped hs)
    obtain ⟨es, heq, -⟩ := answers_step hb (step_machine hs).2.1
    exact ⟨es, heq⟩
  | run b =>
    refine ⟨[], ?_⟩
    obtain ⟨-, l, -, hcode⟩ := step_run hs
    split at hcode
    · exact hcode ▸ rfl
    · split_ifs at hcode <;> exact hcode ▸ rfl
    · exact hcode ▸ rfl
    · exact hcode.elim

/-- **A step of the machine.**

**Proof sketch.** The step of the library adds events that are documented, lively and right
(`answers_step`, `life`, `rightly`). At most its first event is a call, and that is the one which
the code of the client allows. The rest is `InStep.events`. -/
theorem InStep.machine (h : InStep O p.locals p.shared p.machine.trace)
    (hreach : UserThreads.Reachable p.machine) (hs : c.step p (.machine a) = some p')
    (hrun : ¬ Stopped p'.machine) (hfits : Always (Fits O) p'.machine.trace) :
    InStep O p'.locals p'.shared p'.machine.trace := by
  obtain ⟨hallows, hm, hshared, hlocals⟩ := step_machine hs
  have hb := ReachableBy.base hreach (not_stopped hs)
  have hreach' : UserThreads.Reachable p'.machine := hreach.step trivial hm
  have hlively : Always Lively p'.machine.trace := (ReachableBy.life hreach' hrun).2.lively
  have hright := ReachableBy.rightly hreach' hrun
  obtain ⟨es, heq, hdoc⟩ := answers_step hb hm
  obtain ⟨es', heq', hcalled⟩ := since_calledBy ((step_refines hb hm).resolve_left hrun).2
  obtain rfl : es' = es := List.append_cancel_right (heq'.symm.trans heq)
  rw [hshared, hlocals, news_eq heq]
  rw [heq] at hlively hright hfits ⊢
  refine h.events hlively.since.1 hright.since.1 hdoc hfits.since.1 ?_
  refine hcalled.mono fun e tr hcall u f he => ?_
  obtain ⟨htr, rfl, rfl⟩ := hcall u f he
  refine ⟨htr, fun y hy => ?_⟩
  rw [allows, hy] at hallows
  simpa using hallows

/-- The current thread goes on after an instruction of its own. -/
lemma InStep.goOn {l l' : L} {s : S} (h : InStep O p.locals p.shared p.machine.trace)
    (hl : p.locals p.machine.currentThread = some (.ready l))
    (hsound : Sound O ((config lock p.locals p.shared p.machine.trace).run
      p.machine.currentThread s l')) :
    InStep O (goOn p s l').locals (goOn p s l').shared (goOn p s l').machine.trace := by
  refine ⟨hsound, fun t x hx => ?_⟩
  rw [Client.goOn] at hx
  dsimp only at hx
  by_cases ht : t = p.machine.currentThread
  · subst ht
    obtain rfl : .ready l' = x := by simpa using hx
    exact ⟨(h.linked _ _ hl).alive, (h.linked _ _ hl).started, (h.linked _ _ hl).fn,
      (h.linked _ _ hl).mask⟩
  · exact h.linked t x (by simpa [ht] using hx)

/-- An assertion of the current thread does not fail: the timer signal is unblocked, as the thread
has not changed the mask. -/
lemma InStep.passes (h : InStep O p.locals p.shared p.machine.trace)
    (hreach : UserThreads.Reachable p.machine) (hcontrol : p.machine.control = .user) {l next : L}
    {q : Bool → S → Bool} (hl : p.locals p.machine.currentThread = some (.ready l))
    (hcode : c.code l = .check q next) :
    p.machine.interrupts = true ∧ q p.machine.interrupts p.shared = true := by
  have hrun : ¬ Stopped p.machine := by simp [Stopped, hcontrol]
  have hat := h.linked _ _ hl
  have hint : p.machine.interrupts = true :=
    (ReachableBy.open hreach hrun ⟨hat.alive, hat.mask⟩).unmasked hcontrol
  exact ⟨hint, h.sound.passes hl hcode hint⟩

/-- **An instruction of the current thread.**

**Proof sketch.** By the instruction: a step on the shared variables, an assertion, or a choice. The
proof outline has a rule for each (`ProofOutline.Sound.step` and the rules beside it). -/
theorem InStep.run (h : InStep O p.locals p.shared p.machine.trace)
    (hreach : UserThreads.Reachable p.machine) {b : Bool} (hs : c.step p (.run b) = some p') :
    InStep O p'.locals p'.shared p'.machine.trace := by
  obtain ⟨hcontrol, l, hl, hcode⟩ := step_run hs
  split at hcode
  · next f heq =>
    subst hcode
    exact h.goOn hl (h.sound.step hl heq)
  · next q next heq =>
    obtain ⟨hint, hpass⟩ := h.passes hreach hcontrol hl heq
    rw [if_pos hpass] at hcode
    subst hcode
    exact h.goOn hl (h.sound.check hl heq hint)
  · next next heq =>
    subst hcode
    exact h.goOn hl (h.sound.choose hl heq b)
  · exact hcode.elim

/-! ## Runs -/

/-- **A proof outline is sound** in every state of every run, if it suits the start. A run that is
over still has the shared variables of its last state.

**Proof sketch.** Induction on the run: a move of the machine is `InStep.machine`, an instruction is
`InStep.run`. -/
theorem Reachable.sound {s₀ : S} (h : c.Reachable s₀ p) (hinit : O.resource s₀)
    (hfits : Always (Fits O) p.machine.trace) :
    (¬ Stopped p.machine → InStep O p.locals p.shared p.machine.trace) ∧
      ∃ ls tr, InStep O ls p.shared tr := by
  induction h with
  | init h =>
    obtain ⟨g, rfl⟩ := h
    have hinstep : InStep O (fun _ => none) s₀ [] :=
      ⟨⟨fun t u ht => (by cases ht), fun t x hx => (by cases hx), fun t x hx => (by cases hx),
        fun _ => hinit⟩, fun t x hx => (by cases hx)⟩
    exact ⟨fun _ => hinstep, _, _, hinstep⟩
  | @step p p' move hp _ hs ih =>
    have hrun := not_stopped hs
    have hreach := (Reachable.machine hp).resolve_left hrun
    obtain ⟨es, htrace⟩ := step_trace hreach hs
    have hinstep := (ih (Always.since (htrace ▸ hfits)).2).1 hrun
    cases move with
    | machine a =>
      refine ⟨fun hrun' => hinstep.machine hreach hs hrun' hfits, p.locals, p.machine.trace, ?_⟩
      rw [(step_machine hs).2.2.1]
      exact hinstep
    | run b => exact ⟨fun _ => hinstep.run hreach hs, _, _, hinstep.run hreach hs⟩

/-- **No assertion fails**, in any run. -/
theorem Reachable.passes {s₀ : S} (h : c.Reachable s₀ p) (hinit : O.resource s₀)
    (hfits : Always (Fits O) p.machine.trace) : ¬ c.Fails p := by
  rintro ⟨hcontrol, l, q, next, hl, hcode, hq⟩
  have hrun : ¬ Stopped p.machine := by simp [Stopped, hcontrol]
  have hreach := (Reachable.machine h).resolve_left hrun
  obtain ⟨-, hpass⟩ := ((h.sound hinit hfits).1 hrun).passes hreach hcontrol hl hcode
  rw [hq] at hpass
  cases hpass

/-! ## Concrete runs -/

/-- The state after the moves `moves`, when all of them are possible. -/
def after (c : Client S L) (s₀ : S) (garbage : ℤ) (moves : List Move) : Process S L :=
  (Runs.follow c.step ⟨threadInit garbage, fun _ => none, s₀⟩ moves).getD
    ⟨threadInit garbage, fun _ => none, s₀⟩

/-- The state after a list of possible moves is reachable. -/
lemma reachable_after {s₀ : S} {garbage : ℤ} {moves : List Move}
    (h : (Runs.follow c.step ⟨threadInit garbage, fun _ => none, s₀⟩ moves).isSome = true) :
    c.Reachable s₀ (c.after s₀ garbage moves) := by
  obtain ⟨p, hp⟩ := Option.isSome_iff_exists.mp h
  rw [after, hp]
  exact Runs.Reachable.follow (.init ⟨garbage, rfl⟩) hp

end Client

end UserThreads
