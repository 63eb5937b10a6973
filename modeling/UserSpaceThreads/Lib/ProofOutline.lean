import Mathlib.Logic.Function.Basic
import Mathlib.Tactic.SplitIfs

set_option relaxedAutoImplicit false
set_option autoImplicit false

/-!
# Proof outlines of threads that share variables under a lock

Threads execute code that reads and writes shared variables, asserts things and calls a service.
Between two instructions of a thread any other thread may go on. Some calls give a lock to their
caller, some take it away. A *proof outline* gives every local state an assertion about the shared
variables, tells which local states belong to the critical section, and has an invariant for the
times at which nobody is in the critical section. The assertions of the critical section may speak
of what the lock protects; the others must not depend on it.

The service is only known by the notes that are taken of it: of calls, returns, and the start and
the end of threads. Threads whose code is not known may call it, too.

## Main definitions

* `ProofOutline.Instr`, `ProofOutline.Config` — threads and their shared variables.
* `ProofOutline.Outline` — a proof outline.
* `ProofOutline.Sound` — what holds in all states.

## Main results

* `ProofOutline.Sound.note`, `ProofOutline.Sound.step`, `ProofOutline.Sound.check`,
  `ProofOutline.Sound.choose` — the steps keep a sound state sound.
* `ProofOutline.Sound.passes` — in a sound state no assertion fails.
-/

namespace ProofOutline

variable {T E S L F R : Type*}

/-! ## Threads -/

/-- One instruction. -/
inductive Instr (E S L F R : Type*)
  /-- Read and write the shared variables, and go on. -/
  | step (f : S → S × L)
  /-- Assert something of the environment and the shared variables, and go on. -/
  | check (p : E → S → Bool) (next : L)
  /-- Go on as the environment likes. -/
  | choose (next : Bool → L)
  /-- Call the service, and go on with its answer. -/
  | call (f : F) (next : R → L)

/-- How far a thread is: before an instruction, or in the call that is its instruction. -/
inductive Local (L : Type*)
  | ready (l : L)
  | calling (l : L)
  deriving DecidableEq, Repr

/-- The code of threads in all their local states. -/
abbrev Code (E S L F R : Type*) := L → Instr E S L F R

/-- The threads whose code is known, the shared variables, and who has the lock. -/
structure Config (T S L : Type*) where
  locals : T → Option (Local L)
  shared : S
  holds : T → Bool

/-- What is seen of the service. A thread starts in a local state, if its code is known. -/
inductive Note (T L F R : Type*)
  | called (t : T) (f : F)
  | returned (t : T) (f : F) (r : R)
  | started (t : T) (l : Option L)
  | ended (t : T)

/-- Which calls give the lock to their caller when they return, which take it away when they are
made, and which end the thread. -/
structure Usage (F : Type*) where
  acquires : F → Bool
  releases : F → Bool
  ends : F → Bool
  /-- a call that ends its thread does not give it the lock -/
  acquires_of_ends : ∀ f, ends f = true → acquires f = false

variable (code : Code E S L F R) (use : Usage F)

/-- A thread makes the call that is its instruction. -/
def Local.enter : Local L → Local L
  | .ready l => .calling l
  | .calling l => .calling l

/-- The call of a thread returns. -/
def Local.resume (r : R) : Local L → Local L
  | .ready l => .ready l
  | .calling l =>
    match code l with
    | .call _ next => .ready (next r)
    | _ => .calling l

/-- The call that a thread is in. -/
def Local.pending : Local L → Option F
  | .ready _ => none
  | .calling l =>
    match code l with
    | .call f _ => some f
    | _ => none

/-- The call that a thread is about to make. -/
def Local.next : Local L → Option F
  | .ready l =>
    match code l with
    | .call f _ => some f
    | _ => none
  | .calling _ => none

/-- The thread that a note is about. -/
def Note.thread : Note T L F R → T
  | .called t _ => t
  | .returned t _ _ => t
  | .started t _ => t
  | .ended t => t

variable [DecidableEq T]

/-- What a note says about the local state of its thread. -/
def Note.move : Note T L F R → Option (Local L) → Option (Local L)
  | .called _ _, x => x.map Local.enter
  | .returned _ _ r, x => x.map (Local.resume code r)
  | .started _ l, _ => l.map Local.ready
  | .ended _, _ => none

/-- What a note says about the local states. -/
def Note.heed (n : Note T L F R) (ls : T → Option (Local L)) : T → Option (Local L) :=
  Function.update ls n.thread (n.move code (ls n.thread))

/-- What a note says about the holders of the lock. -/
def Note.holds : Note T L F R → (T → Bool) → T → Bool
  | .called t f, h => fun u => if t = u ∧ use.releases f then false else h u
  | .returned t f _, h => fun u => if t = u ∧ use.acquires f then true else h u
  | .started _ _, h => h
  | .ended t, h => fun u => if t = u then false else h u

/-- The state after a note. -/
def Config.note (n : Note T L F R) (c : Config T S L) : Config T S L :=
  ⟨n.heed code c.locals, c.shared, n.holds use c.holds⟩

/-- A thread executes an instruction of its own. -/
def Config.run (t : T) (s : S) (l : L) (c : Config T S L) : Config T S L :=
  { c with shared := s, locals := Function.update c.locals t (some (.ready l)) }

/-- A note says nothing about the local states of other threads. -/
lemma Note.heed_of_ne {n : Note T L F R} {u : T} (h : u ≠ n.thread) (ls : T → Option (Local L)) :
    n.heed code ls u = ls u := Function.update_of_ne h ..

/-- The local state of its thread after a note. -/
lemma Note.heed_self (n : Note T L F R) (ls : T → Option (Local L)) :
    n.heed code ls n.thread = n.move code (ls n.thread) := Function.update_self ..

/-- A note says nothing about whether other threads have the lock. -/
lemma Note.holds_of_ne {n : Note T L F R} {u : T} (h : u ≠ n.thread) (hs : T → Bool) :
    n.holds use hs u = hs u := by
  cases n with
  | called t f | returned t f r => exact if_neg fun heq => h heq.1.symm
  | started t l => rfl
  | ended t => exact if_neg fun heq => h heq.symm

/-- The local state of the thread that has run. -/
lemma locals_run_self (t : T) (s : S) (l : L) (c : Config T S L) :
    (c.run t s l).locals t = some (.ready l) := Function.update_self ..

/-- The local states of the other threads stay. -/
lemma locals_run_of_ne {t u : T} (h : u ≠ t) (s : S) (l : L) (c : Config T S L) :
    (c.run t s l).locals u = c.locals u := Function.update_of_ne h ..

/-! ## Proof outlines -/

omit [DecidableEq T]

/-- A proof outline: the critical section, the assertions and the invariant of the lock. The
service answers as `answer` says, and the environment is as `ok` says whenever a thread executes an
instruction of its own. -/
structure Outline (ok : E → Prop) (answer : F → R → Prop) where
  inside : L → Prop
  pre : L → S → Prop
  resource : S → Prop
  /-- outside of the critical section, assertions do not depend on the shared variables -/
  stable : ∀ l s s', ¬ inside l → pre l s → pre l s'
  step : ∀ l f s, code l = .step f → pre l s →
    (inside (f s).2 ↔ inside l) ∧ pre (f s).2 (f s).1
  /-- what is written outside of the critical section is not protected by the lock -/
  free : ∀ l f s, code l = .step f → ¬ inside l → pre l s →
    (∀ l', pre l' s → pre l' (f s).1) ∧ (resource s → resource (f s).1)
  check : ∀ l p next s e, code l = .check p next → pre l s → ok e →
    p e s = true ∧ (inside next ↔ inside l) ∧ pre next s
  choose : ∀ l next s b, code l = .choose next → pre l s →
    (inside (next b) ↔ inside l) ∧ pre (next b) s
  /-- calls that do not change the lock -/
  plain : ∀ l f next s r, code l = .call f next → use.acquires f = false →
    use.releases f = false → pre l s → answer f r → (inside (next r) ↔ inside l) ∧ pre (next r) s
  /-- nobody asks for the lock who has it -/
  enter : ∀ l f next, code l = .call f next → use.acquires f = true → inside l →
    use.releases f = true
  acquire : ∀ l f next s₀ s r, code l = .call f next → use.acquires f = true → pre l s₀ →
    answer f r → resource s → inside (next r) ∧ pre (next r) s
  release : ∀ l f next s, code l = .call f next → use.releases f = true → inside l → pre l s →
    resource s
  /-- who ends in the critical section leaves it in order, as nobody else will enter it -/
  finish : ∀ l f next s, code l = .call f next → use.ends f = true → inside l → pre l s →
    resource s
  released : ∀ l f next s₀ s r, code l = .call f next → use.releases f = true →
    use.acquires f = false → pre l s₀ → answer f r → ¬ inside (next r) ∧ pre (next r) s

variable {code use} {ok : E → Prop} {answer : F → R → Prop} (O : Outline code use ok answer)

namespace Outline

/-- The thread is in the critical section, and its call, if it is in one, has not given up the
lock. -/
def Inside : Local L → Prop
  | .ready l => O.inside l
  | .calling l => O.inside l ∧ ∀ f next, code l = .call f next → use.releases f = false

/-- The assertion of a thread. In a call that changes the lock it is that of some earlier time. -/
def Pre : Local L → S → Prop
  | .ready l, s => O.pre l s
  | .calling l, s => ∃ f next, code l = .call f next ∧
      if use.acquires f ∨ use.releases f then ∃ s₀, O.pre l s₀ else O.pre l s

/-- Nobody is in the critical section. -/
def Vacant (c : Config T S L) : Prop := ∀ t x, c.locals t = some x → ¬ O.Inside x

/-- What has to be known of a note. -/
def Legit (c : Config T S L) : Note T L F R → Prop
  | .called t f => ∀ x, c.locals t = some x → x.next code = some f
  | .returned t f r => (∀ x, c.locals t = some x → x.pending code = some f) ∧ answer f r ∧
      (use.acquires f = true → ∀ u, c.holds u = true → u = t)
  | .started t l => c.locals t = none ∧ ∀ x, l = some x → ¬ O.inside x ∧ ∀ s, O.pre x s
  | .ended t => ∀ x, c.locals t = some x → O.Inside x → O.resource c.shared

end Outline

/-- What holds in all states: only one thread has the lock; the threads in the critical section
have it; the assertions hold; and so does the invariant while nobody is in the critical section. -/
structure Sound (c : Config T S L) : Prop where
  exclusive : ∀ t u, c.holds t = true → c.holds u = true → t = u
  holds : ∀ t x, c.locals t = some x → O.Inside x → c.holds t = true
  pre : ∀ t x, c.locals t = some x → O.Pre x c.shared
  resource : O.Vacant c → O.resource c.shared

/-! ## The steps -/

/-- The instruction of a thread that is about to make a call. -/
lemma Local.next_eq {x : Local L} {f : F} (h : x.next code = some f) :
    ∃ l next, x = .ready l ∧ code l = .call f next := by
  cases x with
  | calling l => cases h
  | ready l =>
    rw [Local.next] at h
    split at h
    · next g next heq =>
      obtain rfl := Option.some.inj h
      exact ⟨l, next, rfl, heq⟩
    · cases h

/-- The instruction of a thread that is in a call. -/
lemma Local.pending_eq {x : Local L} {f : F} (h : x.pending code = some f) :
    ∃ l next, x = .calling l ∧ code l = .call f next := by
  cases x with
  | ready l => cases h
  | calling l =>
    rw [Local.pending] at h
    split at h
    · next g next heq =>
      obtain rfl := Option.some.inj h
      exact ⟨l, next, rfl, heq⟩
    · cases h

namespace Outline

variable {O}

/-- A thread in a call is in the critical section if its call does not give up the lock. -/
lemma inside_calling {l : L} {f : F} {next : R → L} (hcode : code l = .call f next) :
    O.Inside (.calling l) ↔ O.inside l ∧ use.releases f = false := by
  rw [Outline.Inside, hcode]
  constructor
  · rintro ⟨hin, hrel⟩
    exact ⟨hin, hrel f next rfl⟩
  · rintro ⟨hin, hrel⟩
    refine ⟨hin, fun g next' heq => ?_⟩
    cases heq
    exact hrel

/-- A call in the critical section that does not give up the lock does not give it either. -/
lemma acquires_of_inside {l : L} {f : F} {next : R → L} (hcode : code l = .call f next)
    (hin : O.inside l) (hrel : use.releases f = false) : use.acquires f = false := by
  by_contra hacq
  rw [O.enter l f next hcode (by simpa using hacq) hin] at hrel
  cases hrel

/-- The assertion of a thread in a call. -/
lemma pre_calling {l : L} {f : F} {next : R → L} (hcode : code l = .call f next) {s : S} :
    O.Pre (.calling l) s ↔
      if use.acquires f ∨ use.releases f then ∃ s₀, O.pre l s₀ else O.pre l s := by
  rw [Outline.Pre, hcode]
  constructor
  · rintro ⟨g, next', heq, hpre⟩
    cases heq
    exact hpre
  · intro hpre
    exact ⟨f, next, rfl, hpre⟩

/-- Outside of the critical section the assertion of a thread stays true. -/
lemma Pre.stable {x : Local L} {s : S} (h : O.Pre x s) (hout : ¬ O.Inside x) (s' : S) :
    O.Pre x s' := by
  cases x with
  | ready l => exact O.stable l s s' hout h
  | calling l =>
    obtain ⟨f, next, hcode, hpre⟩ := h
    rw [inside_calling hcode] at hout
    refine (pre_calling hcode).mpr ?_
    by_cases hlock : use.acquires f ∨ use.releases f
    · rwa [if_pos hlock] at hpre ⊢
    · rw [if_neg hlock] at hpre ⊢
      refine O.stable l s s' (fun hin => hout ⟨hin, ?_⟩) hpre
      simpa using fun hrel => hlock (.inr hrel)

end Outline

namespace Sound

variable {O} {c : Config T S L}

/-- While a thread is in the critical section, no other one is. -/
lemma only (h : Sound O c) {t u : T} {x y : Local L} (hx : c.locals t = some x)
    (hin : O.Inside x) (hu : u ≠ t) (hy : c.locals u = some y) : ¬ O.Inside y :=
  fun hin' => hu (h.exclusive u t (h.holds u y hy hin') (h.holds t x hx hin))

/-- **No assertion fails** in a sound state. -/
theorem passes (h : Sound O c) {t : T} {l next : L} {p : E → S → Bool} {e : E}
    (ht : c.locals t = some (.ready l)) (hcode : code l = .check p next) (he : ok e) :
    p e c.shared = true :=
  (O.check l p next c.shared e hcode (h.pre t _ ht) he).1

/-- The invariant of the lock holds, or the assertion of a thread in the critical section. -/
lemma resource_or_inside (h : Sound O c) :
    O.resource c.shared ∨ ∃ l, O.inside l ∧ O.pre l c.shared := by
  by_cases hvacant : O.Vacant c
  · exact .inl (h.resource hvacant)
  obtain ⟨t, x, hx, hin⟩ : ∃ t x, c.locals t = some x ∧ O.Inside x := by
    simpa [Outline.Vacant] using hvacant
  have hpre := h.pre t x hx
  cases x with
  | ready l => exact .inr ⟨l, hin, hpre⟩
  | calling l =>
    obtain ⟨f, next, hcode, hf⟩ := hpre
    obtain ⟨hin, hrel⟩ := (Outline.inside_calling hcode).mp hin
    rw [if_neg (by simp [Outline.acquires_of_inside hcode hin hrel, hrel])] at hf
    exact .inr ⟨l, hin, hf⟩

variable [DecidableEq T]

/-- A thread writes shared variables and goes on, with its new assertion.

**Proof sketch.** The thread itself has its new assertion. If it is in the critical section, nobody
else is, and the assertions of threads outside do not depend on the shared variables. If it is not,
it may write only what keeps the assertions of the others and the resource. -/
lemma run (h : Sound O c) {t : T} {l l' : L} {s : S} (ht : c.locals t = some (.ready l))
    (hin : O.inside l' ↔ O.inside l) (hpre : O.pre l' s)
    (hfree : ¬ O.inside l → (∀ l₁, O.pre l₁ c.shared → O.pre l₁ s) ∧
      (O.resource c.shared → O.resource s)) : Sound O (c.run t s l') where
  exclusive := h.exclusive
  holds u x hx hinside := by
    by_cases hu : u = t
    · subst hu
      rw [locals_run_self] at hx
      cases hx
      exact h.holds u _ ht (hin.mp hinside)
    · rw [locals_run_of_ne hu] at hx
      exact h.holds u x hx hinside
  pre u x hx := by
    by_cases hu : u = t
    · subst hu
      rw [locals_run_self] at hx
      cases hx
      exact hpre
    rw [locals_run_of_ne hu] at hx
    have hold := h.pre u x hx
    by_cases hl : O.inside l
    · exact hold.stable (h.only ht hl hu hx) s
    · -- what is written outside of the critical section does not matter to others
      cases x with
      | ready l₁ => exact (hfree hl).1 l₁ hold
      | calling l₁ =>
        obtain ⟨f, next, hcode, hf⟩ := hold
        refine (Outline.pre_calling hcode).mpr ?_
        by_cases hlock : use.acquires f ∨ use.releases f
        · rwa [if_pos hlock] at hf ⊢
        · rw [if_neg hlock] at hf ⊢
          exact (hfree hl).1 l₁ hf
  resource hvacant := by
    have hl : ¬ O.inside l := fun hl =>
      hvacant t (.ready l') (locals_run_self ..) (hin.mpr hl)
    refine (hfree hl).2 (h.resource fun u x hx => ?_)
    by_cases hu : u = t
    · subst hu
      rw [ht] at hx
      cases hx
      exact hl
    · exact hvacant u x ((locals_run_of_ne hu ..).trans hx)

/-- A thread reads and writes the shared variables. -/
theorem step (h : Sound O c) {t : T} {l : L} {f : S → S × L} (ht : c.locals t = some (.ready l))
    (hcode : code l = .step f) : Sound O (c.run t (f c.shared).1 (f c.shared).2) := by
  have hpre := h.pre t _ ht
  obtain ⟨hin, hpost⟩ := O.step l f c.shared hcode hpre
  exact h.run ht hin hpost fun hl => O.free l f c.shared hcode hl hpre

/-- A thread goes on after an assertion. -/
theorem check (h : Sound O c) {t : T} {l next : L} {p : E → S → Bool} {e : E}
    (ht : c.locals t = some (.ready l)) (hcode : code l = .check p next) (he : ok e) :
    Sound O (c.run t c.shared next) := by
  obtain ⟨-, hin, hpost⟩ := O.check l p next c.shared e hcode (h.pre t _ ht) he
  exact h.run ht hin hpost fun _ => ⟨fun _ h₁ => h₁, id⟩

/-- A thread goes on as the environment likes. -/
theorem choose (h : Sound O c) {t : T} {l : L} {next : Bool → L}
    (ht : c.locals t = some (.ready l)) (hcode : code l = .choose next) (b : Bool) :
    Sound O (c.run t c.shared (next b)) := by
  obtain ⟨hin, hpost⟩ := O.choose l next c.shared b hcode (h.pre t _ ht)
  exact h.run ht hin hpost fun _ => ⟨fun _ h₁ => h₁, id⟩

/-- A note changes what is known about its thread only.

**Proof sketch.** Only the thread of the note changes its local state and what it holds, so what is
known of the others stays. If the thread leaves the critical section, it gives back the resource; if
it was not inside, the resource is what it was. -/
lemma note_of (h : Sound O c) (n : Note T L F R)
    (hexcl : (c.note code use n).holds n.thread = true → c.holds n.thread = true ∨
      ∀ u, c.holds u = true → u = n.thread)
    (hthread : ∀ x, (c.note code use n).locals n.thread = some x → O.Pre x c.shared ∧
      (O.Inside x → (c.note code use n).holds n.thread = true))
    (hleave : (∀ x, (c.note code use n).locals n.thread = some x → ¬ O.Inside x) →
      ∀ x, c.locals n.thread = some x → O.Inside x → O.resource c.shared) :
    Sound O (c.note code use n) where
  exclusive t u ht hu := by
    have hother {u : T} (hu : (c.note code use n).holds u = true) :
        u = n.thread ∨ c.holds u = true := by
      by_cases hne : u = n.thread
      · exact .inl hne
      · exact .inr (Note.holds_of_ne use hne c.holds ▸ hu)
    rcases hother ht with rfl | ht' <;> rcases hother hu with rfl | hu'
    · rfl
    · rcases hexcl ht with hold | honly
      · exact h.exclusive _ _ hold hu'
      · exact (honly u hu').symm
    · rcases hexcl hu with hold | honly
      · exact h.exclusive _ _ ht' hold
      · exact honly t ht'
    · exact h.exclusive t u ht' hu'
  holds u x hx hin := by
    by_cases hu : u = n.thread
    · subst hu
      exact (hthread x hx).2 hin
    · have hlocal : c.locals u = some x := (Note.heed_of_ne code hu c.locals).symm.trans hx
      exact (Note.holds_of_ne use hu c.holds).trans (h.holds u x hlocal hin)
  pre u x hx := by
    by_cases hu : u = n.thread
    · subst hu
      exact (hthread x hx).1
    · exact h.pre u x ((Note.heed_of_ne code hu c.locals).symm.trans hx)
  resource hvacant := by
    by_cases hin : ∃ x, c.locals n.thread = some x ∧ O.Inside x
    · obtain ⟨x, hx, hin⟩ := hin
      exact hleave (fun x hx => hvacant _ x hx) x hx hin
    · refine h.resource fun u x hx hinside => ?_
      by_cases hu : u = n.thread
      · subst hu
        exact hin ⟨x, hx, hinside⟩
      · exact hvacant u x ((Note.heed_of_ne code hu c.locals).trans hx) hinside

/-- A thread makes a call.

**Proof sketch.** A thread that calls a function which releases the lock leaves the critical section
when it makes the call, and the outline gives the resource back at that point. Any other call keeps
the assertion of its thread until it returns. -/
lemma called (h : Sound O c) {t : T} {f : F} (hlegit : O.Legit c (.called (R := R) t f)) :
    Sound O (c.note code use (.called (R := R) t f)) := by
  have hlocal : (c.note code use (.called (R := R) t f)).locals t = (c.locals t).map .enter :=
    Function.update_self ..
  have hholds : (c.note code use (.called (R := R) t f)).holds t =
      if use.releases f then false else c.holds t := by
    simp [Config.note, Note.holds]
  refine h.note_of _ (fun hh => .inl ?_) (fun x hx => ?_) fun hout x hx hin => ?_
  · rw [Note.thread, hholds] at hh
    split_ifs at hh
    exact hh
  · rw [Note.thread, hlocal] at hx
    obtain ⟨y, hy, rfl⟩ := Option.map_eq_some_iff.mp hx
    obtain ⟨l, next, rfl, hcode⟩ := Local.next_eq (hlegit y hy)
    have hpre : O.pre l c.shared := h.pre t _ hy
    refine ⟨(Outline.pre_calling hcode).mpr ?_, fun hin => ?_⟩
    · split_ifs
      · exact ⟨_, hpre⟩
      · exact hpre
    · obtain ⟨hin, hrel⟩ := (Outline.inside_calling hcode).mp hin
      rw [Note.thread, hholds, hrel]
      exact h.holds t _ hy hin
  · obtain ⟨l, next, rfl, hcode⟩ := Local.next_eq (hlegit x hx)
    have hnot := hout (.calling l) (by rw [Note.thread, hlocal]; exact congrArg _ hx)
    rw [Outline.inside_calling hcode] at hnot
    have hrel : use.releases f = true := by simpa using fun hrel => hnot ⟨hin, hrel⟩
    exact O.release l f next c.shared hcode hrel hin (h.pre t _ hx)

/-- The call of a thread returns.

**Proof sketch.** There are three kinds of calls. When a call that acquires the lock returns, no
other thread holds it, so nobody is in the critical section and the resource is there: the outline
turns it into the assertion of the thread. When one that only releases it returns, the thread is
outside. When a plain one returns, the assertion is kept and the thread stays where it was. -/
lemma returned (h : Sound O c) {t : T} {f : F} {r : R} (hlegit : O.Legit c (.returned t f r)) :
    Sound O (c.note code use (.returned t f r)) := by
  obtain ⟨hpending, hanswer, honly⟩ := hlegit
  have hlocal : (c.note code use (.returned t f r)).locals t =
      (c.locals t).map (.resume code r) := Function.update_self ..
  have hholds : (c.note code use (.returned t f r)).holds t =
      if use.acquires f then true else c.holds t := by
    simp [Config.note, Note.holds]
  -- the thread goes on in the local state that its instruction says
  have hresume {x : Local L} (hx : c.locals t = some x) : ∃ l next, x = .calling l ∧
      code l = .call f next ∧ x.resume code r = .ready (next r) := by
    obtain ⟨l, next, rfl, hcode⟩ := Local.pending_eq (hpending x hx)
    exact ⟨l, next, rfl, hcode, by rw [Local.resume, hcode]⟩
  refine h.note_of _ (fun hh => ?_) (fun x hx => ?_) fun hout x hx hin => ?_
  · rw [Note.thread, hholds] at hh
    split_ifs at hh with hacq
    · exact .inr (honly hacq)
    · exact .inl hh
  · rw [Note.thread, hlocal] at hx
    obtain ⟨y, hy, rfl⟩ := Option.map_eq_some_iff.mp hx
    obtain ⟨l, next, rfl, hcode, heq⟩ := hresume hy
    have hpre := (Outline.pre_calling hcode).mp (h.pre t _ hy)
    rw [heq, Note.thread, hholds]
    by_cases hacq : use.acquires f = true
    · -- nobody is in the critical section
      have hvacant : O.Vacant c := by
        intro u z hz hin
        obtain rfl := honly hacq u (h.holds u z hz hin)
        obtain rfl := Option.some.inj (hy.symm.trans hz)
        obtain ⟨hin, hrel⟩ := (Outline.inside_calling hcode).mp hin
        rw [Outline.acquires_of_inside hcode hin hrel] at hacq
        cases hacq
      rw [if_pos (.inl hacq)] at hpre
      obtain ⟨s₀, hs₀⟩ := hpre
      have hpost := O.acquire l f next s₀ c.shared r hcode hacq hs₀ hanswer (h.resource hvacant)
      exact ⟨hpost.2, fun _ => if_pos hacq⟩
    have hacq' : use.acquires f = false := by simpa using hacq
    rw [if_neg hacq]
    by_cases hrel : use.releases f = true
    · rw [if_pos (.inr hrel)] at hpre
      obtain ⟨s₀, hs₀⟩ := hpre
      have hpost := O.released l f next s₀ c.shared r hcode hrel hacq' hs₀ hanswer
      exact ⟨hpost.2, fun hin => (hpost.1 hin).elim⟩
    · have hrel' : use.releases f = false := by simpa using hrel
      rw [if_neg (not_or.mpr ⟨hacq, hrel⟩)] at hpre
      have hpost := O.plain l f next c.shared r hcode hacq' hrel' hpre hanswer
      refine ⟨hpost.2, fun hin => h.holds t _ hy ?_⟩
      exact (Outline.inside_calling hcode).mpr ⟨hpost.1.mp hin, hrel'⟩
  · obtain ⟨l, next, rfl, hcode, heq⟩ := hresume hx
    obtain ⟨hin, hrel⟩ := (Outline.inside_calling hcode).mp hin
    have hacq := Outline.acquires_of_inside hcode hin hrel
    have hpre := (Outline.pre_calling hcode).mp (h.pre t _ hx)
    rw [if_neg (by simp [hacq, hrel])] at hpre
    have hnot := hout (.ready (next r)) (by
      rw [Note.thread] at hx ⊢
      rw [hlocal, hx, ← heq]
      rfl)
    exact absurd ((O.plain l f next c.shared r hcode hacq hrel hpre hanswer).1.mpr hin) hnot

omit [DecidableEq T] in
/-- A thread may end in a call that ends it. -/
lemma legit_ended (h : Sound O c) {t : T} (hends : ∀ x, c.locals t = some x →
    ∃ f, x.pending code = some f ∧ use.ends f = true) :
    O.Legit c (.ended (F := F) (R := R) t) := by
  intro x hx hin
  obtain ⟨f, hpending, hf⟩ := hends x hx
  obtain ⟨l, next, rfl, hcode⟩ := Local.pending_eq hpending
  obtain ⟨hin, hrel⟩ := (Outline.inside_calling hcode).mp hin
  have hpre := (Outline.pre_calling hcode).mp (h.pre t _ hx)
  rw [if_neg (by simp [use.acquires_of_ends f hf, hrel])] at hpre
  exact O.finish l f next c.shared hcode hf hin hpre

/-- **Every legitimate note** keeps a sound state sound.

**Proof sketch.** The two notes about calls have their own lemmas. A thread that starts is outside
of the critical section, and one that ends has been outside, so neither concerns the resource. -/
theorem note (h : Sound O c) (n : Note T L F R) (hlegit : O.Legit c n) :
    Sound O (c.note code use n) := by
  cases n with
  | called t f => exact h.called hlegit
  | returned t f r => exact h.returned hlegit
  | started t l =>
    have hlocal : (c.note code use (.started (F := F) (R := R) t l)).locals t = l.map .ready :=
      Function.update_self ..
    refine h.note_of _ .inl (fun x hx => ?_) fun _ x hx => ?_
    · rw [Note.thread, hlocal] at hx
      obtain ⟨y, hy, rfl⟩ := Option.map_eq_some_iff.mp hx
      obtain ⟨hout, hpre⟩ := hlegit.2 y hy
      exact ⟨hpre _, fun hin => (hout hin).elim⟩
    · rw [Note.thread, hlegit.1] at hx
      cases hx
  | ended t =>
    have hlocal : (c.note code use (.ended (L := L) (F := F) (R := R) t)).locals t = none :=
      Function.update_self ..
    refine h.note_of _ (fun hh => ?_) (fun x hx => ?_) fun _ x hx hin => hlegit x hx hin
    · simp [Config.note, Note.holds, Note.thread] at hh
    · rw [Note.thread, hlocal] at hx
      cases hx

end Sound

end ProofOutline
