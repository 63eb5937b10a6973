import UserSpaceThreads.Blocks

set_option relaxedAutoImplicit false
set_option autoImplicit false

/-!
# No block is freed twice

If user code destroys every object once, with its own function, the library frees only blocks
that are allocated, and never the stack that the processor is executing on. For this the state
of an object is followed through the call that destroys it: it is whole until the first
`free369` of the call, and half of it is left until the second one. No other thread can be in a
call that destroys the same object.

## Main definitions

* `UserThreads.Once` — the runs in which nothing is destroyed twice.
* `UserThreads.View.Paired` — wait queues and the objects that hold them.
* `UserThreads.View.Intact` — what is not destroyed is whole.
* `UserThreads.Event.Sound` — the library frees a block that it may free.

## Main results

* `UserThreads.blocks_accounted` — the blocks, the frees and the slots of such runs.
-/

namespace UserThreads

open History (Adds)

/-! ## Histories -/

/-- The event is a call of `f`. -/
def Event.calls (f : Fn) : Event → Bool
  | .called _ g => g = f
  | _ => false

/-- User code has called `f`. -/
def Called (f : Fn) (tr : List Event) : Prop := ∃ e ∈ tr, e.calls f = true

instance (f : Fn) (tr : List Event) : Decidable (Called f tr) :=
  inferInstanceAs (Decidable (∃ e ∈ tr, e.calls f = true))

/-- User code has called `f` in the newest event or before. -/
@[simp] lemma called_cons {f : Fn} {e : Event} {tr : List Event} :
    Called f (e :: tr) ↔ e.calls f = true ∨ Called f tr := by
  simp [Called]

/-- A call that has been made has been made. -/
lemma Called.adds {f : Fn} {tr tr' : List Event} {p : Event → Prop} (h : Called f tr)
    (hadds : Adds p tr tr') : Called f tr' := by
  obtain ⟨e, he, hc⟩ := h
  exact ⟨e, hadds.mem he, hc⟩

/-- A thread that is in a call has made it. -/
lemma called_of_fn {t : Tid} {f : Fn} {tr : List Event} (hf : (progress t tr).fn = some f) :
    Called f tr := by
  induction tr with
  | nil => cases hf
  | cons e tr ih =>
    have hrest (hf : (progress t tr).fn = some f) : Called f (e :: tr) :=
      called_cons.mpr (.inr (ih hf))
    cases e with
    | called u g =>
      rw [progress] at hf
      split_ifs at hf
      · obtain rfl : g = f := by simpa using hf
        exact called_cons.mpr (.inl (by simp [Event.calls]))
      · exact hrest hf
    | waited u x | halfway u p =>
      rw [progress] at hf
      split_ifs at hf <;> exact hrest hf
    | returned u g r | created u g p | started u g p =>
      rw [progress] at hf
      split_ifs at hf
      exact hrest hf
    | _ => exact hrest hf

/-- The holder of the wait queue that the function frees first. -/
def Fn.holder : Fn → Option Owner
  | .lockDestroy a => some (.lock a)
  | .cvDestroy c => some (.cv c)
  | _ => none

/-- The function that frees the wait queue `q` of this holder. -/
def Owner.destroyer (q : Addr) : Owner → Fn
  | .user => .waitQueueDestroy q
  | .lock a => .lockDestroy a
  | .cv c => .cvDestroy c

/-- The destroy function is about an object that user code has been given. -/
def Fn.Given (tr : List Event) : Fn → Prop
  | .waitQueueDestroy q => q ≠ NULL ∧ Gave .waitQueueCreate q tr
  | .lockDestroy a => a ≠ NULL ∧ Gave .lockCreate a tr
  | .cvDestroy c => c ≠ NULL ∧ Gave .cvCreate c tr
  | _ => False

variable {f : Fn} {tr tr' : List Event}

/-- The function destroys an object, and not the null pointer. -/
lemma Fn.Given.destroys (h : f.Given tr) : f.destroys ≠ none ∧ f.destroys ≠ some NULL := by
  cases f <;> first | exact h.elim | exact ⟨by simp [Fn.destroys], by simp [Fn.destroys, h.1]⟩

/-- What user code is entitled to destroy, it has been given. -/
lemma Fn.Entitled.given (h : f.Entitled tr) (hf : f.destroys ≠ none ∧ f.destroys ≠ some NULL) :
    f.Given tr := by
  cases f with
  | waitQueueDestroy q | lockDestroy q | cvDestroy q =>
    have hq : q ≠ NULL := by simpa [Fn.destroys] using hf.2
    exact ⟨hq, h.resolve_left hq⟩
  | _ => exact (hf.1 rfl).elim

/-- Plain events give nothing. -/
lemma Fn.Given.of_plainly (h : Plainly tr tr') (hf : f.Given tr') : f.Given tr := by
  cases f with
  | waitQueueDestroy q | lockDestroy q | cvDestroy q =>
    exact ⟨hf.1, (gave_iff_of_plainly h rfl q).mp hf.2⟩
  | _ => exact hf

/-- The library frees a block that is allocated and that is not the stack it executes on, or
the null pointer. -/
def Event.Sound : Event → Prop
  | .freed p rsp live => p = NULL ∨ live = true ∧ p ≠ rsp
  | _ => True

/-! ## Runs in which nothing is destroyed twice -/

/-- Every wait queue, lock and condition variable is destroyed at most once. -/
def Once (m : Machine) : Action → Prop
  | .call f => f.destroys ≠ none ∧ f.destroys ≠ some NULL → ¬ Called f m.trace
  | _ => True

instance (m : Machine) (a : Action) : Decidable (Once m a) := by
  cases a <;> unfold Once <;> infer_instance

namespace View

variable {v v' : View} {l : Label}

/-! ## Threads in a destroy function -/

/-- The live threads that are in a destroy function in `v'` have been there in `v`. -/
def Lingers (v v' : View) : Prop :=
  ∀ t f b, fate t v'.trace = some .alive → progress t v'.trace = { fn := some f, block := b } →
    f.destroys ≠ none →
      fate t v.trace = some .alive ∧ progress t v.trace = { fn := some f, block := b }

/-- A transaction that begins no call and destroys no half of an object brings no thread into a
destroy function.

**Proof sketch.** By the transaction, first for the current thread and then for another one. A
thread comes into a destroy function by a call only, and from its first half to its second by
`dropHalf`. -/
lemma Step.lingers (hs : Step v l v') (hlife : v.Life) (hcalled : ∀ f, l ≠ .called f)
    (hhalf : ∀ p q, l ≠ .dropHalf p q) : v.Lingers v' := by
  intro t f b ht hp hf
  rcases eq_or_ne v.current t with rfl | hne
  · cases hs with
    | called => exact (hcalled _ rfl).elim
    | returned | started | waitNone | newQueue | newLock | newCv | dropQueue | dropLock | dropCv =>
      simp at hp
    | exit => simp at ht
    | @create num fn parg calls pos valid dead =>
      have hne : num ≠ v.current := fun heq => hlife.alive _ calls.alive (heq ▸ dead)
      exact ⟨calls.alive, by simpa [hne] using hp⟩
    | discard | skip | take | give => exact ⟨ht, hp⟩
    | dispatch | yieldTo | sleep | sleepNone | wake =>
      exact ⟨by simpa using ht, by simpa using hp⟩
    | wait => simp at hp
    | die dies => exact ⟨(dies.ne_of_alive ht).2, by simpa using hp⟩
    | dieTo dies => exact ⟨(dies.ne_of_alive (by simpa using ht)).2, by simpa using hp⟩
    | dieBack dies => exact ⟨(dies.ne_of_alive (by simpa using ht)).2, by simpa using hp⟩
    | newHalf calls creates =>
      simp only [emit_trace, malloc_trace, progress, if_true, calls.progress] at hp
      obtain rfl := Option.some.inj (congrArg Progress.fn hp)
      obtain ⟨rfl, -⟩ | ⟨rfl, -⟩ := creates <;> exact (hf rfl).elim
    | dropHalf => exact (hhalf _ _ rfl).elim
  · cases hs with
    | @create num fn parg calls pos valid dead =>
      have hnum : num ≠ t := by
        rintro rfl
        simp at hp
      exact ⟨by simpa [hnum] using ht, by simpa [hnum] using hp⟩
    | die dies => exact ⟨(dies.ne_of_alive ht).2, by simpa using hp⟩
    | dieTo dies => exact ⟨(dies.ne_of_alive (by simpa using ht)).2, by simpa using hp⟩
    | dieBack dies => exact ⟨(dies.ne_of_alive (by simpa using ht)).2, by simpa using hp⟩
    | _ => exact ⟨by simpa [hne] using ht, by simpa [hne] using hp⟩

/-! ## Wait queues and their holders -/

/-- Every wait queue has a holder that knows it, and is gone before its holder. -/
structure Paired (v : View) : Prop where
  held : ∀ q o es, v.queues q = some (o, es) → v.Access q o
  parted : ∀ t f p o, fate t v.trace = some .alive →
    progress t v.trace = { fn := some f, block := some p } → f.holder = some o →
      ∀ q es, v.queues q ≠ some (o, es)

/-- The holder of a wait queue holds it while nothing is made or destroyed. -/
lemma Alike.access (h : v.Alike v') {q : Addr} {o : Owner} (hq : v.Access q o) : v'.Access q o := by
  cases o with
  | user => exact (gave_iff_of_plainly h.trace rfl q).mpr hq
  | lock a =>
    obtain ⟨lock, hl, rfl⟩ := hq
    exact h.lock hl
  | cv c =>
    obtain ⟨cv, hc, hcv⟩ := hq
    exact ⟨cv, h.cvs ▸ hc, hcv⟩

/-- A holder that stays what it is holds its wait queue. -/
lemma Access.imp {q : Addr} {o : Owner} (h : v.Access q o)
    (hl : ∀ a lock, o = .lock a → v.locks a = some lock → v'.locks a = some lock)
    (hc : ∀ c cv, o = .cv c → v.cvs c = some cv → v'.cvs c = some cv)
    (ht : ∀ e ∈ v.trace, e ∈ v'.trace) : v'.Access q o := by
  cases o with
  | user =>
    obtain ⟨e, he, hg⟩ := h
    exact ⟨e, ht e he, hg⟩
  | lock a =>
    obtain ⟨lock, hlock, hq⟩ := h
    exact ⟨lock, hl a lock rfl hlock, hq⟩
  | cv c =>
    obtain ⟨cv, hcv, hq⟩ := h
    exact ⟨cv, hc c cv rfl hcv, hq⟩

/-- A function with a holder destroys something. -/
lemma destroys_of_holder {f : Fn} {o : Owner} (h : f.holder = some o) : f.destroys ≠ none := by
  cases f <;> simp [Fn.holder, Fn.destroys] at h ⊢

/-- A transaction that begins no call, destroys no half and makes no wait queue. -/
lemma Paired.next (h : v.Paired) (hlingers : v.Lingers v')
    (hqueues : ∀ q o es, v'.queues q = some (o, es) → ∃ es', v.queues q = some (o, es'))
    (hheld : ∀ q o es, v.queues q = some (o, es) → v.Access q o → v'.Access q o) : v'.Paired where
  held q o es hq := by
    obtain ⟨es', hq'⟩ := hqueues q o es hq
    exact hheld q o es' hq' (h.held q o es' hq')
  parted t f p o ht hp ho q es hq := by
    obtain ⟨ht', hp'⟩ := hlingers t f _ ht hp (destroys_of_holder ho)
    obtain ⟨es', hq'⟩ := hqueues q o es hq
    exact h.parted t f p o ht' hp' ho q es' hq'

/-- A new wait queue, of a holder that no thread is destroying. -/
lemma Paired.make (h : v.Paired) (hlingers : v.Lingers v') {o₀ : Owner}
    (hqueues : v'.queues = Function.update v.queues v.brk (some (o₀, [])))
    (hnew : v'.Access v.brk o₀) (hheld : ∀ q o, o ≠ o₀ ∨ o = .user → v.Access q o → v'.Access q o)
    (hfree : ∀ q es, o₀ ≠ .user → v.queues q ≠ some (o₀, es))
    (hnone : ∀ t f, (progress t v.trace).fn = some f → f.holder ≠ some o₀) : v'.Paired where
  held q o es hq := by
    rw [hqueues] at hq
    rcases eq_or_ne q v.brk with rfl | hne
    · obtain ⟨rfl, -⟩ : o₀ = o ∧ [] = es := by simpa using hq
      exact hnew
    · rw [Function.update_of_ne hne] at hq
      refine hheld q o ?_ (h.held q o es hq)
      rcases eq_or_ne o o₀ with rfl | ho
      · exact .inr (by_contra fun huser => hfree q es huser hq)
      · exact .inl ho
  parted t f p o ht hp ho q es hq := by
    obtain ⟨ht', hp'⟩ := hlingers t f _ ht hp (destroys_of_holder ho)
    rw [hqueues] at hq
    rcases eq_or_ne q v.brk with rfl | hne
    · obtain ⟨rfl, -⟩ : o₀ = o ∧ [] = es := by simpa using hq
      exact hnone t f (congrArg Progress.fn hp') ho
    · rw [Function.update_of_ne hne] at hq
      exact h.parted t f p o ht' hp' ho q es hq

/-- A thread in a destroy function has been given what it destroys. -/
lemma Pointed.given (hp : v.Pointed) {t : Tid} {f : Fn} (hf : (progress t v.trace).fn = some f)
    (hd : f.destroys ≠ none ∧ f.destroys ≠ some NULL) : f.Given v.trace :=
  (entitled_of_fn hp.entitled hf).given hd

/-- Nobody destroys what is only half made. -/
lemma Refers.not_holder {a : Addr} {t : Tid} (ha : v.Refers a (.half t)) (hp : v.Pointed)
    (hst : v.Stocked) (u : Tid) (f : Fn) (hf : (progress u v.trace).fn = some f) :
    f.holder ≠ some (.lock a) ∧ f.holder ≠ some (.cv a) := by
  obtain ⟨halfway, notLock, notCv⟩ := ha.of_half
  have hnull : a ≠ NULL := hst.ne_null (.half halfway notLock notCv)
  have hgiven := hp.given hf
  constructor <;> intro ho
  · cases f <;> simp only [Fn.holder, reduceCtorEq, Option.some.injEq, Owner.lock.injEq] at ho
    subst ho
    exact notLock (hgiven ⟨by simp [Fn.destroys], by simpa [Fn.destroys] using hnull⟩).2
  · cases f <;> simp only [Fn.holder, reduceCtorEq, Option.some.injEq, Owner.cv.injEq] at ho
    subst ho
    exact notCv (hgiven ⟨by simp [Fn.destroys], by simpa [Fn.destroys] using hnull⟩).2

/-- The first of the two blocks of an object is freed. -/
lemma Paired.dropHalf (h : v.Paired) {f : Fn} {p q : Addr} {heap : Heap} (calls : v.Calls f)
    {o : Owner} (ho : f.holder = some o) (hq : ∀ q' es, v.queues q' = some (o, es) → q' = q) :
    (((v.free q (v.stackStart v.current) heap).setQueue q none).emit
      (.halfway v.current p)).Paired where
  held q' o' es hq' := by
    have hold := h.held q' o' es (eq_some_of_update_none hq')
    exact hold.imp (fun _ _ _ hl => hl) (fun _ _ _ hc => hc)
      fun e he => List.mem_cons_of_mem _ (List.mem_cons_of_mem _ he)
  parted t g a o' ht hp hg q' es hq' := by
    have hq'' : v.queues q' = some (o', es) := eq_some_of_update_none hq'
    rcases eq_or_ne v.current t with rfl | hne
    · have hfn := congrArg Progress.fn hp
      obtain rfl : f = g := by simpa [calls.progress] using hfn
      obtain rfl : o = o' := Option.some.inj (ho.symm.trans hg)
      obtain rfl := hq q' es hq''
      simp at hq'
    · exact h.parted t g a o' ht (by simpa [hne] using hp) hg q' es hq''

/-- A lock is made around a new wait queue: nobody destroys it yet, and it has no other. -/
lemma Paired.newLock (h : v.Paired) (hp : v.Pointed) (hst : v.Stocked) (hlingers : v.Lingers v')
    {a : Addr} (hhalf : v.Refers a (.half v.current))
    (hqueues : v'.queues = Function.update v.queues v.brk (some (.lock a, [])))
    (hlocks : v'.locks = Function.update v.locks a (some ⟨v.brk, -1⟩)) (hcvs : v'.cvs = v.cvs)
    (hmem : ∀ e ∈ v.trace, e ∈ v'.trace) : v'.Paired := by
  refine h.make hlingers hqueues ⟨⟨v.brk, -1⟩, by simp [hlocks], rfl⟩ (fun q o ho hq => ?_)
    (fun q es _ hq => ?_) fun t f hf => (hhalf.not_holder hp hst t f hf).1
  · refine hq.imp (fun b lock hb hl => ?_) (fun _ _ _ hc => hcvs ▸ hc) hmem
    have hne : b ≠ a := by simpa [hb] using ho
    simpa [hlocks, hne] using hl
  · obtain ⟨lock, hl, -⟩ := h.held q _ es hq
    exact hhalf.of_half.2.1 (hp.locks a lock hl)

/-- A condition variable is made around a new wait queue: nobody destroys it yet, and it has no
other. -/
lemma Paired.newCv (h : v.Paired) (hp : v.Pointed) (hst : v.Stocked) (hlingers : v.Lingers v')
    {c : Addr} (hhalf : v.Refers c (.half v.current))
    (hqueues : v'.queues = Function.update v.queues v.brk (some (.cv c, [])))
    (hlocks : v'.locks = v.locks) (hcvs : v'.cvs = Function.update v.cvs c (some ⟨v.brk⟩))
    (hmem : ∀ e ∈ v.trace, e ∈ v'.trace) : v'.Paired := by
  refine h.make hlingers hqueues ⟨⟨v.brk⟩, by simp [hcvs], rfl⟩ (fun q o ho hq => ?_)
    (fun q es _ hq => ?_) fun t f hf => (hhalf.not_holder hp hst t f hf).2
  · refine hq.imp (fun _ _ _ hl => hlocks ▸ hl) (fun b cv hb hc => ?_) hmem
    have hne : b ≠ c := by simpa [hb] using ho
    simpa [hcvs, hne] using hc
  · obtain ⟨cv, hc, -⟩ := h.held q _ es hq
    exact hhalf.of_half.2.2 (hp.cvs c cv hc)

/-- A function is called. A thread at the beginning of a call has freed nothing. -/
lemma Paired.called (h : v.Paired) (f : Fn) : (v.emit (.called v.current f)).Paired where
  held q o es hq := (h.held q o es hq).imp (fun _ _ _ hl => hl) (fun _ _ _ hc => hc)
    fun _ he => List.mem_cons_of_mem _ he
  parted t g a o ht hg ho q es hq := by
    rcases eq_or_ne v.current t with rfl | hne
    · simp at hg
    · exact h.parted t g a o ht (by simpa [hne] using hg) ho q es hq

/-- **Every transaction keeps wait queues and their holders paired.**

**Proof sketch.** A wait queue gets its holder when it is made: user code that is given the pointer,
or the lock or the condition variable around it. `lock_destroy` and `cv_destroy` free the wait queue
first and the holder in a second step. In between the thread is behind the first `free369`, and its
object has no wait queue (`parted`), so no wait queue loses its holder in the second step. -/
theorem Paired.step (h : v.Paired) (hlife : v.Life) (hp : v.Pointed) (hst : v.Stocked)
    (hs : Step v l v') : v'.Paired := by
  have hmem (e : Event) (he : e ∈ v.trace) : e ∈ v'.trace := hs.writes.mem he
  by_cases hcalled : ∃ f, l = .called f
  · obtain ⟨f, rfl⟩ := hcalled
    cases hs with
    | called => exact h.called f
  have hlingers (hhalf : ∀ p q, l ≠ .dropHalf p q) : v.Lingers v' :=
    hs.lingers hlife (fun f hl => hcalled ⟨f, hl⟩) hhalf
  cases hmakes : l.makes with
  | false =>
    have ha := hs.alike hlife hmakes
    refine h.next (hlingers fun _ _ hl => ?_) (fun _ _ _ hq => ha.queue_of hq)
      fun _ _ _ _ hq => ha.access hq
    subst hl
    cases hmakes
  | true =>
    cases hs with
    | create | newHalf =>
      exact h.next (hlingers (by simp)) (fun _ _ es hq => ⟨es, hq⟩)
        fun _ _ _ _ hq => hq.imp (fun _ _ _ hl => hl) (fun _ _ _ hc => hc) hmem
    | die | dieTo | dieBack =>
      exact h.next (hlingers (by simp)) (fun _ _ es hq => ⟨es, by simpa using hq⟩)
        fun _ _ _ _ hq => hq.imp (fun _ _ _ hl => by simpa using hl)
          (fun _ _ _ hc => by simpa using hc) hmem
    | newQueue =>
      refine h.make (hlingers (by simp)) rfl ?_
        (fun _ _ _ hq => hq.imp (fun _ _ _ hl => hl) (fun _ _ _ hc => hc) hmem)
        (fun _ _ hne => (hne rfl).elim) fun _ g _ ho => ?_
      · exact ⟨_, List.mem_cons_self .., by simp [Event.gives]⟩
      · cases g <;> simp [Fn.holder] at ho
    | @newLock a alive fn =>
      exact h.newLock hp hst (hlingers (by simp)) (hp.making v.current .lockCreate a alive fn rfl)
        rfl rfl rfl hmem
    | @newCv c alive fn =>
      exact h.newCv hp hst (hlingers (by simp)) (hp.making v.current .cvCreate c alive fn rfl)
        rfl rfl rfl hmem
    | dropQueue =>
      exact h.next (hlingers (by simp)) (fun q o es hq => ⟨es, eq_some_of_update_none hq⟩)
        fun _ _ _ _ hq => hq.imp (fun _ _ _ hl => hl) (fun _ _ _ hc => hc) hmem
    | @dropHalf f a q heap calls destroys free =>
      obtain ⟨rfl, lock, hl, rfl⟩ | ⟨rfl, cv, hc, rfl⟩ := destroys
      · refine h.dropHalf calls (o := .lock a) rfl fun q' es hq' => ?_
        obtain ⟨lock', hl', rfl⟩ := h.held q' _ es hq'
        rw [Option.some.inj (hl.symm.trans hl')]
      · refine h.dropHalf calls (o := .cv a) rfl fun q' es hq' => ?_
        obtain ⟨cv', hc', rfl⟩ := h.held q' _ es hq'
        rw [Option.some.inj (hc.symm.trans hc')]
    | @dropLock a heap alive fn free =>
      refine h.next (hlingers (by simp)) (fun _ _ es hq => ⟨es, hq⟩) fun q o es hq hacc => ?_
      refine hacc.imp (fun b lock hb hl => ?_) (fun _ _ _ hc => hc) hmem
      have hne : b ≠ a := by
        rintro rfl
        exact h.parted v.current _ b _ alive fn rfl q es (hb ▸ hq)
      simpa [hne] using hl
    | @dropCv c heap alive fn free =>
      refine h.next (hlingers (by simp)) (fun _ _ es hq => ⟨es, hq⟩) fun q o es hq hacc => ?_
      refine hacc.imp (fun _ _ _ hl => hl) (fun b cv hb hc => ?_) hmem
      have hne : b ≠ c := by
        rintro rfl
        exact h.parted v.current _ b _ alive fn rfl q es (hb ▸ hq)
      simpa [hne] using hc
    | _ => cases hmakes

/-! ## Objects in destruction -/

/-- The object that `f` destroys is whole. -/
def Whole (v : View) : Fn → Prop
  | .waitQueueDestroy q => ∃ es, v.queues q = some (.user, es)
  | .lockDestroy a => ∃ lock es, v.locks a = some lock ∧ v.queues lock.queue = some (.lock a, es)
  | .cvDestroy c => ∃ cv es, v.cvs c = some cv ∧ v.queues cv.queue = some (.cv c, es)
  | _ => True

/-- The second block of the object that `f` destroys is there. -/
def Half (v : View) : Fn → Prop
  | .lockDestroy a => ∃ lock, v.locks a = some lock
  | .cvDestroy c => ∃ cv, v.cvs c = some cv
  | _ => True

/-- What is left of the object that `f` destroys, at the beginning of the call and behind its
first `free369`. -/
def Left (v : View) (f : Fn) : Option Addr → Prop
  | none => v.Whole f
  | some _ => v.Half f

/-- An object is whole until it is destroyed, one thread at most is destroying it, and what this
thread has not freed is there. -/
structure Intact (v : View) : Prop where
  untouched : ∀ f, f.Given v.trace → ¬ Called f v.trace → v.Whole f
  destroying : ∀ t f b, f.Given v.trace → fate t v.trace = some .alive →
    progress t v.trace = { fn := some f, block := b } → v.Left f b
  sole : ∀ t u f b c, f.Given v.trace → fate t v.trace = some .alive →
    progress t v.trace = { fn := some f, block := b } → fate u v.trace = some .alive →
      progress u v.trace = { fn := some f, block := c } → t = u

/-- A transaction that brings no thread into a destroy function. What it destroys has been
called for, and no thread is left in that call.

**Proof sketch.** An object that has not been begun to be destroyed is whole as before, or new. A
thread in a destroy function has been in it before (`hlingers`), and what is left of its object has
not been touched unless the call is over. -/
lemma Intact.next (h : v.Intact) (hp : v.Pointed) (hlingers : v.Lingers v')
    (hcalled : ∀ f, Called f v.trace → Called f v'.trace)
    (hgiven : ∀ f, f.Given v'.trace → f.Given v.trace ∨ v'.Whole f)
    (hleft : ∀ f, f.Given v.trace →
      (∀ b, v.Left f b → v'.Left f b) ∨ Called f v.trace ∧ ∀ t b, fate t v'.trace = some .alive →
        progress t v'.trace ≠ { fn := some f, block := b }) : v'.Intact := by
  have hold {t : Tid} {f : Fn} {b : Option Addr} (hf : f.Given v'.trace)
      (ht : fate t v'.trace = some .alive)
      (hg : progress t v'.trace = { fn := some f, block := b }) :
      f.Given v.trace ∧ fate t v.trace = some .alive ∧
        progress t v.trace = { fn := some f, block := b } := by
    obtain ⟨ht', hg'⟩ := hlingers t f b ht hg hf.destroys.1
    exact ⟨hp.given (congrArg Progress.fn hg') hf.destroys, ht', hg'⟩
  refine ⟨fun f hf hnot => ?_, fun t f b hf ht hg => ?_, fun t u f b c hf ht hg hu hg' => ?_⟩
  · have hnot' : ¬ Called f v.trace := fun hc => hnot (hcalled f hc)
    obtain hf' | hwhole := hgiven f hf
    · obtain hleft | ⟨hc, -⟩ := hleft f hf'
      · exact hleft none (h.untouched f hf' hnot')
      · exact (hnot' hc).elim
    · exact hwhole
  · obtain ⟨hf', ht', hg'⟩ := hold hf ht hg
    obtain hleft | ⟨-, hnone⟩ := hleft f hf'
    · exact hleft b (h.destroying t f b hf' ht' hg')
    · exact (hnone t b ht hg).elim
  · obtain ⟨hf', ht', hgt⟩ := hold hf ht hg
    obtain ⟨-, hu', hgu⟩ := hold hf hu hg'
    exact h.sole t u f b c hf' ht' hgt hu' hgu

/-- A destroy function is called, for the first time with its object.

**Proof sketch.** The caller is the first to destroy this object, which is therefore whole. A second
thread in the same call would have called the function before. -/
lemma Intact.called (h : v.Intact) {f : Fn}
    (honce : f.destroys ≠ none ∧ f.destroys ≠ some NULL → ¬ Called f v.trace) :
    (v.emit (.called v.current f)).Intact := by
  have hgiven (g : Fn) (hg : g.Given (.called v.current f :: v.trace)) : g.Given v.trace :=
    Fn.Given.of_plainly ((Adds.refl _ v.trace).cons rfl) hg
  have hself {t : Tid} {g : Fn} {b : Option Addr}
      (hg : progress t (.called v.current f :: v.trace) = { fn := some g, block := b }) :
      t = v.current ∧ f = g ∧ b = none ∨ t ≠ v.current ∧
        progress t v.trace = { fn := some g, block := b } := by
    rcases eq_or_ne v.current t with rfl | hne
    · left
      obtain ⟨hfg, hb⟩ : f = g ∧ none = b := by simpa using hg
      exact ⟨rfl, hfg, hb.symm⟩
    · right
      exact ⟨hne.symm, by simpa [hne] using hg⟩
  refine ⟨fun g hg hnot => ?_, fun t g b hg ht hp => ?_, fun t u g b c hg ht hp hu hp' => ?_⟩
  · exact h.untouched g (hgiven g hg) fun hc => hnot (called_cons.mpr (.inr hc))
  · obtain ⟨rfl, rfl, rfl⟩ | ⟨-, hp⟩ := hself hp
    · exact h.untouched f (hgiven f hg) (honce hg.destroys)
    · exact h.destroying t g b (hgiven g hg) ht hp
  · -- a second thread in the call would have called the function before
    have hnot {x : Tid} {d : Option Addr} (hfg : f = g)
        (hx : progress x v.trace = { fn := some g, block := d }) : False := by
      subst hfg
      exact honce hg.destroys (called_of_fn (congrArg Progress.fn hx))
    obtain ⟨rfl, hfg, -⟩ | ⟨-, hp⟩ := hself hp
    · obtain ⟨rfl, -, -⟩ | ⟨-, hp'⟩ := hself hp'
      · rfl
      · exact (hnot hfg hp').elim
    · obtain ⟨rfl, hfg, -⟩ | ⟨-, hp'⟩ := hself hp'
      · exact (hnot hfg hp).elim
      · exact h.sole t u g b c (hgiven g hg) ht hp hu hp'

/-- What is left of an object stays left if its blocks stay what they are.

**Proof sketch.** By the function and by how far it has come; the premises say in turn that its wait
queue, its lock and its condition variable are still there. -/
lemma Left.imp {f : Fn} {b : Option Addr} (hf : v.Left f b)
    (hq : ∀ q o es, v.queues q = some (o, es) → o.destroyer q = f →
      ∃ es', v'.queues q = some (o, es'))
    (hl : ∀ a lock, v.locks a = some lock → f = .lockDestroy a →
      ∃ lock', v'.locks a = some lock' ∧ lock'.queue = lock.queue)
    (hc : ∀ c cv, v.cvs c = some cv → f = .cvDestroy c → v'.cvs c = some cv) : v'.Left f b := by
  cases b with
  | none =>
    cases f with
    | waitQueueDestroy q =>
      obtain ⟨es, hes⟩ := hf
      exact hq q .user es hes rfl
    | lockDestroy a =>
      obtain ⟨lock, es, hlock, hes⟩ := hf
      obtain ⟨lock', hlock', heq⟩ := hl a lock hlock rfl
      obtain ⟨es', hes'⟩ := hq lock.queue (.lock a) es hes rfl
      exact ⟨lock', es', hlock', by rw [heq, hes']⟩
    | cvDestroy c =>
      obtain ⟨cv, es, hcv, hes⟩ := hf
      obtain ⟨es', hes'⟩ := hq cv.queue (.cv c) es hes rfl
      exact ⟨cv, es', hc c cv hcv rfl, hes'⟩
    | _ => trivial
  | some p =>
    cases f with
    | lockDestroy a =>
      obtain ⟨lock, hlock⟩ := hf
      obtain ⟨lock', hlock', -⟩ := hl a lock hlock rfl
      exact ⟨lock', hlock'⟩
    | cvDestroy c =>
      obtain ⟨cv, hcv⟩ := hf
      exact ⟨cv, hc c cv hcv rfl⟩
    | _ => trivial

/-- What is left stays left while nothing is made or destroyed. -/
lemma Alike.left (h : v.Alike v') {f : Fn} {b : Option Addr} (hf : v.Left f b) : v'.Left f b :=
  hf.imp (fun _ _ _ hq _ => h.queue hq) (fun _ _ hl _ => h.lock hl) fun _ _ hc _ => h.cvs ▸ hc

/-- The thread that destroys an object leaves the call, and nobody else is in it. -/
lemma Intact.closed (h : v.Intact) (hlingers : v.Lingers v') {f : Fn} {b₀ : Option Addr}
    (halive : fate v.current v.trace = some .alive)
    (hfn : progress v.current v.trace = { fn := some f, block := b₀ })
    (hout : progress v.current v'.trace = {}) (hf : f.Given v.trace) :
    Called f v.trace ∧ ∀ t b, fate t v'.trace = some .alive →
      progress t v'.trace ≠ { fn := some f, block := b } := by
  refine ⟨called_of_fn (congrArg Progress.fn hfn), fun t b ht hg => ?_⟩
  obtain ⟨ht', hg'⟩ := hlingers t f b ht hg hf.destroys.1
  obtain rfl := h.sole t v.current f b b₀ hf ht' hg' halive hfn
  rw [hout] at hg
  cases hg

/-- The first of the two blocks of an object is freed.

**Proof sketch.** No other thread is destroying this object (`sole`), so what is left of the other
objects is what was left of them before. The thread itself goes from the first block of its object
to the second, which `hhalf` says is still there. -/
lemma Intact.dropHalf (h : v.Intact) {f : Fn} {p q : Addr} {heap : Heap} (calls : v.Calls f)
    (hw : v' = ((v.free q (v.stackStart v.current) heap).setQueue q none).emit
      (.halfway v.current p)) (hf : f.Given v.trace) (hhalf : v'.Half f)
    (hleft : ∀ g b, g ≠ f → v.Left g b → v'.Left g b) : v'.Intact := by
  have htrace : v'.trace = .halfway v.current p ::
      .freed q (v.stackStart v.current) (decide (v.heap.Live q)) :: v.trace := by rw [hw]; rfl
  have hgiven (g : Fn) (hg : g.Given v'.trace) : g.Given v.trace := by
    rw [htrace] at hg
    cases g <;> first | exact hg.elim | exact ⟨hg.1, by simpa [Event.gives] using hg.2⟩
  have hfate (t : Tid) (ht : fate t v'.trace = some .alive) : fate t v.trace = some .alive := by
    rwa [htrace] at ht
  have hself {t : Tid} {g : Fn} {b : Option Addr}
      (hg : progress t v'.trace = { fn := some g, block := b }) :
      t = v.current ∧ f = g ∧ b = some p ∨ t ≠ v.current ∧
        progress t v.trace = { fn := some g, block := b } := by
    rw [htrace] at hg
    rcases eq_or_ne v.current t with rfl | hne
    · left
      obtain ⟨hfg, hb⟩ : f = g ∧ some p = b := by simpa [calls.progress] using hg
      exact ⟨rfl, hfg, hb.symm⟩
    · right
      exact ⟨hne.symm, by simpa [hne] using hg⟩
  have hsole {t : Tid} {b : Option Addr} (ht : fate t v.trace = some .alive)
      (hg : progress t v.trace = { fn := some f, block := b }) : t = v.current :=
    h.sole t v.current f b none hf ht hg calls.alive calls.progress
  refine ⟨fun g hg hnot => ?_, fun t g b hg ht hp => ?_, fun t u g b c hg ht hp hu hp' => ?_⟩
  · have hcalled : Called f v.trace := called_of_fn (congrArg Progress.fn calls.progress)
    have hnot' : ¬ Called g v.trace := fun hc => by
      rw [htrace] at hnot
      exact hnot (called_cons.mpr (.inr (called_cons.mpr (.inr hc))))
    have hne : g ≠ f := by
      rintro rfl
      exact hnot' hcalled
    exact hleft g none hne (h.untouched g (hgiven g hg) hnot')
  · obtain ⟨-, rfl, rfl⟩ | ⟨hne, hp⟩ := hself hp
    · exact hhalf
    · have hgf : g ≠ f := by
        rintro rfl
        exact hne (hsole (hfate t ht) hp)
      exact hleft g b hgf (h.destroying t g b (hgiven g hg) (hfate t ht) hp)
  · obtain ⟨rfl, rfl, -⟩ | ⟨-, hp⟩ := hself hp
    · obtain ⟨rfl, -, -⟩ | ⟨-, hp'⟩ := hself hp'
      · rfl
      · exact (hsole (hfate u hu) hp').symm
    · obtain ⟨rfl, rfl, -⟩ | ⟨-, hp'⟩ := hself hp'
      · exact hsole (hfate t ht) hp
      · exact h.sole t u g b c (hgiven g hg) (hfate t ht) hp (hfate u hu) hp'

/-- A destroy function frees its block and returns. -/
lemma plainly_destroyed {f : Fn} (hf : f.creates = false) (p rsp : Addr) (b : Bool) (r : Ret) :
    Plainly v.trace (.returned v.current f r :: .freed p rsp b :: v.trace) := by
  have hfreed : Plainly v.trace (.freed p rsp b :: v.trace) := (Adds.refl _ _).cons rfl
  refine hfreed.cons ?_
  show (!f.creates) = true
  rw [hf]
  rfl

/-- A wait queue has been made: the others stay. -/
lemma Left.newQueue {f : Fn} {b : Option Addr} (hf : v.Left f b) (hp : v.Pointed)
    (hqueues : ∀ q, q ≠ v.brk → v'.queues q = v.queues q)
    (hl : ∀ a lock, v.locks a = some lock → f = .lockDestroy a → v'.locks a = some lock)
    (hc : ∀ c cv, v.cvs c = some cv → f = .cvDestroy c → v'.cvs c = some cv) : v'.Left f b :=
  hf.imp (fun q _ es hq _ => ⟨es, (hqueues q (hp.ne_brk (.queue hq))).trans hq⟩)
    (fun a lock hlock ha => ⟨lock, hl a lock hlock ha, rfl⟩) hc

/-- What is left of an object stays left if no wait queue, lock or condition variable changes. -/
lemma Left.congr {f : Fn} {b : Option Addr} (hf : v.Left f b) (hqueues : v'.queues = v.queues)
    (hlocks : v'.locks = v.locks) (hcvs : v'.cvs = v.cvs) : v'.Left f b :=
  hf.imp (fun _ _ es hq _ => ⟨es, hqueues ▸ hq⟩) (fun _ lock hl _ => ⟨lock, hlocks ▸ hl, rfl⟩)
    fun _ _ hc _ => hcvs ▸ hc

/-- A new wait queue for user code: it is whole. -/
lemma Intact.newQueue (h : v.Intact) (hp : v.Pointed)
    (hlingers : v.Lingers ((v.newQueue .user).back .waitQueueCreate ⟨v.brk, none⟩)) :
    ((v.newQueue .user).back .waitQueueCreate ⟨v.brk, none⟩).Intact := by
  refine h.next hp hlingers (fun f hc => called_cons.mpr (.inr (called_cons.mpr (.inr hc))))
    (fun f hf => ?_) fun f _ => .inl fun b hf =>
      hf.newQueue hp (fun q hne => by simp [hne]) (fun _ _ hl _ => hl) fun _ _ hc _ => hc
  cases f with
  | waitQueueDestroy q =>
    rcases eq_or_ne v.brk q with rfl | hne
    · exact .inr ⟨[], by simp⟩
    · exact .inl ⟨hf.1, by simpa [Event.gives, hne] using hf.2⟩
  | lockDestroy a | cvDestroy a => exact .inl ⟨hf.1, by simpa [Event.gives] using hf.2⟩
  | _ => exact hf.elim

/-- A new lock: it is whole, and the other locks stay. -/
lemma Intact.newLock (h : v.Intact) (hp : v.Pointed) {a : Addr}
    (ha : ¬ Gave .lockCreate a v.trace)
    (hlingers : v.Lingers (((v.newQueue (.lock a)).setLock a (some ⟨v.brk, -1⟩)).back .lockCreate
      ⟨a, none⟩)) :
    (((v.newQueue (.lock a)).setLock a (some ⟨v.brk, -1⟩)).back .lockCreate ⟨a, none⟩).Intact := by
  refine h.next hp hlingers (fun f hc => called_cons.mpr (.inr (called_cons.mpr (.inr hc))))
    (fun f hf => ?_) fun f _ => .inl fun b hf =>
      hf.newQueue hp (fun q hne => by simp [hne]) (fun x lock hl _ => ?_) fun _ _ hc _ => hc
  · cases f with
    | lockDestroy x =>
      rcases eq_or_ne a x with rfl | hne
      · exact .inr ⟨⟨v.brk, -1⟩, [], by simp, by simp⟩
      · exact .inl ⟨hf.1, by simpa [Event.gives, hne] using hf.2⟩
    | waitQueueDestroy x | cvDestroy x => exact .inl ⟨hf.1, by simpa [Event.gives] using hf.2⟩
    | _ => exact hf.elim
  · have hne : x ≠ a := by
      rintro rfl
      exact ha (hp.locks _ lock hl)
    simpa [hne] using hl

/-- A new condition variable: it is whole, and the others stay. -/
lemma Intact.newCv (h : v.Intact) (hp : v.Pointed) {c : Addr}
    (hc : ¬ Gave .cvCreate c v.trace)
    (hlingers : v.Lingers (((v.newQueue (.cv c)).setCv c (some ⟨v.brk⟩)).back .cvCreate
      ⟨c, none⟩)) :
    (((v.newQueue (.cv c)).setCv c (some ⟨v.brk⟩)).back .cvCreate ⟨c, none⟩).Intact := by
  refine h.next hp hlingers (fun f hc => called_cons.mpr (.inr (called_cons.mpr (.inr hc))))
    (fun f hf => ?_) fun f _ => .inl fun b hf =>
      hf.newQueue hp (fun q hne => by simp [hne]) (fun _ _ hl _ => hl) fun x cv hcv _ => ?_
  · cases f with
    | cvDestroy x =>
      rcases eq_or_ne c x with rfl | hne
      · exact .inr ⟨⟨v.brk⟩, [], by simp, by simp⟩
      · exact .inl ⟨hf.1, by simpa [Event.gives, hne] using hf.2⟩
    | waitQueueDestroy x | lockDestroy x => exact .inl ⟨hf.1, by simpa [Event.gives] using hf.2⟩
    | _ => exact hf.elim
  · have hne : x ≠ c := by
      rintro rfl
      exact hc (hp.cvs _ cv hcv)
    simpa [hne] using hcv

/-- A destroy function frees its last block and returns.

**Proof sketch.** The object is gone, but it has been called for, and the only thread in the call
leaves it, so nothing is asked of the object any more. What is left of the others is left. -/
lemma Intact.destroyed (h : v.Intact) (hp : v.Pointed) (hlingers : v.Lingers v') {f : Fn}
    {b₀ : Option Addr} {p rsp : Addr} {live : Bool} {r : Ret} (hf : f.creates = false)
    (halive : fate v.current v.trace = some .alive)
    (hfn : progress v.current v.trace = { fn := some f, block := b₀ })
    (htrace : v'.trace = .returned v.current f r :: .freed p rsp live :: v.trace)
    (hleft : ∀ g b, g ≠ f → v.Left g b → v'.Left g b) : v'.Intact := by
  have hplain : Plainly v.trace v'.trace := htrace ▸ plainly_destroyed hf p rsp live r
  refine h.next hp hlingers (fun g hc => ?_) (fun g hg => .inl (hg.of_plainly hplain))
    fun g hg => ?_
  · rw [htrace]
    exact called_cons.mpr (.inr (called_cons.mpr (.inr hc)))
  · rcases eq_or_ne g f with rfl | hne
    · exact .inr (h.closed hlingers halive hfn (by simp [htrace]) hg)
    · exact .inl fun b => hleft g b hne

/-- `wait_queue_destroy` leaves the other objects as they are. -/
lemma Left.dropQueue {g : Fn} {b : Option Addr} (hleft : v.Left g b) (hp : v.Pointed)
    (hst : v.Stocked) {q : Addr} (calls : v.Calls (.waitQueueDestroy q))
    (hne : g ≠ .waitQueueDestroy q) (hqueues : v'.queues = Function.update v.queues q none)
    (hlocks : v'.locks = v.locks) (hcvs : v'.cvs = v.cvs) : v'.Left g b := by
  refine hleft.imp (fun q' o es hq' ho => ⟨es, ?_⟩) (fun _ lock hl _ => ⟨lock, hlocks ▸ hl, rfl⟩)
    fun _ _ hc _ => hcvs ▸ hc
  have hqq : q' ≠ q := by
    rintro rfl
    have hnull : q' ≠ NULL := hst.ne_null (.queue hq')
    have hentitled := entitled_of_fn hp.entitled (congrArg Progress.fn calls.progress)
    have hgave : Gave .waitQueueCreate q' v.trace := hentitled.resolve_left hnull
    obtain rfl := hp.owner_eq (o := .user) hgave hq'
    exact hne ho.symm
  rwa [hqueues, Function.update_of_ne hqq]

/-- `lock_destroy` and `cv_destroy` free the wait queue of their object only. -/
lemma Left.dropHalf {f g : Fn} {b : Option Addr} (hleft : v.Left g b) (hp : v.Pointed) {q : Addr}
    {o : Owner} (hf : f.holder = some o) (hq : v.Access q o) (hne : g ≠ f)
    (hqueues : v'.queues = Function.update v.queues q none) (hlocks : v'.locks = v.locks)
    (hcvs : v'.cvs = v.cvs) : v'.Left g b := by
  refine hleft.imp (fun q' o' es hq' ho => ⟨es, ?_⟩) (fun _ lock hl _ => ⟨lock, hlocks ▸ hl, rfl⟩)
    fun _ _ hc _ => hcvs ▸ hc
  have hqq : q' ≠ q := by
    rintro rfl
    obtain rfl := hp.owner_eq hq hq'
    apply hne
    rw [← ho]
    cases f <;> simp [Fn.holder] at hf <;> subst hf <;> rfl
  rwa [hqueues, Function.update_of_ne hqq]

/-- `lock_destroy` frees the lock, and leaves the other objects as they are. -/
lemma Left.dropLock {g : Fn} {b : Option Addr} (hleft : v.Left g b) {a : Addr}
    (hne : g ≠ .lockDestroy a) (hqueues : v'.queues = v.queues)
    (hlocks : v'.locks = Function.update v.locks a none) (hcvs : v'.cvs = v.cvs) :
    v'.Left g b := by
  refine hleft.imp (fun _ _ es hq _ => ⟨es, hqueues ▸ hq⟩) (fun x lock hl hx => ⟨lock, ?_, rfl⟩)
    fun _ _ hc _ => hcvs ▸ hc
  have hxa : x ≠ a := by
    rintro rfl
    exact hne hx
  rwa [hlocks, Function.update_of_ne hxa]

/-- `cv_destroy` frees the condition variable, and leaves the other objects as they are. -/
lemma Left.dropCv {g : Fn} {b : Option Addr} (hleft : v.Left g b) {c : Addr}
    (hne : g ≠ .cvDestroy c) (hqueues : v'.queues = v.queues) (hlocks : v'.locks = v.locks)
    (hcvs : v'.cvs = Function.update v.cvs c none) : v'.Left g b := by
  refine hleft.imp (fun _ _ es hq _ => ⟨es, hqueues ▸ hq⟩)
    (fun _ lock hl _ => ⟨lock, hlocks ▸ hl, rfl⟩) fun x cv hc hx => ?_
  have hxc : x ≠ c := by
    rintro rfl
    exact hne hx
  rwa [hcvs, Function.update_of_ne hxc]

/-- **Every transaction of a run in which nothing is destroyed twice keeps objects intact.**

**Proof sketch.** A new object is whole when user code is given it. It stays whole until its destroy
function is called, which happens once, so at most one thread is in that call; and this thread alone
frees its blocks, one after the other. When the thread returns or is killed nothing is asked of the
object any more. -/
theorem Intact.step (h : v.Intact) (hlife : v.Life) (hp : v.Pointed) (hst : v.Stocked)
    (honce : ∀ f, l = .called f →
      f.destroys ≠ none ∧ f.destroys ≠ some NULL → ¬ Called f v.trace) (hs : Step v l v') :
    v'.Intact := by
  have hcalls (f : Fn) (hc : Called f v.trace) : Called f v'.trace := hc.adds hs.writes
  by_cases hcalled : ∃ f, l = .called f
  · obtain ⟨f, rfl⟩ := hcalled
    cases hs with
    | called => exact h.called (honce f rfl)
  have hlingers (hhalf : ∀ p q, l ≠ .dropHalf p q) : v.Lingers v' :=
    hs.lingers hlife (fun f hl => hcalled ⟨f, hl⟩) hhalf
  have hplain (htrace : Plainly v.trace v'.trace) (f : Fn) (hf : f.Given v'.trace) :
      f.Given v.trace ∨ v'.Whole f := .inl (hf.of_plainly htrace)
  cases hmakes : l.makes with
  | false =>
    have ha := hs.alike hlife hmakes
    refine h.next hp (hlingers fun _ _ hl => ?_) hcalls (hplain ha.trace)
      fun f _ => .inl fun b hf => ha.left hf
    subst hl
    cases hmakes
  | true =>
    cases hs with
    | create =>
      exact h.next hp (hlingers (by simp)) hcalls
        (hplain (adds_pushTrace ((Adds.refl _ _).cons rfl) fun _ _ => rfl))
        fun f _ => .inl fun b hf => hf.congr rfl rfl rfl
    | @die t killed rsp heap =>
      exact h.next hp (hlingers (by simp)) hcalls (hplain (keeps_bury v t killed rsp heap).trace)
        fun f _ => .inl fun b hf =>
          hf.congr (View.bury_queues ..) (View.bury_locks ..) (View.bury_cvs ..)
    | @dieTo t w killed rsp heap =>
      exact h.next hp (hlingers (by simp)) hcalls
        (hplain (Adds.cons (adds_pushTrace ((keeps_bury v t killed rsp heap).trace.cons rfl)
          fun _ _ => rfl) rfl))
        fun f _ => .inl fun b hf =>
          hf.congr (View.bury_queues ..) (View.bury_locks ..) (View.bury_cvs ..)
    | @dieBack t killed rsp heap =>
      exact h.next hp (hlingers (by simp)) hcalls
        (hplain ((keeps_bury v t killed rsp heap).trace.cons rfl))
        fun f _ => .inl fun b hf =>
          hf.congr (View.bury_queues ..) (View.bury_locks ..) (View.bury_cvs ..)
    | newHalf =>
      refine h.next hp (hlingers (by simp)) hcalls (fun f hf => .inl ?_)
        fun f _ => .inl fun b hf => hf.congr rfl rfl rfl
      cases f <;> first | exact hf.elim | exact ⟨hf.1, by simpa [Event.gives] using hf.2⟩
    | newQueue => exact h.newQueue hp (hlingers (by simp))
    | @newLock a alive fn =>
      have hhalf := (hp.making v.current .lockCreate a alive fn rfl).of_half
      exact h.newLock hp hhalf.2.1 (hlingers (by simp))
    | @newCv c alive fn =>
      have hhalf := (hp.making v.current .cvCreate c alive fn rfl).of_half
      exact h.newCv hp hhalf.2.2 (hlingers (by simp))
    | dropQueue calls =>
      exact h.destroyed hp (hlingers (by simp)) rfl calls.alive calls.progress rfl
        fun g b hne hleft => hleft.dropQueue hp hst calls hne rfl rfl rfl
    | @dropHalf f a q heap calls destroys free =>
      obtain ⟨rfl, hq⟩ | ⟨rfl, hq⟩ := destroys
      · obtain ⟨lock, hl, -⟩ := id hq
        exact h.dropHalf calls rfl ⟨hst.ne_null (.lock hl), hp.locks a lock hl⟩ ⟨lock, hl⟩
          fun g b hne hleft => hleft.dropHalf hp rfl hq hne rfl rfl rfl
      · obtain ⟨cv, hc, -⟩ := id hq
        exact h.dropHalf calls rfl ⟨hst.ne_null (.cv hc), hp.cvs a cv hc⟩ ⟨cv, hc⟩
          fun g b hne hleft => hleft.dropHalf hp rfl hq hne rfl rfl rfl
    | dropLock alive fn =>
      exact h.destroyed hp (hlingers (by simp)) rfl alive fn rfl
        fun g b hne hleft => hleft.dropLock hne rfl rfl rfl
    | dropCv alive fn =>
      exact h.destroyed hp (hlingers (by simp)) rfl alive fn rfl
        fun g b hne hleft => hleft.dropCv hne rfl rfl rfl
    | _ => cases hmakes

/-! ## Frees -/

/-- A block in use can be freed: it is allocated, and it is not the stack of the current thread
unless that is what it is used for. -/
lemma Stocked.sound (h : v.Stocked) (hp : v.Pointed) (hlife : v.Life)
    (halive : fate v.current v.trace = some .alive) {p : Addr} {r : Role} (hu : v.Uses p r)
    (hr : r ≠ .stack v.current) :
    (Event.freed p (v.stackStart v.current) (decide (v.heap.Live p))).Sound := by
  refine .inr ⟨decide_eq_true ((h.live_iff p).mpr ⟨r, hu⟩), ?_⟩
  rintro rfl
  rcases eq_or_ne v.current 0 with h0 | h0
  · rw [h0] at hu
    exact h.ne_null hu h.main
  · exact hr (hu.unique (.stack h0 (hlife.alive _ halive)) hp)

/-- The stack of a thread that dies can be freed. -/
lemma Stocked.sound_bury (h : v.Stocked) (hp : v.Pointed) (hlife : v.Life) {t : Tid} {killed : Bool}
    {rsp : Addr} {heap : Heap} (hd : v.Dies t killed rsp heap) :
    Adds Event.Sound v.trace (v.bury t killed rsp heap).trace := by
  refine adds_bury v t killed rsp heap (fun h0 => ?_) trivial
  have hu : v.Uses (v.stackStart t) (.stack t) := .stack h0 hd.state
  cases killed with
  | true =>
    obtain ⟨hcalls, hne, rfl⟩ := hd.byOther rfl
    exact h.sound hp hlife hcalls.alive hu (by simpa using hne)
  | false =>
    obtain ⟨-, -, hrsp⟩ := hd.bySelf rfl
    rw [hrsp h0]
    exact .inr ⟨decide_eq_true ((h.live_iff _).mpr ⟨_, hu⟩), h.ne_null hu⟩

/-- **Every transaction of a run in which nothing is destroyed twice frees what it may free.**

**Proof sketch.** Only `bury` and the four `drop` transactions free anything. A stack that `bury`
frees is that of a dying thread (`sound_bury`). A `drop` frees a block of an object that has been
given out and not been destroyed before, so the block is allocated and is not the stack
(`Stocked.sound`), or it frees the null pointer. -/
theorem Intact.sound (h : v.Intact) (hlife : v.Life) (hp : v.Pointed) (hst : v.Stocked)
    (hs : Step v l v') : Adds Event.Sound v.trace v'.trace := by
  have hrefl := Adds.refl Event.Sound v.trace
  have hpush {es : List Tid} {u : Tid} {tr : List Event} (h : Adds Event.Sound v.trace tr) :
      Adds Event.Sound v.trace (pushTrace es u tr) := adds_pushTrace h fun _ _ => trivial
  -- a block of an object that the current thread destroys
  have hfreed {f : Fn} {b : Option Addr} {p : Addr} (halive : fate v.current v.trace = some .alive)
      (hfn : progress v.current v.trace = { fn := some f, block := b })
      (hu : f.Given v.trace → v.Left f b → ∃ r, v.Uses p r ∧ r ≠ .stack v.current)
      (hnull : ¬ f.Given v.trace → p = NULL) :
      (Event.freed p (v.stackStart v.current) (decide (v.heap.Live p))).Sound := by
    by_cases hgiven : f.Given v.trace
    · obtain ⟨r, hr, hne⟩ := hu hgiven (h.destroying v.current f b hgiven halive hfn)
      exact hst.sound hp hlife halive hr hne
    · exact .inl (hnull hgiven)
  have hentitled {f : Fn} (hf : (progress v.current v.trace).fn = some f)
      (hnot : ¬ f.Given v.trace) : f.destroys = none ∨ f.destroys = some NULL := by
    by_contra hd
    rw [not_or] at hd
    exact hnot (hp.given hf hd)
  cases hs with
  | called | returned | started | exit | newHalf => exact hrefl.cons trivial
  | @create num fn parg => exact hpush (hrefl.cons (e := .created num fn parg) trivial)
  | discard | skip | take | give => exact hrefl
  | dispatch | yieldTo => exact (hpush hrefl).cons trivial
  | @sleep f q =>
    exact (hpush (hrefl.cons (e := .slept v.current q) trivial)).cons trivial
  | @sleepNone f q =>
    exact (hrefl.cons (e := .slept v.current q) trivial).cons trivial
  | @wait x =>
    exact (hpush (hrefl.cons (e := .waited v.current x) trivial)).cons trivial
  | @waitNone x =>
    exact (hrefl.cons (e := .waited v.current x) trivial).cons trivial
  | @wake f q o o' t => exact hpush (hrefl.cons (e := .woken t q) trivial)
  | die dies => exact hst.sound_bury hp hlife dies
  | @dieTo t w killed rsp heap dies =>
    have hreleased := (hst.sound_bury hp hlife dies).cons (e := .released t w) trivial
    exact (adds_pushTrace hreleased fun _ _ => trivial).cons trivial
  | dieBack dies => exact (hst.sound_bury hp hlife dies).cons trivial
  | newQueue | newLock | newCv =>
    exact (hrefl.cons (e := .queueCreated v.brk) trivial).cons trivial
  | @dropQueue q heap calls free =>
    refine (hrefl.cons (hfreed calls.alive calls.progress (fun _ hleft => ?_) fun hnot => ?_)).cons
      trivial
    · obtain ⟨es, hq⟩ := hleft
      exact ⟨_, .queue hq, by simp⟩
    · simpa [Fn.destroys] using hentitled (congrArg Progress.fn calls.progress) hnot
  | @dropHalf f a q heap calls destroys free =>
    refine (hrefl.cons (hfreed calls.alive calls.progress (fun _ hleft => ?_) fun hnot => ?_)).cons
      trivial
    · obtain ⟨rfl, lock, hl, rfl⟩ | ⟨rfl, cv, hc, rfl⟩ := destroys
      · obtain ⟨lock', es, hl', hq⟩ := hleft
        obtain rfl : lock = lock' := Option.some.inj (hl.symm.trans hl')
        exact ⟨_, .queue hq, by simp⟩
      · obtain ⟨cv', es, hc', hq⟩ := hleft
        obtain rfl : cv = cv' := Option.some.inj (hc.symm.trans hc')
        exact ⟨_, .queue hq, by simp⟩
    · -- the holder of a wait queue is not at the null pointer
      exfalso
      obtain ⟨rfl, lock, hl, -⟩ | ⟨rfl, cv, hc, -⟩ := destroys
      · exact hnot ⟨hst.ne_null (.lock hl), hp.locks a lock hl⟩
      · exact hnot ⟨hst.ne_null (.cv hc), hp.cvs a cv hc⟩
  | @dropLock a heap alive fn free =>
    refine (hrefl.cons (hfreed alive fn (fun _ hleft => ?_) fun hnot => ?_)).cons trivial
    · obtain ⟨lock, hl⟩ := hleft
      exact ⟨_, .lock hl, by simp⟩
    · simpa [Fn.destroys] using hentitled (congrArg Progress.fn fn) hnot
  | @dropCv c heap alive fn free =>
    refine (hrefl.cons (hfreed alive fn (fun _ hleft => ?_) fun hnot => ?_)).cons trivial
    · obtain ⟨cv, hc⟩ := hleft
      exact ⟨_, .cv hc, by simp⟩
    · simpa [Fn.destroys] using hentitled (congrArg Progress.fn fn) hnot

end View

/-! ## Reachable states -/

variable {m : Machine}

/-- At the start nothing has been made. -/
lemma paired_threadInit (garbage : ℤ) : (abs (threadInit garbage)).Paired :=
  ⟨fun _ _ _ hq => (by cases hq), fun _ _ _ _ _ hp => (by cases hp)⟩

/-- At the start nothing is being destroyed. -/
lemma intact_threadInit (garbage : ℤ) : (abs (threadInit garbage)).Intact := by
  have hgiven (f : Fn) (hf : f.Given (abs (threadInit garbage)).trace) : False := by
    cases f with
    | waitQueueDestroy q | lockDestroy q | cvDestroy q =>
      obtain ⟨-, e, he, -⟩ := hf
      cases he
    | _ => exact hf
  exact ⟨fun f hf => (hgiven f hf).elim, fun _ f _ hf => (hgiven f hf).elim,
    fun _ _ f _ _ hf => (hgiven f hf).elim⟩

/-- What holds of memory in every state of a run in which nothing is destroyed twice. -/
structure View.Tidy (v : View) : Prop where
  life : v.Life
  pointed : v.Pointed
  stocked : v.Stocked
  paired : v.Paired
  intact : v.Intact
  sound : ∀ e ∈ v.trace, e.Sound

/-- The invariant of such runs. -/
theorem ReachableBy.tidy (h : ReachableBy Once m) (hrun : ¬ Stopped m) :
    Base m ∧ (abs m).Tidy := by
  refine (h.view (fun g => ⟨life_threadInit g, pointed_threadInit g, stocked_threadInit g,
    paired_threadInit g, intact_threadInit g, fun e he => by cases he⟩) ?_).resolve_left hrun
  rintro s a v l v' - - hok ⟨hlife, hp, hst, hpaired, hintact, hsound⟩ hv hperm hs
  have honce (f : Fn) (hl : l = .called f) (hf : f.destroys ≠ none ∧ f.destroys ≠ some NULL) :
      ¬ Called f v.trace := by
    subst hl
    obtain ⟨rfl, rfl, -⟩ := hperm
    exact hok hf
  exact ⟨hlife.step hs, hp.step hlife (View.entitled_of_permits hperm) hs, hst.step hlife hp hv hs,
    hpaired.step hlife hp hst hs, hintact.step hlife hp hst honce hs,
    fun e he => ((hintact.sound hlife hp hst hs).mem_or he).elim id (hsound e)⟩

/-- What `thread_create` answers in the state `m`: no id if all slots above `0` hold live
threads, and otherwise the id of a slot that holds none and is not the current one. -/
def SlotFound (m : Machine) (r : Tid) : Prop :=
  (r = THREAD_NOMORE ↔
    ∀ t, 0 < t → t < THREAD_MAX_THREADS → (m.threads t).state ≠ .Destroyed) ∧
  (r ≠ THREAD_NOMORE → isValidThread r ∧ (m.threads r).state = .Destroyed ∧ r ≠ m.currentThread)

/-- The slot that `thread_create` finds, if it finds one. -/
lemma slotFound_threadNumToCreate (hcur : (m.threads m.currentThread).state ≠ .Destroyed) :
    SlotFound m ((threadNumToCreate m).getD THREAD_NOMORE) := by
  have hcap : ((THREAD_MAX_THREADS - 1).toNat : ℤ) = 1023 := by decide
  have hmax : THREAD_MAX_THREADS = 1024 := rfl
  cases hnum : threadNumToCreate m with
  | none =>
    have hall := firstDestroyed_eq_none.mp hnum
    refine ⟨⟨fun _ t h0 h1 => hall t (by omega) (by omega), fun _ => rfl⟩,
      fun hne => (hne rfl).elim⟩
  | some num =>
    obtain ⟨hpos, hvalid, hdead⟩ := threadNumToCreate_eq_some hnum
    have hne : num ≠ THREAD_NOMORE := by
      rintro rfl
      exact absurd hpos (by decide)
    have hself : num ≠ m.currentThread := by
      rintro rfl
      exact hcur hdead
    rw [Option.getD_some]
    exact ⟨⟨fun heq => (hne heq).elim, fun hall => (hall num hpos hvalid.2 hdead).elim⟩,
      fun _ => ⟨hvalid, hdead, hself⟩⟩

/-- `thread_create` returns the id of the slot that it has found. -/
lemma call_threadCreate (hint : m.interrupts = true) (fn parg : ℕ) :
    (call (.threadCreate fn parg) m).control = .user ∧
      (call (.threadCreate fn parg) m).trace.head? = some (.returned m.currentThread
        (.threadCreate fn parg) ⟨(threadNumToCreate m).getD THREAD_NOMORE, none⟩) := by
  have hnum : threadNumToCreate ((calledAt m (.threadCreate fn parg)).interruptsSet false) =
      threadNumToCreate m := rfl
  unfold call
  dsimp only
  rw [threadCreate]
  simp only [Machine.emit_interrupts, hint, not_true_eq_false, if_false, hnum]
  cases threadNumToCreate m with
  | none => exact ⟨rfl, rfl⟩
  | some num => exact ⟨rfl, rfl⟩

/-- **Blocks and slots are neither leaked nor freed twice.** In every state of a run in which
every object is destroyed once at most, the blocks that are allocated are those in use, and each
has one use; an object that user code has been given and that it has not begun to destroy is
whole, and every wait queue belongs to its holder. The library has freed allocated blocks only,
and never the stack that it was executing on. `thread_create` finds a slot if there is one.

**Proof sketch.** All but the last part are conjuncts of the invariants that `tidy` collects. The
last part computes the call of `thread_create`: it returns at once, with what the search for a slot
gives (`slotFound_threadNumToCreate`). -/
theorem blocks_accounted (h : ReachableBy Once m) (hrun : ¬ Stopped m) :
    (∀ p, m.heap.Live p ↔ ∃ r, (abs m).Uses p r) ∧
      (∀ p r r', (abs m).Uses p r → (abs m).Uses p r' → r = r') ∧
      (∀ f, f.Given m.trace → ¬ Called f m.trace → (abs m).Whole f) ∧
      (∀ q o es, (abs m).queues q = some (o, es) → (abs m).Access q o) ∧
      (∀ p rsp live, .freed p rsp live ∈ m.trace → p = NULL ∨ live = true ∧ p ≠ rsp) ∧
      ∀ fn parg m', step m (.call (.threadCreate fn parg)) = some m' → m.interrupts = true →
        m'.control = .user ∧ ∃ r, SlotFound m r ∧ m'.trace.head? =
          some (.returned m.currentThread (.threadCreate fn parg) ⟨r, none⟩) := by
  obtain ⟨hb, ht⟩ := h.tidy hrun
  refine ⟨ht.stocked.live_iff, fun p r r' hu hu' => hu.unique hu' ht.pointed, ht.intact.untouched,
    ht.paired.held, fun p rsp live he => ht.sound _ he, fun fn parg m' hs hint => ?_⟩
  rw [step] at hs
  split_ifs at hs with hcond
  cases hs
  have hc := hb.control
  rw [ControlOk, hcond.1] at hc
  obtain ⟨huser, hhead⟩ := call_threadCreate hint fn parg
  exact ⟨huser, _, slotFound_threadNumToCreate hc.1.state, hhead⟩

/-- A lock is made: two blocks are allocated. -/
theorem blocks_accounted_lock :
    let m := after 0 [.call .lockCreate, .exec, .exec]
    m.heap.Live 1 ∧ m.heap.Live 2 ∧ ∀ p, m.heap.Live p ↔ ∃ r, (abs m).Uses p r :=
  ⟨by decide +kernel, by decide +kernel,
    (blocks_accounted (reachableBy_after (by decide +kernel)) (by decide +kernel)).1⟩

/-- The timer strikes between the two calls of the allocator in `lock_create`: while user code
of another thread runs, a block is allocated for a lock that does not exist yet. -/
theorem half_of_a_lock :
    ∃ m, ReachableBy Once m ∧ m.control = .user ∧
      ¬ ∀ p, m.heap.Live p ↔ ∃ r, (abs m).Uses p r ∧ ∀ t, r ≠ .half t := by
  have hreach : ReachableBy Once (after 0 [.call (.threadCreate 0 0), .call .lockCreate, .exec,
      .tick, .exec]) := reachableBy_after (by decide +kernel)
  refine ⟨_, hreach, by decide +kernel, fun hall => ?_⟩
  obtain ⟨r, hr, hhalf⟩ := (hall 2).mp (by decide +kernel)
  obtain ⟨-, ht⟩ := hreach.tidy (by decide +kernel)
  have huse : (abs (after 0 [.call (.threadCreate 0 0), .call .lockCreate, .exec,
      .tick, .exec])).Uses 2 (.half 0) :=
    .half (by decide +kernel) (by decide +kernel) (by decide +kernel)
  exact hhalf 0 (hr.unique huse ht.pointed)

end UserThreads
