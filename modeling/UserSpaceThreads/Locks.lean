import UserSpaceThreads.Pointers
import UserSpaceThreads.Ready

set_option relaxedAutoImplicit false
set_option autoImplicit false

/-!
# Locks

In all runs, whoever is between the return of `lock_acquire` and the next `lock_release` is the
thread in `lock->current`, and the wait queue of a free lock is empty. `lock_destroy` relies on
the second fact, but it looks at `lock->current` with the timer signal unblocked and frees the
wait queue later: a signal in between lets other threads take the lock and go to sleep on it. And
a thread that finds the wait queue full goes to sleep without an entry there.

## Main definitions

* `UserThreads.View.Locking` — the invariant of all runs.
* `UserThreads.Undisturbed` — the guard of runs without these two defects.
* `UserThreads.LocksSafe` — what locks guarantee.

## Main results

* `UserThreads.ReachableBy.locking` — mutual exclusion, in all runs.
* `UserThreads.locks_safe` — locks are safe in undisturbed runs.
* `UserThreads.lock_destroyed_under_sleeper` — a run that frees the queue a thread sleeps on.
-/

namespace UserThreads

namespace View

variable {v v' : View} {l : Label}

/-! ## Mutual exclusion -/

/-- Who holds a lock according to the history is its owner, and nobody sleeps on a free lock. -/
structure Locking (v : View) : Prop where
  given : ∀ t l, holds t l v.trace = true → Gave .lockCreate l v.trace ∧ isValidThread t
  owner : ∀ t l lock, v.locks l = some lock → holds t l v.trace = true → lock.current = t
  free : ∀ l lock o es, v.locks l = some lock → lock.current = -1 →
    v.queues lock.queue = some (o, es) → es = []

/-- The holder recorded in the wait queue of a lock is that lock. -/
lemma Pointed.lock_owner (h : v.Pointed) {l : Addr} {lock : Lock} {o : Owner} {es : List Tid}
    (hl : v.locks l = some lock) (hq : v.queues lock.queue = some (o, es)) : o = .lock l :=
  h.owner_eq (o := .lock l) ⟨lock, hl, rfl⟩ hq

/-- A transaction in which nobody gets a lock, and no wait queue of a lock gets an entry. -/
lemma Locking.mono (h : v.Locking)
    (htrace : ∀ t l, holds t l v'.trace = true → holds t l v.trace = true)
    (hgave : ∀ l, Gave .lockCreate l v.trace → Gave .lockCreate l v'.trace)
    (hlocks : ∀ l lock, v'.locks l = some lock → v.locks l = some lock)
    (hqueues : ∀ l lock o es, v.locks l = some lock → lock.current = -1 →
      v'.queues lock.queue = some (o, es) → es = [] ∨ v.queues lock.queue = some (o, es)) :
    v'.Locking where
  given t l ht := (h.given t l (htrace t l ht)).imp_left (hgave l)
  owner t l lock hl ht := h.owner t l lock (hlocks l lock hl) (htrace t l ht)
  free l lock o es hl hfree hq := by
    rcases hqueues l lock o es (hlocks l lock hl) hfree hq with hnil | hq
    · exact hnil
    · exact h.free l lock o es (hlocks l lock hl) hfree hq

/-- A transaction that does not touch wait queues and locks. -/
lemma Locking.quiet (h : v.Locking)
    (htrace : ∀ t l, holds t l v'.trace = true → holds t l v.trace = true)
    (hgave : ∀ l, Gave .lockCreate l v.trace → Gave .lockCreate l v'.trace)
    (hlocks : v'.locks = v.locks) (hqueues : v'.queues = v.queues) : v'.Locking :=
  h.mono htrace hgave (fun _ _ hl => hlocks ▸ hl) fun _ _ _ _ _ _ hq => .inr (hqueues ▸ hq)

/-- Only a return from `lock_acquire` or `cv_wait` gives a lock to a thread. -/
lemma holds_cons {e : Event} {t : Tid} {l : Addr} {tr : List Event}
    (he : ∀ f r, e = .returned t f r → f.acquires l = false) (h : holds t l (e :: tr) = true) :
    holds t l tr = true := by
  cases e with
  | returned u f r =>
    rw [holds] at h
    split_ifs at h with hu
    · obtain ⟨rfl, hf⟩ := hu
      rw [he f r rfl] at hf
      cases hf
    · exact h
  | called u f | created u f p | exited u c | killed u =>
    rw [holds] at h
    split_ifs at h
    exact h
  | _ => exact h

/-- Only the return of its call gives a lock to the current thread. -/
lemma Step.holds (hs : Step v l v') {t : Tid} {a : Addr} (h : holds t a v'.trace = true) :
    UserThreads.holds t a v.trace = true ∨
      ∃ f r, l = .returned f r ∧ t = v.current ∧ f.acquires a = true := by
  refine hs.writes.invariant (I := fun tr => UserThreads.holds t a tr = true →
    UserThreads.holds t a v.trace = true ∨ ∃ f r, l = .returned f r ∧ t = v.current ∧
      f.acquires a = true) .inl (fun e tr he ih hholds => ?_) h
  by_cases hret : ∃ f r, e = .returned t f r ∧ f.acquires a = true
  · obtain ⟨f, r, rfl, hf⟩ := hret
    obtain ⟨rfl, rfl | hcreates | ⟨x, c, rfl⟩ | hdestroys⟩ := he
    · exact .inr ⟨f, r, rfl, rfl, hf⟩
    · cases f <;> first | cases hf | cases hcreates
    · cases hf
    · cases f <;> first | cases hf | cases hdestroys
  · exact ih (holds_cons (fun f r heq => by simpa using fun hf => hret ⟨f, r, heq, hf⟩) hholds)

/-- Pointers that user code has been given stay given. -/
lemma Step.gave (hs : Step v l v') {f : Fn} {p : Addr} (h : Gave f p v.trace) :
    Gave f p v'.trace := by
  obtain ⟨e, he, hg⟩ := h
  exact ⟨e, hs.writes.mem he, hg⟩

/-- A wait queue that is not that of a free lock changes. -/
lemma Locking.update (h : v.Locking)
    (htrace : ∀ t l, holds t l v'.trace = true → holds t l v.trace = true)
    (hgave : ∀ l, Gave .lockCreate l v.trace → Gave .lockCreate l v'.trace)
    (hlocks : v'.locks = v.locks) {q : Addr} {x : Option (Owner × List Tid)}
    (hqueues : v'.queues = Function.update v.queues q x)
    (hne : ∀ l lock, v.locks l = some lock → lock.current = -1 → lock.queue ≠ q) :
    v'.Locking := by
  refine h.mono htrace hgave (fun _ _ hl => hlocks ▸ hl) fun l lock o es hl hfree hq => .inr ?_
  rwa [hqueues, Function.update_of_ne (hne l lock hl hfree)] at hq

/-- Nobody sleeps on a free lock, so the wait queue of a sleeper is not that of a free lock. -/
lemma Locking.queue_ne (h : v.Locking) {q : Addr} {o : Owner} {t : Tid} {es : List Tid}
    (hq : v.queues q = some (o, t :: es)) (l : Addr) (lock : Lock) (hl : v.locks l = some lock)
    (hfree : lock.current = -1) : lock.queue ≠ q := by
  rintro rfl
  cases h.free l lock _ _ hl hfree hq

/-- Nobody goes to sleep on a free lock: `lock_acquire` sleeps only while the lock is held, and no
other function can name the wait queue of a lock. -/
lemma Pointed.queue_ne (hp : v.Pointed) {q : Addr} {o o' : Owner} {es : List Tid}
    (access : v.Access q o) (queue : v.queues q = some (o', es))
    (held : ∀ l lock, o = .lock l → v.locks l = some lock → lock.current ≠ -1) (l : Addr)
    (lock : Lock) (hl : v.locks l = some lock) (hfree : lock.current = -1) : lock.queue ≠ q := by
  rintro rfl
  obtain rfl := hp.lock_owner hl queue
  obtain rfl := hp.owner_eq access queue
  exact held l lock rfl hl hfree

/-- A call returns; after `lock_acquire` and `cv_wait` the current thread holds the lock.

**Proof sketch.** The return is recorded only when the lock has the current thread as its owner
(`Completes`). For any other thread and lock the history says what it said before. -/
lemma Locking.returned (h : v.Locking) (hp : v.Pointed) (hv : v.Valid) {f : Fn} {r : Ret}
    (hs : Step v (.returned f r) (v.back f r)) (done : v.Completes f r) :
    (v.back f r).Locking := by
  have howner (a : Addr) (hf : f.acquires a = true) :
      ∃ lock, v.locks a = some lock ∧ lock.current = v.current := by
    cases f with
    | lockAcquire b | cvWait c b =>
      obtain rfl : b = a := by simpa [Fn.acquires] using hf
      exact done
    | _ => cases hf
  refine ⟨fun t a ht => ?_, fun t a lock ha ht => ?_, h.free⟩
  · obtain ht | ⟨g, r', heq, rfl, hg⟩ := hs.holds ht
    · exact (h.given t a ht).imp_left hs.gave
    · cases heq
      obtain ⟨lock, hl, -⟩ := howner a hg
      exact ⟨hs.gave (hp.locks a lock hl), hv.current⟩
  · obtain ht | ⟨g, r', heq, rfl, hg⟩ := hs.holds ht
    · exact h.owner t a lock ha ht
    · cases heq
      obtain ⟨lock', hl, hcur⟩ := howner a hg
      rw [back_locks, hl] at ha
      cases ha
      exact hcur

/-- The current thread takes a free lock. -/
lemma Locking.take (h : v.Locking) (hv : v.Valid) {a : Addr} {lk : Lock}
    (hlk : v.locks a = some lk) (hfree : lk.current = -1) :
    (v.setLock a (some { lk with current := v.current })).Locking := by
  -- a lock that somebody holds is not free
  have hnobody (t : Tid) : UserThreads.holds t a v.trace = false := by
    by_contra ht
    have hvalid := (h.given t a (by simpa using ht)).2
    have hown := h.owner t a lk hlk (by simpa using ht)
    exact hvalid.ne.2.2.1 (hown.symm.trans hfree)
  refine ⟨h.given, fun t b lock hl ht => ?_, fun b lock o es hl hfree' hq => ?_⟩
  · rcases eq_or_ne b a with rfl | hne
    · rw [setLock_trace, hnobody] at ht
      cases ht
    · exact h.owner t b lock (by simpa [hne] using hl) ht
  · rcases eq_or_ne b a with rfl | hne
    · obtain rfl : { lk with current := v.current } = lock := by simpa using hl
      exact (hv.current.ne.2.2.1 hfree').elim
    · exact h.free b lock o es (by simpa [hne] using hl) hfree' hq

/-- The current thread gives up a lock on which nobody sleeps. -/
lemma Locking.give (h : v.Locking) {a : Addr} {lk : Lock} (hlk : v.locks a = some lk)
    (howner : lk.current = v.current)
    (hreleased : UserThreads.holds v.current a v.trace = false)
    (hempty : ∀ o es, v.queues lk.queue = some (o, es) → es = []) :
    (v.setLock a (some { lk with current := -1 })).Locking := by
  refine ⟨h.given, fun t b lock hl ht => ?_, fun b lock o es hl hfree hq => ?_⟩
  · rcases eq_or_ne b a with rfl | hne
    · obtain rfl := (h.owner t b lk hlk ht).symm.trans howner
      rw [setLock_trace, hreleased] at ht
      cases ht
    · exact h.owner t b lock (by simpa [hne] using hl) ht
  · rcases eq_or_ne b a with rfl | hne
    · obtain rfl : { lk with current := -1 } = lock := by simpa using hl
      exact hempty o es hq
    · exact h.free b lock o es (by simpa [hne] using hl) hfree hq

/-- A new lock at an address that has not been given to user code: nobody holds it, and its wait
queue is empty. -/
lemma Locking.newLock (h : v.Locking) (hp : v.Pointed) {a : Addr}
    (ha : ¬ Gave .lockCreate a v.trace)
    (htrace : ∀ t l, UserThreads.holds t l v'.trace = true → UserThreads.holds t l v.trace = true)
    (hgave : ∀ l, Gave .lockCreate l v.trace → Gave .lockCreate l v'.trace)
    (hlocks : v'.locks = Function.update v.locks a (some ⟨v.brk, -1⟩))
    (hqueues : v'.queues = Function.update v.queues v.brk (some (.lock a, []))) :
    v'.Locking := by
  refine ⟨fun t b ht => (h.given t b (htrace t b ht)).imp_left (hgave b),
    fun t b lock hl ht => ?_, fun b lock o es hl hfree hq => ?_⟩
  · rcases eq_or_ne b a with rfl | hne
    · exact (ha (h.given t b (htrace t b ht)).1).elim
    · exact h.owner t b lock (by simpa [hlocks, hne] using hl) (htrace t b ht)
  · rcases eq_or_ne b a with rfl | hne
    · obtain rfl : ⟨v.brk, -1⟩ = lock := by simpa [hlocks] using hl
      obtain ⟨-, rfl⟩ : .lock b = o ∧ [] = es := by simpa [hqueues] using hq
      rfl
    · have hl' : v.locks b = some lock := by simpa [hlocks, hne] using hl
      have hbrk : lock.queue ≠ v.brk := hp.ne_brk (.lockQueue hl')
      exact h.free b lock o es hl' hfree (by simpa [hqueues, hbrk] using hq)

/-- **Every transaction keeps locks exclusive.**

**Proof sketch.** A thread holds a lock, in the history, from the return of the call that takes it
on, and this return requires that the lock has the thread as its owner. A lock is taken only when it
is free, so nobody holds it then, and it is given up by its owner. Its wait queue is empty when it
becomes free, and nobody goes to sleep on a free lock. -/
theorem Locking.step (h : v.Locking) (hp : v.Pointed) (hv : v.Valid) (hs : Step v l v') :
    v'.Locking := by
  have hgave (a : Addr) (hg : Gave .lockCreate a v.trace) :
      Gave .lockCreate a v'.trace := hs.gave hg
  have hmono (hl : ∀ f r, l ≠ .returned f r) (t : Tid) (a : Addr)
      (ht : UserThreads.holds t a v'.trace = true) : UserThreads.holds t a v.trace = true := by
    refine (hs.holds ht).resolve_right ?_
    rintro ⟨f, r, hret, -⟩
    exact hl f r hret
  cases hs with
  | returned alive fn done => exact h.returned hp hv (.returned alive fn done) done
  | called | started | exit | create | discard | dispatch | yieldTo | wait | waitNone | newHalf =>
    exact h.quiet (hmono (by simp)) hgave rfl rfl
  | sleep calls sleeps access queue lock picks =>
    exact h.update (hmono (by simp)) hgave rfl rfl (hp.queue_ne access queue lock)
  | sleepNone calls sleeps access queue lock ready last =>
    exact h.update (hmono (by simp)) hgave rfl (Function.update_idem ..)
      (hp.queue_ne access queue lock)
  | wake calls wakes access queue | skip calls wakes access queue =>
    exact h.update (hmono (by simp)) hgave rfl rfl (h.queue_ne queue)
  | die | dieTo | dieBack =>
    exact h.quiet (hmono (by simp)) hgave (View.bury_locks ..) (View.bury_queues ..)
  | take calls acquires lockAt free => exact h.take hv lockAt free
  | give calls releases lockAt owner released empty => exact h.give lockAt owner released empty
  | newQueue | newCv =>
    exact h.update (hmono (by simp)) hgave rfl rfl fun l lock hl _ => hp.ne_brk (.lockQueue hl)
  | @newLock a alive fn =>
    have hhalf := (hp.making v.current .lockCreate a alive fn rfl).of_half
    exact h.newLock hp hhalf.2.1 (hmono (by simp)) hgave rfl rfl
  | dropQueue | dropHalf =>
    refine h.mono (hmono (by simp)) hgave (fun _ _ hl => hl) fun a lk o₁ es₁ hl hfree hq => .inr ?_
    exact eq_some_of_update_none hq
  | dropLock =>
    exact h.mono (hmono (by simp)) hgave (fun _ _ hl => eq_some_of_update_none hl)
      fun _ _ _ _ _ _ hq => .inr hq
  | dropCv => exact h.quiet (hmono (by simp)) hgave rfl rfl

/-! ## Sleeping on locks -/

/-- A thread that is asleep on a lock according to its state and the history has an entry in the
wait queue of the lock. -/
structure Resting (v : View) : Prop where
  bound : ∀ t q, dormant t v.trace = some (.queue q) → q < v.brk
  asleep : ∀ t l lock, v.locks l = some lock → v.state t = .Sleep →
    dormant t v.trace = some (.queue lock.queue) →
      ∃ o es, v.queues lock.queue = some (o, es) ∧ t ∈ es

/-- A thread in `lock_destroy` between the check and the first `free369` is the current one, and
what it has checked is still true. -/
def Destroying (v : View) : Prop :=
  ∀ t l, fate t v.trace = some .alive → progress t v.trace = { fn := some (.lockDestroy l) } →
    t = v.current ∧ ∃ lock, v.locks l = some lock ∧ lock.current = -1

/-- A thread that goes to sleep on a lock finds room in its wait queue, and no signal interrupts
`lock_destroy` before its first `free369`. -/
def Rests (v : View) : Label → Prop
  | .sleep q (.lock l) _ => ∀ lock o es, v.locks l = some lock → v.queues q = some (o, es) →
      Roomy es v.current
  | .dispatch _ => v.state v.current ≠ .Destroyed →
      ∀ l, progress v.current v.trace ≠ { fn := some (.lockDestroy l) }
  | _ => True

/-- A transaction in which threads keep their entries. -/
lemma Resting.keeps (h : v.Resting) (hbrk : v.brk ≤ v'.brk)
    (hbound : ∀ t q, dormant t v'.trace = some (.queue q) → dormant t v.trace = some (.queue q) ∨
      q < v.brk)
    (hlocks : ∀ l lock, v'.locks l = some lock → ∃ c, v.locks l = some { lock with current := c })
    (hdormant : ∀ t, v'.state t = .Sleep →
      v.state t = .Sleep ∧ dormant t v'.trace = dormant t v.trace)
    (hqueues : ∀ t l lock o es, v.locks l = some lock → v.queues lock.queue = some (o, es) →
      t ∈ es →
      v'.state t = .Sleep → ∃ es', v'.queues lock.queue = some (o, es') ∧ t ∈ es') :
    v'.Resting where
  bound t q ht := (hbound t q ht).elim (fun ht => (h.bound t q ht).trans_le hbrk)
    fun hq => hq.trans_le hbrk
  asleep t l lock hl hst hdorm := by
    obtain ⟨hst', heq⟩ := hdormant t hst
    obtain ⟨c, hl'⟩ := hlocks l lock hl
    rw [heq] at hdorm
    obtain ⟨o, es, hq, hmem⟩ := h.asleep t l _ hl' hst' hdorm
    obtain ⟨es', hq', hmem'⟩ := hqueues t l _ o es hl' hq hmem hst
    exact ⟨o, es', hq', hmem'⟩

/-- A transaction that does not concern sleeping threads. -/
lemma Resting.quiet (h : v.Resting) (hbrk : v.brk ≤ v'.brk)
    (hdormant : ∀ t, dormant t v'.trace = dormant t v.trace) (hlocks : v'.locks = v.locks)
    (hstate : v'.state = v.state) (hqueues : v'.queues = v.queues) : v'.Resting :=
  h.keeps hbrk (fun t _ ht => .inl (hdormant t ▸ ht)) (fun _ lock hl => ⟨lock.current, hlocks ▸ hl⟩)
    (fun t ht => ⟨hstate ▸ ht, hdormant t⟩) fun _ _ _ _ es _ hq hmem _ => ⟨es, hqueues ▸ hq, hmem⟩

/-- The wait queues of locks after another wait queue has been made. -/
lemma Pointed.lock_queue_newQueue (hp : v.Pointed) {l : Addr} {lock : Lock}
    (hl : v.locks l = some lock) (o : Owner) :
    (v.newQueue o).queues lock.queue = v.queues lock.queue := by
  have hne : lock.queue ≠ v.brk := hp.ne_brk (.lockQueue hl)
  simp [hne]

/-- Nobody sleeps on the wait queue that is freed. -/
lemma Resting.drop (h : v.Resting) {q : Addr} (hv' : v'.queues = Function.update v.queues q none)
    (hbrk : v'.brk = v.brk) (hdormant : ∀ t, dormant t v'.trace = dormant t v.trace)
    (hlocks : v'.locks = v.locks) (hstate : v'.state = v.state)
    (hfree : ∀ l lock o es t, v.locks l = some lock → lock.queue = q → v.queues q = some (o, es) →
      t ∉ es) : v'.Resting := by
  refine h.keeps hbrk.ge (fun t _ ht => .inl (hdormant t ▸ ht))
    (fun _ lock hl => ⟨lock.current, hlocks ▸ hl⟩) (fun t ht => ⟨hstate ▸ ht, hdormant t⟩)
    fun t l lock o es hl hq hmem _ => ⟨es, ?_, hmem⟩
  rcases eq_or_ne lock.queue q with rfl | hne
  · exact (hfree l lock o es t hl rfl hq hmem).elim
  · rw [hv', Function.update_of_ne hne]
    exact hq

/-- The end of a thread. -/
lemma Resting.bury (h : v.Resting) (t : Tid) (killed : Bool) (rsp : Addr) (heap : Heap) :
    (v.bury t killed rsp heap).Resting := by
  refine h.keeps (View.bury_brk ..).ge (fun u q hu => .inl (by simpa using hu))
    (fun l lock hl => ⟨lock.current, by simpa using hl⟩) (fun u hu => ?_)
    fun u l lock o es hl hq hmem _ => ⟨es, by simpa using hq, hmem⟩
  have hne : u ≠ t := by
    rintro rfl
    simp at hu
  exact ⟨by simpa [hne] using hu, by simp⟩

/-- A waiter is released. -/
lemma Resting.release (h : v.Resting) (t w : Tid) : (v.release t w).Resting := by
  refine h.keeps le_rfl (fun u q hu => .inl ?_) (fun l lock hl => ⟨lock.current, hl⟩)
    (fun u hu => ?_) fun u l lock o es hl hq hmem _ => ⟨es, hq, hmem⟩
  · simp only [release_trace, dormant] at hu
    split_ifs at hu
    exact hu
  · have hne : u ≠ w := by
      rintro rfl
      simp at hu
    exact ⟨by simpa [hne] using hu, by simp [hne.symm]⟩

/-- A thread keeps its entry when the entries of a wait queue change, if it keeps it there. -/
lemma mem_of_update {q p : Addr} {o o' : Owner} {es es₀ es₁ : List Tid} {t : Tid}
    (hq : v.queues q = some (o, es₀)) (hp : v.queues p = some (o', es)) (hmem : t ∈ es)
    (hin : t ∈ es₀ → t ∈ es₁) :
    ∃ es', Function.update v.queues q (some (o, es₁)) p = some (o', es') ∧ t ∈ es' := by
  rcases eq_or_ne p q with rfl | hne
  · rw [hq] at hp
    cases hp
    exact ⟨es₁, by simp, hin hmem⟩
  · exact ⟨es, by simpa [hne] using hp, hmem⟩

/-- A thread is created. -/
lemma Resting.spawn (h : v.Resting) (num : Tid) (fn parg : ℕ) :
    (v.spawn num fn parg).Resting := by
  refine h.keeps (Nat.le_succ _) (fun t q ht => .inl ?_) (fun l lock hl => ⟨lock.current, hl⟩)
    (fun t ht => ?_) fun t l lock o es hl hq hmem _ => ⟨es, hq, hmem⟩
  · rcases eq_or_ne num t with rfl | hne
    · simp at ht
    · simpa [hne] using ht
  · have hne : t ≠ num := by
      rintro rfl
      simp at ht
    exact ⟨by simpa [hne] using ht, by simp [hne.symm]⟩

/-- The current thread goes to sleep on a wait queue; if it is that of a lock, there is room. -/
lemma Resting.asleepOn (h : v.Resting) (hp : v.Pointed) {q : Addr} {o : Owner} {es : List Tid}
    (hq : v.queues q = some (o, es))
    (hroom : ∀ l lock, v.locks l = some lock → lock.queue = q → Roomy es v.current) :
    (v.asleep v.current q o es).Resting := by
  refine ⟨fun u p hu => ?_, fun u a lk hl hst hdorm => ?_⟩
  · rcases eq_or_ne v.current u with rfl | hne
    · obtain rfl : q = p := by simpa using hu
      exact hp.bound _ _ (.queue hq)
    · exact h.bound u p (by simpa [hne] using hu)
  · rcases eq_or_ne v.current u with rfl | hne
    · obtain rfl : q = lk.queue := by simpa using hdorm
      exact ⟨o, pushEntry es v.current, by simp, (hroom a lk hl rfl).mem⟩
    · obtain ⟨o₁, es₁, hq₁, hmem⟩ := h.asleep u a lk hl (by simpa [hne.symm] using hst)
        (by simpa [hne] using hdorm)
      exact ⟨o₁, mem_of_update hq hq₁ hmem mem_pushEntry_of_mem⟩

/-- The current thread has found nobody to sleep for: its entry is the last one, and is taken back.
The entries of the other threads stay. -/
lemma Resting.sleptNone (h : v.Resting) {q : Addr} {o : Owner} {es es' : List Tid}
    (hq : v.queues q = some (o, es)) (last : pushEntry es v.current = es' ++ [v.current]) :
    ((((v.asleep v.current q o es).setState v.current .Running).setQueue q (some (o, es'))).emit
      (.sleptNone v.current q)).Resting := by
  have hother (u : Tid) (hu : Function.update (Function.update v.state v.current .Sleep) v.current
      .Running u = .Sleep) : u ≠ v.current := by
    rintro rfl
    simp at hu
  refine h.keeps le_rfl (fun u p hu => .inl ?_) (fun l lock hl => ⟨lock.current, hl⟩)
    (fun u hu => ?_) fun u a lk o₁ es₁ hl hq₁ hmem hu => ?_
  · rcases eq_or_ne v.current u with rfl | hne
    · simp at hu
    · simpa [hne] using hu
  · have hne := hother u hu
    exact ⟨by simpa [hne] using hu, by simp [hne.symm]⟩
  · have hne := hother u hu
    have hin (hmem : u ∈ es) : u ∈ es' := by
      have hpushed := mem_pushEntry_of_mem (t := v.current) hmem
      rw [last] at hpushed
      simpa [hne] using hpushed
    obtain ⟨es₂, heq, hmem₂⟩ := mem_of_update hq hq₁ hmem hin
    refine ⟨es₂, ?_, hmem₂⟩
    rw [← heq]
    exact congrFun (Function.update_idem ..) lk.queue

/-- The current thread starts to wait for another one. -/
lemma Resting.awaitingFor (h : v.Resting) (x : Tid) : (v.awaiting v.current x).Resting := by
  refine ⟨fun u p hu => ?_, fun u a lk hl hst hdorm => ?_⟩
  · rcases eq_or_ne v.current u with rfl | hne
    · simp at hu
    · exact h.bound u p (by simpa [hne] using hu)
  · rcases eq_or_ne v.current u with rfl | hne
    · simp at hdorm
    · exact h.asleep u a lk hl (by simpa [hne.symm] using hst) (by simpa [hne] using hdorm)

/-- The first entry of a wait queue is woken. -/
lemma Resting.wake (h : v.Resting) {q : Addr} {o : Owner} {t : Tid} {es : List Tid}
    (hq : v.queues q = some (o, t :: es)) :
    (((v.setQueue q (some (o, es))).setState t .Running).emit (.woken t q)).Resting := by
  have hother (u : Tid) (hu : Function.update v.state t .Running u = .Sleep) : u ≠ t := by
    rintro rfl
    simp at hu
  refine h.keeps le_rfl (fun u p hu => .inl ?_) (fun l lock hl => ⟨lock.current, hl⟩)
    (fun u hu => ?_) fun u a lk o₁ es₁ hl hq₁ hmem hu => ?_
  · simp only [emit_trace, dormant] at hu
    split_ifs at hu
    exact hu
  · have hne := hother u hu
    exact ⟨by simpa [hne] using hu, by simp [hne.symm]⟩
  · exact mem_of_update hq hq₁ hmem fun hmem => (List.mem_cons.mp hmem).resolve_left (hother u hu)

/-- The first entry of a wait queue is dropped: its thread is not asleep. -/
lemma Resting.skip (h : v.Resting) {q : Addr} {o : Owner} {t : Tid} {es : List Tid}
    (hq : v.queues q = some (o, t :: es)) (hst : v.state t ≠ .Sleep) :
    (v.setQueue q (some (o, es))).Resting := by
  refine h.keeps le_rfl (fun u p hu => .inl hu) (fun l lock hl => ⟨lock.current, hl⟩)
    (fun u hu => ⟨hu, rfl⟩) fun u a lk o₁ es₁ hl hq₁ hmem hu =>
      mem_of_update hq hq₁ hmem fun hmem => (List.mem_cons.mp hmem).resolve_left ?_
  rintro rfl
  exact hst hu

/-- A new wait queue. -/
lemma Resting.newQueue (h : v.Resting) (hp : v.Pointed) (o : Owner) : (v.newQueue o).Resting :=
  h.keeps (Nat.le_succ _) (fun _ _ hu => .inl hu) (fun _ lock hl => ⟨lock.current, hl⟩)
    (fun _ hu => ⟨hu, rfl⟩)
    fun _ _ _ _ es hl hq hmem _ => ⟨es, (hp.lock_queue_newQueue hl _).trans hq, hmem⟩

/-- A new lock with a new wait queue. -/
lemma Resting.newLock (h : v.Resting) (hp : v.Pointed) (a : Addr) :
    ((v.newQueue (.lock a)).setLock a (some ⟨v.brk, -1⟩)).Resting := by
  refine ⟨fun t q ht => (h.bound t q ht).trans (Nat.lt_succ_self _),
    fun t b lock hl hst hdorm => ?_⟩
  rcases eq_or_ne b a with rfl | hne
  · -- nobody sleeps on a wait queue before it is made
    obtain rfl : ⟨v.brk, -1⟩ = lock := by simpa using hl
    exact (lt_irrefl _ (h.bound t _ hdorm)).elim
  · exact (h.newQueue hp (.lock a)).asleep t b lock (by simpa [hne] using hl) hst hdorm

/-- `wait_queue_destroy` frees no wait queue of a lock. -/
lemma Pointed.dropQueue_ne (hp : v.Pointed) (hv : v.Valid) {q : Addr}
    (calls : v.Calls (.waitQueueDestroy q)) {a : Addr} {lk : Lock} {o : Owner} {es : List Tid}
    (hl : v.locks a = some lk) (hq : v.queues q = some (o, es)) : lk.queue ≠ q := by
  rintro rfl
  rcases entitled_of_fn hp.entitled (congrArg Progress.fn calls.progress) with hnull | hgave
  · exact hv.ne_null hq hnull
  · cases hp.unique _ _ _ (.userQueue hgave) (.lockQueue hl)

/-- `lock_destroy` and `cv_destroy` free no wait queue of a lock on which somebody sleeps: the lock
that is destroyed is free. -/
lemma Locking.dropHalf_nil (hlock : v.Locking) (hd : v.Destroying) (hp : v.Pointed) {f : Fn}
    {p q : Addr} (calls : v.Calls f)
    (destroys : f = .lockDestroy p ∧ v.Access q (.lock p) ∨ f = .cvDestroy p ∧ v.Access q (.cv p))
    {a : Addr} {lk : Lock} {o : Owner} {es : List Tid} (hl : v.locks a = some lk)
    (hlq : lk.queue = q) (hq : v.queues q = some (o, es)) : es = [] := by
  subst hlq
  rcases destroys with ⟨rfl, lock, hl', hlq⟩ | ⟨rfl, cv, hc, hlq⟩
  · have hrefers := Refers.lockQueue hl'
    rw [hlq] at hrefers
    cases hp.unique _ _ _ hrefers (.lockQueue hl)
    obtain ⟨-, lock', hl', hfree⟩ := hd v.current _ calls.alive calls.progress
    rw [hl] at hl'
    cases hl'
    exact hlock.free _ lk o es hl hfree hq
  · have hrefers := Refers.cvQueue hc
    rw [hlq] at hrefers
    cases hp.unique _ _ _ hrefers (.lockQueue hl)

/-- **Every transaction keeps the sleepers of locks in their wait queues**, if it finds room
there.

**Proof sketch.** A thread gets its entry when it goes to sleep, and the entry stays while the
thread sleeps: `thread_wakeup` drops an entry only together with the sleep of its thread. The wait
queue itself stays as well, since `lock_destroy` frees it when the lock is free, and then it is
empty. The addresses of wait queues that threads sleep on are below `brk`, so a new lock has no
sleepers. -/
theorem Resting.step (h : v.Resting) (hlock : v.Locking) (hd : v.Destroying) (hp : v.Pointed)
    (hv : v.Valid) (hrests : v.Rests l) (hs : Step v l v') : v'.Resting := by
  cases hs with
  | called | returned | started | exit | discard =>
    exact h.quiet le_rfl (fun _ => rfl) rfl rfl rfl
  | newHalf => exact h.quiet (Nat.le_succ _) (fun _ => rfl) rfl rfl rfl
  | dispatch | yieldTo => exact h.quiet le_rfl (fun _ => by simp) rfl rfl rfl
  | @create num fn parg =>
    exact (h.spawn num fn parg).quiet le_rfl (fun _ => by simp) rfl rfl rfl
  | @sleep f q o o' t es ts calls sleeps access queue lock picks =>
    have hasleep := h.asleepOn hp queue fun a lk hl hlq => by
      subst hlq
      obtain rfl := hp.owner_eq access queue
      obtain rfl := hp.lock_owner hl queue
      exact hrests lk _ es hl queue
    exact hasleep.quiet le_rfl (fun _ => by simp) rfl rfl rfl
  | sleepNone calls sleeps access queue lock ready last => exact h.sleptNone queue last
  | wait | waitNone => exact (h.awaitingFor _).quiet le_rfl (fun _ => by simp) rfl rfl rfl
  | wake calls wakes access queue =>
    exact (h.wake queue).quiet le_rfl (fun _ => by simp) rfl rfl rfl
  | skip calls wakes access queue state => exact h.skip queue (by rw [state]; decide)
  | @die t killed rsp heap => exact h.bury t killed rsp heap
  | @dieTo t w killed rsp heap =>
    exact ((h.bury t killed rsp heap).release t w).quiet le_rfl (fun _ => by simp) rfl rfl rfl
  | @dieBack t killed rsp heap => exact (h.bury t killed rsp heap).release t v.current
  | take calls acquires lockAt | give calls releases lockAt =>
    exact h.keeps le_rfl (fun _ _ hu => .inl hu) (locks_of_update lockAt _) (fun _ hu => ⟨hu, rfl⟩)
      fun _ _ _ _ es _ hq hmem _ => ⟨es, hq, hmem⟩
  | newQueue | newCv => exact (h.newQueue hp _).quiet le_rfl (fun _ => rfl) rfl rfl rfl
  | newLock => exact (h.newLock hp _).quiet le_rfl (fun _ => rfl) rfl rfl rfl
  | dropQueue calls =>
    exact h.drop rfl rfl (fun _ => rfl) rfl rfl fun a lk o es t hl hlq hq _ =>
      hp.dropQueue_ne hv calls hl hq hlq
  | dropHalf calls destroys =>
    refine h.drop rfl rfl (fun _ => rfl) rfl rfl fun a lk o es t hl hlq hq hmem => ?_
    rw [hlock.dropHalf_nil hd hp calls destroys hl hlq hq] at hmem
    cases hmem
  | dropLock =>
    exact h.keeps le_rfl (fun _ _ hu => .inl hu)
      (fun _ lock hl => ⟨lock.current, eq_some_of_update_none hl⟩) (fun _ hu => ⟨hu, rfl⟩)
      fun _ _ _ _ es _ hq hmem _ => ⟨es, hq, hmem⟩
  | dropCv => exact h.quiet le_rfl (fun _ => rfl) rfl rfl rfl

/-- Without a call, a thread at the beginning of a call has been there before.

**Proof sketch.** By the events that the transaction adds. Only a call brings a thread to the
beginning of a call, and the others leave the thread behind it, or outside. -/
lemma Step.progress_of (hs : Step v l v') (hl : ∀ f, l ≠ .called f) {t : Tid} {f : Fn}
    (hp : progress t v'.trace = { fn := some f }) : progress t v.trace = { fn := some f } ∧
      (fate t v'.trace = some .alive → fate t v.trace = some .alive) := by
  refine hs.writes.invariant (I := fun tr => progress t tr = { fn := some f } →
    progress t v.trace = { fn := some f } ∧
      (fate t tr = some .alive → fate t v.trace = some .alive)) (fun hp => ⟨hp, fun h => h⟩)
    (fun e tr he ih hp => ?_) hp
  cases e with
  | called u g => exact (hl g he.2).elim
  | waited u x | halfway u x =>
    rw [progress] at hp
    split_ifs at hp
    · simp at hp
    · exact ih hp
  | returned u g r | created u g r | started u g r =>
    rw [progress] at hp
    split_ifs at hp with hu
    · simp at hp
    · obtain ⟨hp', hfate⟩ := ih hp
      exact ⟨hp', by simpa [hu] using hfate⟩
  | exited u c | killed u =>
    obtain ⟨hp', hfate⟩ := ih hp
    refine ⟨hp', fun halive => hfate ?_⟩
    rw [fate] at halive
    split_ifs at halive
    · simp at halive
    · exact halive
  | _ => exact ih hp

/-- **What `lock_destroy` has checked stays true** up to its first `free369`, if no signal
interrupts it.

**Proof sketch.** A thread inside `lock_destroy` can be preempted only, and that is what the
condition on the run excludes. All other transactions belong to another call than that of the
current thread, or are its next step, which leaves this phase. -/
theorem Destroying.step (h : v.Destroying) (hlife : v.Life) (hrests : v.Rests l)
    (hs : Step v l v') : v'.Destroying := by
  intro t a ht hp
  -- the thread was there before, or it has just called `lock_destroy`
  by_cases hcalled : ∃ f, l = .called f
  · obtain ⟨f, rfl⟩ := hcalled
    cases hs with
    | called alive idle destroy =>
      rcases eq_or_ne v.current t with rfl | hne
      · obtain rfl : f = .lockDestroy a := by simpa using hp
        exact ⟨rfl, destroy a rfl⟩
      · exact h t a (by simpa using ht) (by simpa [hne] using hp)
  obtain ⟨hp', hfate⟩ := hs.progress_of (fun f hf => hcalled ⟨f, hf⟩) hp
  obtain ⟨rfl, lock, hl, hfree⟩ := h t a (hfate ht) hp'
  have halive := hfate ht
  have hcalls {f : Fn} (hc : v.Calls f) : f = .lockDestroy a := by
    have hfn := congrArg Progress.fn hc.progress
    rw [hp'] at hfn
    simpa using hfn.symm
  -- all but a few transactions belong to another call
  have hother {f : Fn} (hc : v.Calls f) (hf : f ≠ .lockDestroy a) : False := hf (hcalls hc)
  have hdies {t : Tid} {killed : Bool} {rsp : Addr} {heap : Heap}
      (hd : v.Dies t killed rsp heap) : False := by
    cases killed with
    | true => exact hother (hd.byOther rfl).1 (by simp)
    | false =>
      obtain ⟨rfl, ⟨c, hc⟩, -⟩ := hd.bySelf rfl
      rw [hc] at halive
      cases halive
  cases hs with
  | called => exact (hcalled ⟨_, rfl⟩).elim
  | discard => exact ⟨rfl, lock, hl, hfree⟩
  | dispatch => exact (hrests (hlife.alive _ halive) a hp').elim
  | returned | started => simp at hp
  | exit => simp at ht
  | create calls | yieldTo calls | wait calls | waitNone calls | newQueue calls | dropQueue calls =>
    exact (hother calls (by simp)).elim
  | sleep calls sleeps | sleepNone calls sleeps =>
    obtain rfl := hcalls calls
    cases sleeps
  | wake calls wakes | skip calls wakes =>
    obtain rfl := hcalls calls
    cases wakes
  | die dies | dieTo dies | dieBack dies => exact (hdies dies).elim
  | take calls acquires =>
    obtain rfl := hcalls calls
    cases acquires
  | give calls releases =>
    obtain rfl := hcalls calls
    cases releases
  | newHalf | dropHalf => simp at hp
  | newLock alive fn | newCv alive fn | dropLock alive fn | dropCv alive fn =>
    rw [hp'] at fn
    simp at fn

end View

/-! ## Undisturbed runs -/

/-- The processor is in `lock_destroy`, between the check and the first `free369`. -/
def Control.checked : Control → Bool
  | .alloc (.lockDestroyQueue _) => true
  | _ => false

/-- The timer does not strike between the check of `lock_destroy` and its first `free369`, and a
thread that goes to sleep in `lock_acquire` finds room in the wait queue of the lock. -/
def Undisturbed (m : Machine) (a : Action) : Prop :=
  (a = .tick → m.control.checked = false) ∧
    ∀ l ∈ testedLock m a, ∀ lock ∈ m.locks l, lock.current ≠ -1 →
      ∀ wq ∈ m.waitQueues lock.queue, Roomy wq.queue.entries m.currentThread

instance (m : Machine) (a : Action) : Decidable (Undisturbed m a) :=
  inferInstanceAs (Decidable (_ ∧ _))

/-- The transactions of undisturbed steps.

**Proof sketch.** A sleep on a lock comes from the loop of `lock_acquire`, and the condition on the
run says that there is room. A signal in `lock_destroy` can come at its first call of the allocator
only, which the condition excludes. -/
lemma View.rests_of_undisturbed {m : Machine} {a : Action} {v v' : View} {l : Label}
    (h : Undisturbed m a) (hp : Permits m a v l) (hs : View.Step v l v') : v.Rests l := by
  cases hs with
  | @sleep f q o o' t es ts calls sleeps access queue lock picks =>
    cases o with
    | user | cv c => trivial
    | lock a =>
      intro lk o₁ es₁ hl hq
      obtain ⟨lk', hl', rfl⟩ := access
      rw [hl'] at hl
      cases hl
      have hcur := hp.current
      obtain ⟨htested, hqueues, hlocks⟩ := hp.lock a rfl
      rw [hqueues, abs_queues] at hq
      obtain ⟨wq, hwq, -, rfl⟩ := waitQueue_of_abs hq
      have hroomy := h.2 a htested lk (hlocks ▸ hl') (lock a lk rfl hl') wq hwq
      rwa [hcur]
  | dispatch =>
    intro hst a hprogress
    rcases hp hst with ⟨t, hcalls⟩ | hidle | ⟨htick, -, p, hcontrol, hpoint⟩
    · have hfn := congrArg Progress.fn hcalls.progress
      rw [hprogress] at hfn
      simp at hfn
    · rw [hprogress] at hidle
      simp at hidle
    · rw [hprogress] at hpoint
      have hchecked := h.1 htick
      rw [hcontrol] at hchecked
      cases p <;> simp [AllocPoint.fn, AllocPoint.block, Control.checked] at hpoint hchecked
  | _ => trivial

/-! ## Reachable states -/

variable {m : Machine} {ok : Machine → Action → Prop}

/-- **Mutual exclusion**, in every state of every run that is not over. -/
theorem ReachableBy.locking (h : ReachableBy ok m) (hrun : ¬ Stopped m) :
    (abs m).Pointed ∧ (abs m).Locking := by
  have hview := h.view (I := fun v => v.Life ∧ v.Pointed ∧ v.Locking) (fun g => ?_) ?_
  · exact (hview.resolve_left hrun).2.2
  · refine ⟨life_threadInit g, pointed_threadInit g, fun t l ht => ?_, fun t l lock hl => ?_,
      fun l lock o es hl => ?_⟩
    · cases ht
    · cases hl
    · cases hl
  · rintro m a v l v' - - - ⟨hlife, hp, hlock⟩ hv hpermits hs
    exact ⟨hlife.step hs, hp.step hlife (View.entitled_of_permits hpermits) hs, hlock.step hp hv hs⟩

/-- Undisturbed runs keep the sleepers of locks in their wait queues. -/
lemma ReachableBy.resting (h : ReachableBy Undisturbed m) (hrun : ¬ Stopped m) :
    (abs m).Resting ∧ (abs m).Destroying := by
  have hview := h.view
    (I := fun v => v.Life ∧ v.Pointed ∧ v.Locking ∧ v.Resting ∧ v.Destroying) (fun g => ?_) ?_
  · exact (hview.resolve_left hrun).2.2.2.2
  · refine ⟨life_threadInit g, pointed_threadInit g, ⟨fun t l ht => ?_, fun t l lock hl => ?_,
      fun l lock o es hl => ?_⟩, ⟨fun t q ht => ?_, fun t l lock hl => ?_⟩, fun t l _ hp => ?_⟩
    · cases ht
    · cases hl
    · cases hl
    · cases ht
    · cases hl
    · cases hp
  · rintro m a v l v' - - hok ⟨hlife, hp, hlock, hrest, hdestroy⟩ hv hpermits hs
    have hrests := View.rests_of_undisturbed hok hpermits hs
    exact ⟨hlife.step hs, hp.step hlife (View.entitled_of_permits hpermits) hs,
      hlock.step hp hv hs, hrest.step hlock hdestroy hp hv hrests hs,
      hdestroy.step hlife hrests hs⟩

/-- Nobody needs the lock: its wait queue, if it has not been freed, is empty, and no thread that
has gone to sleep there is still asleep. -/
structure Unwanted (m : Machine) (lock : Lock) : Prop where
  /-- there are no entries -/
  empty : ∀ wq, m.waitQueues lock.queue = some wq → wq.queue.entries = []
  /-- there are no sleepers -/
  awake : ∀ t, (m.threads t).state = .Sleep → dormant t m.trace ≠ some (.queue lock.queue)

/-- What locks guarantee. -/
structure LocksSafe (m : Machine) : Prop where
  /-- `lock->current` is the thread that holds the lock, and there is no other one -/
  owner : ∀ t l lock, m.locks l = some lock → holds t l m.trace = true → lock.current = t
  /-- nobody is left waiting for a free lock -/
  free : ∀ l lock, m.locks l = some lock → lock.current = -1 → Unwanted m lock
  /-- `lock_destroy` frees the wait queue of a lock that nobody needs -/
  destroy : ∀ l lock, m.control = .alloc (.lockDestroyQueue l) → m.locks l = some lock →
    Unwanted m lock

/-- **Locks are safe**, in undisturbed runs.

**Proof sketch.** The owner of a lock is part of `Locking`. Its wait queue is empty when it is free,
and by `Resting` a thread that sleeps for it has an entry there, so nobody sleeps for a free lock. A
lock that is being destroyed is free by `Destroying`. -/
theorem locks_safe (h : ReachableBy Undisturbed m) (hrun : ¬ Stopped m) : LocksSafe m := by
  obtain ⟨hb, -⟩ := ReachableBy.life h hrun
  obtain ⟨-, hlock⟩ := ReachableBy.locking h hrun
  obtain ⟨hrest, hdestroy⟩ := ReachableBy.resting h hrun
  have hunwanted (l : Addr) (lock : Lock) (hl : m.locks l = some lock) (hfree : lock.current = -1) :
      Unwanted m lock := by
    have hempty (o : Owner) (es : List Tid) (hq : (abs m).queues lock.queue = some (o, es)) :
        es = [] := hlock.free l lock o es hl hfree hq
    refine ⟨fun wq hwq => hempty wq.owner _ (by simp [hwq, absQueue]), fun t hst hdorm => ?_⟩
    obtain ⟨o, es, hq, hmem⟩ := hrest.asleep t l lock hl hst hdorm
    rw [hempty o es hq] at hmem
    cases hmem
  refine ⟨hlock.owner, hunwanted, fun l lock hcontrol hl => ?_⟩
  have hc := hb.control
  rw [ControlOk, hcontrol] at hc
  obtain ⟨-, lock', hl', hfree⟩ := hdestroy m.currentThread l hc.1.alive hc.2
  rw [abs_locks, hl] at hl'
  cases hl'
  exact hunwanted l lock hl hfree

/-- Thread 0 has been preempted with the lock in its hands, thread 1 sleeps on the lock, and
thread 2 runs. -/
theorem locks_safe_contended :
    LocksSafe (after 42 [.call .lockCreate, .exec, .exec, .call (.threadCreate 7 8),
      .call (.threadCreate 7 9), .call (.lockAcquire 1), .tick, .exec, .call (.lockAcquire 1),
      .exec]) :=
  locks_safe (reachableBy_after (by decide +kernel)) (by decide)

/-- The actions after which thread 0 is about to free the wait queue of a lock that thread 1 has
and thread 2 sleeps on: the timer has struck after thread 0 has seen that the lock is free. -/
def destroyRun : List Action :=
  [.call .lockCreate, .exec, .exec, .call (.threadCreate 7 8), .call (.threadCreate 7 9),
    .call (.lockDestroy 1), .tick, .exec, .call (.lockAcquire 1), .tick, .exec,
    .call (.lockAcquire 1), .exec]

/-- **A lock is destroyed under its sleeper.** When `lock_destroy` goes on, it frees the wait
queue, and back in user code thread 2 is asleep on a queue that no longer exists. -/
theorem lock_destroyed_under_sleeper :
    let m := after 42 destroyRun
    let m' := after 42 (destroyRun ++ [.exec, .exec])
    Reachable m ∧ ¬ LocksSafe m ∧ Reachable m' ∧ m'.control = .user ∧
      (m'.threads 2).state = .Sleep ∧ dormant 2 m'.trace = some (.queue 2) ∧
      m'.waitQueues 2 = none ∧ holds 1 1 m'.trace = true := by
  intro m m'
  refine ⟨reachable_after (by decide), fun h => ?_, reachable_after (by decide), by decide,
    by decide, by decide, by decide, by decide⟩
  exact (h.destroy 1 ⟨2, 1⟩ (by decide) (by decide)).awake 2 (by decide) (by decide)

end UserThreads
