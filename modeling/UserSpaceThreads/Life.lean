import UserSpaceThreads.Refine

set_option relaxedAutoImplicit false
set_option autoImplicit false

/-!
# The life of threads

A slot of `threads` is in the state `Destroyed` exactly as long as the history says that its
thread is not alive. Only `thread_create` brings a slot back to life, although ids of dead
threads stay in the ready queue, in wait queues and as waiters: everything that writes a state
through such an id looks at the state first.

## Main definitions

* `UserThreads.View.Life` — the invariant.
* `UserThreads.Lively` — what the history of a run says about the living and the dead.

## Main results

* `UserThreads.View.Life.step` — every transaction keeps the invariant.
* `UserThreads.dead_stay_dead` — dead threads never run, and new ones start at their function.
-/

namespace UserThreads

open History (Always Adds)

/-! ## Histories after a transaction -/

section PushTrace

variable (es : List Tid) (u : Tid) (tr : List Event)

/-- Refused pushes are the end of nobody. -/
@[simp] lemma fate_pushTrace (t : Tid) : fate t (pushTrace es u tr) = fate t tr :=
  (quiet_pushTrace es u tr).fate t

/-- Refused pushes change the progress of nobody. -/
@[simp] lemma progress_pushTrace (t : Tid) : progress t (pushTrace es u tr) = progress t tr :=
  (quiet_pushTrace es u tr).progress t

/-- Refused pushes put nobody to sleep. -/
@[simp] lemma dormant_pushTrace (t : Tid) : dormant t (pushTrace es u tr) = dormant t tr := by
  unfold pushTrace
  split_ifs <;> rfl

/-- Refused pushes leave the sleepers of a wait queue as they are. -/
@[simp] lemma sleepers_pushTrace (q : Addr) : sleepers q (pushTrace es u tr) = sleepers q tr := by
  unfold pushTrace
  split_ifs <;> rfl

/-- Refused pushes take no lock. -/
@[simp] lemma holds_pushTrace (t : Tid) (l : Addr) :
    holds t l (pushTrace es u tr) = holds t l tr := by
  unfold pushTrace
  split_ifs <;> rfl

/-- A property that does not concern refused pushes. -/
lemma always_pushTrace {p : Event → List Event → Prop} (hp : ∀ t b tr, p (.refused t b) tr) :
    Always p (pushTrace es u tr) ↔ Always p tr := by
  unfold pushTrace
  split_ifs
  · exact and_iff_right (hp _ _ _)
  · rfl

/-- An extension by a refused push. -/
lemma adds_pushTrace {p : Event → Prop} {tr₀ : List Event} {es : List Tid} {u : Tid}
    {tr : List Event} (h : Adds p tr₀ tr) (hp : ∀ t b, p (.refused t b)) :
    Adds p tr₀ (pushTrace es u tr) := by
  unfold pushTrace
  split_ifs
  · exact h.cons (hp _ _)
  · exact h

end PushTrace

section Bury

variable (v : View) (t : Tid) (killed : Bool) (rsp : Addr) (heap : Heap)

/-- A burial puts nobody to sleep. -/
@[simp] lemma View.dormant_bury (x : Tid) :
    dormant x (v.bury t killed rsp heap).trace = dormant x v.trace := by
  rw [View.bury_trace]
  split_ifs <;> rfl

/-- A property of the history after a death. -/
lemma View.always_bury {p : Event → List Event → Prop} (hfreed : ∀ q r b tr, p (.freed q r b) tr)
    (hkilled : killed = true → ∀ tr, fate t tr = fate t v.trace → p (.killed t) tr)
    (h : Always p v.trace) : Always p (v.bury t killed rsp heap).trace := by
  rw [View.bury_trace]
  rcases eq_or_ne t 0 with rfl | h0 <;> cases killed
  · simpa using h
  · simpa using ⟨hkilled rfl _ rfl, h⟩
  · simpa [h0] using ⟨hfreed _ _ _ _, h⟩
  · simpa [h0] using ⟨hkilled rfl _ rfl, hfreed _ _ _ _, h⟩

/-- An extension by a death. -/
lemma adds_bury {p : Event → Prop}
    (hfreed : t ≠ 0 → p (.freed (v.stackStart t) rsp (decide (v.heap.Live (v.stackStart t)))))
    (hkilled : p (.killed t)) : Adds p v.trace (v.bury t killed rsp heap).trace := by
  rw [View.bury_trace]
  refine ⟨_, rfl, fun e he => ?_⟩
  rcases List.mem_append.mp he with he | he <;> split_ifs at he with h <;>
    simp only [List.mem_singleton, List.not_mem_nil] at he <;> subst he
  · exact hkilled
  · exact hfreed h

/-- The fate of a thread that dies: it is killed, unless it has exited. -/
lemma View.fate_bury_self : fate t (v.bury t killed rsp heap).trace =
    if killed then some .killed else fate t v.trace := by
  rw [View.bury_trace]
  rcases eq_or_ne t 0 with rfl | h0 <;> cases killed
  · rfl
  · simp
  · simp [h0]
  · simp

end Bury

/-! ## What a transaction writes -/

/-- The events that a transaction can add to the history. -/
def View.Writes (v : View) (l : Label) : Event → Prop
  | .called t f => t = v.current ∧ l = .called f
  | .returned t f r => t = v.current ∧
      (l = .returned f r ∨ f.creates = true ∨ (∃ x c, f = .threadWait x c) ∨
        f.destroys.isSome = true)
  | .created t fn parg => l = .create t fn parg
  | .slept t q => t = v.current ∧ ((∃ o u, l = .sleep q o u) ∨ l = .sleepNone q)
  | .woken t q => l = .wake q t
  | _ => True

/-- **What a transaction writes into the history.**

**Proof sketch.** By the transaction. Each arm adds its own events in turn, and every one of them is
among those that `Writes` allows for the label. -/
theorem View.Step.writes {v v' : View} {l : Label} (hs : View.Step v l v') :
    Adds (v.Writes l) v.trace v'.trace := by
  have hrefl := Adds.refl (v.Writes l) v.trace
  have hpush {es : List Tid} {u : Tid} {tr : List Event} (h : Adds (v.Writes l) v.trace tr) :
      Adds (v.Writes l) v.trace (pushTrace es u tr) := adds_pushTrace h fun _ _ => trivial
  have hbury (t : Tid) (killed : Bool) (rsp : Addr) (heap : Heap) :
      Adds (v.Writes l) v.trace (v.bury t killed rsp heap).trace :=
    adds_bury v t killed rsp heap (fun _ => trivial) trivial
  cases hs with
  | called => exact hrefl.cons ⟨rfl, rfl⟩
  | returned => exact hrefl.cons ⟨rfl, .inl rfl⟩
  | started | exit => exact hrefl.cons trivial
  | @create num fn parg => exact hpush (hrefl.cons (e := .created num fn parg) rfl)
  | discard | skip | take | give => exact hrefl
  | dispatch | yieldTo => exact (hpush hrefl).cons trivial
  | @sleep f q =>
    have hslept := hrefl.cons (e := .slept v.current q) ⟨rfl, .inl ⟨_, _, rfl⟩⟩
    exact (hpush hslept).cons trivial
  | @sleepNone f q =>
    have hslept := hrefl.cons (e := .slept v.current q) ⟨rfl, .inr rfl⟩
    exact hslept.cons trivial
  | @wait x =>
    have hwaited := hrefl.cons (e := .waited v.current x) trivial
    exact (hpush hwaited).cons trivial
  | @waitNone x =>
    have hwaited := hrefl.cons (e := .waited v.current x) trivial
    exact hwaited.cons ⟨rfl, .inr (.inr (.inl ⟨_, _, rfl⟩))⟩
  | @wake f q o o' t => exact hpush (hrefl.cons (e := .woken t q) rfl)
  | die => exact hbury ..
  | @dieTo t w killed rsp heap =>
    have hreleased := (hbury t killed rsp heap).cons (e := .released t w) trivial
    exact (hpush hreleased).cons trivial
  | dieBack => exact (hbury ..).cons trivial
  | newQueue | newLock | newCv =>
    have hmade := hrefl.cons (e := .queueCreated v.brk) trivial
    exact hmade.cons ⟨rfl, .inr (.inl rfl)⟩
  | newHalf => exact hrefl.cons trivial
  | @dropQueue p | @dropLock p | @dropCv p =>
    have hfreed := hrefl.cons (e := .freed p (v.stackStart v.current) (decide (v.heap.Live p)))
      trivial
    exact hfreed.cons ⟨rfl, .inr (.inr (.inr rfl))⟩
  | @dropHalf f p q =>
    have hfreed := hrefl.cons (e := .freed q (v.stackStart v.current) (decide (v.heap.Live q)))
      trivial
    exact hfreed.cons trivial

/-! ## The invariant -/

/-- What the history says about the living and the dead: code of a thread runs while it is
alive, from its function on; only a live thread is switched to; and the slot of a new thread was
free. -/
def Lively (e : Event) (tr : List Event) : Prop :=
  match e with
  | .called t _ => fate t tr = some .alive ∧ (progress t tr).start = none
  | .returned t _ _ => fate t tr = some .alive ∧ (progress t tr).start = none
  | .started t fn parg => fate t tr = some .alive ∧ (progress t tr).start = some (fn, parg)
  | .switched t => fate t tr = some .alive
  | .created t _ _ => fate t tr ≠ some .alive
  | .exited t _ => fate t tr = some .alive
  | .killed t => fate t tr = some .alive
  | _ => True

/-- A thread that is in a call has started. -/
lemma start_of_fn {t : Tid} {tr : List Event} {f : Fn} (h : (progress t tr).fn = some f) :
    (progress t tr).start = none := by
  fun_induction progress t tr <;> grind

/-- The slots of live threads are those that are not Destroyed; a thread that has called
`thread_exit` is dead before its slot is free. -/
structure View.Life (v : View) : Prop where
  alive : ∀ t, fate t v.trace = some .alive → v.state t ≠ .Destroyed
  dead : ∀ t, t ≠ v.current → v.state t ≠ .Destroyed → fate t v.trace = some .alive
  lively : Always Lively v.trace

namespace View

variable {v v' : View} {l : Label}

/-- One more event, which does not end a life. -/
lemma Life.emit (h : v.Life) {e : Event} (hfate : ∀ t, fate t (e :: v.trace) = fate t v.trace)
    (he : Lively e v.trace) : (v.emit e).Life where
  alive t ht := h.alive t (hfate t ▸ ht)
  dead t ht hst := (hfate t).trans (h.dead t ht hst)
  lively := ⟨he, h.lively⟩

/-- A live thread changes its state. -/
lemma Life.setState (h : v.Life) {t : Tid} {s : State} (ht : v.state t ≠ .Destroyed)
    (hs : s ≠ .Destroyed) : (v.setState t s).Life where
  alive u hu := by
    rcases eq_or_ne u t with rfl | hne
    · simpa using hs
    · simpa [hne] using h.alive u hu
  dead u hu hst := by
    rcases eq_or_ne u t with rfl | hne
    · exact h.dead u hu ht
    · exact h.dead u hu (by simpa [hne] using hst)
  lively := h.lively

/-- The processor goes to a live thread. -/
lemma Life.switchTo (h : v.Life) {t : Tid} (ht : fate t v.trace = some .alive)
    (hcur : v.state v.current ≠ .Destroyed → fate v.current v.trace = some .alive) :
    (v.switchTo t).Life where
  alive u hu := h.alive u (by simpa using hu)
  dead u _ hst := by
    rcases eq_or_ne u v.current with rfl | hne
    · simpa using hcur hst
    · simpa using h.dead u hne hst
  lively := by
    refine ⟨?_, (always_pushTrace _ _ _ fun _ _ _ => trivial).mpr h.lively⟩
    simpa [Lively] using ht

/-- A push onto the ready queue. -/
lemma Life.pushReady (h : v.Life) (t : Tid) : (v.pushReady t).Life where
  alive u hu := h.alive u (by simpa using hu)
  dead u hu hst := by simpa using h.dead u hu hst
  lively := (always_pushTrace _ _ _ fun _ _ _ => trivial).mpr h.lively

/-- A thread that can die is alive, unless it has called `thread_exit`. -/
lemma Dies.fate_eq {t : Tid} {killed : Bool} {rsp : Addr} {heap : Heap}
    (hd : v.Dies t killed rsp heap)
    (h : v.Life) (hk : killed = true) : fate t v.trace = some .alive :=
  h.dead t (hd.byOther hk).2.1 hd.state

/-- The end of a thread. -/
lemma Life.bury (h : v.Life) {t : Tid} {killed : Bool} {rsp : Addr} {heap : Heap}
    (hd : v.Dies t killed rsp heap) : (v.bury t killed rsp heap).Life where
  alive u hu := by
    rcases eq_or_ne u t with rfl | hne
    · rw [View.fate_bury_self] at hu
      cases killed with
      | true => simp at hu
      | false =>
        obtain ⟨-, ⟨c, hc⟩, -⟩ := hd.bySelf rfl
        simp [hc] at hu
    · rw [View.fate_bury _ _ _ _ _ hne] at hu
      simpa [hne] using h.alive u hu
  dead u hu hst := by
    rcases eq_or_ne u t with rfl | hne
    · exact absurd hst (by simp)
    · rw [View.fate_bury _ _ _ _ _ hne]
      exact h.dead u (by simpa using hu) (by simpa [hne] using hst)
  lively := by
    refine View.always_bury _ _ _ _ _ (fun _ _ _ _ => trivial) (fun hk tr htr => ?_) h.lively
    exact htr.trans (hd.fate_eq h hk)

/-- A new thread. -/
lemma Life.spawn (h : v.Life) {num : Tid} (hdead : v.state num = .Destroyed) (fn parg : ℕ) :
    (v.spawn num fn parg).Life where
  alive u hu := by
    rcases eq_or_ne u num with rfl | hne
    · simp
    · simpa [hne] using h.alive u (by simpa [hne.symm] using hu)
  dead u hu hst := by
    rcases eq_or_ne u num with rfl | hne
    · simp
    · simpa [hne.symm] using h.dead u hu (by simpa [hne] using hst)
  lively := ⟨fun halive => h.alive num halive hdead, h.lively⟩

/-- A new wait queue. -/
lemma Life.newQueue (h : v.Life) (o : Owner) : (v.newQueue o).Life := by
  have hqueue : ((v.malloc SIZEOF_WAIT_QUEUE).setQueue v.brk (some (o, []))).Life :=
    ⟨h.alive, h.dead, h.lively⟩
  exact hqueue.emit (fun _ => rfl) trivial

/-- The current thread after a death, unless it has died itself. -/
lemma Dies.current {t : Tid} {killed : Bool} {rsp : Addr} {heap : Heap}
    (hd : v.Dies t killed rsp heap) :
    v.current = t ∨ fate v.current v.trace = some .alive := by
  cases killed with
  | false => exact .inl (hd.bySelf rfl).1.symm
  | true => exact .inr (hd.byOther rfl).1.alive

/-- A thread that is alive after a death was alive before it. -/
lemma Dies.ne_of_alive {t u : Tid} {killed : Bool} {rsp : Addr} {heap : Heap}
    (hd : v.Dies t killed rsp heap)
    (hu : fate u (v.bury t killed rsp heap).trace = some .alive) :
    u ≠ t ∧ fate u v.trace = some .alive := by
  have hne : u ≠ t := by
    rintro rfl
    rw [View.fate_bury_self] at hu
    cases killed with
    | true => simp at hu
    | false =>
      obtain ⟨-, ⟨c, hc⟩, -⟩ := hd.bySelf rfl
      simp [hc] at hu
  exact ⟨hne, by rwa [View.fate_bury _ _ _ _ _ hne] at hu⟩

/-- **Every transaction keeps the slots in step with the lives.**

**Proof sketch.** By the transaction. A thread becomes dead in `bury` only, and alive in `spawn`
only, and both write it into the history. A thread that gets the processor is not Destroyed, so by
`dead` it is alive; one that is put to sleep or woken stays alive. The other transactions touch
neither. -/
theorem Life.step (h : v.Life) (hs : Step v l v') : v'.Life := by
  cases hs with
  | called alive idle => exact h.emit (fun _ => rfl) ⟨alive, by rw [idle]⟩
  | returned alive fn => exact h.emit (fun _ => rfl) ⟨alive, start_of_fn fn⟩
  | started alive unstarted => exact h.emit (fun _ => rfl) ⟨alive, by rw [unstarted]⟩
  | exit calls =>
    refine ⟨fun t ht => h.alive t ?_, fun t ht hst => ?_, calls.alive, h.lively⟩
    · rcases eq_or_ne v.current t with rfl | hne
      · simp at ht
      · simpa [hne] using ht
    · have hne : v.current ≠ t := Ne.symm ht
      simpa [hne] using h.dead t ht hst
  | create calls pos valid dead => exact (h.spawn dead _ _).pushReady _
  | discard => exact ⟨h.alive, h.dead, h.lively⟩
  | @dispatch t ts picks awake =>
    have ht := h.dead _ picks.ne (by rw [picks.running]; decide)
    have hready : (v.setReady ts).Life := ⟨h.alive, h.dead, h.lively⟩
    exact hready.switchTo ht fun hst => (awake hst).alive
  | yieldTo calls valid state ne => exact h.switchTo (h.dead _ ne state) fun _ => calls.alive
  | @sleep f q o o' t es ts calls sleeps access queue lock picks =>
    have ht := h.dead _ picks.ne (by rw [picks.running]; decide)
    have hst := (h.setState (s := .Sleep) (h.alive _ calls.alive) (by decide))
    have hasleep : ((v.asleep v.current q o' es).setReady ts).Life :=
      ⟨hst.alive, hst.dead, trivial, h.lively⟩
    exact hasleep.switchTo ht fun _ => calls.alive
  | sleepNone calls =>
    have hst := (h.setState (s := .Sleep) (h.alive _ calls.alive) (by decide)).setState
      (t := v.current)
      (s := .Running) (by simp) (by decide)
    exact ⟨hst.alive, hst.dead, trivial, trivial, h.lively⟩
  | @wait x t c ts calls valid state ne waiter picks =>
    have ht := h.dead _ picks.ne (by rw [picks.running]; decide)
    have hst := (h.setState (s := .Sleep) (h.alive _ calls.alive) (by decide))
    have hawaiting : ((v.awaiting v.current x).setReady ts).Life :=
      ⟨hst.alive, hst.dead, trivial, h.lively⟩
    exact hawaiting.switchTo ht fun _ => calls.alive
  | waitNone calls =>
    have hst := (h.setState (s := .Sleep) (h.alive _ calls.alive) (by decide))
    refine ⟨hst.alive, hst.dead, ⟨calls.alive, ?_⟩, trivial, h.lively⟩
    simp [calls.progress]
  | @wake f q o o' t es calls wakes access queue state =>
    have hst := (h.setState (t := t) (s := .Running) (by rw [state]; decide) (by decide))
    have hwoken : (((v.setQueue q (some (o', es))).setState t .Running).emit (.woken t q)).Life :=
      ⟨hst.alive, hst.dead, trivial, h.lively⟩
    exact hwoken.pushReady t
  | skip => exact ⟨h.alive, h.dead, h.lively⟩
  | die dies => exact h.bury dies
  | @dieTo t w killed rsp heap dies waiter valid state ne other =>
    have hb := h.bury dies
    have hst := hb.setState (t := w) (s := .Running) (by simp [ne, state]) (by decide)
    have hw : fate w (v.bury t killed rsp heap).trace = some .alive :=
      hb.dead w (by simpa using other) (by simp [ne, state])
    have hrelease : ((v.bury t killed rsp heap).release t w).Life :=
      ⟨hst.alive, hst.dead, trivial, hb.lively⟩
    refine hrelease.switchTo hw fun hcur => ?_
    have hcurw : v.current ≠ w := other.symm
    have hcurt : v.current ≠ t := by
      rintro rfl
      exact hcur (by simp [hcurw])
    simpa [View.fate_bury _ _ _ _ _ hcurt] using dies.current.resolve_left hcurt
  | @dieBack t killed rsp heap dies waiter state ne =>
    have hb := h.bury dies
    have hst := hb.setState (t := v.current) (s := .Running) (by simp [ne, state]) (by decide)
    exact ⟨hst.alive, hst.dead, trivial, hb.lively⟩
  | take => exact ⟨h.alive, h.dead, h.lively⟩
  | give => exact ⟨h.alive, h.dead, h.lively⟩
  | newQueue calls =>
    exact (h.newQueue .user).emit (fun _ => rfl)
      ⟨calls.alive, start_of_fn (congrArg Progress.fn calls.progress)⟩
  | newHalf => exact ⟨h.alive, h.dead, trivial, h.lively⟩
  | @newLock l alive fn =>
    have hq := h.newQueue (.lock l)
    have hlock : ((v.newQueue (.lock l)).setLock l (some ⟨v.brk, -1⟩)).Life :=
      ⟨hq.alive, hq.dead, hq.lively⟩
    exact hlock.emit (fun _ => rfl) ⟨alive, start_of_fn (congrArg Progress.fn fn)⟩
  | @newCv c alive fn =>
    have hq := h.newQueue (.cv c)
    have hcv : ((v.newQueue (.cv c)).setCv c (some ⟨v.brk⟩)).Life := ⟨hq.alive, hq.dead, hq.lively⟩
    exact hcv.emit (fun _ => rfl) ⟨alive, start_of_fn (congrArg Progress.fn fn)⟩
  | @dropQueue q heap calls free =>
    have hfree : ((v.free q (v.stackStart v.current) heap).setQueue q none).Life :=
      ⟨h.alive, h.dead, trivial, h.lively⟩
    exact hfree.emit (fun _ => rfl) ⟨calls.alive, start_of_fn (congrArg Progress.fn calls.progress)⟩
  | dropHalf => exact ⟨h.alive, h.dead, trivial, trivial, h.lively⟩
  | @dropLock l heap alive fn free =>
    have hfree : ((v.free l (v.stackStart v.current) heap).setLock l none).Life :=
      ⟨h.alive, h.dead, trivial, h.lively⟩
    exact hfree.emit (fun _ => rfl) ⟨alive, start_of_fn (congrArg Progress.fn fn)⟩
  | @dropCv c heap alive fn free =>
    have hfree : ((v.free c (v.stackStart v.current) heap).setCv c none).Life :=
      ⟨h.alive, h.dead, trivial, h.lively⟩
    exact hfree.emit (fun _ => rfl) ⟨alive, start_of_fn (congrArg Progress.fn fn)⟩

end View

/-! ## Reachable states -/

variable {m : Machine} {ok : Machine → Action → Prop}

/-- At the start, thread 0 is alive and all other slots are free. -/
lemma life_threadInit (garbage : ℤ) : (abs (threadInit garbage)).Life := by
  have hst (t : Tid) : (abs (threadInit garbage)).state t =
      if t = 0 then .Running else .Destroyed := by
    rw [abs_state, threadInit]
    dsimp only
    split_ifs <;> rfl
  refine ⟨fun t ht => ?_, fun t ht h => ?_, trivial⟩
  · have h0 : t = 0 := by
      by_contra hne
      simp [threadInit, hne] at ht
    rw [hst, if_pos h0]
    decide
  · have h0 : t ≠ 0 := ht
    rw [hst, if_neg h0] at h
    exact (h rfl).elim

/-- The invariant holds in every state of a run that is not over. -/
theorem ReachableBy.life (h : ReachableBy ok m) (hrun : ¬ Stopped m) : Base m ∧ (abs m).Life :=
  (h.view life_threadInit fun _ _ _ _ _ _ _ _ hv _ _ hs => hv.step hs).resolve_left hrun

/-- While no thread is on its way out, the slots of the dead are free. -/
lemma state_destroyed_iff (hb : Base m) (hlife : (abs m).Life) {t : Tid}
    (ht : t ≠ m.currentThread ∨ m.administrativeMode = false) :
    (m.threads t).state = .Destroyed ↔ fate t m.trace ≠ some .alive := by
  constructor
  · exact fun hst halive => hlife.alive t halive hst
  · intro hdead
    by_contra hst
    rcases eq_or_ne t m.currentThread with rfl | hne
    · have hadmin := ht.resolve_left fun hne => hne rfl
      have hc := hb.control
      rw [ControlOk] at hc
      cases hcontrol : m.control <;> rw [hcontrol] at hc
      case user => exact hdead hc.1.alive
      case alloc => exact hdead hc.1.alive
      case lockLoop => exact hdead hc.1.alive
      case resumed =>
        obtain ⟨-, h | h⟩ := hc
        · exact hdead h.inside.alive
        · exact absurd (hadmin.symm.trans h.admin) (by decide)
      all_goals exact hc
    · exact hdead (hlife.dead t hne hst)

/-- **The dead stay dead.** In every run, user code of a thread is executed only while the
thread is alive, from the function on that it was created with; the processor is given to live
threads only; and the slot of a dead thread is free, until a `thread_create` fills it.

**Proof sketch.** The history is lively by `Life`, which every transaction keeps. The thread whose
user code runs is alive by the shape of the machine at rest (`ControlOk`), and the slots are
compared with the history in `state_destroyed_iff`. -/
theorem dead_stay_dead (h : Reachable m) (hrun : ¬ Stopped m) :
    Always Lively m.trace ∧
      (m.control = .user → fate m.currentThread m.trace = some .alive) ∧
      ∀ t, t ≠ m.currentThread ∨ m.administrativeMode = false →
        ((m.threads t).state = .Destroyed ↔ fate t m.trace ≠ some .alive) := by
  obtain ⟨hb, hlife⟩ := ReachableBy.life h hrun
  refine ⟨hlife.lively, fun hu => ?_, fun t => state_destroyed_iff hb hlife⟩
  have hc := hb.control
  rw [ControlOk, hu] at hc
  exact hc.1.alive

/-- A thread is killed while it waits to run, and its entry of the ready queue is dropped. -/
theorem dead_stay_dead_killed :
    let m := after 42 [.call (.threadCreate 7 8), .call (.threadKill 1), .tick]
    Always Lively m.trace ∧
      (m.control = .user → fate m.currentThread m.trace = some .alive) ∧
      ∀ t, t ≠ m.currentThread ∨ m.administrativeMode = false →
        ((m.threads t).state = .Destroyed ↔ fate t m.trace ≠ some .alive) :=
  dead_stay_dead (reachable_after (by decide)) (by decide)

end UserThreads
