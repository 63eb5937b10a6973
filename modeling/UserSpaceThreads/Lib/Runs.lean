import Mathlib.Init

set_option relaxedAutoImplicit false
set_option autoImplicit false

/-!
# Guarded runs of a transition system

A transition system is a partial step function on states, driven by actions. A *guard* is a
condition on a state and the action about to be taken there; a guarded run is one all of whose
steps meet the guard.

## Main definitions

* `Runs.Reachable` — the states of the guarded runs from given initial states.
* `Runs.Path` — guarded sequences of steps of a labelled transition relation.
* `Runs.follow` — the state after a list of actions; `Runs.followOk` — the same, checking the
  guard before every step.

## Main results

* `Runs.Reachable.invariant` — the invariant rule.
* `Runs.Reachable.mono` — runs under a stronger guard.
* `Runs.Path.invariant` — the invariant rule for paths; `Runs.Path.until` — what holds up to a
  step that ends it.
* `Runs.Reachable.simulation` — an invariant of an abstract system whose paths match the steps
  of the concrete one holds in every reachable concrete state.
* `Runs.Reachable.followOk` — executing a list of actions stays within the reachable states.
-/

namespace Runs

variable {σ α : Type*}

/-- The states of the runs that start in a state satisfying `init` and all of whose steps meet
the guard `ok`. -/
inductive Reachable (step : σ → α → Option σ) (ok : σ → α → Prop) (init : σ → Prop) : σ → Prop
  | init {s : σ} : init s → Reachable step ok init s
  | step {s s' : σ} {a : α} :
      Reachable step ok init s → ok s a → step s a = some s' → Reachable step ok init s'

variable {step : σ → α → Option σ} {ok ok' : σ → α → Prop} {init : σ → Prop}

/-- **The invariant rule.** What holds initially and is preserved by every guarded step holds
in every reachable state; the step may use that its start is reachable. -/
theorem Reachable.invariant {I : σ → Prop} (hinit : ∀ s, init s → I s)
    (hstep : ∀ s a s', Reachable step ok init s → I s → ok s a → step s a = some s' → I s')
    {s : σ} (h : Reachable step ok init s) : I s := by
  induction h with
  | init h => exact hinit _ h
  | step hr hok hs ih => exact hstep _ _ _ hr ih hok hs

/-- Runs under a stronger guard are runs under a weaker one. -/
theorem Reachable.mono (hok : ∀ s a, Reachable step ok init s → ok s a → ok' s a) {s : σ}
    (h : Reachable step ok init s) : Reachable step ok' init s := by
  induction h with
  | init h => exact .init h
  | step hr ho hs ih => exact .step ih (hok _ _ hr ho) hs

/-! ## Paths and simulation -/

section Path

variable {τ β : Type*}

/-- A sequence of steps of the relation `R`, each of which meets the guard `ok`. -/
inductive Path (R : τ → β → τ → Prop) (ok : τ → β → Prop) (v : τ) : τ → Prop
  | refl : Path R ok v v
  | tail {w u : τ} {l : β} : Path R ok v w → ok w l → R w l u → Path R ok v u

variable {R : τ → β → τ → Prop} {P P' : τ → β → Prop} {v w u : τ}

/-- Paths compose. -/
theorem Path.trans (h : Path R P v w) (h' : Path R P w u) : Path R P v u := by
  induction h' with
  | refl => exact h
  | tail _ hok hr ih => exact .tail ih hok hr

/-- Paths under a stronger guard are paths under a weaker one. -/
theorem Path.mono (hP : ∀ v l, P v l → P' v l) (h : Path R P v w) : Path R P' v w := by
  induction h with
  | refl => exact .refl
  | tail _ hok hr ih => exact .tail ih (hP _ _ hok) hr

/-- **The invariant rule for paths.** -/
theorem Path.invariant {I : τ → Prop} (hI : ∀ v l v', I v → P v l → R v l v' → I v')
    (h : Path R P v w) (hv : I v) : I w := by
  induction h with
  | refl => exact hv
  | tail _ hok hr ih => exact hI _ _ _ ih hok hr

/-- **Until.** In states that are live, what holds at the start of a path and is kept by every
step but those of `E` holds all along the path, or up to a step of `E`.

**Proof sketch.** Induction on the path. The state before a step is live, so the induction
hypothesis applies to the path up to there: either the property has held so far, and the step keeps
it or is the one of `E`, or there has been a step of `E` already, and the path behind it grows by
one step. -/
theorem Path.until {I L : τ → Prop} {E : τ → β → τ → Prop}
    (hlive : ∀ u l u', R u l u' → L u)
    (hstep : ∀ u l u', Path R P v u → I u → P u l → R u l u' → L u' → I u' ∨ E u l u')
    (h : Path R P v w) (hv : I v) (hw : L w) :
    Path R (fun u l => P u l ∧ I u) v w ∧ I w ∨
      ∃ u l u', Path R (fun u l => P u l ∧ I u) v u ∧ I u ∧ P u l ∧ R u l u' ∧ E u l u' ∧
        Path R P u' w := by
  induction h with
  | refl => exact .inl ⟨.refl, hv⟩
  | @tail u u' l hpath hok hr ih =>
    rcases ih (hlive _ _ _ hr) with ⟨hkept, hu⟩ | ⟨x, k, x', hkept, hx, hokx, hrx, hends, hrest⟩
    · rcases hstep _ _ _ hpath hu hok hr hw with hu' | hends
      · exact .inl ⟨hkept.tail ⟨hok, hu⟩ hr, hu'⟩
      · exact .inr ⟨u, l, u', hkept, hu, hok, hr, hends, .refl⟩
    · exact .inr ⟨x, k, x', hkept, hx, hokx, hrx, hends, hrest.tail hok hr⟩

/-- **Simulation.** Every step from a state in `B` either stops the system, or stays in `B` and
is matched by a path of the abstract system with labels that the step permits. Then an
invariant of the permitted abstract steps holds in every reachable state that is not stopped.

**Proof sketch.** Induction on the run. In the state before the step the invariant holds of the
abstract state; the path that matches the step consists of permitted abstract steps, and
`Path.invariant` carries the invariant along it. -/
theorem Reachable.simulation {B stopped : σ → Prop} {abs : σ → τ} {permits : σ → α → τ → β → Prop}
    {I : τ → Prop} (hinit : ∀ s, init s → B s ∧ I (abs s))
    (hstop : ∀ s a s', stopped s → step s a = some s' → False)
    (hstep : ∀ s a s', B s → step s a = some s' →
      stopped s' ∨ B s' ∧ Path R (permits s a) (abs s) (abs s'))
    (hI : ∀ s a v l v', B s → I (abs s) → ok s a → I v → permits s a v l → R v l v' → I v')
    {s : σ} (h : Reachable step ok init s) : stopped s ∨ B s ∧ I (abs s) := by
  induction h with
  | init h => exact .inr (hinit _ h)
  | step _ hok hs ih =>
    rcases ih with hst | ⟨hb, hi⟩
    · exact (hstop _ _ _ hst hs).elim
    · rcases hstep _ _ _ hb hs with hst | ⟨hb', hp⟩
      · exact .inl hst
      · exact .inr ⟨hb', hp.invariant (fun v l v' hv hl hr => hI _ _ v l v' hb hi hok hv hl hr) hi⟩

end Path

/-! ## Executing lists of actions -/

/-- The state after a list of actions, if every one of them is possible. -/
def follow (step : σ → α → Option σ) : σ → List α → Option σ
  | s, [] => some s
  | s, a :: as => (step s a).bind fun s' => follow step s' as

/-- The state after a list of actions, if every one of them is possible and meets the guard. -/
def followOk (step : σ → α → Option σ) (ok : σ → α → Prop) [∀ s a, Decidable (ok s a)] :
    σ → List α → Option σ
  | s, [] => some s
  | s, a :: as => if ok s a then (step s a).bind fun s' => followOk step ok s' as else none

/-- Executing one list of actions after another. -/
theorem follow_append {s s₁ : σ} {as bs : List α} (h : follow step s as = some s₁) :
    follow step s (as ++ bs) = follow step s₁ bs := by
  induction as generalizing s with
  | nil => cases h; rfl
  | cons a as ih =>
    rw [follow] at h
    rw [List.cons_append, follow]
    cases hs : step s a with
    | none => simp [hs] at h
    | some s' =>
      rw [hs, Option.bind_some] at h
      exact ih h

/-- Executing one list of actions after another, under a guard. -/
theorem followOk_append [∀ s a, Decidable (ok s a)] {s s₁ : σ} {as bs : List α}
    (h : followOk step ok s as = some s₁) :
    followOk step ok s (as ++ bs) = followOk step ok s₁ bs := by
  induction as generalizing s with
  | nil => cases h; rfl
  | cons a as ih =>
    rw [followOk] at h
    split at h
    · next hok =>
      rw [List.cons_append, followOk, if_pos hok]
      cases hs : step s a with
      | none => simp [hs] at h
      | some s' =>
        rw [hs, Option.bind_some] at h
        exact ih h
    · cases h

/-- Executing a list of actions under the guard stays within the reachable states.

**Proof sketch.** Induction on the list of actions. An action that the guard allows and that can be
taken extends the run by one step. -/
theorem Reachable.followOk [∀ s a, Decidable (ok s a)] {s s' : σ} {as : List α}
    (h : Reachable step ok init s) (hf : Runs.followOk step ok s as = some s') :
    Reachable step ok init s' := by
  induction as generalizing s with
  | nil => cases hf; exact h
  | cons a as ih =>
    rw [Runs.followOk] at hf
    split at hf
    · next hok =>
      cases hs : step s a with
      | none => simp [hs] at hf
      | some s₁ =>
        rw [hs, Option.bind_some] at hf
        exact ih (h.step hok hs) hf
    · cases hf

/-- Executing a list of actions stays within the states reachable without a guard. -/
theorem Reachable.follow {s s' : σ} {as : List α}
    (h : Reachable step (fun _ _ => True) init s) (hf : Runs.follow step s as = some s') :
    Reachable step (fun _ _ => True) init s' := by
  induction as generalizing s with
  | nil => cases hf; exact h
  | cons a as ih =>
    rw [Runs.follow] at hf
    cases hs : step s a with
    | none => simp [hs] at hf
    | some s₁ =>
      rw [hs, Option.bind_some] at hf
      exact ih (h.step trivial hs) hf

/-- Without its checks, executing a list of actions under a guard gives the same state. -/
theorem follow_of_followOk [∀ s a, Decidable (ok s a)] {s s' : σ} {as : List α}
    (hf : Runs.followOk step ok s as = some s') : Runs.follow step s as = some s' := by
  induction as generalizing s with
  | nil => exact hf
  | cons a as ih =>
    rw [Runs.followOk] at hf
    split at hf
    · rw [Runs.follow]
      cases hs : step s a with
      | none => simp [hs] at hf
      | some s₁ =>
        rw [hs, Option.bind_some] at hf
        exact ih hf
    · cases hf

end Runs
