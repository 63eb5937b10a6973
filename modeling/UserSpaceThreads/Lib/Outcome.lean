import Mathlib.Init

set_option relaxedAutoImplicit false
set_option autoImplicit false

/-!
# Calls that may not return

The outcome of running a function of a program that can give up the processor: it returns a
value to its caller in some state, or control leaves for good (another computation has been
entered, or the program has stopped) in some state. `Outcome.All` states what holds in either
case; its rules are the rules of pre- and postconditions for such functions.

## Main definitions

* `Outcome` — the outcome of a call; `Outcome.bind` — sequencing.
* `Outcome.All` — a postcondition for a return and one for leaving.
* `Outcome.state` — the state at the end, in either case.

## Main results

* `Outcome.All.bind` — the rule of sequencing; `Outcome.All.mono` — the rule of consequence.
-/

/-- The outcome of a call in a program with states `σ`: it returns `a`, or control leaves. -/
inductive Outcome (σ α : Type*) where
  | ret (a : α) (s : σ)
  | jump (s : σ)

namespace Outcome

variable {σ α β : Type*}

/-- Continue after a call that returns. -/
def bind (o : Outcome σ α) (f : α → σ → Outcome σ β) : Outcome σ β :=
  match o with
  | ret a s => f a s
  | jump s => jump s

/-- Sequencing after a return. -/
@[simp] lemma bind_ret (a : α) (s : σ) (f : α → σ → Outcome σ β) : (ret a s).bind f = f a s := rfl

/-- Nothing follows a call that does not return. -/
@[simp] lemma bind_jump (s : σ) (f : α → σ → Outcome σ β) : (jump s).bind f = jump s := rfl

/-- Sequencing after a case distinction. -/
@[simp] lemma bind_ite (p : Prop) [Decidable p] (x y : Outcome σ α) (f : α → σ → Outcome σ β) :
    (if p then x else y).bind f = if p then x.bind f else y.bind f := by
  split <;> rfl

/-- The state in which the call returns or control leaves. -/
def state : Outcome σ α → σ
  | ret _ s => s
  | jump s => s

/-- The state behind a return. -/
@[simp] lemma state_ret (a : α) (s : σ) : (ret a s).state = s := rfl

/-- The state behind a jump. -/
@[simp] lemma state_jump (s : σ) : (jump s : Outcome σ α).state = s := rfl

/-- `Q` holds of the value and the state of a return, and `J` of the state control leaves in. -/
def All (Q : α → σ → Prop) (J : σ → Prop) : Outcome σ α → Prop
  | ret a s => Q a s
  | jump s => J s

variable {Q Q' : α → σ → Prop} {R : β → σ → Prop} {J J' : σ → Prop}

/-- The rule for a return. -/
@[simp] lemma all_ret {a : α} {s : σ} : (ret a s).All Q J ↔ Q a s := Iff.rfl

/-- The rule for leaving. -/
@[simp] lemma all_jump {s : σ} : (jump s : Outcome σ α).All Q J ↔ J s := Iff.rfl

/-- **The rule of sequencing.** -/
lemma All.bind {o : Outcome σ α} {f : α → σ → Outcome σ β} (h : o.All Q J)
    (hf : ∀ a s, Q a s → (f a s).All R J) : (o.bind f).All R J := by
  cases o with
  | ret a s => exact hf a s h
  | jump s => exact h

/-- **The rule of consequence.** -/
lemma All.mono {o : Outcome σ α} (h : o.All Q J) (hQ : ∀ a s, Q a s → Q' a s)
    (hJ : ∀ s, J s → J' s) : o.All Q' J' := by
  cases o with
  | ret a s => exact hQ a s h
  | jump s => exact hJ s h

/-- The rule of sequencing, with a weaker condition for leaving. -/
lemma All.bind' {o : Outcome σ α} {f : α → σ → Outcome σ β} (h : o.All Q J)
    (hf : ∀ a s, Q a s → (f a s).All R J') (hJ : ∀ s, J s → J' s) : (o.bind f).All R J' :=
  (h.mono (fun _ _ hq => hq) hJ).bind hf

end Outcome
