import Mathlib.Data.Nat.Notation

set_option relaxedAutoImplicit false
set_option autoImplicit false

/-!
# Bounded double-ended sequences

A *bounded double-ended sequence* is a list with room for `N` values: values are appended at
the back while there is room, and taken from either end. This file has its operations, the
runs of arbitrary sequences of calls, and the rule by which another representation of the
sequence is compared with the list: what one call does carries over to every sequence of
calls.

## Main definitions

* `BoundedDeque.Op`, `BoundedDeque.Answer` — the operations and what they answer.
* `BoundedDeque.call` — one operation on the list of values.
* `BoundedDeque.run` — the answers and the state after a sequence of calls.

## Main results

* `BoundedDeque.run_refines` — a relation kept by every call, with matching answers, is kept
  by every sequence of calls, with matching answers.
-/

namespace BoundedDeque

variable {α : Type*}

/-- The operations. -/
inductive Op (α : Type*)
  /-- Append a value at the back. -/
  | push (value : α)
  /-- Take the value at the front. -/
  | pop
  /-- Take the value at the back. -/
  | popLast
  deriving DecidableEq

/-- What the operations answer. -/
inductive Answer (α : Type*)
  /-- Whether a push was accepted. -/
  | accepted (ok : Bool)
  /-- The value taken, if there was one. -/
  | taken (value : Option α)
  deriving DecidableEq

/-- One operation on a list of values with room for `N` of them, oldest value first. -/
def call (N : ℕ) : Op α → List α → Answer α × List α
  | .push value, xs =>
    if xs.length < N then (.accepted true, xs ++ [value]) else (.accepted false, xs)
  | .pop, xs => (.taken xs.head?, xs.tail)
  | .popLast, xs => (.taken xs.getLast?, xs.dropLast)

/-! ## Sequences of calls -/

section Run

variable {ι ρ ρ' σ τ : Type*}

/-- The answers to a sequence of calls and the state after it. -/
def run (call : ι → σ → ρ × σ) : List ι → σ → List ρ × σ
  | [], s => ([], s)
  | op :: ops, s =>
    ((call op s).1 :: (run call ops (call op s).2).1, (run call ops (call op s).2).2)

/-- **The refinement rule for sequences of calls.** If every call keeps the relation between
the concrete and the abstract state and its answers correspond, then so does every sequence of
calls.

**Proof sketch.** Induction on the list of calls. The first call keeps the relation, and the others
go on from the states behind it. -/
theorem run_refines {call : ι → σ → ρ × σ} {spec : ι → τ → ρ' × τ} {Rep : σ → τ → Prop}
    {encode : ρ' → ρ}
    (hcall : ∀ op s t, Rep s t →
      (call op s).1 = encode (spec op t).1 ∧ Rep (call op s).2 (spec op t).2)
    (ops : List ι) {s : σ} {t : τ} (h : Rep s t) :
    (run call ops s).1 = (run spec ops t).1.map encode ∧
      Rep (run call ops s).2 (run spec ops t).2 := by
  induction ops generalizing s t with
  | nil => exact ⟨rfl, h⟩
  | cons op ops ih =>
    obtain ⟨hanswer, hrep⟩ := hcall op s t h
    obtain ⟨hanswers, hreps⟩ := ih hrep
    simp only [run, List.map_cons]
    exact ⟨by rw [hanswer, hanswers], hreps⟩

end Run

end BoundedDeque
