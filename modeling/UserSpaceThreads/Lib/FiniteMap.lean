import Mathlib.Logic.Function.Basic

set_option relaxedAutoImplicit false
set_option autoImplicit false

/-!
# Finite maps and sequences of calls

The operations of a finite map, as a relation between the map before a call, the answer and the
map after it. A call may be refused for lack of memory, so the map and the call do not determine
the answer. Sequences of calls are compared with a concrete representation by a refinement rule,
for representations whose calls may also fail to return, and may break down.

## Main definitions

* `FiniteMap.Op`, `FiniteMap.Answer`, `FiniteMap.Call` — the operations.
* `FiniteMap.serveAll` — a sequence of calls of a representation.
* `FiniteMap.Calls` — a sequence of calls of a specification.

## Main results

* `FiniteMap.serveAll_refines` — what one call keeps, a sequence of calls keeps, up to the first
  call at which the representation breaks down.
-/

namespace FiniteMap

variable {K V : Type*}

/-- The operations. -/
inductive Op (K V : Type*)
  /-- Look a key up. -/
  | find (key : K)
  /-- Give a key a value; `memory` tells whether there is memory for it. -/
  | insert (key : K) (value : V) (memory : Bool)
  /-- Take a key away. -/
  | remove (key : K)
  /-- Take all keys away. -/
  | clear
  /-- Change the representation only. -/
  | reserve

/-- What the operations answer. -/
inductive Answer (V : Type*)
  /-- The value of the key, if it has one. -/
  | found (value : Option V)
  /-- The key has got its value; `fresh` tells whether it had none before. -/
  | inserted (fresh : Bool)
  /-- There was no memory. -/
  | refused
  /-- Nothing to be said. -/
  | done
  deriving DecidableEq

/-- One operation on a map: the map before it, the answer, and the map after it. -/
inductive Call [DecidableEq K] : Op K V → (K → Option V) → Answer V → (K → Option V) → Prop
  | find {k : K} {f : K → Option V} : Call (.find k) f (.found (f k)) f
  | insert {k : K} {v : V} {memory : Bool} {f : K → Option V} :
      Call (.insert k v memory) f (.inserted (f k).isNone) (Function.update f k (some v))
  | refuse {k : K} {v : V} {f : K → Option V} : Call (.insert k v false) f .refused f
  | remove {k : K} {f : K → Option V} : Call (.remove k) f .done (Function.update f k none)
  | clear {f : K → Option V} : Call .clear f .done fun _ => none
  | reserve {f : K → Option V} : Call .reserve f .done f

/-! ## Sequences of calls -/

section Sequences

variable {ι ρ σ τ : Type*}

/-- The answers to a sequence of calls and the state after it, if all of them return. -/
def serveAll (serve : ι → σ → Option (ρ × σ)) : List ι → σ → Option (List ρ × σ)
  | [], s => some ([], s)
  | op :: ops, s =>
    (serve op s).bind fun r => (serveAll serve ops r.2).map fun rs => (r.1 :: rs.1, rs.2)

/-- A sequence of calls of a specification. -/
inductive Calls (spec : ι → τ → ρ → τ → Prop) : List ι → τ → List ρ → τ → Prop
  | nil {t : τ} : Calls spec [] t [] t
  | cons {op : ι} {ops : List ι} {r : ρ} {rs : List ρ} {t t' t'' : τ} :
      spec op t r t' → Calls spec ops t' rs t'' → Calls spec (op :: ops) t (r :: rs) t''

/-- The calls `ops` from `s₀` and `t₀` come to a call at which `Breaks` holds: those before it
return and answer as specified, and keep the relation `Rep` up to the state at which it comes. -/
def BreaksAt (serve : ι → σ → Option (ρ × σ)) (spec : ι → τ → ρ → τ → Prop) (Rep : σ → τ → Prop)
    (Breaks : ι → σ → Prop) (ops : List ι) (s₀ : σ) (t₀ : τ) : Prop :=
  ∃ done op rest rs s t, ops = done ++ op :: rest ∧ serveAll serve done s₀ = some (rs, s) ∧
    Calls spec done t₀ rs t ∧ Rep s t ∧ Breaks op s

/-- **The refinement rule.** If every call returns, answers as specified and keeps the relation
between the concrete and the abstract state, unless the representation breaks down at it, then so
does every sequence of calls, up to the first call at which this happens.

**Proof sketch.** Induction on the calls. The first one breaks down, or the induction hypothesis is
about the states behind it; a call that breaks down later has one more call before it. -/
theorem serveAll_refines (serve : ι → σ → Option (ρ × σ)) (spec : ι → τ → ρ → τ → Prop)
    (Rep : σ → τ → Prop) (Breaks : ι → σ → Prop) (ops : List ι)
    (hcall : ∀ op ∈ ops, ∀ s t, Rep s t →
      (∃ r s' t', serve op s = some (r, s') ∧ spec op t r t' ∧ Rep s' t') ∨ Breaks op s)
    {s : σ} {t : τ} (h : Rep s t) :
    (∃ rs s' t', serveAll serve ops s = some (rs, s') ∧ Calls spec ops t rs t' ∧ Rep s' t') ∨
      BreaksAt serve spec Rep Breaks ops s t := by
  induction ops generalizing s t with
  | nil => exact .inl ⟨[], s, t, rfl, .nil, h⟩
  | cons op ops ih =>
    rcases (hcall op List.mem_cons_self s t h).symm with
      hbreaks | ⟨r, s₁, t₁, hserve, hspec, h₁⟩
    · exact .inr ⟨[], op, ops, [], s, t, rfl, rfl, .nil, h, hbreaks⟩
    rcases ih (fun op' hop' => hcall op' (List.mem_cons_of_mem op hop')) h₁ with
      ⟨rs, s', t', hserves, hspecs, h'⟩ |
      ⟨done, op', rest, rs, s', t', rfl, hserves, hspecs, h', hbreaks⟩
    · refine .inl ⟨r :: rs, s', t', ?_, .cons hspec hspecs, h'⟩
      rw [serveAll, hserve, Option.bind_some, hserves, Option.map_some]
    · refine .inr ⟨op :: done, op', rest, r :: rs, s', t', rfl, ?_, .cons hspec hspecs, h', hbreaks⟩
      rw [serveAll, hserve, Option.bind_some, hserves, Option.map_some]

end Sequences

end FiniteMap
