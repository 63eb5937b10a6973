import Mathlib.Init

set_option relaxedAutoImplicit false
set_option autoImplicit false

/-!
# Histories

A history is a list of events, newest first. A property of histories often says of every event
what was true of the history before it: that a lock is given only when it is free, or that an
answer follows its question.

## Main definitions

* `History.Always` — every event of a history has a property, given the history before it.
* `History.Adds` — a history is extended by events with a property.
* `History.Since` — every event since a certain time has a property, given the history before it.

## Main results

* `History.always_iff` — the property in terms of the splittings of the history.
-/

namespace History

variable {ε : Type*}

/-- Every event of the history satisfies `p` together with the history before it. -/
def Always (p : ε → List ε → Prop) : List ε → Prop
  | [] => True
  | e :: tr => p e tr ∧ Always p tr

variable {p q : ε → List ε → Prop} {e : ε} {tr : List ε}

/-- Nothing has happened yet. -/
@[simp] lemma always_nil : Always p [] := trivial

/-- One more event. -/
@[simp] lemma always_cons : Always p (e :: tr) ↔ p e tr ∧ Always p tr := Iff.rfl

instance decidableAlways (p : ε → List ε → Prop) [∀ e tr, Decidable (p e tr)] :
    ∀ tr, Decidable (Always p tr)
  | [] => isTrue trivial
  | e :: tr =>
    have := decidableAlways p tr
    inferInstanceAs (Decidable (p e tr ∧ Always p tr))

/-- The property, read off at any point of the history.

**Proof sketch.** Induction on the history. A point of `x :: tr` is the newest event, or a point of
`tr`. -/
theorem always_iff : Always p tr ↔ ∀ later e earlier, tr = later ++ e :: earlier → p e earlier := by
  induction tr with
  | nil => simp
  | cons x tr ih =>
    rw [always_cons, ih]
    constructor
    · rintro ⟨hx, htr⟩ later e earlier heq
      cases later with
      | nil => cases heq; exact hx
      | cons y later => cases heq; exact htr later e earlier rfl
    · intro h
      exact ⟨h [] x tr rfl, fun later e earlier heq => h (x :: later) e earlier (by rw [heq]; rfl)⟩

/-- A weaker property. -/
lemma Always.mono (h : Always p tr) (hpq : ∀ e tr, p e tr → q e tr) : Always q tr := by
  induction tr with
  | nil => trivial
  | cons x tr ih => exact ⟨hpq _ _ h.1, ih h.2⟩

/-! ## Extensions -/

/-- The history `tr'` is `tr` and later events that satisfy `p`. -/
def Adds (p : ε → Prop) (tr tr' : List ε) : Prop := ∃ es, tr' = es ++ tr ∧ ∀ e ∈ es, p e

section Adds

variable {p q : ε → Prop} {tr tr' : List ε}

/-- Nothing more has happened. -/
lemma Adds.refl (p : ε → Prop) (tr : List ε) : Adds p tr tr := ⟨[], rfl, by simp⟩

/-- One more event. -/
lemma Adds.cons (h : Adds p tr tr') {e : ε} (he : p e) : Adds p tr (e :: tr') := by
  obtain ⟨es, rfl, hes⟩ := h
  refine ⟨e :: es, rfl, fun x hx => ?_⟩
  rcases List.mem_cons.mp hx with rfl | hx
  · exact he
  · exact hes x hx

/-- What has happened stays in the history. -/
lemma Adds.mem (h : Adds p tr tr') {e : ε} (he : e ∈ tr) : e ∈ tr' := by
  obtain ⟨es, rfl, -⟩ := h
  exact List.mem_append_right _ he

/-- A later event satisfies `p`. -/
lemma Adds.mem_or (h : Adds p tr tr') {e : ε} (he : e ∈ tr') : p e ∨ e ∈ tr := by
  obtain ⟨es, rfl, hes⟩ := h
  exact (List.mem_append.mp he).imp_left (hes e)

/-- **The rule for extensions**: what no event that satisfies `p` can end stays true. -/
lemma Adds.invariant {I : List ε → Prop} (h : Adds p tr tr') (hI : I tr)
    (hstep : ∀ e tr, p e → I tr → I (e :: tr)) : I tr' := by
  obtain ⟨es, rfl, hes⟩ := h
  induction es with
  | nil => exact hI
  | cons e es ih =>
    exact hstep e _ (hes e (List.mem_cons_self ..))
      (ih fun x hx => hes x (List.mem_cons_of_mem _ hx))

end Adds

/-! ## Since a certain time -/

/-- Each of the events `es`, which have followed the history `tr`, satisfies `p` together with the
history before it. -/
def Since (p : ε → List ε → Prop) (tr : List ε) : List ε → Prop
  | [] => True
  | e :: es => p e (es ++ tr) ∧ Since p tr es

section Since

variable {es : List ε}

/-- What is always so has been so since any time, and before it. -/
lemma Always.since (h : Always p (es ++ tr)) : Since p tr es ∧ Always p tr := by
  induction es with
  | nil => exact ⟨trivial, h⟩
  | cons e es ih =>
    obtain ⟨hes, htr⟩ := ih h.2
    exact ⟨⟨h.1, hes⟩, htr⟩

/-- A weaker property. -/
lemma Since.mono (h : Since p tr es) (hpq : ∀ e tr, p e tr → q e tr) : Since q tr es := by
  induction es with
  | nil => trivial
  | cons e es ih => exact ⟨hpq _ _ h.1, ih h.2⟩

/-- Further events that satisfy `p` after any history. -/
lemma Since.append (h : Since p tr es) {es' : List ε} (hes' : ∀ e ∈ es', ∀ tr, p e tr) :
    Since p tr (es' ++ es) := by
  induction es' with
  | nil => exact h
  | cons e es' ih =>
    exact ⟨hes' e (List.mem_cons_self ..) _, ih fun x hx => hes' x (List.mem_cons_of_mem _ hx)⟩

end Since

end History
