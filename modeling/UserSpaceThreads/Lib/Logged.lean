import UserSpaceThreads.Lib.Outcome

set_option relaxedAutoImplicit false
set_option autoImplicit false

/-!
# Computations that keep a log

A computation that may not return and that writes log entries while it runs. Erasing the log
gives back a plain outcome, so a program can be written a second time with log entries and be
shown to compute what it computed before. `Logged.Meets` states what holds of every entry, of
a return and of leaving; its rules execute a program symbolically.

## Main definitions

* `Logged` — computations with a log; `Logged.log` and `Logged.erase` — their two parts.
* `Logged.Meets` — a condition on log entries together with a postcondition.

## Main results

* `Logged.erase_bind` — erasing commutes with sequencing.
* `Logged.Meets.bind` — the rule of sequencing; `Logged.Meets.mono` — the rule of consequence.
-/

/-- A computation in a program with states `σ` that writes log entries `ω`. -/
def Logged (σ ω α : Type) := σ → List ω × Outcome σ α

namespace Logged

variable {σ ω α β : Type}

/-- What the computation writes. -/
def log (x : Logged σ ω α) (s : σ) : List ω := (x s).1

/-- What the computation does. -/
def erase (x : Logged σ ω α) (s : σ) : Outcome σ α := (x s).2

/-- The entries of `f` after a return. -/
def logAfter (o : Outcome σ α) (f : α → Logged σ ω β) : List ω :=
  match o with
  | .ret a s => (f a).log s
  | .jump _ => []

instance : Monad (Logged σ ω) where
  pure a := fun s => ([], .ret a s)
  bind x f := fun s =>
    (x.log s ++ logAfter (x.erase s) f, (x.erase s).bind fun a s => (f a).erase s)

/-- Read the state. -/
def get : Logged σ ω σ := fun s => ([], .ret s s)

/-- Change the state. -/
def modify (f : σ → σ) : Logged σ ω Unit := fun s => ([], .ret () (f s))

/-- Write an entry that may depend on the state. -/
def tell (w : σ → ω) : Logged σ ω Unit := fun s => ([w s], .ret () s)

/-- Control leaves. -/
def leave (f : σ → σ) : Logged σ ω α := fun s => ([], .jump (f s))

/-! ## Erasing the log -/

section Erase

variable (x : Logged σ ω α) (f : α → Logged σ ω β) (g : σ → σ) (w : σ → ω) (a : α) (s : σ)

/-- A value, without a log. -/
@[simp] lemma erase_pure : (pure a : Logged σ ω α).erase s = .ret a s := rfl

/-- Erasing the log commutes with sequencing. -/
@[simp] lemma erase_bind : (x >>= f).erase s = (x.erase s).bind fun a s => (f a).erase s := rfl

/-- The state is read, without a log. -/
@[simp] lemma erase_get : (get : Logged σ ω σ).erase s = .ret s s := rfl

/-- The state is updated, without a log. -/
@[simp] lemma erase_modify : (modify g : Logged σ ω Unit).erase s = .ret () (g s) := rfl

/-- An entry of the log is erased. -/
@[simp] lemma erase_tell : (tell w).erase s = .ret () s := rfl

/-- Control leaves, without a log. -/
@[simp] lemma erase_leave : (leave g : Logged σ ω α).erase s = .jump (g s) := rfl

/-- Erasing the log commutes with a test. -/
@[simp] lemma erase_ite (p : Prop) [Decidable p] (x y : Logged σ ω α) :
    (if p then x else y).erase s = if p then x.erase s else y.erase s := by
  split <;> rfl

end Erase

/-! ## Conditions on entries and results -/

/-- Every entry that the computation writes from the state `s` on satisfies `P`, a return
satisfies `Q` and leaving satisfies `J`. -/
def Meets (P : ω → Prop) (Q : α → σ → Prop) (J : σ → Prop) (x : Logged σ ω α) (s : σ) : Prop :=
  (∀ w ∈ x.log s, P w) ∧ (x.erase s).All Q J

section Meets

variable {P : ω → Prop} {Q Q' : α → σ → Prop} {R : β → σ → Prop} {J J' : σ → Prop}
  {x y : Logged σ ω α} {f : α → Logged σ ω β} {s : σ}

/-- **The rule of sequencing.** -/
lemma Meets.bind (h : x.Meets P Q J s) (hf : ∀ a s', Q a s' → (f a).Meets P R J s') :
    (x >>= f).Meets P R J s := by
  obtain ⟨hlog, hall⟩ := h
  refine ⟨fun w hw => ?_, hall.bind fun a s' ha => (hf a s' ha).2⟩
  rcases List.mem_append.mp hw with hw | hw
  · exact hlog w hw
  · cases ho : x.erase s with
    | ret a s' =>
      rw [ho] at hw hall
      exact (hf a s' hall).1 w hw
    | jump s' =>
      rw [ho] at hw
      cases hw

/-- **The rule of consequence.** -/
lemma Meets.mono (h : x.Meets P Q J s) (hQ : ∀ a s, Q a s → Q' a s) (hJ : ∀ s, J s → J' s) :
    x.Meets P Q' J' s :=
  ⟨h.1, h.2.mono hQ hJ⟩

/-- The rule of sequencing, with a weaker condition for leaving. -/
lemma Meets.bind' (h : x.Meets P Q J s) (hf : ∀ a s', Q a s' → (f a).Meets P R J' s')
    (hJ : ∀ s, J s → J' s) : (x >>= f).Meets P R J' s :=
  (h.mono (fun _ _ hq => hq) hJ).bind hf

/-- The rule for a return. -/
@[simp] lemma meets_pure {a : α} : (pure a : Logged σ ω α).Meets P Q J s ↔ Q a s := by
  simp [Meets, log, erase, pure]

/-- The rule for leaving. -/
@[simp] lemma meets_leave {g : σ → σ} : (leave g : Logged σ ω α).Meets P Q J s ↔ J (g s) := by
  simp [Meets, log, erase, leave]

/-- The rule for a change of the state. -/
@[simp] lemma meets_modify {g : σ → σ} {Q : Unit → σ → Prop} :
    (modify g : Logged σ ω Unit).Meets P Q J s ↔ Q () (g s) := by
  simp [Meets, log, erase, modify]

/-- The rule for reading the state. -/
@[simp] lemma meets_get_bind {f : σ → Logged σ ω β} :
    (get >>= f).Meets P R J s ↔ (f s).Meets P R J s := Iff.rfl

/-- The rule for a change of the state that is followed by `f`. -/
@[simp] lemma meets_modify_bind {g : σ → σ} {f : Unit → Logged σ ω β} :
    (modify g >>= f).Meets P R J s ↔ (f ()).Meets P R J (g s) := Iff.rfl

/-- The rule for a log entry. -/
@[simp] lemma meets_tell_bind {w : σ → ω} {f : Unit → Logged σ ω β} :
    (tell w >>= f).Meets P R J s ↔ P (w s) ∧ (f ()).Meets P R J s := by
  constructor
  · rintro ⟨hlog, hall⟩
    refine ⟨hlog _ (List.mem_cons_self ..), fun v hv => hlog v (List.mem_cons_of_mem _ hv), hall⟩
  · rintro ⟨hw, hlog, hall⟩
    refine ⟨fun v hv => ?_, hall⟩
    rcases List.mem_cons.mp hv with rfl | hv
    · exact hw
    · exact hlog v hv

/-- The rule for a case distinction. -/
lemma meets_ite {p : Prop} [Decidable p] (hx : p → x.Meets P Q J s) (hy : ¬ p → y.Meets P Q J s) :
    (if p then x else y).Meets P Q J s := by
  by_cases h : p
  · rw [if_pos h]
    exact hx h
  · rw [if_neg h]
    exact hy h

end Meets

end Logged
