import Mathlib.Algebra.BigOperators.Group.Finset.Basic
import Mathlib.Algebra.BigOperators.Group.Finset.Piecewise
import Mathlib.Algebra.Order.BigOperators.Group.Finset
import Mathlib.Algebra.Order.Group.Multiset

set_option relaxedAutoImplicit false
set_option autoImplicit false

/-!
# Hash tables with open addressing

A table is an array of cells, each of them empty, deleted or full. A key is looked for along its
probe sequence, up to the first empty cell; so a full cell can be found only as long as no cell
before it in the sequence of its key is empty. This is the invariant `Placed`. It does not
depend on the sequences, but that a search which meets no empty cell should visit every cell.

What a table holds is the multiset of the entries in its full cells, and a table stands for a
partial function from keys to values if no key has two entries.

## Main definitions

* `OpenAddressing.Cell` — the cells.
* `OpenAddressing.Placed` — no search for a key stops before it comes to the key.
* `OpenAddressing.contents` — the entries of a table.
* `OpenAddressing.Stores` — the entries are those of a partial function.

## Main results

* `OpenAddressing.Placed.absent` — a search that stops at an empty cell has missed nothing.
* `OpenAddressing.Placed.write`, `OpenAddressing.Placed.delete` — writes keep the invariant.
* `OpenAddressing.contents_update` — what a write does to the entries.
-/

namespace OpenAddressing

variable {K V : Type*}

/-- A cell of a table. -/
inductive Cell (K V : Type*)
  /-- Never used since the table was made. -/
  | empty
  /-- Used, and given free again. -/
  | deleted
  /-- In use. -/
  | full (key : K) (value : V)

/-- Whether a cell is empty can be seen without looking at keys and values. -/
instance Cell.decidableEmpty : (c : Cell K V) → Decidable (c = .empty)
  | .empty => isTrue rfl
  | .deleted => isFalse (by simp)
  | .full _ _ => isFalse (by simp)

/-- The entry of a cell. -/
def Cell.content : Cell K V → Multiset (K × V)
  | .full k v => {(k, v)}
  | .empty => 0
  | .deleted => 0

/-- A full cell has one entry. -/
@[simp] lemma Cell.content_full (k : K) (v : V) : (Cell.full k v).content = {(k, v)} := rfl

/-- An empty cell has no entry. -/
@[simp] lemma Cell.content_empty : (Cell.empty : Cell K V).content = 0 := rfl

/-- A deleted cell has no entry. -/
@[simp] lemma Cell.content_deleted : (Cell.deleted : Cell K V).content = 0 := rfl

/-- A full cell is not empty. -/
lemma Cell.full_ne_empty {k : K} {v : V} : (Cell.full k v) ≠ .empty := by
  simp

/-- A deleted cell is not empty. -/
lemma Cell.deleted_ne_empty : (Cell.deleted : Cell K V) ≠ .empty := by
  simp

/-- A cell has an entry only if it is full. -/
lemma Cell.mem_content {c : Cell K V} {k : K} {v : V} : (k, v) ∈ c.content ↔ c = .full k v := by
  cases c with
  | full k' v' =>
    rw [content_full, Multiset.mem_singleton, Prod.mk.injEq, full.injEq]
    exact ⟨fun h => ⟨h.1.symm, h.2.symm⟩, fun h => ⟨h.1.symm, h.2.symm⟩⟩
  | empty => simp
  | deleted => simp

/-- A table, as an array of cells. -/
abbrev Table (K V : Type*) := ℕ → Cell K V

/-! ## The entries of a table -/

/-- The entries in the first `n` cells. -/
def contents (tab : Table K V) (n : ℕ) : Multiset (K × V) :=
  ∑ i ∈ Finset.range n, (tab i).content

/-- An entry of the table is the entry of a cell. -/
lemma mem_contents {tab : Table K V} {n : ℕ} {k : K} {v : V} :
    (k, v) ∈ contents tab n ↔ ∃ i < n, tab i = .full k v := by
  rw [contents, Multiset.mem_sum]
  simp only [Finset.mem_range, Cell.mem_content]

/-- The entries of a table depend on its first cells only. -/
lemma contents_congr {tab tab' : Table K V} {n : ℕ} (h : ∀ i < n, tab i = tab' i) :
    contents tab n = contents tab' n :=
  Finset.sum_congr rfl fun i hi => by rw [h i (Finset.mem_range.mp hi)]

/-- A table without full cells has no entries. -/
lemma contents_of_no_full {tab : Table K V} {n : ℕ} (h : ∀ i < n, (tab i).content = 0) :
    contents tab n = 0 :=
  Finset.sum_eq_zero fun i hi => h i (Finset.mem_range.mp hi)

/-- A write takes the entry of the cell away and adds the new one. -/
lemma contents_update (tab : Table K V) {n i : ℕ} (hi : i < n) (c : Cell K V) :
    contents (Function.update tab i c) n + (tab i).content = contents tab n + c.content := by
  have hmem : i ∈ Finset.range n := Finset.mem_range.mpr hi
  have hrest : ∑ j ∈ (Finset.range n).erase i, (Function.update tab i c j).content =
      ∑ j ∈ (Finset.range n).erase i, (tab j).content :=
    Finset.sum_congr rfl fun j hj => by rw [Function.update_of_ne (Finset.ne_of_mem_erase hj)]
  have hnew := Finset.sum_erase_add (Finset.range n)
    (fun j => (Function.update tab i c j).content) hmem
  have hold := Finset.sum_erase_add (Finset.range n) (fun j => (tab j).content) hmem
  rw [Function.update_self, hrest] at hnew
  rw [contents, contents, ← hnew, ← hold, add_right_comm]

/-- Filling a cell that has no entry adds one. -/
lemma contents_fill (tab : Table K V) {n i : ℕ} (hi : i < n) (h : (tab i).content = 0) (k : K)
    (v : V) : contents (Function.update tab i (.full k v)) n = (k, v) ::ₘ contents tab n := by
  have hupdate := contents_update tab hi (.full k v)
  rwa [h, add_zero, Cell.content_full, Multiset.add_comm, Multiset.singleton_add] at hupdate

/-- Clearing a full cell takes its entry away. -/
lemma contents_clear {tab : Table K V} {n i : ℕ} (hi : i < n) {k : K} {v : V}
    (h : tab i = .full k v) :
    contents tab n = (k, v) ::ₘ contents (Function.update tab i .deleted) n := by
  have hupdate := contents_update tab hi .deleted
  rw [h, Cell.content_deleted, add_zero, Cell.content_full, Multiset.add_comm,
    Multiset.singleton_add] at hupdate
  exact hupdate.symm

/-! ## The number of cells in use -/

/-- The number of cells that are not empty. -/
def occupied (tab : Table K V) (n : ℕ) : ℕ :=
  ((Finset.range n).filter fun i => tab i ≠ .empty).card

/-- If not all cells are in use, one is empty. -/
lemma exists_empty {tab : Table K V} {n : ℕ} (h : occupied tab n < n) :
    ∃ i < n, tab i = .empty := by
  by_contra hnone
  push Not at hnone
  have hall : ((Finset.range n).filter fun i => tab i ≠ .empty) = Finset.range n :=
    Finset.filter_true_of_mem fun i hi => hnone i (Finset.mem_range.mp hi)
  rw [occupied, hall, Finset.card_range] at h
  exact lt_irrefl _ h

/-- Using an empty cell. -/
lemma occupied_fill {tab : Table K V} {n i : ℕ} (hi : i < n) (h : tab i = .empty) {c : Cell K V}
    (hc : c ≠ .empty) : occupied (Function.update tab i c) n = occupied tab n + 1 := by
  have hset : ((Finset.range n).filter fun j => Function.update tab i c j ≠ .empty) =
      insert i ((Finset.range n).filter fun j => tab j ≠ .empty) := by
    ext j
    by_cases hj : j = i
    · subst hj
      simp [hi, hc]
    · simp [hj]
  rw [occupied, occupied, hset, Finset.card_insert_of_notMem (by simp [h])]

/-- Using a cell again. -/
lemma occupied_reuse {tab : Table K V} {n i : ℕ} (h : tab i ≠ .empty) {c : Cell K V}
    (hc : c ≠ .empty) : occupied (Function.update tab i c) n = occupied tab n := by
  have hset : ((Finset.range n).filter fun j => Function.update tab i c j ≠ .empty) =
      (Finset.range n).filter fun j => tab j ≠ .empty := by
    ext j
    by_cases hj : j = i
    · subst hj
      simp [h, hc]
    · simp [hj]
  rw [occupied, occupied, hset]

/-- There are at most as many entries as cells in use. -/
lemma card_contents_le (tab : Table K V) (n : ℕ) : (contents tab n).card ≤ occupied tab n := by
  rw [contents, Multiset.card_sum, occupied, Finset.card_filter]
  refine Finset.sum_le_sum fun i _ => ?_
  cases htab : tab i with
  | full k v => simp
  | empty => simp
  | deleted => simp

/-- There are at most as many entries as cells. -/
lemma card_contents_le_size (tab : Table K V) (n : ℕ) : (contents tab n).card ≤ n :=
  calc (contents tab n).card ≤ occupied tab n := card_contents_le tab n
    _ ≤ (Finset.range n).card := Finset.card_filter_le _ _
    _ = n := Finset.card_range n

/-- If no cell is deleted, there are as many entries as cells in use. -/
lemma card_contents_eq {tab : Table K V} {n : ℕ} (h : ∀ i < n, tab i ≠ .deleted) :
    (contents tab n).card = occupied tab n := by
  rw [contents, Multiset.card_sum, occupied, Finset.card_filter]
  refine Finset.sum_congr rfl fun i hi => ?_
  have hne := h i (Finset.mem_range.mp hi)
  cases htab : tab i with
  | full k v => simp
  | empty => simp
  | deleted => exact absurd htab hne

/-- If there are fewer entries than cells, some cell is not full. -/
lemma exists_free {tab : Table K V} {n : ℕ} (h : (contents tab n).card < n) :
    ∃ i < n, (tab i).content = 0 := by
  by_contra hnone
  push Not at hnone
  have hone : ∀ i ∈ Finset.range n, 1 ≤ (tab i).content.card := fun i hi =>
    Nat.one_le_iff_ne_zero.mpr fun hz =>
      hnone i (Finset.mem_range.mp hi) (Multiset.card_eq_zero.mp hz)
  have hle := Finset.sum_le_sum hone
  rw [contents, Multiset.card_sum] at h
  rw [← Finset.card_eq_sum_ones, Finset.card_range] at hle
  omega

/-! ## Searches -/

variable (seq : K → ℕ → ℕ)

/-- No cell before a full one is empty in the probe sequence of its key. -/
def Placed (tab : Table K V) (n : ℕ) : Prop :=
  ∀ i < n, ∀ k v, tab i = .full k v → ∃ t, seq k t = i ∧ ∀ s < t, tab (seq k s) ≠ .empty

variable {seq}

section Placed

variable {tab : Table K V} {n : ℕ}

/-- A table without full cells. -/
lemma placed_of_no_full (h : ∀ i < n, (tab i).content = 0) : Placed seq tab n := by
  intro i hi k v hfull
  have hz := h i hi
  rw [hfull] at hz
  exact absurd hz (Multiset.singleton_ne_zero _)

/-- **A search that stops at an empty cell has missed nothing**: if its key is in none of the
cells before, it is nowhere.

**Proof sketch.** Suppose that the key stands in a cell. The search for it comes to this cell, with
no empty cell on the way. Since the key is not in the cells before the empty one, the cell comes
later, and then the empty one is on the way. -/
theorem Placed.absent (h : Placed seq tab n) {k : K} {t : ℕ} (hstop : tab (seq k t) = .empty)
    (hbefore : ∀ s < t, ∀ v, tab (seq k s) ≠ .full k v) (v : V) : (k, v) ∉ contents tab n := by
  intro hmem
  obtain ⟨i, hi, hfull⟩ := mem_contents.mp hmem
  obtain ⟨u, hu, hnonempty⟩ := h i hi k v hfull
  rcases Nat.lt_trichotomy u t with hlt | rfl | hlt
  · exact hbefore u hlt v (by rw [hu, hfull])
  · rw [hu, hfull] at hstop
    cases hstop
  · exact hnonempty t hlt hstop

/-- **A write where the search for its key comes by** keeps the invariant.

**Proof sketch.** A write makes no cell empty, so the other keys are still found. The search for the
key that is written comes to the cell, with no empty cell on the way, by the hypothesis. -/
theorem Placed.write (h : Placed seq tab n) {k : K} {t : ℕ} (v : V)
    (hbefore : ∀ s < t, tab (seq k s) ≠ .empty) :
    Placed seq (Function.update tab (seq k t) (.full k v)) n := by
  have hkeep : ∀ j, tab j ≠ .empty →
      Function.update tab (seq k t) (.full k v) j ≠ .empty := by
    intro j hj
    rw [Function.update_apply]
    split_ifs
    · exact Cell.full_ne_empty
    · exact hj
  intro i hi k' v' hfull
  rw [Function.update_apply] at hfull
  split_ifs at hfull with hit
  · obtain ⟨rfl, rfl⟩ := Cell.full.inj hfull
    exact ⟨t, hit.symm, fun s hs => hkeep _ (hbefore s hs)⟩
  · obtain ⟨u, hu, hnonempty⟩ := h i hi k' v' hfull
    exact ⟨u, hu, fun s hs => hkeep _ (hnonempty s hs)⟩

/-- A new value for a key in its cell. -/
lemma Placed.rewrite (h : Placed seq tab n) {i : ℕ} (hi : i < n) {k : K} {v : V}
    (hfull : tab i = .full k v) (w : V) : Placed seq (Function.update tab i (.full k w)) n := by
  obtain ⟨t, rfl, hbefore⟩ := h i hi k v hfull
  exact h.write w hbefore

/-- Deleting an entry. -/
lemma Placed.delete (h : Placed seq tab n) (i : ℕ) :
    Placed seq (Function.update tab i .deleted) n := by
  intro j hj k v hfull
  rw [Function.update_apply] at hfull
  split_ifs at hfull
  obtain ⟨t, ht, hbefore⟩ := h j hj k v hfull
  refine ⟨t, ht, fun s hs => ?_⟩
  rw [Function.update_apply]
  split_ifs
  · exact Cell.deleted_ne_empty
  · exact hbefore s hs

end Placed

/-! ## The partial function that a table stands for -/

/-- The entries are those of the partial function `f`, one for each key. -/
structure Stores (es : Multiset (K × V)) (f : K → Option V) : Prop where
  nodup : (es.map Prod.fst).Nodup
  mem_iff : ∀ k v, (k, v) ∈ es ↔ f k = some v

/-- The key of an entry. -/
lemma mem_keys {es : Multiset (K × V)} {k : K} {v : V} (h : (k, v) ∈ es) : k ∈ es.map Prod.fst :=
  Multiset.mem_map.mpr ⟨(k, v), h, rfl⟩

namespace Stores

variable {es : Multiset (K × V)} {f : K → Option V}

/-- No entries. -/
lemma empty : Stores (0 : Multiset (K × V)) fun _ => none := ⟨by simp, by simp⟩

/-- A key that is not there has no entry. -/
lemma eq_none_iff (h : Stores es f) {k : K} : f k = none ↔ ∀ v, (k, v) ∉ es := by
  rw [Option.eq_none_iff_forall_ne_some]
  exact forall_congr' fun v => by rw [h.mem_iff]

variable [DecidableEq K]

/-- One entry more. -/
lemma cons (h : Stores es f) {k : K} (hk : f k = none) (v : V) :
    Stores ((k, v) ::ₘ es) (Function.update f k (some v)) where
  nodup := by
    rw [Multiset.map_cons, Multiset.nodup_cons]
    refine ⟨fun hmem => ?_, h.nodup⟩
    obtain ⟨⟨k', w⟩, hentry, rfl⟩ := Multiset.mem_map.mp hmem
    exact (h.eq_none_iff.mp hk) w hentry
  mem_iff k' w := by
    rw [Multiset.mem_cons, h.mem_iff, Prod.mk.injEq, Function.update_apply]
    split_ifs with heq
    · subst heq
      simp [hk, eq_comm]
    · simp [heq]

/-- One entry less.

**Proof sketch.** The keys are different, so the entry that is taken away was the only one with its
key. -/
lemma tail {k : K} {v : V} (h : Stores ((k, v) ::ₘ es) f) :
    Stores es (Function.update f k none) where
  nodup := by
    have hnodup := h.nodup
    rw [Multiset.map_cons, Multiset.nodup_cons] at hnodup
    exact hnodup.2
  mem_iff k' w := by
    have hnodup := h.nodup
    rw [Multiset.map_cons, Multiset.nodup_cons] at hnodup
    have hiff := h.mem_iff k' w
    rw [Multiset.mem_cons, Prod.mk.injEq] at hiff
    rw [Function.update_apply]
    split_ifs with heq
    · subst heq
      simp only [iff_false]
      exact fun hmem => hnodup.1 (mem_keys hmem)
    · rw [← hiff]
      simp [heq]

/-- The entry of a key exchanged for another one. -/
lemma exchange {k : K} {v : V} (h : Stores ((k, v) ::ₘ es) f) (w : V) :
    Stores ((k, w) ::ₘ es) (Function.update f k (some w)) := by
  have htail := h.tail.cons (Function.update_self ..) w
  rwa [Function.update_idem] at htail

end Stores

end OpenAddressing
