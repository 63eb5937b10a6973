import UserSpaceThreads.KhashResize
import UserSpaceThreads.Lib.FiniteMap

set_option relaxedAutoImplicit false
set_option autoImplicit false

/-!
# The hash table is a finite map

`kh_put` makes room before it looks for a bucket. This works up to `2 ^ 31` buckets, where
`kroundup32` overflows and `kh_resize` does nothing. From then on the table fills up, and once all
`2 ^ 31` buckets have an entry `kh_put` answers that a new key was there already, and gives the
bucket of another key. Up to this point every sequence of calls does to the table what it does to a
map, until a `kh_resize` loses an array: this happens if the table becomes smaller and memory for a
shorter array is refused. Any other request may be refused.

## Main definitions

* `UserThreads.KhashOp` — the ways in which the table is used.
* `UserThreads.insertedKeys` — the keys that a sequence of calls inserts.

## Main results

* `UserThreads.khPut_exact` — when `kh_put` puts a key in, and what it answers.
* `UserThreads.khash_refines_map` — every sequence of calls against a finite map.
-/

namespace UserThreads

open OpenAddressing TriangularProbing

variable {K V : Type}

/-- All requests for memory are answered. -/
def Memory.all (mem : Memory) : Bool := mem.flags && mem.keys && mem.vals

/-- The answers of a machine that has memory. -/
def Memory.granted : Memory := ⟨true, true, true⟩

namespace Khash.Represents

variable {hashFunc : K → BitVec 32} {h : Khash K V} {f : K → Option V}

/-- There are no more entries than buckets. -/
lemma size_le (hr : h.Represents hashFunc f) : h.size ≤ h.nBuckets := by
  rw [← hr.size_eq]
  exact card_contents_le_size _ _

/-- There are no more entries than buckets in use. -/
lemma size_le_nOccupied (hr : h.Represents hashFunc f) : h.size ≤ h.nOccupied := by
  rw [← hr.size_eq, ← hr.occupied_eq]
  exact card_contents_le _ _

/-- There are at most `2 ^ 31` buckets. -/
lemma nBuckets_le (hr : h.Represents hashFunc f) : h.nBuckets ≤ 2 ^ 31 := by
  rcases hr.buckets with h0 | ⟨k, -, hk, hn⟩
  · omega
  · rw [hn]
    exact Nat.pow_le_pow_right (by decide) hk

/-- A table with `2 ^ 31` entries has as many buckets. -/
lemma nBuckets_of_full (hr : h.Represents hashFunc f) (hfull : h.size = 2 ^ 31) :
    h.nBuckets = 2 ^ 31 :=
  Nat.le_antisymm hr.nBuckets_le (hfull ▸ hr.size_le)

/-! ## Making room -/

/-- How the first part of `kh_put` can end: it has run out of memory, or there is a bucket without
an entry, if not all of `2 ^ 31` have one. -/
inductive Roomy (hashFunc : K → BitVec 32) (f : K → Option V) (h : Khash K V) (mem : Memory) :
    ResizeEnd K V → Prop
  | refused (hmem : mem.all = false) : Roomy hashFunc f h mem (.answered (-1) h)
  | room {h' : Khash K V} (represents : h'.Represents hashFunc f) (buckets : h'.nBuckets ≠ 0)
      (size : h'.size = h.size) (free : h.size < 2 ^ 31 → h.size < h'.nBuckets) :
      Roomy hashFunc f h mem (.answered 0 h')

/-- A resize that does not make the table smaller makes room, if it is not refused as too small.

**Proof sketch.** If the resize is done, the size is below the bound of the load, which is below the
number of buckets. If it is refused as too small, the table is as it was, and the hypothesis on
small sizes says that it has room. It does not lose an array, for the table does not shrink. -/
lemma roomy_of_resized (hr : h.Represents hashFunc f) {newNBuckets : ℕ} {mem : Memory}
    {e : ResizeEnd K V} (hres : Resized hashFunc f h newNBuckets mem e)
    (hsmall : acHashUpper (khRoundup newNBuckets) ≤ h.size →
      h.nBuckets ≠ 0 ∧ (h.size < 2 ^ 31 → h.size < h.nBuckets))
    (hkeep : h.size < acHashUpper (khRoundup newNBuckets) → h.nBuckets ≤ khRoundup newNBuckets) :
    Roomy hashFunc f h mem e := by
  obtain ⟨k, h2, hk, hn⟩ := khRoundup_eq newNBuckets
  have hfour : 2 ^ 2 ≤ 2 ^ k := Nat.pow_le_pow_right (by decide) h2
  have hupper : acHashUpper (khRoundup newNBuckets) < khRoundup newNBuckets :=
    acHashUpper_lt (by omega)
  cases hres with
  | small hle => exact .room hr (hsmall hle).1 rfl (hsmall hle).2
  | refused hroom hmem =>
    refine .refused (Bool.eq_false_iff.mpr fun hall => hmem ?_)
    rw [Memory.all, Bool.and_eq_true, Bool.and_eq_true] at hall
    exact ⟨hall.1.1, fun _ => ⟨hall.1.2, hall.2⟩⟩
  | lost hloses => exact absurd hloses.2.1 (hkeep hloses.1).not_gt
  | rehashed hroom hflags hmem represents hbuckets hsize hoccupied =>
    exact .room represents (by omega) hsize fun _ => by omega

/-- **`kh_put` makes room**, as long as the number of buckets can grow.

**Proof sketch.** A table that is loaded less than its bound has an empty bucket. If it has more
than twice as many buckets as entries it is rehashed with the same number of buckets, and otherwise
with twice as many; both times the load factor allows it, up to `2 ^ 31` buckets, where the number
asked for overflows. In no case does the table become smaller, so no array is lost. -/
theorem khPutResize (hr : h.Represents hashFunc f) (mem : Memory) :
    ∃ e, UserThreads.khPutResize hashFunc h mem = some e ∧ Roomy hashFunc f h mem e := by
  have hsize := hr.size_le
  have hbound := hr.nBuckets_le
  have hoccupied := hr.size_le_nOccupied
  rw [UserThreads.khPutResize]
  by_cases hupper : h.nOccupied ≥ h.upperBound
  swap
  · rw [if_neg hupper]
    rw [hr.upper_eq] at hupper
    have h0 : h.nBuckets ≠ 0 := fun h0 => hupper (by rw [h0]; exact Nat.zero_le _)
    obtain ⟨k, h2, -, hn⟩ := hr.pow_buckets h0
    have hfour : 2 ^ 2 ≤ 2 ^ k := Nat.pow_le_pow_right (by decide) h2
    have hlt : acHashUpper h.nBuckets < h.nBuckets := acHashUpper_lt (by omega)
    exact ⟨_, rfl, .room hr h0 rfl fun _ => by omega⟩
  rw [if_pos hupper]
  by_cases hhalf : h.nBuckets > (h.size <<< 1) % 2 ^ 32
  · -- many buckets are deleted, or the table has `2 ^ 31` entries
    rw [if_pos hhalf]
    obtain ⟨e, heq, hres⟩ := hr.khResize (pred32 h.nBuckets) mem
    have h0 : h.nBuckets ≠ 0 := by omega
    obtain ⟨k, h2, hk, hn⟩ := hr.pow_buckets h0
    have hfour : 2 ^ 2 ≤ 2 ^ k := Nat.pow_le_pow_right (by decide) h2
    have hround : khRoundup (pred32 h.nBuckets) = h.nBuckets := by
      rw [hn, khRoundup_pred h2 hk]
    refine ⟨e, heq, hr.roomy_of_resized hres (fun hle => ⟨h0, fun hlt => ?_⟩)
      fun _ => hround.ge⟩
    rw [hround] at hle
    rw [Nat.shiftLeft_eq, Nat.mod_eq_of_lt (by omega)] at hhalf
    have := lt_acHashUpper (m := h.size) (n := h.nBuckets) (by omega) (by omega)
    omega
  · -- the number of buckets is doubled, if it can be
    rw [if_neg hhalf]
    obtain ⟨e, heq, hres⟩ := hr.khResize ((h.nBuckets + 1) % 2 ^ 32) mem
    refine ⟨e, heq, ?_⟩
    by_cases h0 : h.nBuckets = 0
    · rw [h0] at hres hsize
      have hinit : acHashUpper (khRoundup ((0 + 1) % 2 ^ 32)) = 3 := by decide
      exact hr.roomy_of_resized hres (fun hle => by omega) fun _ => by omega
    obtain ⟨k, h2, hk, hn⟩ := hr.pow_buckets h0
    by_cases h31 : k = 31
    · -- the number asked for overflows, and this is refused as too small
      subst h31
      have hover : acHashUpper (khRoundup ((2 ^ 31 + 1) % 2 ^ 32)) = 3 := by decide
      rw [Nat.shiftLeft_eq] at hhalf
      rw [hn] at hres
      exact hr.roomy_of_resized hres (fun _ => ⟨h0, fun hlt => by omega⟩) fun hlt => by omega
    · have hfour : 2 ^ 2 ≤ 2 ^ k := Nat.pow_le_pow_right (by decide) h2
      have hpow : 2 ^ (k + 1) = 2 * 2 ^ k := pow_succ' 2 k
      have hround : khRoundup ((h.nBuckets + 1) % 2 ^ 32) = 2 ^ (k + 1) := by
        rw [hn, khRoundup_succ h2 (by omega)]
      refine hr.roomy_of_resized hres (fun hle => ⟨h0, fun hlt => ?_⟩) fun _ => by omega
      rw [hround] at hle
      have := lt_acHashUpper (m := h.size) (n := 2 ^ (k + 1)) (by omega) (by omega)
      omega

/-! ## `kh_put` -/

/-- A table of `2 ^ 31` entries is left as it is.

**Proof sketch.** With `2 ^ 31` entries all buckets are in use. `kh_put` asks for a rehash at the
same size, twice the size having overflowed to `0`, and `kh_resize` finds this too small. -/
lemma khPutResize_of_full (hr : h.Represents hashFunc f) (hfull : h.size = 2 ^ 31)
    (mem : Memory) : UserThreads.khPutResize hashFunc h mem = some (.answered 0 h) := by
  have hn := hr.nBuckets_of_full hfull
  have hoccupied := hr.size_le_nOccupied
  have hlt : acHashUpper (2 ^ 31) < 2 ^ 31 := acHashUpper_lt (by decide)
  have hround : khRoundup (pred32 h.nBuckets) = 2 ^ 31 := by
    rw [hn, khRoundup_pred (by decide) (by decide)]
  have hupper : h.nOccupied ≥ h.upperBound := by
    rw [hr.upper_eq, hn]
    omega
  have hhalf : h.nBuckets > (h.size <<< 1) % 2 ^ 32 := by
    rw [hfull, hn]
    decide
  have hsmall : h.size ≥ acHashUpper (khRoundup (pred32 h.nBuckets)) := by
    rw [hround]
    omega
  rw [UserThreads.khPutResize, if_pos hupper, if_pos hhalf]
  exact if_pos hsmall

/-- All buckets of a table of `2 ^ 31` entries have an entry. -/
lemma acIseither_of_size_full (hr : h.Represents hashFunc f) (hfull : h.size = 2 ^ 31) {i : ℕ}
    (hi : i < h.nBuckets) : acIseither h.flags i = false := by
  by_contra hdead
  have hzero : (h.table i).content = 0 := khCells_content_eq_zero_iff.mpr (by simpa using hdead)
  have hupdate := contents_fill h.table hi hzero (h.keys i) (h.vals i)
  have hle := card_contents_le_size
    (Function.update h.table i (.full (h.keys i) (h.vals i))) h.nBuckets
  have hsize := hr.size_eq
  rw [hupdate, Multiset.card_cons] at hle
  rw [entries] at hsize
  have hn := hr.nBuckets_of_full hfull
  omega

variable [DecidableEq K]

/-- The search of `kh_put` for a new key in a table of `2 ^ 31` entries ends where it started.

**Proof sketch.** All buckets have entries with other keys, so the loop skips them all and comes
back to its start. It has seen no deleted bucket, and the code takes the bucket where it started. -/
lemma khPutSearch_of_full (hr : h.Represents hashFunc f) (hfull : h.size = 2 ^ 31) {key : K}
    (hnone : f key = none) :
    UserThreads.khPutSearch hashFunc h key = some (khProbe hashFunc h.nBuckets key 0) := by
  have hn : h.nBuckets = 2 ^ 31 := hr.nBuckets_of_full hfull
  have hlt (t : ℕ) : khProbe hashFunc h.nBuckets key t < h.nBuckets := probe_lt (by omega) _ t
  have hflags (t : ℕ) : acIsempty h.flags (khProbe hashFunc h.nBuckets key t) = false ∧
      acIsdel h.flags (khProbe hashFunc h.nBuckets key t) = false := by
    have hlive := hr.acIseither_of_size_full hfull (hlt t)
    rwa [acIseither_eq, Bool.or_eq_false_iff] at hlive
  have hskip (t : ℕ) : khSkips h key (khProbe hashFunc h.nBuckets key t) := by
    refine ⟨(hflags t).1, .inr fun hkey => ?_⟩
    have hsome := hr.eq_some (hlt t)
      (khCells_of_live h.keys h.vals (hr.acIseither_of_size_full hfull (hlt t)))
    rw [hkey, hnone] at hsome
    cases hsome
  have hloop := khPutLoop_wrap hn le_rfl hskip (t := 0) (by omega) (2 * h.nBuckets)
    (by omega)
  have hlast : lastDeleted h h.nBuckets (hashFunc key).toNat (2 * h.nBuckets - 1) =
      h.nBuckets := by
    rcases lastDeleted_cases h h.nBuckets (hashFunc key).toNat (2 * h.nBuckets - 1) with
      ⟨heq, -⟩ | ⟨s, -, -, hdel⟩
    · exact heq
    · have hnot := (hflags s).2
      rw [khProbe, hdel] at hnot
      cases hnot
  rw [UserThreads.khPutSearch, pred32_eq (by omega) (by omega)]
  simp only [start_eq hn]
  rw [lastDeleted, hlast] at hloop
  rw [if_neg (by rw [(hflags 0).1]; decide)]
  rw [khProbe, hloop, Option.map_some, khPutChoose, if_pos rfl, if_neg (by simp)]

/-- **`kh_put` puts the key in**, or answers that there is no memory and changes nothing; unless the
key is new and all of `2 ^ 31` buckets have an entry. The table in which it looks for a bucket is
`h₁`.

**Proof sketch.** `kh_put` first makes room: it is refused memory, or there is a table with a bucket
without an entry. In that table the search finds a bucket (`khPutSearch`), and the key is put there
(`khPutAt`). -/
theorem khPut_cases (hr : h.Represents hashFunc f) (key : K) (mem : Memory)
    (hroom : ¬ (f key = none ∧ h.size = 2 ^ 31)) :
    (∃ h₁ x ret h', UserThreads.khPutResize hashFunc h mem = some (.answered 0 h₁) ∧
      UserThreads.khPut hashFunc h key mem = some (x, ret, h') ∧
      Puts hashFunc f h₁ key x ret h') ∨
    UserThreads.khPut hashFunc h key mem = some (h.nBuckets, -1, h) ∧ mem.all = false := by
  obtain ⟨e, heq, hroomy⟩ := hr.khPutResize mem
  rw [UserThreads.khPut, heq, Option.bind_some]
  cases hroomy with
  | refused hmem => exact .inr ⟨rfl, hmem⟩
  | @room h₁ represents buckets size free =>
    have hle := hr.size_le
    have hbound := hr.nBuckets_le
    have hfree (hnone : f key = none) : h₁.size < h₁.nBuckets := by
      have hlt : h.size < 2 ^ 31 := by
        by_contra hge
        exact hroom ⟨hnone, by omega⟩
      rw [size]
      exact free hlt
    obtain ⟨x, hx, hsearch, hcases⟩ := represents.khPutSearch buckets hfree
    obtain ⟨ret, h', hat, hputs⟩ := represents.khPutAt hx hcases
    refine .inl ⟨h₁, x, ret, h', rfl, ?_, hputs⟩
    dsimp only
    rw [if_neg (lt_irrefl 0), hsearch, Option.map_some, hat]

/-- A new key that finds all of `2 ^ 31` buckets in use: `kh_put` answers that it was there, and
gives the bucket of another key.

**Proof sketch.** The table is left as it is, and the search ends in the bucket where it started,
which has an entry. The code does not compare the keys again, and answers `0` as if the key had been
found. -/
lemma khPut_of_full (hr : h.Represents hashFunc f) {key : K} (mem : Memory)
    (hnone : f key = none) (hfull : h.size = 2 ^ 31) :
    ∃ x k', UserThreads.khPut hashFunc h key mem = some (x, 0, h) ∧ k' ≠ key ∧
      h.table x = .full k' (h.vals x) := by
  have hn := hr.nBuckets_of_full hfull
  have hlt : khProbe hashFunc h.nBuckets key 0 < h.nBuckets := probe_lt (by omega) _ 0
  have hlive := hr.acIseither_of_size_full hfull hlt
  have hcell := khCells_of_live h.keys h.vals hlive
  refine ⟨khProbe hashFunc h.nBuckets key 0, h.keys (khProbe hashFunc h.nBuckets key 0), ?_,
    fun hkey => ?_, hcell⟩
  · rw [UserThreads.khPut, hr.khPutResize_of_full hfull, Option.bind_some]
    dsimp only
    rw [if_neg (lt_irrefl 0), hr.khPutSearch_of_full hfull hnone, Option.map_some,
      UserThreads.khPutAt]
    rw [acIseither_eq, Bool.or_eq_false_iff] at hlive
    rw [hlive.1, hlive.2]
    rfl
  · have hsome := hr.eq_some hlt hcell
    rw [hkey, hnone] at hsome
    cases hsome

end Khash.Represents

/-- **When `kh_put` works, and what it answers.** It puts the key in, or answers that there is no
memory and changes nothing; unless the key is new and all of `2 ^ 31` buckets have an entry. In this
case it answers that the key was there, and gives the bucket of another key. When it puts the key
in, `*ret` is `0` exactly if the key was there, `1` exactly if the bucket that it gets had never
been used, and `2` exactly if this bucket was a deleted one, in the table `h₁` in which it looks for
a bucket.

**Proof sketch.** `khPut_cases` and `khPut_of_full` are the two halves; what the answer says about
the bucket is `Puts.ret_iff`. -/
theorem khPut_exact [DecidableEq K] {hashFunc : K → BitVec 32} {h : Khash K V} {f : K → Option V}
    (hr : h.Represents hashFunc f) (key : K) (mem : Memory) :
    (¬ (f key = none ∧ h.size = 2 ^ 31) →
      (∃ h₁ x ret h', khPutResize hashFunc h mem = some (.answered 0 h₁) ∧
        khPut hashFunc h key mem = some (x, ret, h') ∧
        Khash.Represents.Puts hashFunc f h₁ key x ret h' ∧ (ret = 0 ↔ f key ≠ none) ∧
        (ret = 1 ↔ h₁.table x = .empty) ∧ (ret = 2 ↔ h₁.table x = .deleted)) ∨
      khPut hashFunc h key mem = some (h.nBuckets, -1, h) ∧ mem.all = false) ∧
    (f key = none ∧ h.size = 2 ^ 31 →
      ∃ x k', khPut hashFunc h key mem = some (x, 0, h) ∧ k' ≠ key ∧
        h.table x = .full k' (h.vals x)) := by
  refine ⟨fun hroom => ?_, fun ⟨hnone, hfull⟩ => hr.khPut_of_full mem hnone hfull⟩
  rcases hr.khPut_cases key mem hroom with ⟨h₁, x, ret, h', hresize, hput, hputs⟩ | hrefused
  · exact .inl ⟨h₁, x, ret, h', hresize, hput, hputs, hputs.ret_iff⟩
  · exact .inr hrefused

/-- The key `9` comes by the deleted bucket of the sample table and gets it. -/
theorem khPut_exact_sample :
    let f : BitVec 64 → Option (BitVec 64) := Function.update (fun _ => none) 4 (some 40)
    ∃ h', khPut khInt64HashFunc khSample 9 .granted = some (1, 2, h') ∧
      Khash.Represents.Puts khInt64HashFunc f khSample 9 1 2 h' := by
  intro f
  have hroom : ¬ (f 9 = none ∧ khSample.size = 2 ^ 31) := by decide
  have hresize : khPutResize khInt64HashFunc khSample .granted = some (.answered 0 khSample) := rfl
  rcases (khPut_exact represents_khSample 9 .granted).1 hroom with
    ⟨h₁, x, ret, h', hresize₁, hput, hputs, -⟩ | ⟨-, hmem⟩
  · obtain rfl : khSample = h₁ := (ResizeEnd.answered.inj (Option.some.inj
      (hresize.symm.trans hresize₁))).2
    have hplace : (khPut khInt64HashFunc khSample 9 .granted).map (fun r => (r.1, r.2.1)) =
        some (1, 2) := by decide
    rw [hput, Option.map_some, Option.some.injEq, Prod.mk.injEq] at hplace
    obtain ⟨rfl, rfl⟩ := hplace
    exact ⟨h', hput, hputs⟩
  · cases hmem

/-! ## Sequences of calls -/

/-- The ways in which the table is used. -/
inductive KhashOp (K V : Type)
  /-- `kh_get`, and `kh_value` of the bucket -/
  | get (key : K)
  /-- `kh_put`, and `kh_value(..) = val` -/
  | put (key : K) (val : V) (mem : Memory)
  /-- `kh_get` and `kh_del` -/
  | del (key : K)
  /-- `kh_clear` -/
  | clear
  /-- `kh_resize` -/
  | resize (newNBuckets : ℕ) (mem : Memory)

/-- The operation of a map that a use of the table is for. -/
def KhashOp.op : KhashOp K V → FiniteMap.Op K V
  | .get key => .find key
  | .put key val mem => .insert key val mem.all
  | .del key => .remove key
  | .clear => .clear
  | .resize _ _ => .reserve

/-- The use is a `kh_resize` that loses an array of the table. -/
def KhashOp.Loses : KhashOp K V → Khash K V → Prop
  | .resize newNBuckets mem, h => h.Loses newNBuckets mem
  | _, _ => False

/-- The table is used. The answer is `none` if a loop reaches its bound or an array is lost. -/
def khServe [DecidableEq K] (hashFunc : K → BitVec 32) :
    KhashOp K V → Khash K V → Option (FiniteMap.Answer V × Khash K V)
  | .get key, h =>
    (khGet hashFunc h key).map fun i =>
      (.found (if i = h.nBuckets then none else some (h.vals i)), h)
  | .put key val mem, h =>
    (khPut hashFunc h key mem).map fun r =>
      if r.2.1 < 0 then (.refused, r.2.2)
      else (.inserted (decide (r.2.1 ≠ 0)), khSetValue r.2.2 r.1 val)
  | .del key, h => (khGet hashFunc h key).map fun i => (.done, khDel h i)
  | .clear, h => some (.done, khClear h)
  | .resize newNBuckets mem, h =>
    (khResize hashFunc h newNBuckets mem).bind fun
      | .answered _ h => some (.done, h)
      | .lost => none

/-- The keys that are inserted. -/
def insertedKeys : List (KhashOp K V) → List K
  | [] => []
  | .put key _ _ :: ops => key :: insertedKeys ops
  | _ :: ops => insertedKeys ops

/-- A key that is put in is one of the inserted keys. -/
lemma mem_insertedKeys {ops : List (KhashOp K V)} {key : K} {val : V} {mem : Memory}
    (h : KhashOp.put key val mem ∈ ops) : key ∈ insertedKeys ops := by
  induction ops with
  | nil => cases h
  | cons op ops ih =>
    rcases List.mem_cons.mp h with rfl | hrest
    · exact List.mem_cons_self
    · cases op with
      | put key' val' mem' => exact List.mem_cons_of_mem _ (ih hrest)
      | _ => exact ih hrest

variable [DecidableEq K] {hashFunc : K → BitVec 32} {h : Khash K V} {f : K → Option V}

/-- A table with all its keys in a set has room for a new key of the set. -/
lemma Khash.Represents.room (hr : h.Represents hashFunc f) (keys : Finset K)
    (hkeys : ∀ k v, f k = some v → k ∈ keys) (hcard : keys.card ≤ 2 ^ 31) {key : K}
    (hkey : key ∈ keys) : ¬ (f key = none ∧ h.size = 2 ^ 31) := by
  rintro ⟨hnone, hfull⟩
  have hsub : (h.entries.map Prod.fst).toFinset ⊆ keys.erase key := by
    intro k hk
    obtain ⟨⟨k, v⟩, hmem, rfl⟩ := Multiset.mem_map.mp (Multiset.mem_toFinset.mp hk)
    have hsome := (hr.stores.mem_iff k v).mp hmem
    refine Finset.mem_erase.mpr ⟨?_, hkeys k v hsome⟩
    rintro rfl
    rw [hnone] at hsome
    cases hsome
  have hle := Finset.card_le_card hsub
  rw [Multiset.toFinset_card_of_nodup hr.stores.nodup, Multiset.card_map, hr.size_eq,
    Finset.card_erase_of_mem hkey] at hle
  have hpos : 0 < keys.card := Finset.card_pos.mpr ⟨key, hkey⟩
  omega

/-- `kh_put` and `kh_value(..) = val` do what the insertion does to the map, if the key is one of at
most `2 ^ 31`.

**Proof sketch.** If `kh_put` has put the key in, the value is stored in its bucket, and the answer
`0` says that the key was there. If it was refused memory, the table and the map stay. -/
lemma khServe_put_refines {keys : Finset K} (hcard : keys.card ≤ 2 ^ 31) {key : K} (val : V)
    (mem : Memory) (hkey : key ∈ keys) (hr : h.Represents hashFunc f)
    (hkeys : ∀ k v, f k = some v → k ∈ keys) :
    ∃ r h' f', khServe hashFunc (.put key val mem) h = some (r, h') ∧
      FiniteMap.Call (.insert key val mem.all) f r f' ∧ h'.Represents hashFunc f' ∧
      ∀ k v, f' k = some v → k ∈ keys := by
  rcases hr.khPut_cases key mem (hr.room keys hkeys hcard hkey) with
    ⟨h₁, x, ret, h', -, hput, hputs⟩ | ⟨hput, hmem⟩
  · have hset := hputs.represents.khSetValue hputs.lt hputs.full val
    rw [Function.update_idem] at hset
    have hfresh : decide (ret ≠ 0) = (f key).isNone := by
      rw [Bool.eq_iff_iff, decide_eq_true_iff, Option.isNone_iff_eq_none, ne_eq,
        hputs.ret_iff.1, not_not]
    refine ⟨.inserted (decide (ret ≠ 0)), khSetValue h' x val, Function.update f key (some val),
      ?_, ?_, hset, fun k v hk => ?_⟩
    · rw [khServe, hput, Option.map_some, if_neg hputs.ret_nonneg.not_gt]
    · rw [hfresh]
      exact .insert
    · rw [Function.update_apply] at hk
      split_ifs at hk with heq
      · rwa [heq]
      · exact hkeys k v hk
  · have hneg : (-1 : ℤ) < 0 := by decide
    refine ⟨.refused, h, f, by rw [khServe, hput, Option.map_some, if_pos hneg], ?_, hr, hkeys⟩
    rw [hmem]
    exact .refuse

/-- **One use of the table** does to it what the operation does to the map, unless it loses an
array.

**Proof sketch.** One case for each use, from what its function does to a table that satisfies the
invariant. Only an insertion changes the keys of the map to more of them, and only a resize can lose
an array. -/
lemma khServe_refines {keys : Finset K} (hcard : keys.card ≤ 2 ^ 31) (op : KhashOp K V)
    (hop : ∀ key val mem, op = .put key val mem → key ∈ keys) (hr : h.Represents hashFunc f)
    (hkeys : ∀ k v, f k = some v → k ∈ keys) :
    (∃ r h' f', khServe hashFunc op h = some (r, h') ∧ FiniteMap.Call op.op f r f' ∧
      h'.Represents hashFunc f' ∧ ∀ k v, f' k = some v → k ∈ keys) ∨ op.Loses h := by
  cases op with
  | get key =>
    obtain ⟨i, hget, hcases⟩ := hr.khGet key
    refine .inl ⟨_, h, f, by rw [khServe, hget]; rfl, ?_, hr, hkeys⟩
    rcases hcases with ⟨rfl, hnone⟩ | ⟨hlt, -, hsome⟩
    · rw [if_pos rfl, ← hnone]
      exact .find
    · rw [if_neg hlt.ne, ← hsome]
      exact .find
  | put key val mem =>
    exact .inl (khServe_put_refines hcard val mem (hop key val mem rfl) hr hkeys)
  | del key =>
    obtain ⟨i, hget, hcases⟩ := hr.khGet key
    refine .inl ⟨.done, khDel h i, Function.update f key none, by rw [khServe, hget]; rfl, .remove,
      ?_, ?_⟩
    · rcases hcases with ⟨rfl, hnone⟩ | ⟨hlt, hfull, -⟩
      · rw [Khash.khDel_of_not_live h (.inl rfl)]
        rwa [← hnone, Function.update_eq_self]
      · exact hr.khDel hlt hfull
    · intro k v hk
      rw [Function.update_apply] at hk
      split_ifs at hk
      exact hkeys k v hk
  | clear => exact .inl ⟨.done, khClear h, _, rfl, .clear, hr.khClear, by simp⟩
  | resize newNBuckets mem =>
    obtain ⟨e, hres, hend⟩ := hr.khResize newNBuckets mem
    have hserve : khServe hashFunc (.resize newNBuckets mem) h =
        (khResize hashFunc h newNBuckets mem).bind fun
          | .answered _ h => some (.done, h)
          | .lost => none := rfl
    rw [hserve, hres, Option.bind_some]
    cases hend with
    | small => exact .inl ⟨.done, h, f, rfl, .reserve, hr, hkeys⟩
    | refused => exact .inl ⟨.done, h, f, rfl, .reserve, hr, hkeys⟩
    | lost hloses => exact .inr hloses
    | rehashed _ _ _ represents => exact .inl ⟨.done, _, f, rfl, .reserve, represents, hkeys⟩

/-- **The hash table is a finite map.** Take a table made by `kh_init`, whatever its arrays hold
when they are allocated, any hash function, and any sequence of uses in which at most `2 ^ 31`
different keys are inserted, with any requests for memory refused. Every call returns, the
answers are those of a map, and the table satisfies its invariant and stands for the map; or this is
so up to a `kh_resize` that makes the table smaller and is refused memory for a shorter array.

**Proof sketch.** Each call does to the table what it does to the map, or is a resize that loses an
array (`khServe_refines`). That there are at most `2 ^ 31` keys is part of the invariant along the
sequence. The rule `FiniteMap.serveAll_refines` composes the calls. -/
theorem khash_refines_map (hashFunc : K → BitVec 32) (keys : ℕ → K) (vals : ℕ → V)
    (ops : List (KhashOp K V)) (hkeys : (insertedKeys ops).toFinset.card ≤ 2 ^ 31) :
    (∃ answers h f, FiniteMap.serveAll (khServe hashFunc) ops (khInit keys vals) =
        some (answers, h) ∧
      FiniteMap.Calls (fun op : KhashOp K V => FiniteMap.Call op.op) ops (fun _ => none) answers
        f ∧ h.Represents hashFunc f) ∨
    ∃ done newNBuckets mem rest answers h f, ops = done ++ .resize newNBuckets mem :: rest ∧
      FiniteMap.serveAll (khServe hashFunc) done (khInit keys vals) = some (answers, h) ∧
      FiniteMap.Calls (fun op : KhashOp K V => FiniteMap.Call op.op) done (fun _ => none) answers
        f ∧ h.Represents hashFunc f ∧ h.Loses newNBuckets mem := by
  have hcall : ∀ op ∈ ops, ∀ (h : Khash K V) (f : K → Option V),
      (h.Represents hashFunc f ∧ ∀ k v, f k = some v → k ∈ (insertedKeys ops).toFinset) →
      (∃ r h' f', khServe hashFunc op h = some (r, h') ∧ FiniteMap.Call op.op f r f' ∧
        h'.Represents hashFunc f' ∧ ∀ k v, f' k = some v → k ∈ (insertedKeys ops).toFinset) ∨
      op.Loses h := by
    intro op hop h f hrep
    refine khServe_refines hkeys op (fun key val mem heq => ?_) hrep.1 hrep.2
    subst heq
    exact List.mem_toFinset.mpr (mem_insertedKeys hop)
  rcases FiniteMap.serveAll_refines (khServe hashFunc) _ _ KhashOp.Loses ops hcall
      ⟨Khash.represents_khInit hashFunc keys vals, by simp⟩ with
    ⟨answers, h, f, hserve, hcalls, hr, -⟩ |
    ⟨done, op, rest, answers, h, f, heq, hserve, hcalls, ⟨hr, -⟩, hloses⟩
  · exact .inl ⟨answers, h, f, hserve, hcalls, hr⟩
  · cases op with
    | resize newNBuckets mem =>
      exact .inr ⟨done, newNBuckets, mem, rest, answers, h, f, heq, hserve, hcalls, hr, hloses⟩
    | _ => exact hloses.elim

/-- Keys are put in and taken out while memory is refused for the first flags, for a longer array
and at last for a shorter one. -/
theorem khash_refines_map_example :
    let ops : List (KhashOp (BitVec 64) (BitVec 64)) := [.put 1 10 ⟨false, true, true⟩,
      .put 1 10 .granted, .put 2 20 .granted, .del 1, .get 1, .resize 100 ⟨true, false, true⟩,
      .resize 8 .granted, .put 10 100 .granted, .get 2, .resize 4 ⟨true, true, false⟩, .clear]
    (∃ answers h f, FiniteMap.serveAll (khServe khInt64HashFunc) ops
        (khInit (fun _ => 0) fun _ => 0) = some (answers, h) ∧
      FiniteMap.Calls (fun op : KhashOp (BitVec 64) (BitVec 64) => FiniteMap.Call op.op) ops
        (fun _ => none) answers f ∧ h.Represents khInt64HashFunc f) ∨
    ∃ done newNBuckets mem rest answers h f, ops = done ++ .resize newNBuckets mem :: rest ∧
      FiniteMap.serveAll (khServe khInt64HashFunc) done (khInit (fun _ => 0) fun _ => 0) =
        some (answers, h) ∧
      FiniteMap.Calls (fun op : KhashOp (BitVec 64) (BitVec 64) => FiniteMap.Call op.op) done
        (fun _ => none) answers f ∧ h.Represents khInt64HashFunc f ∧ h.Loses newNBuckets mem :=
  khash_refines_map khInt64HashFunc _ _ _ (by decide)

example : (FiniteMap.serveAll (khServe khInt64HashFunc) [.put 1 10 ⟨false, true, true⟩,
      .put 1 10 .granted, .put 2 20 .granted, .del 1, .get 1, .resize 100 ⟨true, false, true⟩,
      .resize 8 .granted, .put 10 100 .granted, .get 2]
      (khInit (fun _ => 0) fun _ => 0)).map Prod.fst =
    some [.refused, .inserted true, .inserted true, .done, .found none, .done, .done,
      .inserted true, .found (some 20#64)] := by
  decide

end UserThreads
