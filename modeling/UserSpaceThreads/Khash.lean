import Mathlib.Algebra.Ring.Nat
import Mathlib.Logic.Function.Basic
import Mathlib.Data.Int.Notation
import Mathlib.Data.Nat.Notation

set_option relaxedAutoImplicit false
set_option autoImplicit false

/-!
# The hash table of `khash.h`

`malloc369.c` keeps its map of blocks in a hash table of the header `khash.h`: open addressing
with triangular probing in a power of two of buckets, two flag bits for each bucket, packed
sixteen to a word, and a rehash in place that exchanges entries between the old and the new
table. This file has the functions that a map of `KHASH_INIT` consists of, as the macros
compute them. `khint_t` is a natural number, reduced modulo `2 ^ 32` where an operation can
overflow; the hash function is a parameter, and keys are compared with `=`.

The three arrays of a table are functions of the index, so what lies behind the end of an array
is whatever was there. `kmalloc` and `krealloc` may fail: a call of `kh_resize` is told which of
its requests are answered (`Memory`). Where it makes the arrays shorter it stores what `krealloc`
answers without a test and answers `0`, so a refused request leaves a null pointer in place of an
array that is in use. Such a table is `lost` (`ResizeEnd`), and the model of its uses ends there. A
loop has a bound on its rounds, and answers `none` when it is reached.

## Main definitions

* `UserThreads.Khash` — the table.
* `UserThreads.Memory`, `UserThreads.ResizeEnd` — the requests of `kh_resize` for memory, and how
  it ends.
* `UserThreads.khGet`, `UserThreads.khResize`, `UserThreads.khPut`, `UserThreads.khDel`,
  `UserThreads.khClear` — the functions.
* `UserThreads.khInt64HashFunc` — the hash function of 64-bit keys.
-/

namespace UserThreads

/-! ## Flags -/

/-- The `flags` of a table. -/
abbrev Flags := ℕ → BitVec 32

/-- The flag word of bucket `i`, shifted so that the two bits of the bucket come first. -/
def acFlag (flag : Flags) (i : ℕ) : BitVec 32 := flag (i >>> 4) >>> ((i &&& 0xf) <<< 1)

/-- `__ac_isempty`. -/
def acIsempty (flag : Flags) (i : ℕ) : Bool := acFlag flag i &&& 2#32 ≠ 0

/-- `__ac_isdel`. -/
def acIsdel (flag : Flags) (i : ℕ) : Bool := acFlag flag i &&& 1#32 ≠ 0

/-- `__ac_iseither`. -/
def acIseither (flag : Flags) (i : ℕ) : Bool := acFlag flag i &&& 3#32 ≠ 0

/-- `__ac_set_isempty_false`. -/
def acSetIsemptyFalse (flag : Flags) (i : ℕ) : Flags :=
  Function.update flag (i >>> 4) (flag (i >>> 4) &&& ~~~(2#32 <<< ((i &&& 0xf) <<< 1)))

/-- `__ac_set_isboth_false`. -/
def acSetIsbothFalse (flag : Flags) (i : ℕ) : Flags :=
  Function.update flag (i >>> 4) (flag (i >>> 4) &&& ~~~(3#32 <<< ((i &&& 0xf) <<< 1)))

/-- `__ac_set_isdel_true`. -/
def acSetIsdelTrue (flag : Flags) (i : ℕ) : Flags :=
  Function.update flag (i >>> 4) (flag (i >>> 4) ||| 1#32 <<< ((i &&& 0xf) <<< 1))

/-- `__ac_fsize`, the number of flag words for `m` buckets. -/
def acFsize (m : ℕ) : ℕ := if m < 16 then 1 else m >>> 4

/-- `memset(flags, 0xaa, words * sizeof(khint32_t))`. -/
def memsetFlags (flag : Flags) (words : ℕ) : Flags :=
  fun w => if w < words then 0xaaaaaaaa#32 else flag w

/-! ## Numbers -/

/-- `x - 1` in 32 bits. -/
def pred32 (x : ℕ) : ℕ := (x + (2 ^ 32 - 1)) % 2 ^ 32

/-- `kroundup32`. -/
def kroundup32 (x : ℕ) : ℕ :=
  let x := pred32 x
  let x := x ||| x >>> 1
  let x := x ||| x >>> 2
  let x := x ||| x >>> 4
  let x := x ||| x >>> 8
  let x := x ||| x >>> 16
  (x + 1) % 2 ^ 32

/-- `(khint_t)(n * __ac_HASH_UPPER + 0.5)`. The `double` next to `0.77` is
`6935543426150564 / 2 ^ 53`; for a power of two `n` from `4` on neither the product nor the sum
is rounded. -/
def acHashUpper (n : ℕ) : ℕ := (n * 6935543426150564 + 2 ^ 52) / 2 ^ 53

/-- `(i + (++step)) & mask`, for the new value of `step`. -/
def khStep (mask i step : ℕ) : ℕ := (i + step) % 2 ^ 32 &&& mask

/-- `kh_int64_hash_func`. -/
def khInt64HashFunc (key : BitVec 64) : BitVec 32 :=
  (key >>> 33 ^^^ key ^^^ key <<< 11).setWidth 32

/-! ## The table -/

/-- `kh_##name##_t`. -/
structure Khash (K V : Type) where
  /-- `n_buckets` -/
  nBuckets : ℕ
  /-- `size` -/
  size : ℕ
  /-- `n_occupied` -/
  nOccupied : ℕ
  /-- `upper_bound` -/
  upperBound : ℕ
  /-- `flags` -/
  flags : Flags
  /-- `keys` -/
  keys : ℕ → K
  /-- `vals` -/
  vals : ℕ → V

/-- Which requests for memory of a call of `kh_resize` are answered. -/
structure Memory where
  /-- `kmalloc` of `new_flags` -/
  flags : Bool
  /-- `krealloc` of `keys`, for more buckets or for fewer -/
  keys : Bool
  /-- `krealloc` of `vals`, for more buckets or for fewer -/
  vals : Bool
  deriving DecidableEq

/-- How a call of `kh_resize` ends. -/
inductive ResizeEnd (K V : Type)
  /-- it has answered `ret`, and `h` is the table now -/
  | answered (ret : ℤ) (h : Khash K V)
  /-- it has answered `0`, but `keys` or `vals` was to be made shorter and is `NULL` now -/
  | lost

variable {K V : Type}

/-- `kh_init`. There are no arrays yet; `keys` and `vals` is what they will be filled with when
they are allocated. -/
def khInit (keys : ℕ → K) (vals : ℕ → V) : Khash K V :=
  { nBuckets := 0, size := 0, nOccupied := 0, upperBound := 0, flags := fun _ => 0, keys := keys,
    vals := vals }

/-- `kh_clear`. A table has `flags` as soon as it has buckets. -/
def khClear (h : Khash K V) : Khash K V :=
  if h.nBuckets ≠ 0 then
    { h with flags := memsetFlags h.flags (acFsize h.nBuckets), size := 0, nOccupied := 0 }
  else h

/-- `kh_del`. -/
def khDel (h : Khash K V) (x : ℕ) : Khash K V :=
  if x ≠ h.nBuckets ∧ acIseither h.flags x = false then
    { h with flags := acSetIsdelTrue h.flags x, size := h.size - 1 }
  else h

/-- `kh_value(h, x) = val`. -/
def khSetValue (h : Khash K V) (x : ℕ) (val : V) : Khash K V :=
  { h with vals := Function.update h.vals x val }

/-! ## `kh_get` -/

section Search

variable [DecidableEq K]

/-- The condition on which `kh_get` and `kh_put` go on searching at bucket `i`. -/
def khSkips (h : Khash K V) (key : K) (i : ℕ) : Prop :=
  acIsempty h.flags i = false ∧ (acIsdel h.flags i = true ∨ h.keys i ≠ key)

instance (h : Khash K V) (key : K) (i : ℕ) : Decidable (khSkips h key i) :=
  inferInstanceAs (Decidable (_ ∧ _))

/-- The loop of `kh_get`, from its test on, and the `return` behind it. -/
def khGetLoop (h : Khash K V) (key : K) (mask last : ℕ) : ℕ → ℕ → ℕ → Option ℕ
  | 0, _, _ => none
  | n + 1, i, step =>
    if khSkips h key i then
      let i := khStep mask i (step + 1)
      if i = last then some h.nBuckets else khGetLoop h key mask last n i (step + 1)
    else some (if acIseither h.flags i then h.nBuckets else i)

variable (hashFunc : K → BitVec 32)

/-- `kh_get`. In `2 * n_buckets` rounds the search comes back to its start. -/
def khGet (h : Khash K V) (key : K) : Option ℕ :=
  if h.nBuckets ≠ 0 then
    let mask := h.nBuckets - 1
    let i := (hashFunc key).toNat &&& mask
    khGetLoop h key mask i (2 * h.nBuckets) i 0
  else some 0

end Search

/-! ## `kh_resize` -/

section Resize

variable (hashFunc : K → BitVec 32)

/-- The loop that looks for an empty bucket of the new table. -/
def khFindEmpty (newFlags : Flags) (newMask : ℕ) : ℕ → ℕ → ℕ → Option ℕ
  | 0, _, _ => none
  | n + 1, i, step =>
    if acIsempty newFlags i = false then
      khFindEmpty newFlags newMask n (khStep newMask i (step + 1)) (step + 1)
    else some i

/-- The kick-out process: find a bucket of the new table for `key` and `val`, and go on with
the entry that the old table has in this place, if there is one. -/
def khKickOut (newNBuckets : ℕ) : ℕ → K → V → Khash K V → Flags → Option (Khash K V × Flags)
  | 0, _, _, _, _ => none
  | n + 1, key, val, h, newFlags =>
    let newMask := newNBuckets - 1
    let i := (hashFunc key).toNat &&& newMask
    (khFindEmpty newFlags newMask newNBuckets i 0).bind fun i =>
      let newFlags := acSetIsemptyFalse newFlags i
      let h' : Khash K V :=
        { h with keys := Function.update h.keys i key, vals := Function.update h.vals i val }
      if i < h.nBuckets ∧ acIseither h.flags i = false then
        khKickOut newNBuckets n (h.keys i) (h.vals i)
          { h' with flags := acSetIsdelTrue h.flags i } newFlags
      else some (h', newFlags)

/-- The loop over the buckets of the old table, from bucket `j` on, for `n` more of them. Every
round of the kick-out process but the last takes an entry out of the old table. -/
def khRehash (newNBuckets : ℕ) : ℕ → ℕ → Khash K V → Flags → Option (Khash K V × Flags)
  | 0, _, h, newFlags => some (h, newFlags)
  | n + 1, j, h, newFlags =>
    if acIseither h.flags j = false then
      (khKickOut hashFunc newNBuckets (h.nBuckets + 1) (h.keys j) (h.vals j)
        { h with flags := acSetIsdelTrue h.flags j } newFlags).bind fun s =>
        khRehash newNBuckets n (j + 1) s.1 s.2
    else khRehash newNBuckets n (j + 1) h newFlags

/-- The number of buckets that `kh_resize` aims at. -/
def khRoundup (newNBuckets : ℕ) : ℕ :=
  if kroundup32 newNBuckets < 4 then 4 else kroundup32 newNBuckets

/-- `kh_resize`, with the result and the table after it. It tests what it gets for `new_flags` and
for longer arrays, but not what it gets for shorter ones. -/
def khResize (h : Khash K V) (newNBuckets : ℕ) (mem : Memory) : Option (ResizeEnd K V) :=
  let newNBuckets := khRoundup newNBuckets
  if h.size ≥ acHashUpper newNBuckets then some (.answered 0 h)
  else if ¬ mem.flags then some (.answered (-1) h)
  else if h.nBuckets < newNBuckets ∧ ¬ mem.keys then some (.answered (-1) h)
  else if h.nBuckets < newNBuckets ∧ ¬ mem.vals then some (.answered (-1) h)
  else
    let newFlags := memsetFlags (fun _ => 0) (acFsize newNBuckets)
    (khRehash hashFunc newNBuckets h.nBuckets 0 h newFlags).map fun s =>
      if s.1.nBuckets > newNBuckets ∧ ¬ (mem.keys ∧ mem.vals) then .lost
      else .answered 0 { s.1 with
        flags := s.2
        nBuckets := newNBuckets
        nOccupied := s.1.size
        upperBound := acHashUpper newNBuckets }

end Resize

/-! ## `kh_put` -/

section Put

variable [DecidableEq K]

/-- The loop of `kh_put`, from its test on: `x`, `i` and `site` behind it. -/
def khPutLoop (h : Khash K V) (key : K) (mask last : ℕ) :
    ℕ → ℕ → ℕ → ℕ → Option (ℕ × ℕ × ℕ)
  | 0, _, _, _ => none
  | n + 1, i, step, site =>
    if khSkips h key i then
      let site := if acIsdel h.flags i then i else site
      let i := khStep mask i (step + 1)
      if i = last then some (site, i, site)
      else khPutLoop h key mask last n i (step + 1) site
    else some (h.nBuckets, i, site)

/-- The choice of a bucket behind the loop of `kh_put`. -/
def khPutChoose (h : Khash K V) (x i site : ℕ) : ℕ :=
  if x = h.nBuckets then
    if acIsempty h.flags i = true ∧ site ≠ h.nBuckets then site else i
  else x

/-- The last part of `kh_put`: the bucket `x`, `*ret`, and the table after it. -/
def khPutAt (h : Khash K V) (key : K) (x : ℕ) : ℕ × ℤ × Khash K V :=
  if acIsempty h.flags x then
    (x, 1, { h with
      keys := Function.update h.keys x key
      flags := acSetIsbothFalse h.flags x
      size := h.size + 1
      nOccupied := h.nOccupied + 1 })
  else if acIsdel h.flags x then
    (x, 2, { h with
      keys := Function.update h.keys x key
      flags := acSetIsbothFalse h.flags x
      size := h.size + 1 })
  else (x, 0, h)

variable (hashFunc : K → BitVec 32)

/-- The part of `kh_put` that looks for a bucket. -/
def khPutSearch (h : Khash K V) (key : K) : Option ℕ :=
  let mask := pred32 h.nBuckets
  let i := (hashFunc key).toNat &&& mask
  if acIsempty h.flags i then some i
  else
    (khPutLoop h key mask i (2 * h.nBuckets) i 0 h.nBuckets).map fun s =>
      khPutChoose h s.1 s.2.1 s.2.2

/-- The first part of `kh_put`: how its `kh_resize` ends, and answer `0` if there is none. -/
def khPutResize (h : Khash K V) (mem : Memory) : Option (ResizeEnd K V) :=
  if h.nOccupied ≥ h.upperBound then
    if h.nBuckets > (h.size <<< 1) % 2 ^ 32 then
      khResize hashFunc h (pred32 h.nBuckets) mem
    else khResize hashFunc h ((h.nBuckets + 1) % 2 ^ 32) mem
  else some (.answered 0 h)

/-- `kh_put`: the bucket, `*ret`, and the table after it. A lost table would crash it, but its
`kh_resize` makes no table shorter. -/
def khPut (h : Khash K V) (key : K) (mem : Memory) : Option (ℕ × ℤ × Khash K V) :=
  (khPutResize hashFunc h mem).bind fun
    | .answered ret h =>
      if ret < 0 then some (h.nBuckets, -1, h)
      else (khPutSearch hashFunc h key).map fun x => khPutAt h key x
    | .lost => none

end Put

end UserThreads
