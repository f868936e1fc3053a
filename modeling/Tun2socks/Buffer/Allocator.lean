import Tun2socks.Go.Pool

/-!
# Tun2socks.Buffer.Allocator

Model of `buffer/allocator/allocator.go`.

Every access that the run-time system checks is checked in the model: an index behind the
last pool and a slice beyond the capacity of its buffer are panics. The invariant is that
a pool holds only buffers of its own capacity (`Classes`); that no call panics follows
from it.
-/

namespace Tun2socks.Buffer

open Tun2socks.Go

/-- A `[]byte`, as far as the allocator looks at it. -/
structure Buf where
  len : Nat
  cap : Nat
  le : len ≤ cap
  deriving DecidableEq

/-- `Allocator`: what its pools hold. -/
structure Allocator where
  buffers : List (List Buf)
  deriving DecidableEq

/-- What the pool of class `k` constructs. -/
def make (k : Nat) : Buf := ⟨2 ^ k, 2 ^ k, le_rfl⟩

/-- `New`. -/
def new : Allocator := ⟨List.replicate 17 []⟩

/-- `bits.Len32`. -/
def len32 (x : Nat) : Nat := if x = 0 then 0 else Nat.log2 x + 1

/-- The position of the most significant bit, through the conversions to `uint32` and
`uint16`. -/
def msb (size : Int) : Nat := (((len32 (size % 2 ^ 32).toNat : Int) - 1) % 2 ^ 16).toNat

/-- `1 << b` as an `int`. -/
def shl (b : Nat) : Int := if b < 63 then 2 ^ b else if b = 63 then -2 ^ 63 else 0

namespace Allocator

/-- `alloc.buffers[k].Get()[:size]`. -/
def take (a : Allocator) (choice : Option Nat) (k size : Nat) : Except Error (Buf × Allocator) :=
  match a.buffers[k]? with
  | none => .error .panic
  | some stored =>
    let r := SyncPool.get (make k) choice stored
    if h : size ≤ r.1.cap then .ok (⟨size, r.1.cap, h⟩, ⟨a.buffers.set k r.2⟩)
    else .error .panic

/-- `alloc.Get(size)`, with `none` for `nil`. -/
def get (a : Allocator) (choice : Option Nat) (size : Int) :
    Except Error (Option Buf × Allocator) :=
  if size ≤ 0 ∨ size > 65536 then .ok (none, a)
  else do
    let b := msb size
    let r ← if size = shl b then a.take choice b size.toNat
      else a.take choice ((b + 1) % 2 ^ 16) size.toNat
    return (some r.1, r.2)

/-- The error of `Put`. -/
def incorrectSize : Error := .new "allocator Put() incorrect buffer size"

/-- `alloc.Put(buf)`: the error it returns, unless it panics. -/
def put (a : Allocator) (buf : Buf) : Except Error (Option Error × Allocator) :=
  let b := msb buf.cap
  if buf.cap = 0 ∨ buf.cap > 65536 ∨ (buf.cap : Int) ≠ shl b then .ok (some incorrectSize, a)
  else
    match a.buffers[b]? with
    | none => .error .panic
    | some stored => .ok (none, ⟨a.buffers.set b (buf :: stored)⟩)

end Allocator

/-- A call of a user, or the run-time system dropping the `i`-th buffer of a pool. -/
inductive Action
  | get (choice : Option Nat) (size : Int)
  | put (buf : Buf)
  | drop (k i : Nat)

/-- The allocator after an action. -/
def step (a : Allocator) : Action → Except Error Allocator
  | .get choice size => do
    let r ← a.get choice size
    return r.2
  | .put buf => do
    let r ← a.put buf
    return r.2
  | .drop k i =>
    match a.buffers[k]? with
    | none => .ok a
    | some stored => .ok ⟨a.buffers.set k (stored.eraseIdx i)⟩

/-- A whole run. -/
def run (a : Allocator) : List Action → Except Error Allocator
  | [] => .ok a
  | act :: acts => do
    let a' ← step a act
    run a' acts

/-! ### Bit positions -/

section Bits

variable {n : Nat}

/-- Where the size is one of those served, the conversions lose nothing. -/
theorem msb_eq (hpos : 1 ≤ n) (hle : n ≤ 65536) : msb n = Nat.log2 n := by
  have hlog : Nat.log2 n < 17 := (Nat.log2_lt (by omega)).mpr (by omega)
  have hmod : ((n : Int) % 2 ^ 32).toNat = n := by omega
  rw [msb, hmod, len32, if_neg (by omega)]
  omega

theorem shl_eq {b : Nat} (h : b < 63) : shl b = ((2 ^ b : Nat) : Int) := by
  rw [shl, if_pos h]
  norm_cast

theorem log2_le (hpos : 1 ≤ n) (hle : n ≤ 65536) : Nat.log2 n ≤ 16 :=
  Nat.lt_succ_iff.mp ((Nat.log2_lt (by omega)).mpr (by omega))

/-- A capacity passes the check of `Put` if it is a power of two that is served. -/
theorem shl_msb_iff (hpos : 1 ≤ n) (hle : n ≤ 65536) :
    (n : Int) = shl (msb n) ↔ n = 2 ^ Nat.log2 n := by
  have hlog := log2_le hpos hle
  rw [msb_eq hpos hle, shl_eq (by omega), Int.natCast_inj]

/-- The class that `Get` takes for a size. -/
theorem class_bounds (hpos : 1 ≤ n) (hle : n ≤ 65536) :
    ∃ k ≤ 16, n ≤ 2 ^ k ∧ 2 ^ k < 2 * n ∧
      (if (n : Int) = shl (msb n) then msb n else (msb n + 1) % 2 ^ 16) = k := by
  have hlog := log2_le hpos hle
  have hlow : 2 ^ Nat.log2 n ≤ n := Nat.log2_self_le (by omega)
  have hhigh : n < 2 ^ (Nat.log2 n + 1) := Nat.lt_log2_self
  have hmsb := msb_eq hpos hle
  by_cases hpow : (n : Int) = shl (msb n)
  · rw [if_pos hpow]
    have hn := (shl_msb_iff hpos hle).mp hpow
    exact ⟨Nat.log2 n, hlog, by omega, by omega, hmsb⟩
  · rw [if_neg hpow, hmsb]
    have hn := (shl_msb_iff hpos hle).not.mp hpow
    -- 65536 is a power of two itself, so the class above is still one of the 17
    have hlt : Nat.log2 n < 16 := by
      refine lt_of_le_of_ne hlog fun h => hn ?_
      rw [h] at hlow ⊢
      omega
    refine ⟨Nat.log2 n + 1, hlt, by omega, ?_, by omega⟩
    rw [pow_succ]
    omega

/-- The powers of two that are served. -/
theorem isClass_iff : (∃ j ≤ 16, n = 2 ^ j) ↔
    ¬ (n = 0 ∨ n > 65536 ∨ (n : Int) ≠ shl (msb n)) := by
  constructor
  · rintro ⟨j, hj, rfl⟩
    have hpos : 1 ≤ 2 ^ j := Nat.one_le_two_pow
    have hle : 2 ^ j ≤ 65536 := Nat.pow_le_pow_right (by decide) hj
    rintro (h | h | h)
    · omega
    · omega
    · exact h ((shl_msb_iff hpos hle).mpr (by rw [Nat.log2_two_pow]))
  · intro h
    push Not at h
    obtain ⟨hne, hle, hpow⟩ := h
    exact ⟨Nat.log2 n, log2_le (by omega) hle, (shl_msb_iff (by omega) hle).mp hpow⟩

end Bits

/-! ### The invariant -/

/-- There are 17 pools, and pool `k` holds only buffers of capacity `2 ^ k`. -/
structure Classes (a : Allocator) : Prop where
  length : a.buffers.length = 17
  cap : ∀ k stored, a.buffers[k]? = some stored → ∀ x ∈ stored, x.cap = 2 ^ k

theorem classes_new : Classes new where
  length := List.length_replicate
  cap k stored h x hx := by
    have hnil : ([] : List Buf) = stored := by
      rw [new, List.getElem?_replicate] at h
      split at h
      · exact Option.some.inj h
      · cases h
    subst hnil
    cases hx

section Steps

variable {a : Allocator} {k size : Nat} {stored : List Buf}

/-- Another content of one pool, of the same class. -/
theorem Classes.set (h : Classes a) (hstored : ∀ x ∈ stored, x.cap = 2 ^ k) :
    Classes ⟨a.buffers.set k stored⟩ where
  length := by rw [List.length_set, h.length]
  cap j content hj x hx := by
    rw [List.getElem?_set] at hj
    split at hj
    · rename_i hjk
      subst hjk
      split at hj
      · cases hj
        exact hstored x hx
      · cases hj
    · exact h.cap j content hj x hx

/-- There is a pool for every class. -/
theorem Classes.exists_pool (h : Classes a) (hk : k ≤ 16) :
    ∃ stored, a.buffers[k]? = some stored :=
  ⟨_, List.getElem?_eq_getElem (by rw [h.length]; omega)⟩

theorem Classes.take (h : Classes a) (hk : k ≤ 16) (hsize : size ≤ 2 ^ k) (choice : Option Nat) :
    ∃ x a', a.take choice k size = .ok (x, a') ∧ x.len = size ∧ x.cap = 2 ^ k ∧ Classes a' := by
  obtain ⟨stored, hstored⟩ := h.exists_pool hk
  obtain ⟨hcap, hrest⟩ : (SyncPool.get (make k) choice stored).1.cap = 2 ^ k ∧
      ∀ x ∈ (SyncPool.get (make k) choice stored).2, x.cap = 2 ^ k :=
    SyncPool.get_forall (P := fun x : Buf => x.cap = 2 ^ k) rfl (h.cap k stored hstored) choice
  have hfits := hsize.trans hcap.ge
  refine ⟨⟨size, _, hfits⟩, _, ?_, rfl, hcap, h.set hrest⟩
  rw [Allocator.take, hstored]
  exact dif_pos hfits

/-- What `Get` does. -/
theorem Classes.get (h : Classes a) (choice : Option Nat) (size : Int) :
    ∃ r a', a.get choice size = .ok (r, a') ∧ Classes a' ∧
      (r = none ↔ size ≤ 0 ∨ size > 65536) ∧
      ∀ x, r = some x →
        (x.len : Int) = size ∧ ∃ j, x.cap = 2 ^ j ∧ x.len ≤ x.cap ∧ x.cap < 2 * x.len := by
  by_cases hsize : size ≤ 0 ∨ size > 65536
  · refine ⟨none, a, by rw [Allocator.get, if_pos hsize], h, by simp [hsize], ?_⟩
    intro x hx
    cases hx
  · obtain ⟨n, rfl⟩ := Int.eq_ofNat_of_zero_le (show 0 ≤ size by omega)
    obtain ⟨k, hk, hle, hlt, hclass⟩ := class_bounds (n := n) (by omega) (by omega)
    obtain ⟨x, a', htake, hlen, hcap, ha'⟩ := h.take hk hle choice
    refine ⟨some x, a', ?_, ha', iff_of_false (by simp) hsize, ?_⟩
    · rw [Allocator.get, if_neg hsize, Int.toNat_natCast]
      dsimp only
      split at hclass
      · rename_i hpow
        rw [if_pos hpow, hclass, htake]
        rfl
      · rename_i hpow
        rw [if_neg hpow, hclass, htake]
        rfl
    · rintro _ ⟨⟩
      exact ⟨by rw [hlen], k, hcap, x.le, by omega⟩

/-- What `Put` does. -/
theorem Classes.put (h : Classes a) (buf : Buf) :
    ∃ err a', a.put buf = .ok (err, a') ∧ Classes a' ∧
      (err = none ↔ ∃ j ≤ 16, buf.cap = 2 ^ j) ∧ (err ≠ none → a' = a) ∧
      ∀ j ≤ 16, buf.cap = 2 ^ j → ∃ stored, a.buffers[j]? = some stored ∧
        a' = ⟨a.buffers.set j (buf :: stored)⟩ := by
  by_cases hcap : buf.cap = 0 ∨ buf.cap > 65536 ∨ (buf.cap : Int) ≠ shl (msb buf.cap)
  · refine ⟨some Allocator.incorrectSize, a, ?_, h, by simp [isClass_iff, hcap], fun _ => rfl,
      fun j hj hpow => absurd hcap (isClass_iff.mp ⟨j, hj, hpow⟩)⟩
    rw [Allocator.put, if_pos hcap]
  · obtain ⟨j, hj, hpow⟩ := isClass_iff.mpr hcap
    have hmsb : msb buf.cap = j := by
      push Not at hcap
      rw [msb_eq (by omega) hcap.2.1, hpow, Nat.log2_two_pow]
    obtain ⟨stored, hstored⟩ := h.exists_pool hj
    refine ⟨none, ⟨a.buffers.set j (buf :: stored)⟩, ?_, ?_, by simp [isClass_iff, hcap],
      fun h => absurd rfl h, fun i _ hi => ?_⟩
    · rw [Allocator.put, if_neg hcap, hmsb, hstored]
    · apply h.set
      rw [List.forall_mem_cons]
      exact ⟨hpow, h.cap j stored hstored⟩
    · obtain rfl : j = i := Nat.pow_right_injective le_rfl (hpow.symm.trans hi)
      exact ⟨stored, hstored, rfl⟩

/-- Every action keeps the classes. -/
theorem Classes.step (h : Classes a) (act : Action) : ∃ a', step a act = .ok a' ∧ Classes a' := by
  cases act with
  | get choice size =>
    obtain ⟨r, a', hget, ha', -⟩ := h.get choice size
    exact ⟨a', by rw [Buffer.step, hget]; rfl, ha'⟩
  | put buf =>
    obtain ⟨err, a', hput, ha', -⟩ := h.put buf
    exact ⟨a', by rw [Buffer.step, hput]; rfl, ha'⟩
  | drop k i =>
    rw [Buffer.step]
    cases hk : a.buffers[k]? with
    | none => exact ⟨a, rfl, h⟩
    | some stored =>
      exact ⟨_, rfl, h.set fun x hx => h.cap k stored hk x (List.mem_of_mem_eraseIdx hx)⟩

theorem Classes.run (h : Classes a) (acts : List Action) :
    ∃ a', run a acts = .ok a' ∧ Classes a' := by
  induction acts generalizing a with
  | nil => exact ⟨a, rfl, h⟩
  | cons act acts ih =>
    obtain ⟨a₁, hstep, ha₁⟩ := h.step act
    obtain ⟨a', hrun, ha'⟩ := ih ha₁
    exact ⟨a', by rw [Buffer.run, hstep, ok_bind, hrun], ha'⟩

end Steps

/-- **The allocator keeps its size classes.** After every run of `Get` and `Put` calls, with
any sizes and any buffers, whatever the run-time system takes from the pools or drops:
pool `k` of the 17 holds only buffers of capacity `2 ^ k`, and no call has panicked. The
next `Get` does not panic either; it returns `nil` exactly for a size that is not from 1
to 65536, and otherwise a slice of that length, with a power of two below twice the size
as its capacity. The next `Put` returns an error, and changes nothing, exactly if the
capacity is no power of two from 1 to 65536; otherwise the buffer goes into the pool of
its capacity and no other pool changes. -/
theorem allocator_keeps_classes (acts : List Action) :
    ∃ a, run new acts = .ok a ∧
      (a.buffers.length = 17 ∧
        ∀ k stored, a.buffers[k]? = some stored → ∀ x ∈ stored, x.cap = 2 ^ k) ∧
      (∀ choice size, ∃ r a', a.get choice size = .ok (r, a') ∧
        (r = none ↔ size ≤ 0 ∨ size > 65536) ∧
        ∀ x, r = some x → (x.len : Int) = size ∧
          ∃ j, x.cap = 2 ^ j ∧ size ≤ x.cap ∧ x.cap < 2 * size) ∧
      ∀ buf, ∃ err a', a.put buf = .ok (err, a') ∧
        (err ≠ none ↔ ¬ ∃ j ≤ 16, buf.cap = 2 ^ j) ∧ (err ≠ none → a' = a) ∧
        ∀ j ≤ 16, buf.cap = 2 ^ j → ∃ stored, a.buffers[j]? = some stored ∧
          a' = ⟨a.buffers.set j (buf :: stored)⟩ := by
  obtain ⟨a, hrun, ha⟩ := classes_new.run acts
  refine ⟨a, hrun, ⟨ha.length, ha.cap⟩, fun choice size => ?_, fun buf => ?_⟩
  · obtain ⟨r, a', hget, -, hnone, hsome⟩ := ha.get choice size
    refine ⟨r, a', hget, hnone, fun x hx => ?_⟩
    obtain ⟨hlen, j, hcap, hle, hlt⟩ := hsome x hx
    exact ⟨hlen, j, hcap, by omega, by omega⟩
  · obtain ⟨err, a', hput, -, hnone, hsame, hstores⟩ := ha.put buf
    exact ⟨err, a', hput, hnone.not, hsame, hstores⟩

end Tun2socks.Buffer
