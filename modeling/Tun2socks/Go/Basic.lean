import Mathlib.Data.List.Basic
import Mathlib.Tactic.Ring
import Mathlib.Tactic.NormNum

/-!
# Tun2socks.Go.Basic

The Go values every modelled package works on: bytes, error values, slices with
their bounds checks, and the fixed-width integer encodings.

A `[]byte` is a `List Byte`. A fallible call is an `Except Error`; a run-time
panic (an index or a slice expression out of range) is the distinguished error
`Error.panic`, so "this code never indexes out of range" is the statement that
no result is `.error .panic`.
-/

namespace Tun2socks.Go

/-- A `byte`. -/
abbrev Byte := UInt8

/-- Go error values. The sentinels of package `io` are constructors because
callers compare against them; every other error is its text. -/
inductive Error
  /-- `io.EOF` -/
  | eof
  /-- `io.ErrUnexpectedEOF` -/
  | unexpectedEOF
  /-- `io.ErrShortBuffer` -/
  | shortBuffer
  /-- a `net.Error` whose `Timeout()` is true -/
  | timeout
  /-- a run-time panic: an index or slice expression out of range -/
  | panic
  /-- `errors.New text` -/
  | new (text : String)
  deriving DecidableEq, Repr

/-- `err.Error()`. -/
def Error.text : Error → String
  | eof => "EOF"
  | unexpectedEOF => "unexpected EOF"
  | shortBuffer => "short buffer"
  | timeout => "i/o timeout"
  | panic => "runtime error"
  | new text => text

/-! ### Slice and index expressions -/

theorem ok_bind {α β : Type} (a : α) (f : α → Except Error β) : (Except.ok a >>= f) = f a := rfl

/-- `b[:n]` for a signed `n`, on a slice whose capacity is its length. -/
def sliceTo (b : List Byte) (n : Int) : Except Error (List Byte) :=
  if 0 ≤ n ∧ n ≤ b.length then .ok (b.take n.toNat) else .error .panic

theorem sliceTo_ok {b : List Byte} {n : Nat} (h : n ≤ b.length) :
    sliceTo b n = .ok (b.take n) := by
  simp [sliceTo, h]

/-- `b[i]`. -/
def index (b : List Byte) (i : Nat) : Except Error Byte :=
  if i < b.length then .ok (b.getD i 0) else .error .panic

theorem index_ok {b : List Byte} {i : Nat} (h : i < b.length) : index b i = .ok (b.getD i 0) :=
  if_pos h

/-- `b[i:]`. -/
def sliceFrom (b : List Byte) (i : Nat) : Except Error (List Byte) :=
  if i ≤ b.length then .ok (b.drop i) else .error .panic

theorem sliceFrom_ok {b : List Byte} {i : Nat} (h : i ≤ b.length) :
    sliceFrom b i = .ok (b.drop i) :=
  if_pos h

/-- `copy(dst, src)`: the first `min (len dst) (len src)` bytes are overwritten. -/
def copy (dst src : List Byte) : List Byte :=
  src.take dst.length ++ dst.drop src.length

@[simp] theorem copy_length (dst src : List Byte) : (copy dst src).length = dst.length := by
  simp only [copy, List.length_append, List.length_take, List.length_drop]
  omega

/-- What was copied is a prefix of the result. -/
theorem copy_take {dst src : List Byte} {n : Nat} (hn : n ≤ src.length)
    (hd : n ≤ dst.length) : (copy dst src).take n = src.take n := by
  unfold copy
  rw [List.take_append_of_le_length (by rw [List.length_take]; omega), List.take_take,
    Nat.min_eq_left hd]

/-- Copying `d` and then more: what fits of `d` stands in front. -/
theorem copy_append (dst d more : List Byte) :
    ∃ rest, copy dst (d ++ more) = d.take dst.length ++ rest := by
  refine ⟨more.take (dst.length - d.length) ++ dst.drop (d ++ more).length, ?_⟩
  rw [copy, List.take_append, List.append_assoc]

/-! ### Separators -/

section Separators

variable {α : Type} {c : α} {x y a b : List α}

/-- A text is cut at the first occurrence of a separator in one way only. -/
theorem append_cons_inj_first (hx : c ∉ x) (hy : c ∉ y) (h : x ++ c :: a = y ++ c :: b) :
    x = y ∧ a = b := by
  induction x generalizing y with
  | nil =>
    cases y with
    | nil => exact ⟨rfl, List.tail_eq_of_cons_eq h⟩
    | cons d y =>
      obtain ⟨rfl, -⟩ := List.cons.inj h
      exact absurd (List.mem_cons_self ..) hy
  | cons d x ih =>
    cases y with
    | nil =>
      obtain ⟨rfl, -⟩ := List.cons.inj h
      exact absurd (List.mem_cons_self ..) hx
    | cons e y =>
      obtain ⟨rfl, htail⟩ := List.cons.inj h
      obtain ⟨rfl, hab⟩ := ih (fun hc => hx (List.mem_cons_of_mem _ hc))
        (fun hc => hy (List.mem_cons_of_mem _ hc)) htail
      exact ⟨rfl, hab⟩

/-- And at the last. -/
theorem append_cons_inj_last (ha : c ∉ a) (hb : c ∉ b) (h : x ++ c :: a = y ++ c :: b) :
    x = y ∧ a = b := by
  have hrev : a.reverse ++ c :: x.reverse = b.reverse ++ c :: y.reverse := by
    simpa using congrArg List.reverse h
  obtain ⟨hab, hxy⟩ := append_cons_inj_first (by simpa using ha) (by simpa using hb) hrev
  exact ⟨List.reverse_injective hxy, List.reverse_injective hab⟩

end Separators

/-! ### 16-bit big-endian integers -/

/-- `byte(n>>8), byte(n)`: also `binary.BigEndian.PutUint16` of `uint16(n)`.
Bits above the sixteenth are dropped. -/
def putUint16 (n : Nat) : List Byte := [UInt8.ofNat (n / 256), UInt8.ofNat n]

/-- `binary.BigEndian.Uint16`. -/
def uint16 (hi lo : Byte) : Nat := hi.toNat * 256 + lo.toNat

@[simp] theorem putUint16_length (n : Nat) : (putUint16 n).length = 2 := rfl

theorem uint16_ofNat (n : Nat) :
    uint16 (UInt8.ofNat (n / 256)) (UInt8.ofNat n) = n % 65536 := by
  simp only [uint16, UInt8.toNat_ofNat']
  omega

theorem uint16_putUint16 {n : Nat} (h : n < 65536) :
    uint16 (UInt8.ofNat (n / 256)) (UInt8.ofNat n) = n := by
  rw [uint16_ofNat, Nat.mod_eq_of_lt h]

theorem uint16_lt (hi lo : Byte) : uint16 hi lo < 65536 := by
  have hhi := hi.toNat_lt
  have hlo := lo.toNat_lt
  unfold uint16
  omega

/-! ### Cutting a list into chunks -/

/-- `xs` cut into pieces of `k` elements, the last one possibly shorter. -/
def chunks {α : Type} (k : Nat) (xs : List α) : List (List α) :=
  if xs = [] ∨ k = 0 then [] else xs.take k :: chunks k (xs.drop k)
  termination_by xs.length
  decreasing_by
    have h := not_or.mp ‹¬(xs = [] ∨ k = 0)›
    have := List.length_pos_iff.mpr h.1
    rw [List.length_drop]
    omega

@[simp] theorem chunks_nil {α : Type} (k : Nat) : chunks k ([] : List α) = [] := by
  rw [chunks, if_pos (.inl rfl)]

theorem chunks_of_ne_nil {α : Type} {k : Nat} (hk : 0 < k) {xs : List α} (h : xs ≠ []) :
    chunks k xs = xs.take k :: chunks k (xs.drop k) := by
  rw [chunks, if_neg (not_or.mpr ⟨h, by omega⟩)]

theorem chunks_of_length_le {α : Type} {k : Nat} {xs : List α} (h : xs ≠ []) (hle : xs.length ≤ k) :
    chunks k xs = [xs] := by
  have hk : 0 < k := lt_of_lt_of_le (List.length_pos_iff.mpr h) hle
  rw [chunks_of_ne_nil hk h, List.take_of_length_le hle, List.drop_eq_nil_of_le hle, chunks_nil]

theorem chunks_flatten {α : Type} {k : Nat} (hk : 0 < k) (xs : List α) :
    (chunks k xs).flatten = xs := by
  induction xs using chunks.induct (k := k) with
  | case1 xs h =>
    obtain rfl : xs = [] := h.resolve_right (by omega)
    rw [chunks_nil]
    rfl
  | case2 xs h ih =>
    rw [chunks_of_ne_nil hk (not_or.mp h).1, List.flatten_cons, ih, List.take_append_drop]

/-- The number of chunks is the length divided by `k`, rounded up. -/
theorem length_chunks {α : Type} {k : Nat} (hk : 0 < k) (xs : List α) :
    (chunks k xs).length = (xs.length + k - 1) / k := by
  induction xs using chunks.induct (k := k) with
  | case1 xs h =>
    obtain rfl : xs = [] := h.resolve_right (by omega)
    simp [Nat.div_eq_of_lt (show k - 1 < k by omega)]
  | case2 xs h ih =>
    have hpos := List.length_pos_iff.mpr (not_or.mp h).1
    have hsplit : xs.length + k - 1 = xs.length - 1 + k := by omega
    rw [chunks_of_ne_nil hk (not_or.mp h).1, List.length_cons, ih, List.length_drop, hsplit,
      Nat.add_div_right _ hk]
    rcases Nat.lt_or_ge xs.length k with hlt | hge
    · rw [Nat.div_eq_of_lt (by omega), Nat.div_eq_of_lt (by omega)]
    · rw [show xs.length - k + k - 1 = xs.length - 1 by omega]

/-- The chunks before another one are full. -/
theorem chunks_eq_append {α : Type} {k : Nat} (hk : 0 < k) {xs a : List α}
    {done rest : List (List α)} (h : chunks k xs = done ++ a :: rest) :
    done.flatten.length = done.length * k ∧ a = (xs.drop (done.length * k)).take k ∧
      done.length * k < xs.length := by
  induction done generalizing xs with
  | nil =>
    have hxs : xs ≠ [] := by
      rintro rfl
      rw [chunks_nil] at h
      cases h
    rw [chunks_of_ne_nil hk hxs, List.nil_append] at h
    obtain ⟨rfl, rfl⟩ := List.cons.inj h
    simpa using List.length_pos_iff.mpr hxs
  | cons c done ih =>
    have hxs : xs ≠ [] := by
      rintro rfl
      rw [chunks_nil] at h
      cases h
    rw [chunks_of_ne_nil hk hxs, List.cons_append] at h
    obtain ⟨rfl, htail⟩ := List.cons.inj h
    obtain ⟨hlen, ha, hlt⟩ := ih htail
    rw [List.length_drop] at hlt
    have hsucc : (done.length + 1) * k = k + done.length * k := by ring
    rw [List.flatten_cons, List.length_append, List.length_take, List.length_cons, hlen, hsucc,
      ← List.drop_drop]
    exact ⟨by omega, ha, by omega⟩

theorem length_of_mem_chunks {α : Type} {k : Nat} {xs c : List α} (h : c ∈ chunks k xs) :
    1 ≤ c.length ∧ c.length ≤ k := by
  induction xs using chunks.induct (k := k) with
  | case1 xs hnil => rw [chunks, if_pos hnil] at h; simp at h
  | case2 xs hne ih =>
    rw [chunks, if_neg hne, List.mem_cons] at h
    obtain ⟨hxs, hk⟩ := not_or.mp hne
    rcases h with rfl | h
    · have := List.length_pos_iff.mpr hxs
      rw [List.length_take]
      omega
    · exact ih h

/-! ### Searching -/

/-- `bytes.Index(s, sep)`, with `none` for its `-1`. -/
def bytesIndex (sep : List Byte) : List Byte → Option Nat
  | [] => if sep = [] then some 0 else none
  | x :: s => if sep <+: x :: s then some 0 else (bytesIndex sep s).map (· + 1)

theorem bytesIndex_le {sep s : List Byte} {i : Nat} (h : bytesIndex sep s = some i) :
    i + sep.length ≤ s.length := by
  induction s generalizing i with
  | nil =>
    unfold bytesIndex at h
    split at h
    next hsep =>
      cases h
      simp [hsep]
    · cases h
  | cons x s ih =>
    unfold bytesIndex at h
    split at h
    next hpre =>
      cases h
      rw [Nat.zero_add]
      exact hpre.length_le
    · obtain ⟨j, hj, rfl⟩ := Option.map_eq_some_iff.mp h
      have := ih hj
      rw [List.length_cons]
      omega

/-- What follows does not move the first place where `sep` is found. -/
theorem bytesIndex_append {sep s : List Byte} {i : Nat} (h : bytesIndex sep s = some i)
    (t : List Byte) : bytesIndex sep (s ++ t) = some i := by
  induction s generalizing i with
  | nil =>
    unfold bytesIndex at h
    split at h
    next hsep =>
      cases h
      subst hsep
      cases t with
      | nil => rfl
      | cons x t => exact if_pos (List.nil_prefix)
    · cases h
  | cons x s ih =>
    unfold bytesIndex at h
    rw [List.cons_append, bytesIndex, ← List.cons_append]
    split at h
    next hpre => rw [if_pos (hpre.trans (List.prefix_append ..)), h]
    next hpre =>
      obtain ⟨j, hj, rfl⟩ := Option.map_eq_some_iff.mp h
      have hlen : sep.length ≤ (x :: s).length := by
        have := bytesIndex_le hj
        rw [List.length_cons]
        omega
      have hpre' : ¬sep <+: x :: s ++ t := fun hpre' =>
        hpre (List.prefix_of_prefix_length_le hpre' (List.prefix_append ..) hlen)
      rw [if_neg hpre', ih hj]
      rfl

/-- A list that ends where `sep` is found for the first time has no proper beginning in
which it is found. -/
theorem bytesIndex_take_of_lt {sep s : List Byte} {i n : Nat} (h : bytesIndex sep s = some i)
    (hi : i + sep.length = s.length) (hn : n < s.length) : bytesIndex sep (s.take n) = none := by
  cases hj : bytesIndex sep (s.take n) with
  | none => rfl
  | some j =>
    have hle := bytesIndex_le hj
    have happ := bytesIndex_append hj (s.drop n)
    rw [List.take_append_drop, h] at happ
    cases happ
    rw [List.length_take] at hle
    omega

/-! ### Little-endian counters -/

/-- The `k`-byte little-endian encoding of `n`; bits above `8 * k` are dropped. -/
def leBytes : Nat → Nat → List Byte
  | 0, _ => []
  | k + 1, n => UInt8.ofNat n :: leBytes k (n / 256)

@[simp] theorem leBytes_length (k n : Nat) : (leBytes k n).length = k := by
  induction k generalizing n with
  | zero => rfl
  | succ k ih => simp [leBytes, ih]

/-- The encoding only sees its argument modulo `2 ^ (8 * k)`. -/
theorem leBytes_mod (k n : Nat) : leBytes k (n % 2 ^ (8 * k)) = leBytes k n := by
  induction k generalizing n with
  | zero => rfl
  | succ k ih =>
    have hpow : 2 ^ (8 * (k + 1)) = 256 * 2 ^ (8 * k) := by
      rw [show 8 * (k + 1) = 8 + 8 * k by ring, pow_add]
      norm_num
    have hlow : UInt8.ofNat (n % (256 * 2 ^ (8 * k))) = UInt8.ofNat n := by
      apply UInt8.toNat_inj.mp
      rw [UInt8.toNat_ofNat', UInt8.toNat_ofNat', Nat.mod_mul_right_mod]
    rw [leBytes, leBytes, hpow, hlow, Nat.mod_mul_right_div_self, ih]

/-- Distinct numbers below `2 ^ (8 * k)` have distinct encodings. -/
theorem leBytes_injOn {k : Nat} : ∀ {m n : Nat}, m < 2 ^ (8 * k) → n < 2 ^ (8 * k) →
    leBytes k m = leBytes k n → m = n := by
  induction k with
  | zero => intro m n hm hn _; simp at hm hn; omega
  | succ k ih =>
    intro m n hm hn h
    have hpow : 2 ^ (8 * (k + 1)) = 256 * 2 ^ (8 * k) := by
      rw [show 8 * (k + 1) = 8 + 8 * k by ring, pow_add]
      norm_num
    rw [hpow] at hm hn
    rw [leBytes, leBytes, List.cons.injEq] at h
    have hhigh : m / 256 = n / 256 :=
      ih (Nat.div_lt_of_lt_mul hm) (Nat.div_lt_of_lt_mul hn) h.2
    have hlow : m % 256 = n % 256 := by
      have := congrArg UInt8.toNat h.1
      simpa [UInt8.toNat_ofNat'] using this
    omega

end Tun2socks.Go
