import Tun2socks.Go.Cipher

/-!
# Tun2socks.Go.Region

Slices that share one buffer.

A buffer is the list of its bytes and a slice of it a `Region`. Functions that work on
several slices of one buffer at once get the buffer and the regions, read what they need
from the buffer as it is and return the buffer as they leave it, so that an overlap of
source and destination has the effect it has in the program. `crypto/cipher` refuses
slices that overlap otherwise than by starting together (`Region.InexactOverlap`).
-/

namespace Tun2socks.Go

/-- A slice of a buffer. -/
structure Region where
  off : Nat
  len : Nat
  deriving DecidableEq

/-- The buffer `mem` with `src` written at `off`, as far as there is room. -/
def store (mem : List Byte) (off : Nat) (src : List Byte) : List Byte :=
  mem.take off ++ copy (mem.drop off) src

namespace Region

/-- The bytes of the region. -/
def bytes (r : Region) (mem : List Byte) : List Byte := (mem.drop r.off).take r.len

/-- `alias.AnyOverlap(x, y)`. -/
def AnyOverlap (x y : Region) : Prop :=
  0 < x.len ∧ 0 < y.len ∧ x.off < y.off + y.len ∧ y.off < x.off + x.len

/-- `alias.InexactOverlap(x, y)`. -/
def InexactOverlap (x y : Region) : Prop := x.off ≠ y.off ∧ AnyOverlap x y

instance (x y : Region) : Decidable (InexactOverlap x y) :=
  inferInstanceAs (Decidable (_ ∧ _ ∧ _ ∧ _ ∧ _))

theorem not_inexactOverlap {off : Nat} (k len : Nat) : ¬ InexactOverlap ⟨off, k⟩ ⟨off, len⟩ :=
  fun h => h.1 rfl

/-- The two slices of a buffer whose first `n` bytes are cut in two. -/
theorem bytes_of_take {mem a c : List Byte} {n : Nat} (hn : n ≤ mem.length)
    (h : mem.take n = a ++ c) :
    n = a.length + c.length ∧ (Region.mk 0 a.length).bytes mem = a ∧
      (Region.mk a.length (n - a.length)).bytes mem = c := by
  have hlen : n = a.length + c.length := by
    have hl := congrArg List.length h
    rw [List.length_take, List.length_append] at hl
    omega
  refine ⟨hlen, ?_, ?_⟩
  · have hhead := congrArg (List.take a.length) h
    rw [List.take_take, Nat.min_eq_left (by omega), List.take_left] at hhead
    exact hhead
  · have hbody := congrArg (List.drop a.length) h
    rw [List.drop_take, List.drop_left] at hbody
    exact hbody

end Region

/-- `copy(dst, src)` for two slices of `mem`. What `src` holds is moved as a whole also
where the two overlap. -/
def move (mem : List Byte) (dst src : Region) : List Byte :=
  store mem dst.off ((src.bytes mem).take dst.len)

/-- `s.XORKeyStream(dst, src)` for two slices of `mem`. -/
def Stream.xorInto (s : Stream) (mem : List Byte) (dst src : Region) : Except Error (List Byte) :=
  if dst.len < src.len then .error .panic
  else if Region.InexactOverlap ⟨dst.off, src.len⟩ src then .error .panic
  else .ok (store mem dst.off (s.xorKeyStream (src.bytes mem)).1)

/-- In place, `XORKeyStream` works as on separate slices. -/
theorem Stream.xorInto_self (s : Stream) (mem : List Byte) {off k len : Nat} (h : len ≤ k) :
    s.xorInto mem ⟨off, k⟩ ⟨off, len⟩ =
      .ok (store mem off (s.xorKeyStream ((Region.mk off len).bytes mem)).1) := by
  rw [xorInto, if_neg (Nat.not_lt.mpr h), if_neg (Region.not_inexactOverlap len len)]

/-! ### What has been written -/

@[simp] theorem store_length (mem : List Byte) (off : Nat) (src : List Byte) :
    (store mem off src).length = mem.length := by
  rw [store, List.length_append, copy_length, List.length_take, List.length_drop]
  omega

/-- The buffer from `off` on. -/
theorem drop_store {mem : List Byte} {off : Nat} (src : List Byte) (h : off ≤ mem.length) :
    (store mem off src).drop off = copy (mem.drop off) src := by
  rw [store, List.drop_left' (by rw [List.length_take, Nat.min_eq_left h])]

/-- What was stored is there. -/
theorem bytes_store {mem src : List Byte} (off : Nat) (h : off + src.length ≤ mem.length) :
    (Region.mk off src.length).bytes (store mem off src) = src := by
  have hroom : src.length ≤ (mem.drop off).length := by
    rw [List.length_drop]
    omega
  rw [Region.bytes, drop_store src (show off ≤ mem.length by omega), copy_take le_rfl hroom,
    List.take_length]

/-- At the front of the buffer. -/
theorem take_store_zero {mem src : List Byte} (h : src.length ≤ mem.length) :
    (store mem 0 src).take src.length = src := by
  have hbytes := bytes_store 0 (show 0 + src.length ≤ mem.length by rwa [Nat.zero_add])
  rwa [Region.bytes, List.drop_zero] at hbytes

/-- Everything in front of what was stored is as before. -/
theorem take_store (mem src : List Byte) (off : Nat) :
    (store mem off src).take off = mem.take off := by
  rw [store, List.take_append, List.take_take, Nat.min_self, List.length_take]
  by_cases h : off ≤ mem.length
  · rw [Nat.min_eq_left h, Nat.sub_self, List.take_zero, List.append_nil]
  · rw [List.drop_of_length_le (by omega)]
    simp [copy]

/-- Two pieces stored one behind the other. -/
theorem take_store_store {mem a b : List Byte} (h : a.length + b.length ≤ mem.length) :
    (store (store mem 0 a) a.length b).take (a.length + b.length) = a ++ b := by
  have hb : ((store (store mem 0 a) a.length b).drop a.length).take b.length = b :=
    bytes_store a.length (by rwa [store_length])
  rw [List.take_add, hb, take_store, take_store_zero (by omega)]

/-- What is stored at `off` and moved to the front of the buffer from there stands at
the front, also where the two places overlap. -/
theorem take_move_store {mem src : List Byte} {off : Nat} (h : off + src.length ≤ mem.length) :
    (move (store mem off src) ⟨0, mem.length⟩ ⟨off, src.length⟩).take src.length = src := by
  have hfits : src.length ≤ mem.length := by omega
  rw [move, bytes_store off h, List.take_of_length_le hfits]
  exact take_store_zero (by rwa [store_length])

end Tun2socks.Go
