import Mathlib.Data.Vector.Basic
import Tun2socks.Go.Basic

/-!
# Tun2socks.Go.Cipher

Stream ciphers as `crypto/cipher` has them, and hashes.

What a `cipher.Stream` makes of its next input depends on the bytes it has been given so
far, so its state is those bytes. That the input may be cut anywhere is the one law
(`StreamCipher.append`). The state of a `hash.Hash` is what has been written to it.
-/

namespace Tun2socks.Go

/-- A stream cipher under a fixed key and IV: what `src` becomes after the bytes `past`. -/
structure StreamCipher where
  xor : (past src : List Byte) → List Byte
  length_xor : ∀ past src, (xor past src).length = src.length
  append : ∀ past a b, xor past (a ++ b) = xor past a ++ xor (past ++ a) b

/-- A `cipher.Stream`. -/
structure Stream where
  cipher : StreamCipher
  past : List Byte

namespace Stream

/-- `XORKeyStream(dst, src)`: the bytes put into `dst`, and the stream afterwards. -/
def xorKeyStream (s : Stream) (src : List Byte) : List Byte × Stream :=
  (s.cipher.xor s.past src, { s with past := s.past ++ src })

end Stream

namespace StreamCipher

/-- A new `cipher.Stream`. -/
def stream (c : StreamCipher) : Stream := ⟨c, []⟩

theorem xor_nil (c : StreamCipher) (past : List Byte) : c.xor past [] = [] :=
  List.eq_nil_of_length_eq_zero (c.length_xor past [])

section Cut

variable (c : StreamCipher) (past data : List Byte) {n : Nat}

theorem take_xor (h : n ≤ data.length) :
    (c.xor past data).take n = c.xor past (data.take n) := by
  conv_lhs => rw [← List.take_append_drop n data, c.append]
  rw [List.take_left' (by rw [c.length_xor, List.length_take, Nat.min_eq_left h])]

theorem drop_xor (h : n ≤ data.length) :
    (c.xor past data).drop n = c.xor (past ++ data.take n) (data.drop n) := by
  conv_lhs => rw [← List.take_append_drop n data, c.append]
  rw [List.drop_left' (by rw [c.length_xor, List.length_take, Nat.min_eq_left h])]

end Cut

/-- The keystream `k 0, k 1, …`, whatever the input is. -/
def ofKeystream (k : Nat → Byte) : StreamCipher where
  xor past src := src.mapIdx fun i b => b ^^^ k (past.length + i)
  length_xor _ _ := List.length_mapIdx
  append past a b := by
    rw [List.mapIdx_append]
    simp only [List.length_append, Nat.add_assoc, Nat.add_comm a.length]

end StreamCipher

/-! ### Hashes -/

/-- A `hash.Hash` with digests of `size` bytes: its function, and the bytes written since
the last `Reset`. -/
structure Hash (size : Nat) where
  digest : List Byte → List.Vector Byte size
  written : List Byte

namespace Hash

variable {size : Nat}

/-- A new `hash.Hash`. -/
def new (digest : List Byte → List.Vector Byte size) : Hash size := ⟨digest, []⟩

/-- `Write(p)`, which never fails. -/
def write (h : Hash size) (p : List Byte) : Hash size := { h with written := h.written ++ p }

/-- `Sum(b)`: the digest behind the bytes of `b`. -/
def sum (h : Hash size) (b : List Byte) : List Byte := b ++ (h.digest h.written).1

/-- `Reset`. -/
def reset (h : Hash size) : Hash size := { h with written := [] }

@[simp] theorem length_sum (h : Hash size) (b : List Byte) :
    (h.sum b).length = b.length + size := by
  rw [sum, List.length_append, (h.digest h.written).2]

end Hash

end Tun2socks.Go
