import Tun2socks.Go.Basic

/-!
# Tun2socks.Codec.Checksum

The Internet checksum of RFC 1071.

The one's-complement sum of the 16-bit words of a message is a remainder of their
ordinary sum modulo `2 ^ 16 - 1` in which only the sum zero gives zero (`residue`). The
two representations of zero, and with them that a message with its own checksum in it
always adds up to `0xffff`, are a matter of that remainder (`checksum_verifies`).
-/

namespace Tun2socks.Codec

open Tun2socks.Go

/-- The 16-bit words of a message, an odd last byte padded by zero. -/
def words : List Byte → List Nat
  | [] => []
  | [x] => [x.toNat * 256]
  | x :: y :: rest => uint16 x y :: words rest

/-- One's-complement addition: the carry comes back in at the other end. -/
def addCarry (a b : Nat) : Nat := if a + b < 65536 then a + b else a + b - 65535

/-- The one's-complement sum of a message. -/
def checksum (b : List Byte) : Nat := (words b).foldl addCarry 0

/-- The bits of a 16-bit number, inverted. -/
def complement (n : Nat) : Nat := 65535 - n

/-- From 1 to 65535, except for zero. -/
def residue (n : Nat) : Nat := if n = 0 then 0 else (n - 1) % 65535 + 1

theorem residue_le (n : Nat) : residue n ≤ 65535 := by
  unfold residue
  split <;> omega

theorem residue_add (m n : Nat) : residue (residue m + n) = residue (m + n) := by
  unfold residue
  split
  · rename_i hm
    rw [hm]
  · rw [if_neg (by omega), if_neg (by omega)]
    omega

theorem addCarry_eq {a b : Nat} (ha : a ≤ 65535) (hb : b ≤ 65535) :
    addCarry a b = residue (a + b) := by
  unfold addCarry residue
  split <;> split <;> omega

theorem word_le (b : List Byte) : ∀ w ∈ words b, w ≤ 65535 := by
  fun_induction words b with
  | case1 => simp
  | case2 x =>
    have := x.toNat_lt
    simp only [List.mem_singleton, forall_eq]
    omega
  | case3 x y rest ih =>
    rw [List.forall_mem_cons]
    exact ⟨Nat.le_of_lt_succ (uint16_lt x y), ih⟩

/-- Adding up words with the carry is taking the remainder of their sum. -/
theorem foldl_addCarry {ws : List Nat} (h : ∀ w ∈ ws, w ≤ 65535) {acc : Nat} (hacc : acc ≤ 65535) :
    ws.foldl addCarry acc = residue (acc + ws.sum) := by
  induction ws generalizing acc with
  | nil =>
    rw [List.foldl_nil, List.sum_nil, Nat.add_zero, residue]
    split <;> omega
  | cons w ws ih =>
    rw [List.forall_mem_cons] at h
    rw [List.foldl_cons, addCarry_eq hacc h.1, ih h.2 (residue_le _), residue_add, List.sum_cons,
      Nat.add_assoc]

theorem checksum_eq (b : List Byte) : checksum b = residue (words b).sum := by
  rw [checksum, foldl_addCarry (word_le b) (Nat.zero_le _), Nat.zero_add]

/-- A sum and the complement of its remainder add up to the other zero. -/
theorem residue_add_complement (n : Nat) : residue (n + complement (residue n)) = 65535 := by
  unfold complement residue
  split
  · rename_i hn
    subst hn
    rfl
  · rw [if_neg (by omega)]
    omega

/-- The second word of a message, replaced. -/
def setWord (b : List Byte) (n : Nat) : List Byte := b.take 2 ++ putUint16 n ++ b.drop 4

/-- **A message that carries the complement of its own sum verifies**, where the sum was
taken with a zero in that place. -/
theorem checksum_verifies {b : List Byte} (hlen : 4 ≤ b.length) :
    checksum (setWord b (complement (checksum (setWord b 0)))) = 65535 := by
  match b with
  | x :: y :: z :: w :: rest =>
    have hwords : ∀ n < 65536, (words (setWord (x :: y :: z :: w :: rest) n)).sum =
        uint16 x y + (n + (words rest).sum) := by
      intro n hn
      change (uint16 x y :: uint16 _ _ :: words rest).sum = _
      rw [uint16_putUint16 hn, List.sum_cons, List.sum_cons]
    have hle : complement (checksum (setWord (x :: y :: z :: w :: rest) 0)) < 65536 := by
      unfold complement
      omega
    rw [checksum_eq, hwords _ hle, checksum_eq, hwords 0 (by decide), Nat.zero_add,
      Nat.add_left_comm, Nat.add_comm (complement _)]
    exact residue_add_complement _

end Tun2socks.Codec
