import Tun2socks.Go.Cipher

/-!
# Tun2socks.Shadowsocks.Kdf

`Kdf`, the derivation of a key from a password in `core/cipher.go`.

The loop appends one digest per round and keeps `prev`, the window on the last of them.
After `i` rounds it has the first `i` digests of `EVP_BytesToKey`'s chain (`digests`), a
hash that has been reset, and the window on the last digest (`window`); so its result is a
beginning of the chain, whatever the length of the key.
-/

namespace Tun2socks.Shadowsocks

open Tun2socks.Go

variable (md5 : List Byte → List.Vector Byte 16) (password : List Byte)

/-! ### The loop -/

/-- The loop of `Kdf`. In `b[len(b)-h.Size():]` the digest has just been appended, so the
difference is not negative. -/
def kdfLoop (keyLen : Nat) (h : Hash 16) (b prev : List Byte) : Except Error (List Byte) :=
  if b.length < keyLen then
    let h := h.write prev
    let h := h.write password
    let b' := h.sum b
    match sliceFrom b' (b'.length - 16) with
    | .error err => .error err
    | .ok prev => kdfLoop keyLen h.reset b' prev
  else sliceTo b keyLen
termination_by keyLen - b.length
decreasing_by
  rw [Hash.length_sum]
  omega

/-- `kdf(password, keyLen)`. -/
def kdf (keyLen : Nat) : Except Error (List Byte) := kdfLoop password keyLen (.new md5) [] []

/-! ### The chain of digests -/

/-- `D₁ = MD5(password)` and `Dᵢ₊₁ = MD5(Dᵢ ++ password)`, counted from zero. -/
def chain : Nat → List Byte
  | 0 => (md5 password).1
  | i + 1 => (md5 (chain i ++ password)).1

/-- The first `n` digests, one after the other. -/
def digests (n : Nat) : List Byte := (List.range n).flatMap (chain md5 password)

/-- `prev` after `i` rounds. -/
def window : Nat → List Byte
  | 0 => []
  | i + 1 => chain md5 password i

theorem length_chain (i : Nat) : (chain md5 password i).length = 16 := by
  cases i with
  | zero => exact (md5 password).2
  | succ i => exact (md5 (chain md5 password i ++ password)).2

theorem chain_eq (i : Nat) :
    chain md5 password i = (md5 (window md5 password i ++ password)).1 := by
  cases i with
  | zero => rfl
  | succ i => rfl

theorem digests_succ (n : Nat) :
    digests md5 password (n + 1) = digests md5 password n ++ chain md5 password n := by
  simp [digests, List.range_succ]

@[simp] theorem length_digests (n : Nat) : (digests md5 password n).length = 16 * n := by
  induction n with
  | zero => rfl
  | succ n ih => rw [digests_succ, List.length_append, ih, length_chain, Nat.mul_succ]

theorem digests_prefix {m n : Nat} (h : m ≤ n) :
    digests md5 password m <+: digests md5 password n := by
  induction n, h using Nat.le_induction with
  | base => exact List.prefix_rfl
  | succ n _ ih =>
    rw [digests_succ]
    exact ih.trans (List.prefix_append _ _)

/-- A beginning of the chain does not depend on how much of the chain there is. -/
theorem take_digests {k m n : Nat} (hm : k ≤ 16 * m) (hn : k ≤ 16 * n) :
    (digests md5 password m).take k = (digests md5 password n).take k := by
  have hle : ∀ {i j : Nat}, i ≤ j → k ≤ 16 * i →
      (digests md5 password i).take k = (digests md5 password j).take k := by
    intro i j hij hi
    obtain ⟨rest, hrest⟩ := digests_prefix md5 password hij
    rw [← hrest, List.take_append_of_le_length (by rwa [length_digests])]
  rcases Nat.le_total m n with hmn | hnm
  · exact hle hmn hm
  · exact (hle hnm hn).symm

/-! ### What the loop computes -/

/-- One round, from the state after `i` of them. -/
theorem kdfLoop_round {keyLen i : Nat} (h : 16 * i < keyLen) :
    kdfLoop password keyLen (.new md5) (digests md5 password i) (window md5 password i) =
      kdfLoop password keyLen (.new md5) (digests md5 password (i + 1))
        (window md5 password (i + 1)) := by
  have hsum : (((Hash.new md5).write (window md5 password i)).write password).sum
      (digests md5 password i) = digests md5 password (i + 1) := by
    rw [digests_succ, chain_eq]
    rfl
  have hprev : sliceFrom (digests md5 password (i + 1))
      ((digests md5 password (i + 1)).length - 16) = .ok (window md5 password (i + 1)) := by
    have hlen : (digests md5 password (i + 1)).length - 16 = (digests md5 password i).length := by
      rw [length_digests, length_digests]
      omega
    rw [hlen, digests_succ, sliceFrom_ok (by simp), List.drop_left' rfl]
    rfl
  rw [kdfLoop, if_pos (by rwa [length_digests])]
  simp only [hsum, hprev]
  rfl

/-- From there on the loop returns the first `keyLen` bytes of the chain. -/
theorem kdfLoop_eq {keyLen n : Nat} (hn : keyLen ≤ 16 * n) (i : Nat) :
    kdfLoop password keyLen (.new md5) (digests md5 password i) (window md5 password i) =
      .ok ((digests md5 password n).take keyLen) := by
  by_cases h : 16 * i < keyLen
  · rw [kdfLoop_round md5 password h]
    exact kdfLoop_eq hn (i + 1)
  · have hi : keyLen ≤ 16 * i := Nat.le_of_not_lt h
    rw [kdfLoop, if_neg (by rwa [length_digests]), sliceTo_ok (by rwa [length_digests]),
      take_digests md5 password hi hn]
termination_by keyLen - 16 * i

theorem kdf_eq {keyLen n : Nat} (hn : keyLen ≤ 16 * n) :
    kdf md5 password keyLen = .ok ((digests md5 password n).take keyLen) :=
  kdfLoop_eq md5 password hn 0

/-- A key has the length that was asked for. -/
theorem kdf_ok (keyLen : Nat) :
    ∃ key, kdf md5 password keyLen = .ok key ∧ key.length = keyLen := by
  have hn : keyLen ≤ 16 * keyLen := by omega
  refine ⟨_, kdf_eq md5 password hn, ?_⟩
  rw [List.length_take, length_digests]
  exact Nat.min_eq_left hn

/-- **`Kdf` computes `EVP_BytesToKey`.** For every hash with digests of 16 bytes, every
password and every length of the key: the loop ends, no slice is out of range, and the key
is the first bytes of the chain of digests; so a shorter key is a beginning of a longer
one. -/
theorem kdf_is_bytesToKey :
    (∀ keyLen, ∃ key, kdf md5 password keyLen = .ok key ∧ key.length = keyLen ∧
      ∀ n, keyLen ≤ 16 * n → key = (digests md5 password n).take keyLen) ∧
    ∀ m n, m ≤ n → ∃ short long, kdf md5 password m = .ok short ∧
      kdf md5 password n = .ok long ∧ short <+: long := by
  constructor
  · intro keyLen
    obtain ⟨key, hkey, hlen⟩ := kdf_ok md5 password keyLen
    refine ⟨key, hkey, hlen, fun n hn => ?_⟩
    rw [kdf_eq md5 password hn] at hkey
    exact (Except.ok.inj hkey).symm
  · intro m n hmn
    have hn : n ≤ 16 * n := by omega
    refine ⟨_, _, kdf_eq md5 password (hmn.trans hn), kdf_eq md5 password hn, ?_⟩
    exact List.take_prefix_take_left hmn

end Tun2socks.Shadowsocks
