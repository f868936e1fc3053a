import Tun2socks.Shadowaead.Runs

/-!
# Tun2socks.Shadowaead.Nonce

The nonces of one `Writer` and of one `Reader`.

Both sides keep a byte array that a carry loop increments after every `Seal` or
`Open`. The rules `Writer.run_induction` and `Reader.run_induction` say once what
a run of calls can do to the two sides, whatever the transport answers; each
invariant is then a fact about one `Seal` or one `Open`. The invariant here is
that the array counts the calls made so far in little-endian.
-/

namespace Tun2socks.Shadowaead

open Tun2socks.Go

/-! ### The carry loop -/

theorem increment_length (b : List Byte) : (increment b).length = b.length := by
  induction b with
  | nil => rfl
  | cons x xs ih =>
    rw [increment]
    split <;> simp [ih]

/-- One run of the carry loop adds one, modulo the width. -/
theorem increment_leBytes (k n : Nat) : increment (leBytes k n) = leBytes k (n + 1) := by
  induction k generalizing n with
  | zero => rfl
  | succ k ih =>
    have hadd : UInt8.ofNat n + 1 = UInt8.ofNat (n + 1) := by
      apply UInt8.toNat_inj.mp
      simp [UInt8.toNat_add]
    have hzero : UInt8.ofNat (n + 1) = 0 ↔ (n + 1) % 256 = 0 := by
      rw [← UInt8.toNat_inj, UInt8.toNat_ofNat']
      rfl
    rw [leBytes, leBytes, increment, hadd]
    by_cases hc : (n + 1) % 256 = 0
    · -- the byte wrapped around: the carry goes on into the next one
      rw [if_neg (by simpa using hzero.mpr hc), ih, show (n + 1) / 256 = n / 256 + 1 by omega]
    · rw [if_pos (fun h => hc (hzero.mp h)), show (n + 1) / 256 = n / 256 by omega]

theorem zeroNonce_take {k : Nat} (hk : k ≤ 32) : zeroNonce.take k = leBytes k 0 := by
  have hrep : ∀ j : Nat, leBytes j 0 = List.replicate j 0 := by
    intro j
    induction j with
    | zero => rfl
    | succ j ih => rw [leBytes, Nat.zero_div, ih]; rfl
  rw [zeroNonce, List.take_replicate, Nat.min_eq_left hk, hrep]

/-- `nonce` is the array after `i` increments. -/
def NonceAt (A : AEAD) (nonce : List Byte) (i : Nat) : Prop :=
  nonce.length = 32 ∧ nonce.take A.nonceSize = leBytes A.nonceSize i

theorem NonceAt.zero (A : AEAD) : NonceAt A zeroNonce 0 :=
  ⟨by simp [zeroNonce], zeroNonce_take A.nonceSize_le⟩

theorem NonceAt.next {A : AEAD} {nonce : List Byte} {i : Nat} (h : NonceAt A nonce i) :
    NonceAt A (incrementNonce A nonce) (i + 1) := by
  obtain ⟨hlen, htake⟩ := h
  have hk := A.nonceSize_le
  have hinc : (increment (nonce.take A.nonceSize)).length = A.nonceSize := by
    rw [increment_length, List.length_take, hlen]
    omega
  refine ⟨?_, ?_⟩
  · rw [incrementNonce, List.length_append, hinc, List.length_drop, hlen]
    omega
  · rw [incrementNonce, List.take_append_of_le_length (by omega),
      List.take_of_length_le (by omega), htake, increment_leBytes]

/-! ### The calls of a run -/

/-- The nonce law for a log of `Seal` or `Open` calls, oldest first: the `i`-th
call uses the little-endian encoding of `i`, so the nonces of any two of the first
`2 ^ (8 * k)` calls differ. -/
structure NonceLaw (k : Nat) (log : List (List Byte × List Byte)) : Prop where
  ith : ∀ i nonce msg, log[i]? = some (nonce, msg) → nonce = leBytes k (i % 2 ^ (8 * k))
  distinct : ∀ i j x y, i ≠ j → i < 2 ^ (8 * k) → j < 2 ^ (8 * k) →
    log[i]? = some x → log[j]? = some y → x.1 ≠ y.1

/-- Every call of the log used the counter's value at its own index. -/
def Counted (k : Nat) (log : List (List Byte × List Byte)) : Prop :=
  ∀ i x, log[i]? = some x → x.1 = leBytes k i

theorem Counted.append {k : Nat} {log : List (List Byte × List Byte)} (h : Counted k log)
    (msg : List Byte) : Counted k (log ++ [(leBytes k log.length, msg)]) := by
  intro i x hx
  rcases Nat.lt_trichotomy i log.length with hlt | heq | hgt
  · rw [List.getElem?_append_left hlt] at hx
    exact h i x hx
  · subst heq
    rw [List.getElem?_concat_length] at hx
    cases hx
    rfl
  · rw [List.getElem?_eq_none (by simp; omega)] at hx
    cases hx

theorem Counted.nonceLaw {k : Nat} {log : List (List Byte × List Byte)} (h : Counted k log) :
    NonceLaw k log where
  ith i nonce msg hi := by
    rw [leBytes_mod]
    exact h i _ hi
  distinct i j x y hne hi hj hx hy heq := by
    rw [h i x hx, h j y hy] at heq
    exact hne (leBytes_injOn hi hj heq)

/-- The writer's invariant: its array counts the `Seal` calls made so far. -/
def Writer.Counts (A : AEAD) (w : Writer) : Prop :=
  w.aead = A ∧ NonceAt A w.nonce w.seals.length ∧ Counted A.nonceSize w.seals

theorem Writer.Counts.run {A : AEAD} (wire : Wire) (calls : List WriterCall) :
    Writer.Counts A ((Writer.new wire A).run calls) := by
  apply Writer.run_induction
  · rintro w m ⟨rfl, hnonce, hlog⟩
    refine ⟨rfl, ?_, ?_⟩
    · simpa [Writer.increment, Writer.seal] using hnonce.next
    · have := hlog.append m
      rwa [← hnonce.2] at this
  · intro w b h
    exact h
  · exact ⟨rfl, NonceAt.zero A, by intro i x hx; simp [Writer.new] at hx⟩

/-- The reader's invariant: its array counts the `Open` calls made so far. -/
def Reader.Counts (A : AEAD) (r : Reader) : Prop :=
  r.aead = A ∧ NonceAt A r.nonce r.opens.length ∧ Counted A.nonceSize r.opens

theorem Reader.Counts.openFull {A : AEAD} {r : Reader} (k : Nat) (h : Reader.Counts A r) :
    Reader.Counts A (r.openFull k).2 := by
  obtain ⟨rfl, hnonce, hlog⟩ := h
  rw [Reader.openFull]
  dsimp only
  split
  · exact ⟨rfl, hnonce, hlog⟩
  · -- the array is incremented and the call logged before the result is looked at
    have hopened : Reader.Counts r.aead
        { r with
          src := (readFull k r.src).2.2
          nonce := incrementNonce r.aead r.nonce
          opens := r.opens ++ [(r.nonce.take r.aead.nonceSize, (readFull k r.src).1)] } := by
      refine ⟨rfl, ?_, ?_⟩
      · simpa using hnonce.next
      · have := hlog.append (readFull k r.src).1
        rwa [← hnonce.2] at this
    split <;> exact hopened

theorem Reader.Counts.run {A : AEAD} (src : List Piece) (calls : List ReaderCall) :
    Reader.Counts A ((Reader.new src A).run calls).2 := by
  apply Reader.run_induction
  · intro r k h
    exact h.openFull k
  · intro r b off h
    exact h
  · exact ⟨rfl, NonceAt.zero A, by intro i x hx; simp [Reader.new] at hx⟩

/-- **No nonce is ever reused.** In every run of `Write` and `ReadFrom` calls on one
`Writer`, over a transport and sources that fail wherever they like, and in every
run of `Read` and `WriteTo` calls on one `Reader`, failed `Open`s included, the
`i`-th call of the AEAD uses the little-endian encoding of `i`. -/
theorem nonces_count_calls (A : AEAD) :
    (∀ (wire : Wire) (calls : List WriterCall),
      NonceLaw A.nonceSize ((Writer.new wire A).run calls).seals) ∧
    (∀ (src : List Piece) (calls : List ReaderCall),
      NonceLaw A.nonceSize ((Reader.new src A).run calls).2.opens) :=
  ⟨fun wire calls => (Writer.Counts.run wire calls).2.2.nonceLaw,
    fun src calls => (Reader.Counts.run src calls).2.2.nonceLaw⟩

end Tun2socks.Shadowaead
