import Tun2socks.Shadowaead.Stream
import Tun2socks.Shadowsocks.PacketConn

/-!
# Tun2socks.Shadowaead.Packet

Model of `transport/shadowsocks/shadowaead/packet.go`: one datagram is a salt and the
payload sealed under the key of that salt, with the nonce zero.

What `Open` leaves in its destination when it fails is not specified by `cipher.AEAD`; it
is the parameter `left` here.
-/

namespace Tun2socks.Shadowaead

open Tun2socks.Go Tun2socks.Shadowsocks

/-- `_zerononce`. -/
def zerononce : List Byte := List.replicate 128 0

/-- `Pack(dst, plaintext, ciph)`. The salt is read into `dst` and `Seal` appends to it. A salt
longer than `dst` takes the slice expression `dst[:saltSize]` out of range. -/
def pack (rand : Nat → Byte) (ciph : Cipher) (dst plaintext : List Byte) :
    Except Error (List Byte) :=
  if dst.length < ciph.saltSize then .error .panic
  else
    let salt := Conn.newSalt rand ciph
    let dst := store dst 0 salt
    match ciph.encrypter salt with
    | .error err => .error err
    | .ok aead =>
      if dst.length < ciph.saltSize + plaintext.length + aead.overhead then .error .shortBuffer
      else
        let b := aead.seal (zerononce.take aead.nonceSize) plaintext
        .ok ((store dst ciph.saltSize b).take (ciph.saltSize + b.length))

/-- `aead.Open(dst[:0], nonce, ciphertext, nil)` on slices of `mem`, where `dst` has room
for the plaintext. -/
def AEAD.openInto (aead : AEAD) (left nonce mem : List Byte) (dst ciphertext : Region) :
    Except Error Region × List Byte :=
  if Region.InexactOverlap ⟨dst.off, ciphertext.len - aead.overhead⟩ ciphertext then
    (.error .panic, mem)
  else
    match aead.open nonce (ciphertext.bytes mem) with
    | .error err => (.error err, store mem dst.off (left.take dst.len))
    | .ok m => (.ok ⟨dst.off, m.length⟩, store mem dst.off m)

/-- `Unpack(dst, pkt, ciph)`. -/
def unpack (ciph : Cipher) (left : List Byte) : Unpack := fun mem dst pkt =>
  if pkt.len < ciph.saltSize then (.error errShortPacket, mem)
  else
    match ciph.decrypter ((Region.mk pkt.off ciph.saltSize).bytes mem) with
    | .error err => (.error err, mem)
    | .ok aead =>
      if pkt.len < ciph.saltSize + aead.overhead then (.error errShortPacket, mem)
      else if ciph.saltSize + dst.len + aead.overhead < pkt.len then (.error .shortBuffer, mem)
      else
        aead.openInto left (zerononce.take aead.nonceSize) mem dst
          ⟨pkt.off + ciph.saltSize, pkt.len - ciph.saltSize⟩

/-- `PacketConn.WriteTo(b, addr)`. -/
def packetWriteTo (rand : Nat → Byte) (ciph : Cipher) :
    List.Vector Byte maxPacketSize → PacketSink → List Byte → (Nat × Option Error) × PacketSink :=
  writeTo (pack rand ciph)

/-- `NewPacketConn(c, ciph)`. -/
def packetConn (ciph : Cipher) (left : List Byte) (pc : PacketConn) : PacketConn :=
  Shadowsocks.packetConn ciph.saltSize (unpack ciph left) pc

/-! ### One packet -/

/-- The two ends of a cipher fit together: whatever the salt, there is an AEAD on either
side, and what the one seals the other opens. -/
def Cipher.Correct (ciph : Cipher) : Prop :=
  ∀ salt : List Byte, salt.length = ciph.saltSize → ∃ enc dec, ciph.encrypter salt = .ok enc ∧
    ciph.decrypter salt = .ok dec ∧ dec.overhead = enc.overhead ∧
    ∀ m, dec.open (zerononce.take dec.nonceSize) (enc.seal (zerononce.take enc.nonceSize) m) = .ok m

theorem newSalt_length (rand : Nat → Byte) (ciph : Cipher) :
    (Conn.newSalt rand ciph).length = ciph.saltSize := by
  simp [Conn.newSalt]

/-- What `Pack` makes of a payload: an error if the packet does not fit into `dst`, and
otherwise salt and sealed payload, whatever `dst` held before. -/
theorem pack_eq {rand : Nat → Byte} {ciph : Cipher} {aead : AEAD}
    (haead : ciph.encrypter (Conn.newSalt rand ciph) = .ok aead) (dst plaintext : List Byte) :
    (dst.length < ciph.saltSize + plaintext.length + aead.overhead →
      ∃ err, pack rand ciph dst plaintext = .error err) ∧
    (ciph.saltSize + plaintext.length + aead.overhead ≤ dst.length →
      pack rand ciph dst plaintext =
        .ok (Conn.newSalt rand ciph ++ aead.seal (zerononce.take aead.nonceSize) plaintext)) := by
  have hsalt := newSalt_length rand ciph
  have hseal := aead.seal_length (zerononce.take aead.nonceSize) plaintext
  unfold pack
  dsimp only
  rw [haead]
  dsimp only
  rw [store_length]
  constructor
  · intro hlt
    rw [if_pos hlt]
    exact ⟨_, (apply_ite _ _ _ _).symm⟩
  · intro hle
    rw [if_neg (by omega), if_neg (by omega), ← hsalt, take_store_store (by omega)]

/-- `Pack` fails exactly if there is no AEAD for its salt or the packet does not fit. -/
theorem pack_error_iff (rand : Nat → Byte) (ciph : Cipher) (dst plaintext : List Byte) :
    (∃ err, pack rand ciph dst plaintext = .error err) ↔
      ∀ aead, ciph.encrypter (Conn.newSalt rand ciph) = .ok aead →
        dst.length < ciph.saltSize + plaintext.length + aead.overhead := by
  cases haead : ciph.encrypter (Conn.newSalt rand ciph) with
  | error err =>
    refine iff_of_true ?_ (fun _ h => nomatch h)
    unfold pack
    dsimp only
    rw [haead]
    exact ⟨_, (apply_ite _ _ _ _).symm⟩
  | ok aead =>
    obtain ⟨hlarge, hsmall⟩ := pack_eq haead dst plaintext
    constructor
    · rintro ⟨err, herr⟩ _ ⟨⟩
      by_contra hge
      rw [hsmall (Nat.le_of_not_lt hge)] at herr
      cases herr
    · intro h
      exact hlarge (h aead rfl)

/-- What `Unpack` opens in place: behind the salt of the packet it decrypts. -/
theorem unpack_in_place {ciph : Cipher} {aead : AEAD} {left mem salt c m : List Byte} {n : Nat}
    (hsalt : salt.length = ciph.saltSize) (haead : ciph.decrypter salt = .ok aead)
    (hopen : aead.open (zerononce.take aead.nonceSize) c = .ok m) (hn : n ≤ mem.length)
    (hmem : mem.take n = salt ++ c) :
    unpack ciph left mem ⟨ciph.saltSize, mem.length - ciph.saltSize⟩ ⟨0, n⟩ =
      (.ok ⟨ciph.saltSize, m.length⟩, store mem ciph.saltSize m) := by
  obtain ⟨hlen, hhead, hbody⟩ := Region.bytes_of_take hn hmem
  have hm := aead.open_length _ _ _ hopen
  rw [hsalt] at hlen hhead hbody
  unfold unpack
  dsimp only
  rw [if_neg (by omega), hhead, haead]
  dsimp only
  rw [if_neg (by omega), if_neg (by omega), AEAD.openInto, Nat.zero_add,
    if_neg (Region.not_inexactOverlap _ _), hbody, hopen]

/-- A successful `Unpack` has opened what stands behind the salt. -/
theorem unpack_inv {ciph : Cipher} {left mem mem' : List Byte} {dst bb : Region} {n : Nat}
    (h : unpack ciph left mem dst ⟨0, n⟩ = (.ok bb, mem')) :
    ∃ aead c m, ciph.saltSize ≤ n ∧ ciph.decrypter (mem.take ciph.saltSize) = .ok aead ∧
      aead.open (zerononce.take aead.nonceSize) c = .ok m ∧ m.length ≤ dst.len ∧
      bb = ⟨dst.off, m.length⟩ ∧ mem' = store mem dst.off m := by
  unfold unpack at h
  dsimp only at h
  split at h
  · cases h
  rename_i hn
  split at h
  · cases h
  rename_i aead haead
  split at h
  · cases h
  split at h
  · cases h
  rename_i hshort hroom
  rw [AEAD.openInto] at h
  split at h
  · cases h
  split at h
  · cases h
  · rename_i m hopen
    cases h
    have hm := aead.open_length _ _ _ hopen
    have hc : ((Region.mk (0 + ciph.saltSize) (n - ciph.saltSize)).bytes mem).length ≤
        n - ciph.saltSize := List.length_take_le _ _
    exact ⟨aead, _, m, by omega, haead, hopen, by omega, rfl, rfl⟩

/-- **The AEAD connection carries every payload.** -/
theorem packetConn_carries {ciph : Cipher} (hciph : ciph.Correct) (rand : Nat → Byte)
    {aead : AEAD} (haead : ciph.encrypter (Conn.newSalt rand ciph) = .ok aead)
    (scratch : List.Vector Byte maxPacketSize) (left payload : List Byte) :
    Carries (packetWriteTo rand ciph scratch) (packetConn ciph left socket)
      (ciph.saltSize + payload.length + aead.overhead) payload := by
  have hsalt := newSalt_length rand ciph
  obtain ⟨enc, dec, henc, hdec, -, hopen⟩ := hciph _ hsalt
  obtain rfl : aead = enc := Except.ok.inj (haead.symm.trans henc)
  obtain ⟨hlarge, hsmall⟩ := pack_eq haead scratch.1 payload
  rw [scratch.2] at hlarge hsmall
  refine Carries.of_pack (by omega) hlarge ?_
  intro hle
  refine ⟨_, ?_, hsmall hle, ?_⟩
  · rw [List.length_append, hsalt, aead.seal_length]
    omega
  · intro buf hbuf htake
    exact unpack_in_place hsalt hdec (hopen payload) hbuf htake

/-! ### Packets of an adversary -/

/-- The cipher is ideal for the honest packets, given by salt and payload: only they are
opened. -/
def Cipher.Ideal (ciph : Cipher) (honest : Set (List Byte × List Byte)) : Prop :=
  ∀ salt aead, ciph.decrypter salt = .ok aead → ∀ c m,
    aead.open (zerononce.take aead.nonceSize) c = .ok m →
      (salt, m) ∈ honest ∧ ∃ enc, ciph.encrypter salt = .ok enc ∧
        c = enc.seal (zerononce.take enc.nonceSize) m

/-- **Whatever datagram arrives**, `ReadFrom` fails or returns a payload that was sealed
under the salt the datagram begins with. -/
theorem packetConn_authentic {ciph : Cipher} {honest : Set (List Byte × List Byte)}
    (hideal : ciph.Ideal honest) (left : List Byte) (d : Datagram) (inbox : Inbox)
    (b : List Byte) (hb : ciph.saltSize ≤ b.length) :
    (∃ err, ((packetConn ciph left socket).readFrom (.ok d :: inbox) b).1.err = some err) ∨
    ∃ m buf, (d.data.take ciph.saltSize, m) ∈ honest ∧ buf.take m.length = m ∧
      (packetConn ciph left socket).readFrom (.ok d :: inbox) b =
        (⟨m.length, some d.sender, none, buf⟩, inbox) := by
  have hread : (packetConn ciph left socket).readFrom (.ok d :: inbox) b =
      (decrypt ciph.saltSize (unpack ciph left)
        ⟨(min d.data.length b.length : Nat), some d.sender, none, copy b (d.data ++ d.scratch)⟩,
        inbox) := by
    rw [Nat.cast_min]
    rfl
  have hlen : (copy b (d.data ++ d.scratch)).length = b.length := copy_length b _
  rw [hread]
  rcases decrypt_cases ciph.saltSize (unpack ciph left) (min d.data.length b.length)
    (some d.sender) (copy b (d.data ++ d.scratch)) with herr | ⟨bb, mem, hun, -, -, heq⟩
  · exact .inl herr
  · obtain ⟨aead, c, m, hn, haead, hopen, hm, rfl, rfl⟩ := unpack_inv hun
    -- the salt is whole, so it is the datagram's own
    have hsalt : (copy b (d.data ++ d.scratch)).take ciph.saltSize = d.data.take ciph.saltSize := by
      rw [copy_take (by rw [List.length_append]; omega) hb,
        List.take_append_of_le_length (by omega)]
    rw [hsalt] at haead
    refine .inr ⟨m, _, (hideal _ _ haead c m hopen).1, ?_, by rw [heq]⟩
    have hfits : ciph.saltSize + m.length ≤ (copy b (d.data ++ d.scratch)).length := by
      dsimp only at hm
      omega
    exact take_move_store hfits

end Tun2socks.Shadowaead
