import Tun2socks.Shadowaead.Integrity
import Tun2socks.Shadowaead.Packet
import Tun2socks.Shadowstream.Packet

/-!
# Tun2socks.Shadowsocks.Datagrams

The encrypted datagrams of Shadowsocks, with either kind of cipher: what `WriteTo` sends
and `ReadFrom` decrypts inside the caller's buffer.

The ciphers at the end of the module meet the conditions of the theorem: an AEAD whose
tag hides nothing, a keystream, and a table of the one message that was ever sealed.
-/

namespace Tun2socks.Shadowsocks

open Tun2socks.Go

/-- **Encrypted datagrams come back as they were.** With an AEAD or with a stream cipher
the connection carries every payload under every salt or IV, and refuses it exactly when
salt, payload and tag, or IV and payload, are longer than `maxPacketSize`. With an ideal
AEAD nothing is read but what was sealed under the salt that the datagram begins with. -/
theorem datagrams_carried :
    (∀ (ciph : Shadowaead.Cipher) (rand : Nat → Byte) (aead : Shadowaead.AEAD),
      ciph.Correct → ciph.encrypter (Shadowaead.Conn.newSalt rand ciph) = .ok aead →
      ∀ (scratch : List.Vector Byte maxPacketSize) (left payload : List Byte),
        Carries (Shadowaead.packetWriteTo rand ciph scratch)
          (Shadowaead.packetConn ciph left socket)
          (ciph.saltSize + payload.length + aead.overhead) payload) ∧
    (∀ (s : Shadowstream.Cipher) (rand : Nat → Byte), s.Correct →
      ∀ (scratch : List.Vector Byte maxPacketSize) (payload : List Byte),
        Carries (Shadowstream.packetWriteTo rand s scratch) (Shadowstream.packetConn s socket)
          (s.ivSize + payload.length) payload) ∧
    ∀ (ciph : Shadowaead.Cipher) (honest : Set (List Byte × List Byte)), ciph.Ideal honest →
      ∀ (left : List Byte) (d : Datagram) (inbox : Inbox) (b : List Byte),
        ciph.saltSize ≤ b.length →
        (∃ err, ((Shadowaead.packetConn ciph left socket).readFrom (.ok d :: inbox) b).1.err =
          some err) ∨
        ∃ m buf, (d.data.take ciph.saltSize, m) ∈ honest ∧ buf.take m.length = m ∧
          (Shadowaead.packetConn ciph left socket).readFrom (.ok d :: inbox) b =
            (⟨m.length, some d.sender, none, buf⟩, inbox) :=
  ⟨fun _ rand _ hciph haead scratch left payload =>
      Shadowaead.packetConn_carries hciph rand haead scratch left payload,
    fun _ rand hs scratch payload => Shadowstream.packetConn_carries hs rand scratch payload,
    fun _ _ hideal left d inbox b hb =>
      Shadowaead.packetConn_authentic hideal left d inbox b hb⟩

/-! ### Ciphers that meet the conditions -/

/-- Sixteen bytes of salt, which no key depends on. -/
def saltOnly (aead : Shadowaead.AEAD) : Shadowaead.Cipher :=
  ⟨16, fun _ => .ok aead, fun _ => .ok aead⟩

theorem saltOnly_correct {aead : Shadowaead.AEAD} (h : aead.Correct) : (saltOnly aead).Correct :=
  fun _ _ => ⟨aead, aead, rfl, rfl, rfl, h _⟩

/-- A keystream that is the IV over and over. -/
def ivStream : Shadowstream.Cipher where
  ivSize := 8
  encrypter iv := StreamCipher.ofKeystream fun i => iv.getD (i % 8) 0
  decrypter iv := StreamCipher.ofKeystream fun i => iv.getD (i % 8) 0

theorem ivStream_correct : ivStream.Correct := by
  intro iv m _
  apply List.ext_getElem
  · simp [ivStream, StreamCipher.ofKeystream]
  · intro i hi _
    simp only [ivStream, StreamCipher.ofKeystream, List.getElem_mapIdx]
    rw [UInt8.xor_assoc, UInt8.xor_self, UInt8.xor_zero]

/-- Only `m` was ever sealed. -/
theorem table_ideal (m : List Byte) :
    (saltOnly (Shadowaead.AEAD.table [m])).Ideal (Set.univ ×ˢ {m}) := by
  intro salt aead haead c m' hopen
  obtain rfl := Except.ok.inj haead
  obtain ⟨i, hi, -, hc⟩ := Shadowaead.AEAD.table_unforgeable [m] _ c m' hopen
  obtain rfl : m' = m := List.mem_singleton.mp (List.mem_of_getElem? hi)
  exact ⟨⟨Set.mem_univ _, rfl⟩, _, rfl, hc⟩

/-- The conditions at work: three bytes are carried under either cipher, and the table
delivers nothing but its message. -/
theorem datagrams_carried_three :
    Carries (Shadowaead.packetWriteTo (fun _ => 7) (saltOnly .tagged)
        ⟨List.replicate maxPacketSize 0, List.length_replicate⟩)
      (Shadowaead.packetConn (saltOnly .tagged) [] socket) 35 [1, 2, 3] ∧
    Carries (Shadowstream.packetWriteTo (fun _ => 7) ivStream
        ⟨List.replicate maxPacketSize 0, List.length_replicate⟩)
      (Shadowstream.packetConn ivStream socket) 11 [1, 2, 3] ∧
    ∀ (d : Datagram) (inbox : Inbox),
      (∃ err, ((Shadowaead.packetConn (saltOnly (.table [[1, 2, 3]])) [] socket).readFrom
        (.ok d :: inbox) (List.replicate 64 0)).1.err = some err) ∨
      ∃ buf, buf.take 3 = [1, 2, 3] ∧
        (Shadowaead.packetConn (saltOnly (.table [[1, 2, 3]])) [] socket).readFrom
          (.ok d :: inbox) (List.replicate 64 0) = (⟨3, some d.sender, none, buf⟩, inbox) := by
  refine ⟨datagrams_carried.1 _ _ .tagged (saltOnly_correct Shadowaead.AEAD.tagged_correct) rfl
    _ [] [1, 2, 3], datagrams_carried.2.1 ivStream _ ivStream_correct _ [1, 2, 3], ?_⟩
  intro d inbox
  rcases datagrams_carried.2.2 _ _ (table_ideal [1, 2, 3]) [] d inbox (List.replicate 64 0)
    (by decide) with herr | ⟨m, buf, ⟨-, hm⟩, hbuf, hread⟩
  · exact .inl herr
  · obtain rfl : m = [1, 2, 3] := hm
    exact .inr ⟨buf, hbuf, hread⟩

end Tun2socks.Shadowsocks
