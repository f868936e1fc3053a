import Tun2socks.Shadowstream.Stream
import Tun2socks.Shadowsocks.PacketConn

/-!
# Tun2socks.Shadowstream.Packet

Model of `transport/shadowsocks/shadowstream/packet.go`: one datagram is an IV and the
payload encrypted under it. There is no tag, so that `Unpack` accepts every packet with a
whole IV.
-/

namespace Tun2socks.Shadowstream

open Tun2socks.Go Tun2socks.Shadowsocks

/-- `Pack(dst, plaintext, s)`. -/
def pack (rand : Nat → Byte) (s : Cipher) (dst plaintext : List Byte) : Except Error (List Byte) :=
  if dst.length < s.ivSize + plaintext.length then .error .shortBuffer
  else
    let iv := Conn.newIV rand s
    let dst := store dst 0 iv
    let c := ((s.encrypter iv).stream.xorKeyStream plaintext).1
    .ok ((store dst iv.length c).take (iv.length + plaintext.length))

/-- `Unpack(dst, pkt, s)`. -/
def unpack (s : Cipher) : Unpack := fun mem dst pkt =>
  if pkt.len < s.ivSize then (.error errShortPacket, mem)
  else if dst.len < pkt.len - s.ivSize then (.error .shortBuffer, mem)
  else
    let iv := (Region.mk pkt.off s.ivSize).bytes mem
    match (s.decrypter iv).stream.xorInto mem dst ⟨pkt.off + s.ivSize, pkt.len - s.ivSize⟩ with
    | .error err => (.error err, mem)
    | .ok mem => (.ok ⟨dst.off, pkt.len - s.ivSize⟩, mem)

/-- `PacketConn.WriteTo(b, addr)`. -/
def packetWriteTo (rand : Nat → Byte) (s : Cipher) :
    List.Vector Byte maxPacketSize → PacketSink → List Byte → (Nat × Option Error) × PacketSink :=
  writeTo (pack rand s)

/-- `NewPacketConn(c, ciph)`. -/
def packetConn (s : Cipher) (pc : PacketConn) : PacketConn :=
  Shadowsocks.packetConn s.ivSize (unpack s) pc

/-- What `Pack` makes of a payload that fits, whatever `dst` held before. -/
theorem pack_eq (rand : Nat → Byte) (s : Cipher) {dst plaintext : List Byte}
    (h : s.ivSize + plaintext.length ≤ dst.length) :
    pack rand s dst plaintext =
      .ok (Conn.newIV rand s ++ (s.encrypter (Conn.newIV rand s)).xor [] plaintext) := by
  have hiv := newIV_length rand s
  have hc := (s.encrypter (Conn.newIV rand s)).length_xor [] plaintext
  unfold pack
  rw [if_neg (Nat.not_lt.mpr h)]
  dsimp only [Stream.xorKeyStream, StreamCipher.stream]
  rw [← hc, take_store_store (by omega)]

/-- `Pack` fails exactly if the packet does not fit. -/
theorem pack_error_iff (rand : Nat → Byte) (s : Cipher) (dst plaintext : List Byte) :
    (∃ err, pack rand s dst plaintext = .error err) ↔ dst.length < s.ivSize + plaintext.length := by
  constructor
  · rintro ⟨err, herr⟩
    by_contra hge
    rw [pack_eq rand s (Nat.le_of_not_lt hge)] at herr
    cases herr
  · intro hlt
    exact ⟨_, if_pos hlt⟩

/-- `Unpack` decrypts behind the IV, in place. -/
theorem unpack_in_place {s : Cipher} {mem iv c : List Byte} {n : Nat} (hiv : iv.length = s.ivSize)
    (hn : n ≤ mem.length) (hmem : mem.take n = iv ++ c) :
    unpack s mem ⟨s.ivSize, mem.length - s.ivSize⟩ ⟨0, n⟩ =
      (.ok ⟨s.ivSize, c.length⟩, store mem s.ivSize ((s.decrypter iv).xor [] c)) := by
  obtain ⟨hlen, hhead, hbody⟩ := Region.bytes_of_take hn hmem
  rw [hiv] at hlen hhead hbody
  unfold unpack
  dsimp only
  rw [if_neg (by omega), if_neg (by omega), hhead, Nat.zero_add,
    Stream.xorInto_self _ _ (by omega), hbody, hlen, Nat.add_sub_cancel_left]
  rfl

/-- **The connection carries every payload.** -/
theorem packetConn_carries {s : Cipher} (hs : s.Correct) (rand : Nat → Byte)
    (scratch : List.Vector Byte maxPacketSize) (payload : List Byte) :
    Carries (packetWriteTo rand s scratch) (packetConn s socket) (s.ivSize + payload.length)
      payload := by
  have hiv := newIV_length rand s
  refine Carries.of_pack le_rfl ?_ ?_
  · intro hlt
    exact ⟨_, if_pos (by rwa [scratch.2])⟩
  · intro hle
    have hc := (s.encrypter (Conn.newIV rand s)).length_xor [] payload
    refine ⟨_, ?_, pack_eq rand s (by rwa [scratch.2]), ?_⟩
    · rw [List.length_append, hiv, hc]
    · intro buf hbuf htake
      have h := unpack_in_place hiv hbuf htake
      rwa [hs _ payload hiv, hc] at h

end Tun2socks.Shadowstream
