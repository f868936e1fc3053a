import Tun2socks.Go.Packet
import Tun2socks.Go.Region

/-!
# Tun2socks.Shadowsocks.PacketConn

What the two `PacketConn`s of `transport/shadowsocks` share: `shadowaead/packet.go` and
`shadowstream/packet.go` have the same `WriteTo` and `ReadFrom` around a `Pack` and an
`Unpack` of their own, which are parameters here.

`ReadFrom` decrypts inside the caller's buffer. The ciphertext is a part of `b`, `Unpack`
puts the plaintext behind the salt of the same `b`, and the last step copies it to the
front. The three overlap, so `Unpack` works on regions of one buffer.
-/

namespace Tun2socks.Shadowsocks

open Tun2socks.Go

/-- `maxPacketSize`, the length of the buffer that `WriteTo` packs into. -/
def maxPacketSize : Nat := 64 * 1024

/-- `ErrShortPacket`. -/
def errShortPacket : Error := .new "short packet"

/-- `WriteTo(b, addr)`. The buffer from the pool holds `scratch`. -/
def writeTo (pack : (dst plaintext : List Byte) → Except Error (List Byte))
    (scratch : List.Vector Byte maxPacketSize) (sink : PacketSink) (b : List Byte) :
    (Nat × Option Error) × PacketSink :=
  match pack scratch.1 b with
  | .error err => ((0, some err), sink)
  | .ok buf => ((b.length, (sink.writeTo buf).1), (sink.writeTo buf).2)

/-- `Unpack(dst, pkt, ciph)` on two slices of one buffer: the slice returned, and the
buffer afterwards. -/
abbrev Unpack := (mem : List Byte) → (dst pkt : Region) → Except Error Region × List Byte

/-- The part of `ReadFrom(b)` after the embedded `ReadFrom(b)`, with `size` the length of
the salt or the IV. -/
def decrypt (size : Nat) (unpack : Unpack) (x : Received) : Received :=
  match x.err with
  | some _ => x
  | none =>
    -- the slice expressions `b[size:]` and `b[:n]`
    if size ≤ x.buf.length ∧ 0 ≤ x.n ∧ x.n ≤ x.buf.length then
      let y := unpack x.buf ⟨size, x.buf.length - size⟩ ⟨0, x.n.toNat⟩
      match y.1 with
      | .error err => ⟨x.n, x.addr, some err, y.2⟩
      | .ok bb => ⟨bb.len, x.addr, none, move y.2 ⟨0, x.buf.length⟩ bb⟩
    else ⟨0, none, some .panic, x.buf⟩

theorem decrypt_success {size : Nat} {unpack : Unpack} (x : Received)
    (h : (decrypt size unpack x).err = none ∨ (decrypt size unpack x).addr ≠ none) :
    x.err = none ∨ x.addr ≠ none := by
  cases herr : x.err with
  | none => exact .inl rfl
  | some err =>
    unfold decrypt at h
    rw [herr] at h
    dsimp only at h
    rwa [herr] at h

/-- `PacketConn`. -/
def packetConn (size : Nat) (unpack : Unpack) (pc : PacketConn) : PacketConn :=
  pc.map (decrypt size unpack) decrypt_success

/-- One datagram that `Unpack` opens in place. -/
theorem decrypt_in_place {size n : Nat} {unpack : Unpack} (addr : Option UDPAddr)
    {buf m : List Byte} (hn : n ≤ buf.length) (hm : size + m.length ≤ buf.length)
    (h : unpack buf ⟨size, buf.length - size⟩ ⟨0, n⟩ = (.ok ⟨size, m.length⟩, store buf size m)) :
    ∃ buf', decrypt size unpack ⟨n, addr, none, buf⟩ = ⟨m.length, addr, none, buf'⟩ ∧
      buf'.take m.length = m := by
  refine ⟨_, ?_, take_move_store hm⟩
  unfold decrypt
  dsimp only
  rw [if_pos ⟨by omega, by omega, by omega⟩, Int.toNat_natCast, h]

/-- A successful `ReadFrom` comes from a successful `Unpack`. -/
theorem decrypt_cases (size : Nat) (unpack : Unpack) (n : Nat) (addr : Option UDPAddr)
    (buf : List Byte) :
    (∃ err, (decrypt size unpack ⟨n, addr, none, buf⟩).err = some err) ∨
    ∃ bb mem, unpack buf ⟨size, buf.length - size⟩ ⟨0, n⟩ = (.ok bb, mem) ∧ size ≤ buf.length ∧
      n ≤ buf.length ∧
      decrypt size unpack ⟨n, addr, none, buf⟩ =
        ⟨bb.len, addr, none, move mem ⟨0, buf.length⟩ bb⟩ := by
  unfold decrypt
  dsimp only
  by_cases hrange : size ≤ buf.length ∧ 0 ≤ (n : Int) ∧ (n : Int) ≤ buf.length
  · rw [if_pos hrange, Int.toNat_natCast]
    rcases unpack buf ⟨size, buf.length - size⟩ ⟨0, n⟩ with ⟨err | bb, mem⟩
    · exact .inl ⟨err, rfl⟩
    · exact .inr ⟨bb, mem, rfl, hrange.1, by omega, rfl⟩
  · rw [if_neg hrange]
    exact .inl ⟨.panic, rfl⟩

/-! ### What is expected of the two -/

/-- A connection carries `payload`, as a packet of `size` bytes: `write` sends the packet if
the buffer has room for it, and sends nothing and fails if not; and whoever reads the packet
with a buffer that it fits into gets `payload` in the first bytes of that buffer. -/
structure Carries (write : PacketSink → List Byte → (Nat × Option Error) × PacketSink)
    (conn : PacketConn) (size : Nat) (payload : List Byte) : Prop where
  refuses : maxPacketSize < size → ∀ sink, ∃ err, write sink payload = ((0, some err), sink)
  sends : size ≤ maxPacketSize → ∃ packet : List Byte, packet.length = size ∧
    (∀ sink : PacketSink, sink.Working → (write sink payload).1 = (payload.length, none) ∧
      (write sink payload).2.written = sink.written ++ [packet]) ∧
    ∀ (scratch : List Byte) (sender : UDPAddr) (inbox : Inbox) (b : List Byte), size ≤ b.length →
      ∃ buf, conn.readFrom (.ok ⟨packet, scratch, sender⟩ :: inbox) b =
          (⟨payload.length, some sender, none, buf⟩, inbox) ∧
        buf.take payload.length = payload

/-- It is enough to know what `Pack` makes of the payload, and that `Unpack` opens that
in place. -/
theorem Carries.of_pack {pack : List Byte → List Byte → Except Error (List Byte)}
    {unpack : Unpack} {scratch : List.Vector Byte maxPacketSize} {head size : Nat}
    {payload : List Byte} (hfit : head + payload.length ≤ size)
    (hlarge : maxPacketSize < size → ∃ err, pack scratch.1 payload = .error err)
    (hsmall : size ≤ maxPacketSize → ∃ packet : List Byte, packet.length = size ∧
      pack scratch.1 payload = .ok packet ∧
      ∀ buf : List Byte, size ≤ buf.length → buf.take size = packet →
        unpack buf ⟨head, buf.length - head⟩ ⟨0, size⟩ =
          (.ok ⟨head, payload.length⟩, store buf head payload)) :
    Carries (writeTo pack scratch) (packetConn head unpack socket) size payload where
  refuses hlt sink := by
    obtain ⟨err, herr⟩ := hlarge hlt
    exact ⟨err, by rw [writeTo, herr]⟩
  sends hle := by
    obtain ⟨packet, hlen, hpack, hopen⟩ := hsmall hle
    refine ⟨packet, hlen, ?_, ?_⟩
    · intro sink hsink
      obtain ⟨herr, hwritten⟩ := hsink.writeTo packet
      rw [writeTo, hpack]
      dsimp only
      exact ⟨by rw [herr], hwritten⟩
    · intro scratch sender inbox b hb
      have hlenb : (copy b (packet ++ scratch)).length = b.length := copy_length b _
      have htake : (copy b (packet ++ scratch)).take size = packet := by
        rw [copy_take (by rw [List.length_append]; omega) hb, ← hlen, List.take_left]
      obtain ⟨buf, hbuf, hpayload⟩ := decrypt_in_place (some sender)
        (show size ≤ (copy b (packet ++ scratch)).length by omega)
        (show head + payload.length ≤ (copy b (packet ++ scratch)).length by omega)
        (hopen _ (by omega) htake)
      refine ⟨buf, ?_, hpayload⟩
      have hn : (min packet.length b.length : Int) = (size : Nat) := by omega
      rw [← hbuf, packetConn, PacketConn.map]
      dsimp only
      rw [socket_readFrom]
      dsimp only
      rw [hn]

end Tun2socks.Shadowsocks
