import Tun2socks.Udp.PacketConn
import Tun2socks.Metadata

/-!
# Tun2socks.Udp.Session

Which replies a UDP session writes back to its origin.

The filter compares the text of a reply's `net.UDPAddr` with the text that
`netip.AddrPort` has of the session's destination. The two agree on every destination
but the IPv4-mapped ones: a session with such a destination gets no reply at all
(`session_replies_iff`).
-/

namespace Tun2socks.Udp

open Tun2socks.Go Tun2socks.Socks5

/-- `buffer.MaxSegmentSize`. -/
def maxSegmentSize : Nat := 2 ^ 16 - 1

/-- A well-formed reply: an IP source, a payload, and a size a datagram can have. -/
structure Reply where
  ip : IP
  port : UInt16
  payload : List Byte
  ip_set : ip ≠ .none
  fits : 3 + (serializeAddr [] ip port).length + payload.length ≤ maxSegmentSize

namespace Reply

/-- The address that the reply carries. -/
def addr (r : Reply) : Addr := serializeAddr [] r.ip r.port

/-- The reply comes from the destination of the session. -/
def From (r : Reply) (m : Metadata) : Prop := r.ip.unmap = m.dstIP.unmap ∧ r.port = m.dstPort

instance (r : Reply) (m : Metadata) : Decidable (r.From m) :=
  inferInstanceAs (Decidable (r.ip.unmap = m.dstIP.unmap ∧ r.port = m.dstPort))

theorem addr_complete (r : Reply) : Complete r.addr := by
  obtain ⟨ip, port, payload, hset, -⟩ := r
  cases ip with
  | none => exact absurd rfl hset
  | v4 ip => exact .ipv4 ip _ _
  | v6 ip => exact .ipv6 ip _ _

/-- The address decodes to the source. -/
theorem addr_udpAddr (r : Reply) : r.addr.udpAddr = some ⟨r.ip, r.port.toNat⟩ := by
  obtain ⟨ip, port, payload, hset, -⟩ := r
  have hport := uint16_putUint16 port.toNat_lt
  cases ip with
  | none => exact absurd rfl hset
  | v4 ip =>
    rw [addr]
    exact (udpAddr_ipv4 ip _ _).trans (by rw [hport])
  | v6 ip =>
    rw [addr]
    exact (udpAddr_ipv6 ip _ _).trans (by rw [hport])

end Reply

/-- A reply as it arrives: what the embedded connection leaves in the buffer behind
it (decryption in place does), and the peer that sent the datagram. -/
structure Arrival where
  reply : Reply
  scratch : List Byte
  peer : UDPAddr

/-- The two kinds of packet connections. -/
inductive Carrier
  | socks5
  | shadowsocks

namespace Carrier

/-- The connection that reads what a carrier delivers. -/
def conn (T : IPv6Text) : Carrier → PacketConn
  | socks5 => socksPacketConn T socket
  | shadowsocks => ssPacketConn socket

/-- The bytes a reply arrives as. -/
def packet (r : Reply) : Carrier → List Byte
  | socks5 => [0x00, 0x00, 0x00] ++ r.addr ++ r.payload
  | shadowsocks => r.addr ++ r.payload

/-- The datagram that arrives at the socket. -/
def datagram (c : Carrier) (a : Arrival) : Datagram := ⟨c.packet a.reply, a.scratch, a.peer⟩

theorem packet_length_le (c : Carrier) (r : Reply) : (c.packet r).length ≤ maxSegmentSize := by
  have hfits := r.fits
  cases c with
  | socks5 =>
    rw [packet, List.length_append, List.length_append]
    exact hfits
  | shadowsocks =>
    rw [packet, List.length_append]
    exact le_trans (Nat.add_le_add_right (Nat.le_add_left _ 3) _) hfits

/-- The socket puts the packet in front of the buffer. -/
theorem socket_packet (c : Carrier) (a : Arrival) (inbox : Inbox) {b : List Byte}
    (hb : b.length = maxSegmentSize) :
    ∃ rest, (c.packet a.reply ++ rest).length = maxSegmentSize ∧
      socket.readFrom (.ok (c.datagram a) :: inbox) b =
        (⟨(c.packet a.reply).length, some a.peer, none, c.packet a.reply ++ rest⟩, inbox) := by
  have hle : (c.packet a.reply).length ≤ b.length := by
    rw [hb]
    exact c.packet_length_le a.reply
  obtain ⟨rest, hbuf⟩ := copy_append b (c.packet a.reply) a.scratch
  rw [List.take_of_length_le hle] at hbuf
  have hmin : (min ((c.packet a.reply).length : Int) b.length) = (c.packet a.reply).length :=
    min_eq_left (Int.ofNat_le.mpr hle)
  refine ⟨rest, by rw [← hbuf, copy_length, hb], ?_⟩
  rw [← hbuf]
  simp only [socket, datagram, hmin]

theorem socksDecode_packet (T : IPv6Text) (r : Reply) (peer : UDPAddr) (rest : List Byte) :
    socksDecode T ⟨(packet r .socks5).length, some peer, none, packet r .socks5 ++ rest⟩ =
      ⟨r.payload.length, some ⟨r.ip, r.port.toNat⟩, none,
        copy (packet r .socks5 ++ rest) (r.payload ++ rest)⟩ := by
  have hdec : decodeUDPPacket (packet r .socks5 ++ rest) = .ok (r.addr, r.payload ++ rest) :=
    decodeUDPPacket_eq_ok.mpr ⟨r.addr_complete, by simp [packet]⟩
  have hn : ((packet r .socks5).length : Int) - r.addr.length - 3 = r.payload.length := by
    simp only [packet, List.length_append, List.length_cons, List.length_nil]
    omega
  simp only [socksDecode, hdec, r.addr_udpAddr, hn]

theorem ssDecode_packet (r : Reply) (peer : UDPAddr) (rest : List Byte) :
    ssDecode ⟨(packet r .shadowsocks).length, some peer, none, packet r .shadowsocks ++ rest⟩ =
      ⟨r.payload.length, some ⟨r.ip, r.port.toNat⟩, none,
        copy (packet r .shadowsocks ++ rest) (r.payload ++ rest)⟩ := by
  have hn : sliceTo (packet r .shadowsocks ++ rest) (packet r .shadowsocks).length =
      .ok (packet r .shadowsocks) := by
    rw [sliceTo_ok (by rw [List.length_append]; exact Nat.le_add_right _ _), List.take_left' rfl]
  have hsplit : splitAddr (packet r .shadowsocks) = some r.addr :=
    splitAddr_eq_some.mpr ⟨r.addr_complete, r.payload, rfl⟩
  have hdrop : (packet r .shadowsocks ++ rest).drop r.addr.length = r.payload ++ rest := by
    rw [packet, List.append_assoc, List.drop_left' rfl]
  have hm : ((packet r .shadowsocks).length : Int) - r.addr.length = r.payload.length := by
    simp only [packet, List.length_append]
    omega
  simp only [ssDecode, hn, hsplit, r.addr_udpAddr, hdrop, hm]

/-- **One reply received.** Either connection returns its source and, in front of the
buffer, its payload. -/
theorem readFrom_reply (T : IPv6Text) (c : Carrier) (a : Arrival) (inbox : Inbox) {b : List Byte}
    (hb : b.length = maxSegmentSize) :
    ∃ buf, (c.conn T).readFrom (.ok (c.datagram a) :: inbox) b =
        (⟨a.reply.payload.length, some ⟨a.reply.ip, a.reply.port.toNat⟩, none, buf⟩, inbox) ∧
      buf.length = maxSegmentSize ∧ sliceTo buf a.reply.payload.length = .ok a.reply.payload := by
  obtain ⟨rest, hlen, hsocket⟩ := c.socket_packet a inbox hb
  refine ⟨copy (c.packet a.reply ++ rest) (a.reply.payload ++ rest), ?_, ?_, ?_⟩
  · cases c with
    | socks5 => simp only [conn, socksPacketConn, PacketConn.wrap, hsocket, socksDecode_packet]
    | shadowsocks => simp only [conn, ssPacketConn, PacketConn.wrap, hsocket, ssDecode_packet]
  · rw [copy_length, hlen]
  · have hpay : a.reply.payload.length ≤ (c.packet a.reply ++ rest).length := by
      cases c <;> simp only [packet, List.length_append] <;> omega
    rw [sliceTo_ok (by rw [copy_length]; exact hpay),
      copy_take (by rw [List.length_append]; exact Nat.le_add_right _ _) hpay, List.take_left' rfl]

end Carrier

/-- The way back of the session `m` over the connection `c`, from the arrivals `as`:
what `copyPacketData` returns, and what it has written to the origin. -/
def backward (T : IPv6Text) (c : Carrier) (m : Metadata) (origin : PacketSink) (as : List Arrival)
    (b : List Byte) : Option Error × PacketSink :=
  copyPacketData origin (symmetricNATPacketConn T (c.conn T) (m.destinationAddress T))
    (as.map fun a => .ok (c.datagram a)) b

section Backward

variable {T : IPv6Text} {c : Carrier} {m : Metadata} {b : List Byte}

/-- The text of a reply's source is that of the destination exactly when the reply
comes from there and the destination is not IPv4-mapped. -/
theorem source_text_iff (hm : m.dstIP ≠ .none) (r : Reply) :
    UDPAddr.string T ⟨r.ip, r.port.toNat⟩ = m.destinationAddress T ↔
      m.dstIP.is4In6 = false ∧ r.From m := by
  rw [Metadata.destinationAddress, UDPAddr.string_eq_addrPortString r.ip_set hm, Reply.From,
    UInt16.toNat_inj]

/-- A reply whose source has the destination's text is written; any other leaves no
trace. -/
theorem backward_cons (a : Arrival) (as : List Arrival) (hb : b.length = maxSegmentSize)
    (written : List (List Byte)) :
    ∃ buf, buf.length = maxSegmentSize ∧
      backward T c m ⟨written, []⟩ (a :: as) b =
        backward T c m
          ⟨if UDPAddr.string T ⟨a.reply.ip, a.reply.port.toNat⟩ = m.destinationAddress T
            then written ++ [a.reply.payload] else written, []⟩ as buf := by
  obtain ⟨buf, hread, hlen, hslice⟩ :=
    c.readFrom_reply T a (as.map fun a => .ok (c.datagram a)) hb
  refine ⟨buf, hlen, ?_⟩
  rw [backward, List.map_cons]
  split
  · rename_i htext
    have hkeep := symmetricNATPacketConn_keep (T := T) hread (by
      intro sender hs
      cases hs
      exact htext)
    rw [copyPacketData_write hkeep rfl hslice rfl]
    rfl
  · rename_i htext
    rw [copyPacketData_drop _ (by rw [hread]) htext, hread]
    rfl

/-- **A run of the way back.** Written are the payloads of the replies whose source
has the destination's text, in order and once each. -/
theorem backward_eq (as : List Arrival) (hb : b.length = maxSegmentSize)
    (written : List (List Byte)) :
    backward T c m ⟨written, []⟩ as b =
      (none, ⟨written ++ (as.filter fun a =>
        UDPAddr.string T ⟨a.reply.ip, a.reply.port.toNat⟩ = m.destinationAddress T).map
          fun a => a.reply.payload, []⟩) := by
  induction as generalizing b written with
  | nil =>
    have hread : (c.conn T).readFrom [] b = (⟨0, none, some .timeout, b⟩, []) := by
      cases c <;> rfl
    have hkeep : (symmetricNATPacketConn T (c.conn T) (m.destinationAddress T)).readFrom [] b =
        (⟨0, none, some .timeout, b⟩, []) :=
      symmetricNATPacketConn_keep hread (by intro sender hs; cases hs)
    rw [backward, List.map_nil, copyPacketData_eq, hkeep]
    simp
  | cons a as ih =>
    obtain ⟨buf, hlen, hstep⟩ := backward_cons (T := T) (c := c) (m := m) a as hb written
    rw [hstep, ih hlen]
    by_cases htext : UDPAddr.string T ⟨a.reply.ip, a.reply.port.toNat⟩ = m.destinationAddress T
    · simp [htext]
    · simp [htext]

end Backward

/-- **A session gets exactly its own destination's replies, unless the destination is
IPv4-mapped.** For a session with a destination that is set, over either connection:
the payloads written to the origin are those of the replies that come from the
destination, in order and once each, for all sequences of replies and whatever the
buffer held, exactly when the destination is not an IPv4-mapped address. -/
theorem session_replies_iff (T : IPv6Text) (c : Carrier) (m : Metadata) (hm : m.dstIP ≠ .none) :
    (∀ (as : List Arrival) (b : List Byte), b.length = maxSegmentSize →
      backward T c m .fresh as b =
        (none, ⟨(as.filter fun a => a.reply.From m).map fun a => a.reply.payload, []⟩)) ↔
    m.dstIP.is4In6 = false := by
  constructor
  · intro h
    by_contra hmapped
    -- the destination itself answers
    have hfits : 3 + (serializeAddr [] m.dstIP m.dstPort).length +
        ([] : List Byte).length ≤ maxSegmentSize := by
      obtain ⟨ip, port⟩ := m
      cases ip with
      | none => exact absurd rfl hm
      | v4 ip => simp [serializeAddr, ip.2, maxSegmentSize]
      | v6 ip => simp [serializeAddr, IP.asSlice, ip.2, maxSegmentSize]
    let a : Arrival := ⟨⟨m.dstIP, m.dstPort, [], hm, hfits⟩, [], ⟨.none, 0⟩⟩
    have hfrom : a.reply.From m := ⟨rfl, rfl⟩
    have htext : ¬ UDPAddr.string T ⟨a.reply.ip, a.reply.port.toNat⟩ = m.destinationAddress T :=
      fun htext => hmapped ((source_text_iff hm a.reply).mp htext).1
    have hlen : (List.replicate maxSegmentSize (0 : Byte)).length = maxSegmentSize :=
      List.length_replicate
    have hspec := h [a] _ hlen
    rw [PacketSink.fresh, backward_eq [a] hlen] at hspec
    simp [htext, hfrom] at hspec
  · intro hmapped as b hb
    rw [PacketSink.fresh, backward_eq as hb, List.nil_append]
    congr 4
    funext a
    apply decide_eq_decide.mpr
    rw [source_text_iff hm a.reply]
    exact and_iff_right hmapped

/-- A session with an IPv4 destination: one reply of it, one of another host, and one
of it under its IPv4-mapped address. -/
theorem session_replies_ipv4 :
    let ip : List.Vector Byte 4 := ⟨[10, 0, 0, 1], rfl⟩
    let r₁ : Reply := ⟨.v4 ip, 53, [1], by decide, by decide⟩
    let r₂ : Reply := ⟨.v4 ⟨[10, 0, 0, 2], rfl⟩, 53, [2], by decide, by decide⟩
    let r₃ : Reply := ⟨.v6 ⟨IP.mappedHead ++ [10, 0, 0, 1], rfl⟩, 53, [3], by decide, by decide⟩
    backward .decimal .socks5 ⟨.v4 ip, 53⟩ .fresh
      ([r₁, r₂, r₃].map fun r => ⟨r, [], ⟨.none, 0⟩⟩) (List.replicate maxSegmentSize 0) =
        (none, ⟨[[1], [3]], []⟩) :=
  (session_replies_iff .decimal .socks5 ⟨.v4 ⟨[10, 0, 0, 1], rfl⟩, 53⟩ (by decide)).mpr rfl _ _
    List.length_replicate

/-- A session with the IPv4-mapped destination `::ffff:10.0.0.1`: the reply that
carries the destination's own address is dropped. -/
theorem session_replies_mapped :
    let m : Metadata := ⟨.v6 ⟨IP.mappedHead ++ [10, 0, 0, 1], rfl⟩, 53⟩
    let r : Reply := ⟨m.dstIP, m.dstPort, [1], by decide, by decide⟩
    r.addr = serializeAddr [] m.dstIP m.dstPort ∧ r.From m ∧
      backward .decimal .socks5 m .fresh [⟨r, [], ⟨.none, 0⟩⟩] (List.replicate maxSegmentSize 0) =
        (none, ⟨[], []⟩) := by
  intro m r
  have hset : m.dstIP ≠ .none := by decide
  have htext : ¬ UDPAddr.string .decimal ⟨r.ip, r.port.toNat⟩ = m.destinationAddress .decimal := by
    rw [source_text_iff hset r]
    decide
  refine ⟨rfl, ⟨rfl, rfl⟩, ?_⟩
  rw [PacketSink.fresh, backward_eq _ List.length_replicate]
  simp [htext]

end Tun2socks.Udp
