import Tun2socks.Codec.Checksum
import Mathlib.Data.Vector.Basic

/-!
# Tun2socks.Core.Icmp

Model of `core/icmp.go`.

The stack that the forwarder runs in is given by what it answers: the routes it finds and
whether a packet can be written. What the forwarder does is the packet it writes, the
counters it increments and its own answer.
-/

namespace Tun2socks.Core

open Tun2socks.Go Tun2socks.Codec

/-- `header.ICMPv4Echo`. -/
def icmpv4Echo : Byte := 8
/-- `header.ICMPv4EchoReply`. -/
def icmpv4EchoReply : Byte := 0

/-- `header.ICMPv4ProtocolNumber`. -/
def icmpv4ProtocolNumber : Nat := 1

/-- The values of `NetworkProtocolNumber` that `HandlePacket` tells apart. -/
inductive NetworkProtocol
  | ipv4
  | ipv6
  | other
  deriving DecidableEq

/-- An IPv4 address. -/
abbrev Address := List.Vector Byte 4

/-- A `stack.PacketBuffer`, as far as the forwarder looks at it. -/
structure PacketBuffer where
  networkProtocolNumber : NetworkProtocol
  nicID : Nat
  sourceAddress : Address
  destinationAddress : Address
  localAddressBroadcast : Bool
  transportHeader : List Byte
  data : List Byte

/-- `stack.PayloadSince(pkt.TransportHeader())`. -/
def PacketBuffer.payloadSince (pkt : PacketBuffer) : List Byte := pkt.transportHeader ++ pkt.data

/-- The packet handed to `WritePacket`, with the parameters of its network header. -/
structure Reply where
  reserveHeaderBytes : Nat
  protocol : Nat
  ttl : Nat
  payload : List Byte

/-- A `stack.Route`: its limits, and what `WritePacket` answers. -/
structure Route where
  maxHeaderLength : Nat
  defaultTTL : Nat
  writePacket : Reply → Option Error

/-- `FindRoute`, with `none` for an error. The local address is left open for a packet
that was sent to many. -/
structure Stack where
  findRoute : Nat → Option Address → Address → Option Route

/-- What a call has done. -/
structure Handled where
  written : Option Reply
  echoReply : Nat
  dropped : Nat
  handled : Bool

/-- `header.IsV4MulticastAddress`. -/
def isV4MulticastAddress (a : Address) : Bool := a.1.headD 0 &&& 0xf0 == 0xe0

/-- `header.ICMPv4.SetType`. -/
def setType (b : List Byte) (t : Byte) : List Byte := b.set 0 t
/-- `header.ICMPv4.SetCode`. -/
def setCode (b : List Byte) (c : Byte) : List Byte := b.set 1 c
/-- `header.ICMPv4.SetChecksum`. -/
def setChecksum (b : List Byte) (n : Nat) : List Byte := setWord b n

/-- The local address of the route: none for a packet that was sent to many. -/
def localAddr (pkt : PacketBuffer) : Option Address :=
  if pkt.localAddressBroadcast || isV4MulticastAddress pkt.destinationAddress then none
  else some pkt.destinationAddress

/-- The message of the reply to a message. -/
def replyData (message : List Byte) : List Byte :=
  let hdr := setType message icmpv4EchoReply
  let hdr := setCode hdr 0
  let hdr := setChecksum hdr 0
  setChecksum hdr (complement (checksum hdr))

/-- `handlePacket4`. -/
def handlePacket4 (s : Stack) (pkt : PacketBuffer) : Handled :=
  if pkt.transportHeader.headD 0 ≠ icmpv4Echo then ⟨none, 0, 0, false⟩
  else
    match s.findRoute pkt.nicID (localAddr pkt) pkt.sourceAddress with
    | none => ⟨none, 0, 0, false⟩
    | some r =>
      let replyPkt : Reply :=
        ⟨r.maxHeaderLength, icmpv4ProtocolNumber, r.defaultTTL, replyData pkt.payloadSince⟩
      match r.writePacket replyPkt with
      | some _ => ⟨some replyPkt, 0, 1, false⟩
      | none => ⟨some replyPkt, 1, 0, true⟩

/-- `HandlePacket`, with the handler `h` that is asked first. -/
def handlePacket (h : PacketBuffer → Bool) (s : Stack) (pkt : PacketBuffer) : Handled :=
  if h pkt then ⟨none, 0, 0, true⟩
  else
    match pkt.networkProtocolNumber with
    | .ipv4 => handlePacket4 s pkt
    | .ipv6 => ⟨none, 0, 0, false⟩
    | .other => ⟨none, 0, 0, false⟩

/-- A correct reply to an echo request: an echo reply with code 0 and the rest of the
request, which verifies. -/
structure Replies (request reply : List Byte) : Prop where
  type : reply[0]? = some icmpv4EchoReply
  code : reply[1]? = some 0
  rest : reply.drop 4 = request.drop 4
  length : reply.length = request.length
  verifies : checksum reply = 0xffff

theorem replies_replyData (message : List Byte) (hlen : 4 ≤ message.length) :
    Replies message (replyData message) := by
  match message with
  | t :: c :: hi :: lo :: rest =>
    refine ⟨rfl, rfl, rfl, rfl, ?_⟩
    -- the second sum is of the message that the first one was taken of
    exact checksum_verifies (b := icmpv4EchoReply :: 0 :: hi :: lo :: rest) (by simp)

/-- What `handlePacket4` hands to `WritePacket`: the reply to an echo request, if there is
a route back. -/
theorem handlePacket4_written (s : Stack) (pkt : PacketBuffer) :
    (handlePacket4 s pkt).written =
      if pkt.transportHeader.headD 0 = icmpv4Echo then
        (s.findRoute pkt.nicID (localAddr pkt) pkt.sourceAddress).map fun r =>
          ⟨r.maxHeaderLength, icmpv4ProtocolNumber, r.defaultTTL, replyData pkt.payloadSince⟩
      else none := by
  unfold handlePacket4
  by_cases hecho : pkt.transportHeader.headD 0 = icmpv4Echo
  · rw [if_neg (not_not_intro hecho), if_pos hecho]
    cases s.findRoute pkt.nicID (localAddr pkt) pkt.sourceAddress with
    | none => rfl
    | some r =>
      dsimp only
      split <;> rfl
  · rw [if_pos hecho, if_neg hecho]

/-- **Echo replies are correct.** For every ICMPv4 echo request of at least 8 bytes,
whatever its code, identifier, sequence number, checksum and payload, and every stack:
if there is a route back, a message is handed to `WritePacket`, and every message handed
to it is an echo reply with code 0, agrees with the request from offset 4 on and in
length, and verifies. -/
theorem echoReply_correct (s : Stack) (pkt : PacketBuffer)
    (hecho : pkt.payloadSince[0]? = some icmpv4Echo) (hheader : pkt.transportHeader ≠ [])
    (hlen : 8 ≤ pkt.payloadSince.length) :
    ((handlePacket4 s pkt).written = none ↔
      s.findRoute pkt.nicID (localAddr pkt) pkt.sourceAddress = none) ∧
    ∀ reply, (handlePacket4 s pkt).written = some reply →
      reply.payload[0]? = some icmpv4EchoReply ∧ reply.payload[1]? = some 0 ∧
        reply.payload.drop 4 = pkt.payloadSince.drop 4 ∧
        reply.payload.length = pkt.payloadSince.length ∧ checksum reply.payload = 0xffff := by
  have htype : pkt.transportHeader.headD 0 = icmpv4Echo := by
    obtain ⟨t, ts, hts⟩ := List.exists_cons_of_ne_nil hheader
    rw [PacketBuffer.payloadSince, hts] at hecho
    rw [hts]
    exact Option.some.inj hecho
  rw [handlePacket4_written, if_pos htype]
  refine ⟨Option.map_eq_none_iff, fun reply hreply => ?_⟩
  obtain ⟨r, -, rfl⟩ := Option.map_eq_some_iff.mp hreply
  have h := replies_replyData pkt.payloadSince (by omega)
  exact ⟨h.type, h.code, h.rest, h.length, h.verifies⟩

/-- A request with code 5, a wrong checksum and a payload of one byte. -/
theorem echoReply_correct_odd :
    let s : Stack := ⟨fun _ _ _ => some ⟨20, 64, fun _ => none⟩⟩
    let a : Address := ⟨[10, 0, 0, 1], rfl⟩
    let pkt : PacketBuffer := ⟨.ipv4, 1, a, a, false, [8, 5, 0xab, 0xcd, 0, 1, 0, 2], [0x61]⟩
    ∃ reply, (handlePacket4 s pkt).written = some reply ∧
      reply.payload.drop 4 = [0, 1, 0, 2, 0x61] ∧ checksum reply.payload = 0xffff := by
  intro s a pkt
  obtain ⟨hnone, hreply⟩ := echoReply_correct s pkt rfl (List.cons_ne_nil _ _) (by decide)
  cases hw : (handlePacket4 s pkt).written with
  | none => exact absurd (hnone.mp hw) (Option.some_ne_none _)
  | some reply =>
    obtain ⟨-, -, hrest, -, hverifies⟩ := hreply reply hw
    exact ⟨reply, rfl, hrest, hverifies⟩

end Tun2socks.Core
