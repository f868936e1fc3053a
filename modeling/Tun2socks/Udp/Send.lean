import Tun2socks.Metadata
import Tun2socks.Shadowaead.Packet
import Tun2socks.Shadowstream.Packet
import Tun2socks.Socks5.Parse

/-!
# Tun2socks.Udp.Send

The way out of a UDP session: the `WriteTo` methods of `proxy/socks5/socks5.go` and
`proxy/shadowsocks/shadowsocks.go`.

Both put an address in front of the caller's bytes and hand the packet to the connection
they embed, whose number of bytes they return as it is. What that number counts is decided
below them: a socket counts the packet it is given, and a cipher of Shadowsocks, which
seals that packet into another, counts it even where the socket has refused it.
-/

namespace Tun2socks.Udp

open Tun2socks.Go Tun2socks.Socks5

/-- The `WriteTo` method of a `net.PacketConn` over a socket: what it returns, and the
socket afterwards. The destination is the one address of the session. -/
abbrev PacketWriter := PacketSink → List Byte → (Nat × Option Error) × PacketSink

/-- `WriteTo` of a UDP socket, which takes a datagram as a whole or not at all. -/
def socketWriteTo : PacketWriter := fun sink b =>
  match sink.writeTo b with
  | (none, sink) => ((b.length, none), sink)
  | (some err, sink) => ((0, some err), sink)

/-- The `net.Addr` that `WriteTo` is called with: the session's own `*M.Addr`, or another. -/
inductive Destination
  | metadata (m : Metadata)
  | other (addr : AnyAddr)

/-- `utils.SerializeSocksAddr(m)`. -/
def serializeSocksAddr (m : Metadata) : Addr := serializeAddr [] m.dstIP m.dstPort

section WriteTo

variable {T : IPv6Text} (P : IPv6Literals T) (pc : PacketWriter)

/-- The `packet, err = socks5.EncodeUDPPacket(…, b)` that both methods begin with. -/
def encodePacket (b : List Byte) : Destination → Except Error (List Byte)
  | .metadata m => encodeUDPPacket (some (serializeSocksAddr m)) b
  | .other addr => encodeUDPPacket (parseAddr P addr) b

/-- `socksPacketConn.WriteTo(b, addr)`. -/
def socksWriteTo (sink : PacketSink) (b : List Byte) (addr : Destination) :
    (Nat × Option Error) × PacketSink :=
  match encodePacket P b addr with
  | .error err => ((0, some err), sink)
  | .ok packet => pc sink packet

/-- `ssPacketConn.WriteTo(b, addr)`. The three bytes before the address are cut off. -/
def ssWriteTo (sink : PacketSink) (b : List Byte) (addr : Destination) :
    (Nat × Option Error) × PacketSink :=
  match encodePacket P b addr with
  | .error err => ((0, some err), sink)
  | .ok packet =>
    match sliceFrom packet 3 with
    | .error err => ((0, some err), sink)
    | .ok packet => pc sink packet

end WriteTo

/-- The `core.Cipher` of a `Shadowsocks` proxy. -/
inductive Cipher
  | aead (ciph : Shadowaead.Cipher)
  | stream (ciph : Shadowstream.Cipher)
  | dummy

/-- `cipher.PacketConn(pc)` for a socket `pc`. The randomness and the pooled buffer are
those of the call. -/
def Cipher.packetConn (rand : Nat → Byte) (scratch : List.Vector Byte Shadowsocks.maxPacketSize) :
    Cipher → PacketWriter
  | aead ciph => Shadowaead.packetWriteTo rand ciph scratch
  | stream ciph => Shadowstream.packetWriteTo rand ciph scratch
  | dummy => socketWriteTo

/-! ### What is written -/

/-- The address that both methods put in front of the caller's bytes, if there is one. -/
def Destination.socksAddr {T : IPv6Text} (P : IPv6Literals T) : Destination → Option Addr
  | metadata m => some (serializeSocksAddr m)
  | other addr => parseAddr P addr

section WriteTo

variable {T : IPv6Text} {P : IPv6Literals T} {addr : Destination} {a : Addr}

theorem encodePacket_eq (P : IPv6Literals T) (b : List Byte) (addr : Destination) :
    encodePacket P b addr = encodeUDPPacket (addr.socksAddr P) b := by
  cases addr <;> rfl

/-- An address is never empty. -/
theorem socksAddr_ne_nil (h : addr.socksAddr P = some a) : a ≠ [] := by
  cases addr with
  | metadata m =>
    obtain rfl := Option.some.inj h
    exact serializeAddr_ne_nil _ _ _
  | other addr => exact parseAddr_ne_nil h

variable (pc : PacketWriter) (sink : PacketSink) (b : List Byte)

theorem socksWriteTo_none (h : addr.socksAddr P = none) :
    ∃ err, socksWriteTo P pc sink b addr = ((0, some err), sink) := by
  rw [socksWriteTo, encodePacket_eq, h]
  exact ⟨_, rfl⟩

theorem socksWriteTo_some (h : addr.socksAddr P = some a) :
    socksWriteTo P pc sink b addr = pc sink ([0x00, 0x00, 0x00] ++ a ++ b) := by
  rw [socksWriteTo, encodePacket_eq, h]
  rfl

theorem ssWriteTo_none (h : addr.socksAddr P = none) :
    ∃ err, ssWriteTo P pc sink b addr = ((0, some err), sink) := by
  rw [ssWriteTo, encodePacket_eq, h]
  exact ⟨_, rfl⟩

theorem ssWriteTo_some (h : addr.socksAddr P = some a) :
    ssWriteTo P pc sink b addr = pc sink (a ++ b) := by
  rw [ssWriteTo, encodePacket_eq, h, encodeUDPPacket]
  dsimp only
  rw [sliceFrom_ok (by simp)]
  rfl

end WriteTo

/-! ### What is refused -/

/-- Where a call with `n` bytes fails at the packet connection of a cipher and nothing is
sent: without a cipher the socket refuses it; with one, the cipher has no AEAD for the salt
of the call or the packet does not fit into the pooled buffer. What the socket makes of a
packet that is sealed does not count. -/
def Cipher.Refuses (rand : Nat → Byte) (sink : PacketSink) (n : Nat) : Cipher → Prop
  | aead ciph => ∀ aead, ciph.encrypter (Shadowaead.Conn.newSalt rand ciph) = .ok aead →
      Shadowsocks.maxPacketSize < ciph.saltSize + n + aead.overhead
  | stream ciph => Shadowsocks.maxPacketSize < ciph.ivSize + n
  | dummy => sink.Refuses

/-- A socket takes all of the datagram, or fails and takes nothing of it. -/
theorem socketWriteTo_cases (sink : PacketSink) (b : List Byte) :
    ¬ sink.Refuses ∧ (socketWriteTo sink b).1 = (b.length, none) ∨
      sink.Refuses ∧ (∃ err, (socketWriteTo sink b).1 = (0, some err)) ∧
        (socketWriteTo sink b).2.written = sink.written := by
  obtain ⟨written, answers⟩ := sink
  rcases answers with _ | ⟨_ | err, as⟩
  · exact .inl ⟨fun ⟨_, h⟩ => (nomatch h), rfl⟩
  · exact .inl ⟨fun ⟨_, h⟩ => (nomatch h), rfl⟩
  · exact .inr ⟨⟨err, rfl⟩, ⟨err, rfl⟩, rfl⟩

/-- Both ciphers: a packet that cannot be made is refused, and otherwise what was given is
counted, whatever the socket makes of it. -/
theorem writeTo_cases {pack : (dst plaintext : List Byte) → Except Error (List Byte)}
    {scratch : List.Vector Byte Shadowsocks.maxPacketSize} {b : List Byte} {refuses : Prop}
    (h : (∃ err, pack scratch.1 b = .error err) ↔ refuses) (sink : PacketSink) :
    refuses ∧ (∃ err, Shadowsocks.writeTo pack scratch sink b = ((0, some err), sink)) ∨
      ¬ refuses ∧ (Shadowsocks.writeTo pack scratch sink b).1.1 = b.length := by
  unfold Shadowsocks.writeTo
  cases hpack : pack scratch.1 b with
  | error err => exact .inl ⟨h.mp ⟨err, hpack⟩, err, rfl⟩
  | ok buf =>
    refine .inr ⟨fun hr => ?_, rfl⟩
    obtain ⟨err, herr⟩ := h.mpr hr
    rw [hpack] at herr
    cases herr

theorem cipher_packetConn_cases {rand : Nat → Byte}
    {scratch : List.Vector Byte Shadowsocks.maxPacketSize} {cipher : Cipher} (h : cipher ≠ .dummy)
    (sink : PacketSink) (b : List Byte) :
    cipher.Refuses rand sink b.length ∧
        (∃ err, cipher.packetConn rand scratch sink b = ((0, some err), sink)) ∨
      ¬ cipher.Refuses rand sink b.length ∧
        (cipher.packetConn rand scratch sink b).1.1 = b.length := by
  cases cipher with
  | aead ciph =>
    refine writeTo_cases ?_ sink
    rw [Shadowaead.pack_error_iff, scratch.2]
    rfl
  | stream ciph =>
    refine writeTo_cases ?_ sink
    rw [Shadowstream.pack_error_iff, scratch.2]
    rfl
  | dummy => exact absurd rfl h

end Tun2socks.Udp
