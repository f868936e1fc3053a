import Tun2socks.Shadowsocks.Datagrams
import Tun2socks.Socks5.Packet
import Tun2socks.Tunnel.System
import Tun2socks.Udp.PacketConn
import Tun2socks.Udp.Send

/-!
# Tun2socks.Udp.Upload

The way out of a UDP session as a whole: the datagrams of the application, the copy loop of
the tunnel, the `WriteTo` of the proxy's connection, and a peer who reads what it has sent.

The peer is the way back of the same code: what `WriteTo` has sent is handed to `ReadFrom` of
a connection with the same key, whose sender is then the destination. The formats of the two
directions are the same, so that a server may be written with either half.
-/

namespace Tun2socks.Udp

open Tun2socks.Go Tun2socks.Socks5 Tun2socks.Tunnel

/-! ### The connections -/

/-- The `remote` of `handleUDPConn`: `metadata.UDPAddr()`, and `metadata.Addr()` if that
is nil. -/
def remoteAddr (m : Metadata) : Destination :=
  if m.dstIP ≠ .none then .other (.udp ⟨m.dstIP, m.dstPort, []⟩) else .metadata m

/-- The proxies that carry UDP by a codec of their own. -/
inductive Route
  | socks5
  | shadowsocks (cipher : Cipher)

/-- A call of `WriteTo`: the randomness and the pooled buffer that it gets, and its data. -/
structure WriteToCall where
  rand : Nat → Byte
  scratch : List.Vector Byte Shadowsocks.maxPacketSize
  data : List Byte

/-- `cipher.PacketConn(pc)` of the peer, for a socket `pc`. -/
def Cipher.receiver : Cipher → PacketConn
  | aead ciph => Shadowaead.packetConn ciph [] socket
  | stream ciph => Shadowstream.packetConn ciph socket
  | dummy => socket

/-- The key is the peer's key. -/
def Cipher.Correct : Cipher → Prop
  | aead ciph => ciph.Correct
  | stream ciph => ciph.Correct
  | dummy => True

/-- How much longer than the plaintext a packet is. -/
def Cipher.growth (rand : Nat → Byte) : Cipher → Nat
  | aead ciph =>
    match ciph.encrypter (Shadowaead.Conn.newSalt rand ciph) with
    | .ok A => ciph.saltSize + A.overhead
    | .error _ => 0
  | stream ciph => ciph.ivSize
  | dummy => 0

namespace Route

/-- `WriteTo` of the connection that `DialUDP` returns, in the session of `m`. -/
def writeTo {T : IPv6Text} (P : IPv6Literals T) (m : Metadata) (r : Route) (sink : PacketSink)
    (c : WriteToCall) : (Nat × Option Error) × PacketSink :=
  match r with
  | socks5 => socksWriteTo P socketWriteTo sink c.data (remoteAddr m)
  | shadowsocks cipher =>
    ssWriteTo P (cipher.packetConn c.rand c.scratch) sink c.data (remoteAddr m)

/-- The connection that the peer reads from. -/
def conn (T : IPv6Text) : Route → PacketConn
  | socks5 => socksPacketConn T socket
  | shadowsocks cipher => ssPacketConn cipher.receiver

/-- The cipher of the route fits together at both ends, if there is one. -/
def Correct : Route → Prop
  | socks5 => True
  | shadowsocks cipher => cipher.Correct

/-- How much longer than the address and the data a packet is. -/
def growth (rand : Nat → Byte) : Route → Nat
  | socks5 => 3
  | shadowsocks cipher => cipher.growth rand

/-- The packets are built in a buffer of `maxPacketSize`. -/
def Sealed : Route → Prop
  | socks5 | shadowsocks .dummy => False
  | shadowsocks (.aead _) | shadowsocks (.stream _) => True

end Route

/-! ### One datagram -/

/-- `ReadFrom` of `conn`, with any buffer that the packet fits into, returns the data, and the
sender that `sender` makes of the socket's. -/
def Opens (conn : PacketConn) (packet : List Byte) (sender : UDPAddr → UDPAddr)
    (data : List Byte) : Prop :=
  ∀ (scratch : List Byte) (peer : UDPAddr) (inbox : Inbox) (b : List Byte),
    packet.length ≤ b.length →
      ∃ buf, conn.readFrom (.ok ⟨packet, scratch, peer⟩ :: inbox) b =
          (⟨data.length, some (sender peer), none, buf⟩, inbox) ∧
        buf.take data.length = data

/-- A socket has taken the packet if it reports no error. -/
theorem written_of_none {sink : PacketSink} {b : List Byte} (h : (sink.writeTo b).1 = none) :
    (sink.writeTo b).2.written = sink.written ++ [b] := by
  obtain ⟨written, answers⟩ := sink
  rcases answers with _ | ⟨_ | err, as⟩
  · rfl
  · rfl
  · cases h

/-- A plain socket hands on the packet. -/
theorem opens_socket (packet : List Byte) : Opens socket packet id packet := by
  intro scratch peer inbox b hb
  refine ⟨copy b (packet ++ scratch), ?_, ?_⟩
  · have hn : (min packet.length b.length : Int) = packet.length := by omega
    rw [socket_readFrom]
    dsimp only
    rw [hn, id]
  · rw [copy_take (by rw [List.length_append]; omega) hb, List.take_left' rfl]

/-- A packet that `WriteTo` has sent is the one that is carried. -/
theorem opens_of_carries {pack : List Byte → List Byte → Except Error (List Byte)}
    {scratch : List.Vector Byte Shadowsocks.maxPacketSize} {conn : PacketConn} {size : Nat}
    {payload : List Byte}
    (hc : Shadowsocks.Carries (Shadowsocks.writeTo pack scratch) conn size payload)
    {sink : PacketSink} (h : (Shadowsocks.writeTo pack scratch sink payload).1.2 = none) :
    ∃ packet : List Byte, packet.length = size ∧ size ≤ Shadowsocks.maxPacketSize ∧
      (Shadowsocks.writeTo pack scratch sink payload).2.written = sink.written ++ [packet] ∧
      Opens conn packet id payload := by
  by_cases hsize : size ≤ Shadowsocks.maxPacketSize
  · obtain ⟨packet, hlen, hsends, hopens⟩ := hc.sends hsize
    -- a socket that takes everything tells what `Pack` has made
    have hfresh := (hsends .fresh (by intro a ha; cases ha)).2
    refine ⟨packet, hlen, hsize, ?_, fun rest peer inbox b hb => hopens rest peer inbox b ?_⟩
    · cases hpack : pack scratch.1 payload with
      | error err =>
        rw [Shadowsocks.writeTo, hpack] at h
        cases h
      | ok buf =>
        rw [Shadowsocks.writeTo, hpack] at h hfresh ⊢
        obtain rfl : buf = packet := by simpa [PacketSink.fresh, PacketSink.writeTo] using hfresh
        exact written_of_none h
    · omega
  · obtain ⟨err, herr⟩ := hc.refuses (Nat.lt_of_not_le hsize) sink
    rw [herr] at h
    cases h

/-- The peer's cipher opens what this one has sealed. -/
theorem Cipher.opens {cipher : Cipher} (hc : cipher.Correct) {rand : Nat → Byte}
    {scratch : List.Vector Byte Shadowsocks.maxPacketSize} {sink : PacketSink}
    {payload : List Byte} (h : (cipher.packetConn rand scratch sink payload).1.2 = none) :
    ∃ packet : List Byte, packet.length = cipher.growth rand + payload.length ∧
      (cipher ≠ .dummy → packet.length ≤ Shadowsocks.maxPacketSize) ∧
      (cipher.packetConn rand scratch sink payload).2.written = sink.written ++ [packet] ∧
      Opens cipher.receiver packet id payload := by
  cases cipher with
  | aead ciph =>
    obtain ⟨A, -, henc, -⟩ := hc _ (Shadowaead.newSalt_length rand ciph)
    obtain ⟨packet, hlen, hsize, hwritten, hopens⟩ :=
      opens_of_carries (Shadowaead.packetConn_carries hc rand henc scratch [] payload) h
    refine ⟨packet, ?_, fun _ => hlen.trans_le hsize, hwritten, hopens⟩
    simp only [Cipher.growth, henc]
    omega
  | stream ciph =>
    obtain ⟨packet, hlen, hsize, hwritten, hopens⟩ :=
      opens_of_carries (Shadowstream.packetConn_carries hc rand scratch payload) h
    exact ⟨packet, hlen, fun _ => hlen.trans_le hsize, hwritten, hopens⟩
  | dummy =>
    refine ⟨payload, (Nat.zero_add _).symm, fun hd => absurd rfl hd, ?_, opens_socket payload⟩
    simp only [Cipher.packetConn, socketWriteTo] at h ⊢
    split at h
    · rename_i hw
      have hwritten := written_of_none (congrArg Prod.fst hw)
      rwa [hw] at hwritten
    · cases h

/-- `ssPacketConn.ReadFrom` splits what the cipher below it returns. -/
theorem Opens.ssPacketConn {pc : PacketConn} {packet data : List Byte} {a : Addr} {u : UDPAddr}
    (ha : Complete a) (hu : a.udpAddr = some u) (h : Opens pc packet id (a ++ data)) :
    Opens (ssPacketConn pc) packet (fun _ => u) data := by
  intro scratch peer inbox b hb
  obtain ⟨buf, hread, hbuf⟩ := h scratch peer inbox b hb
  obtain ⟨rest, rfl⟩ := List.prefix_iff_eq_take.mpr hbuf.symm
  have hslice : sliceTo (a ++ data ++ rest) ((a ++ data).length : Nat) = .ok (a ++ data) := by
    rw [sliceTo_ok (List.prefix_append _ rest).length_le, List.take_left' rfl]
  have hsplit : splitAddr (a ++ data) = some a := splitAddr_eq_some.mpr ⟨ha, data, rfl⟩
  have hdrop : (a ++ data ++ rest).drop a.length = data ++ rest := by
    rw [List.append_assoc, List.drop_left' rfl]
  have hn : ((a ++ data).length : Int) - a.length = data.length := by
    rw [List.length_append]
    omega
  refine ⟨copy (a ++ data ++ rest) (data ++ rest), ?_, ?_⟩
  · simp only [Udp.ssPacketConn, PacketConn.wrap, hread, ssDecode, hslice, hsplit, hu, hdrop, hn]
  · rw [copy_take (by simp) (by simp; omega), List.take_left' rfl]

/-- `socksPacketConn.ReadFrom` decodes what the socket returns, with all that is behind it. -/
theorem opens_socksPacketConn (T : IPv6Text) {a : Addr} {u : UDPAddr} (ha : Complete a)
    (hu : a.udpAddr = some u) (data : List Byte) :
    Opens (socksPacketConn T socket) ([0x00, 0x00, 0x00] ++ a ++ data) (fun _ => u) data := by
  intro scratch peer inbox b hb
  obtain ⟨buf, hread, hbuf⟩ := opens_socket _ scratch peer inbox b hb
  obtain ⟨rest, rfl⟩ := List.prefix_iff_eq_take.mpr hbuf.symm
  have hdec : decodeUDPPacket ([0x00, 0x00, 0x00] ++ a ++ data ++ rest) = .ok (a, data ++ rest) :=
    decodeUDPPacket_eq_ok.mpr ⟨ha, by simp⟩
  have hn : (([0x00, 0x00, 0x00] ++ a ++ data : List Byte).length : Int) - a.length - 3 =
      data.length := by
    simp only [List.length_append, List.length_cons, List.length_nil]
    omega
  refine ⟨copy ([0x00, 0x00, 0x00] ++ a ++ data ++ rest) (data ++ rest), ?_, ?_⟩
  · simp only [socksPacketConn, PacketConn.wrap, hread, socksDecode, hdec, hu, hn]
  · rw [copy_take (by simp) (by simp; omega), List.take_left' rfl]

/-- The two forms of the destination are the same address in a packet. -/
theorem encodePacket_remoteAddr {T : IPv6Text} (P : IPv6Literals T) (m : Metadata)
    (b : List Byte) :
    encodePacket P b (remoteAddr m) = .ok ([0x00, 0x00, 0x00] ++ serializeSocksAddr m ++ b) := by
  unfold remoteAddr
  split <;> rfl

/-- `packet` is what a call has sent: the peer reads the data in it, and the destination of the
session as the sender. -/
structure Route.Sent (T : IPv6Text) (r : Route) (m : Metadata) (packet : List Byte)
    (c : WriteToCall) : Prop where
  length : packet.length = r.growth c.rand + (serializeSocksAddr m).length + c.data.length
  fits : r.Sealed → packet.length ≤ Shadowsocks.maxPacketSize
  opens : Opens (r.conn T) packet (fun _ => ⟨m.dstIP, m.dstPort.toNat⟩) c.data

section Writes

variable {T : IPv6Text} {P : IPv6Literals T} {m : Metadata} {r : Route} {sink : PacketSink}

theorem Route.writeTo_shadowsocks (cipher : Cipher) (c : WriteToCall) :
    (shadowsocks cipher).writeTo P m sink c =
      cipher.packetConn c.rand c.scratch sink (serializeSocksAddr m ++ c.data) := by
  simp only [writeTo, ssWriteTo, encodePacket_remoteAddr]
  rw [sliceFrom_ok (by simp)]
  rfl

/-- A call that reports no error has sent one packet. -/
theorem Route.writeTo_sent (hr : r.Correct) (hip : m.dstIP ≠ .none) {c : WriteToCall}
    (h : (r.writeTo P m sink c).1.2 = none) :
    ∃ packet, (r.writeTo P m sink c).2.written = sink.written ++ [packet] ∧
      r.Sent T m packet c := by
  obtain ⟨hcomplete, hudp⟩ := serializeAddr_ip hip m.dstPort
  cases r with
  | socks5 =>
    simp only [writeTo, socksWriteTo, encodePacket_remoteAddr, socketWriteTo] at h ⊢
    split at h
    · rename_i hw
      have hwritten := written_of_none (congrArg Prod.fst hw)
      rw [hw] at hwritten
      refine ⟨_, hwritten, ?_, fun hs => hs.elim, opens_socksPacketConn T hcomplete hudp c.data⟩
      simp only [growth, List.length_append, List.length_cons, List.length_nil]
    · cases h
  | shadowsocks cipher =>
    rw [writeTo_shadowsocks] at h ⊢
    obtain ⟨packet, hlen, hfits, hwritten, hopens⟩ := Cipher.opens hr h
    refine ⟨packet, hwritten, ?_, fun hs => hfits ?_, hopens.ssPacketConn hcomplete hudp⟩
    · rw [hlen, growth, List.length_append]
      exact (Nat.add_assoc ..).symm
    · rintro rfl
      exact hs

/-- Calls that report no error have sent one packet each, in order. -/
theorem Route.writes_sent (hr : r.Correct) (hip : m.dstIP ≠ .none) (cs : List WriteToCall)
    (h : ∀ x ∈ (calls (r.writeTo P m) sink cs).1, x.2 = none) :
    ∃ packets, (calls (r.writeTo P m) sink cs).2.written = sink.written ++ packets ∧
      List.Forall₂ (r.Sent T m) packets cs := by
  induction cs generalizing sink with
  | nil => exact ⟨[], (List.append_nil _).symm, .nil⟩
  | cons c cs ih =>
    rw [calls] at h ⊢
    obtain ⟨hhead, htail⟩ := List.forall_mem_cons.mp h
    obtain ⟨packet, hwritten, hsent⟩ := writeTo_sent hr hip hhead
    obtain ⟨packets, hrest, hall⟩ := ih htail
    refine ⟨packet :: packets, ?_, .cons hsent hall⟩
    rw [hrest, hwritten, List.append_assoc, List.singleton_append]

end Writes

/-! ### The session -/

section Session

variable {ι ρ υ G : Type} [Fintype ι] [DecidableEq ι] [DecidableEq ρ] [DecidableEq υ]
  [AddCommGroupWithOne G] {uuid : ι → υ} (network : ι → Network) (dst : ι → String)

/-- **The datagrams of the application arrive.** The upload of a UDP session, in every run of the
tunnel: `cs` are the calls of `WriteTo` for the datagrams that the remote connection has taken.
The packets on the wire are one for each of them, in order, and the peer reads the datagram and
the session's destination in it. All that the application has sent has been taken, but for the
last datagram at most; a datagram too long for the buffer of a cipher is the last one. -/
theorem datagrams_arrive (acts : List (Goroutines.Action ι Act (Other ρ υ))) {i : ι}
    (hudp : network i = .udp) {T : IPv6Text} (P : IPv6Literals T) {r : Route} (hr : r.Correct)
    {m : Metadata} (hip : m.dstIP ≠ .none) {cs : List WriteToCall}
    (hcs : cs.map WriteToCall.data =
      (((tunnelRun ρ υ G uuid network dst acts).proc i).stream .upload).writes)
    (hok : ∀ x ∈ (calls (r.writeTo P m) .fresh cs).1, x.2 = none) :
    let t := ((tunnelRun ρ υ G uuid network dst acts).proc i).stream .upload
    let packets := (calls (r.writeTo P m) .fresh cs).2.written
    List.Forall₂ (r.Sent T m) packets cs ∧
      (∃ rest, t.reads = t.writes ++ rest ∧ rest.length ≤ 1 ∧
        (∀ data ∈ rest, data.length ≤ bufferSize .udp) ∧ (t.pc.result = some none → rest = [])) ∧
      ∀ k data, r.Sealed → t.reads[k]? = some data →
        (∀ rand, Shadowsocks.maxPacketSize <
          r.growth rand + (serializeSocksAddr m).length + data.length) →
        k + 1 = t.reads.length ∧ t.pc.result ≠ some none := by
  intro t packets
  have hsent : List.Forall₂ (r.Sent T m) packets cs := by
    obtain ⟨_, hwritten, hall⟩ := Route.writes_sent (T := T) hr hip cs hok
    rwa [show packets = _ from hwritten]
  have hnet : ((tunnelRun ρ υ G uuid network dst acts).proc i).network = .udp :=
    (network_run network dst acts i).trans hudp
  obtain ⟨⟨rest, hreads, howes⟩, hbounded, -, -⟩ :
      t.Relays ((tunnelRun ρ υ G uuid network dst acts).proc i).network :=
    (sound_run network dst acts i).relays .upload
  rw [hnet] at hbounded
  refine ⟨hsent, ⟨rest, hreads, howes.length_le, fun data hdata => hbounded data ?_,
    howes.eq_nil⟩, ?_⟩
  · rw [hreads]
    exact List.mem_append_right _ hdata
  · intro k data hsealed hk hlong
    -- what has been taken fits into the buffer
    have hk' : t.writes.length ≤ k := by
      by_contra hlt
      rw [hreads, List.getElem?_append_left (by omega), ← hcs, List.getElem?_map,
        Option.map_eq_some_iff] at hk
      obtain ⟨c, hc, rfl⟩ := hk
      obtain ⟨packet, hs⟩ : ∃ packet, r.Sent T m packet c := by
        obtain ⟨hlt, rfl⟩ := List.getElem?_eq_some_iff.mp hc
        exact ⟨_, (List.forall₂_iff_get.mp hsent).2 k (hsent.length_eq ▸ hlt) hlt⟩
      have := hs.fits hsealed
      have := hs.length
      have := hlong c.rand
      omega
    rw [hreads, List.getElem?_append_right hk'] at hk
    have hle := howes.length_le
    obtain ⟨hlt, -⟩ := List.getElem?_eq_some_iff.mp hk
    refine ⟨by rw [hreads, List.length_append]; omega, fun hres => ?_⟩
    rw [howes.eq_nil hres] at hlt
    exact absurd hlt (Nat.not_lt_zero _)

end Session

/-- One datagram of two bytes, under a stream cipher. -/
theorem datagrams_arrive_two :
    let m : Metadata := ⟨.v4 ⟨[192, 0, 2, 1], rfl⟩, 53⟩
    let r : Route := .shadowsocks (.stream Shadowsocks.ivStream)
    let c : WriteToCall := ⟨fun _ => 7,
      ⟨List.replicate Shadowsocks.maxPacketSize 0, List.length_replicate⟩, [1, 2]⟩
    let t := ((tunnelRun Unit Unit (BitVec 64) (id : Unit → Unit) (fun _ => .udp)
      (fun _ => "192.0.2.1:53") [.proc () (.dial none), .proc () .handler,
        .proc () (.stream .upload .step),
        .proc () (.stream .upload (.read ⟨[1, 2], some "198.51.100.1:4000", none⟩)),
        .proc () (.stream .upload (.write 9 none))]).proc ()).stream .upload
    t.writes = [[1, 2]] ∧
      List.Forall₂ (r.Sent .decimal m) (calls (r.writeTo .decimal m) .fresh [c]).2.written [c] := by
  intro m r c t
  have hwrites : t.writes = [[1, 2]] := by decide +kernel
  -- the buffer stays a variable, so that nobody evaluates it
  have hsend : ∀ c : WriteToCall, c.data = [1, 2] → (r.writeTo .decimal m .fresh c).1.2 = none := by
    intro c hc
    obtain ⟨_, -, hsends, -⟩ := (Shadowstream.packetConn_carries Shadowsocks.ivStream_correct
      c.rand c.scratch (serializeSocksAddr m ++ c.data)).sends (by rw [hc]; decide)
    rw [Route.writeTo_shadowsocks]
    exact congrArg Prod.snd (hsends .fresh (by intro a ha; cases ha)).1
  have hok : ∀ x ∈ (calls (r.writeTo .decimal m) .fresh [c]).1, x.2 = none :=
    List.forall_mem_singleton.mpr (hsend c rfl)
  exact ⟨hwrites, (datagrams_arrive (fun _ => .udp) (fun _ => "192.0.2.1:53") _ rfl .decimal
    (show r.Correct from Shadowsocks.ivStream_correct) (show m.dstIP ≠ .none from IP.noConfusion)
    (show [c].map WriteToCall.data = _ from hwrites.symm) hok).1⟩

end Tun2socks.Udp
