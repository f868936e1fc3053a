import Tun2socks.Go.Packet
import Tun2socks.Socks5.Addr

/-!
# Tun2socks.Udp.PacketConn

Model of the way back of a UDP session: the packet connections of
`proxy/socks5/socks5.go` and `proxy/shadowsocks/shadowsocks.go`, and the filter and the
copy loop of `tunnel/udp.go`.

Deadlines, logging and the traffic counters around a connection do not change what is
delivered and are left out; a read that times out is an error of the inbox.
-/

namespace Tun2socks.Udp

open Tun2socks.Go Tun2socks.Socks5

variable (T : IPv6Text)

/-! ### SOCKS5 -/

/-- The part of `socksPacketConn.ReadFrom(b)` after the embedded `ReadFrom(b)`. -/
def socksDecode (x : Received) : Received :=
  match x.err with
  | some err => ⟨0, none, some err, x.buf⟩
  | none =>
    match decodeUDPPacket x.buf with
    | .error err => ⟨0, none, some err, x.buf⟩
    | .ok (addr, payload) =>
      match addr.udpAddr with
      | none =>
        ⟨0, none, some (.new ("convert " ++ addr.string T ++ " to UDPAddr is nil")), x.buf⟩
      | some udpAddr => ⟨x.n - addr.length - 3, some udpAddr, none, copy x.buf payload⟩

theorem socksDecode_err {x : Received} {err : Error} (h : x.err = some err) :
    socksDecode T x = ⟨0, none, some err, x.buf⟩ := by
  rw [socksDecode, h]

/-- What `socksDecode` can do with a datagram: take it, or report an error and no
sender. -/
theorem socksDecode_cases {x : Received} (h : x.err = none) :
    (∃ addr payload u, decodeUDPPacket x.buf = .ok (addr, payload) ∧ addr.udpAddr = some u ∧
      socksDecode T x = ⟨x.n - addr.length - 3, some u, none, copy x.buf payload⟩) ∨
    ((∀ addr payload, decodeUDPPacket x.buf = .ok (addr, payload) → addr.udpAddr = none) ∧
      ∃ text, socksDecode T x = ⟨0, none, some (.new text), x.buf⟩) := by
  rw [socksDecode, h]
  rcases hdec : decodeUDPPacket x.buf with err | ⟨addr, payload⟩
  · obtain ⟨text, rfl⟩ := decodeUDPPacket_error hdec
    exact .inr ⟨fun _ _ h => (nomatch h), text, rfl⟩
  · dsimp only
    rcases hu : Addr.udpAddr addr with _ | u
    · refine .inr ⟨?_, _, rfl⟩
      intro addr' payload' heq
      cases heq
      exact hu
    · exact .inl ⟨addr, payload, u, rfl, hu, rfl⟩

/-- `socksPacketConn`. -/
def socksPacketConn (pc : PacketConn) : PacketConn :=
  pc.wrap (socksDecode T) fun _ _ h => socksDecode_err T h

/-! ### Shadowsocks -/

/-- The part of `ssPacketConn.ReadFrom(b)` after the embedded `ReadFrom(b)`. -/
def ssDecode (x : Received) : Received :=
  match x.err with
  | some err => ⟨0, none, some err, x.buf⟩
  | none =>
    match sliceTo x.buf x.n with
    | .error err => ⟨0, none, some err, x.buf⟩
    | .ok packet =>
      match splitAddr packet with
      | none => ⟨0, none, some (.new "parse addr error"), x.buf⟩
      | some addr =>
        match addr.udpAddr with
        | none => ⟨0, none, some (.new "parse addr error"), x.buf⟩
        | some udpAddr =>
          ⟨x.n - addr.length, some udpAddr, none, copy x.buf (x.buf.drop addr.length)⟩

theorem ssDecode_err {x : Received} {err : Error} (h : x.err = some err) :
    ssDecode x = ⟨0, none, some err, x.buf⟩ := by
  unfold ssDecode
  rw [h]

/-- `ssPacketConn`. -/
def ssPacketConn (pc : PacketConn) : PacketConn :=
  pc.wrap ssDecode fun _ _ h => ssDecode_err h

/-! ### Symmetric NAT -/

/-- The loop of `symmetricNATPacketConn.ReadFrom(p)`. -/
def symmetricReadFrom (pc : PacketConn) (dst : String) (inbox : Inbox) (b : List Byte) :
    Received × Inbox :=
  let x := pc.readFrom inbox b
  match _h : x.1.addr with
  | none => x
  | some sender =>
    if sender.string T ≠ dst then symmetricReadFrom pc dst x.2 x.1.buf else x
  termination_by inbox.length
  decreasing_by
    apply pc.consumes
    right
    rw [_h]
    exact Option.some_ne_none _

variable {T} {pc : PacketConn} {dst : String} {inbox : Inbox} {b : List Byte}

/-- A packet from another sender is dropped. -/
theorem symmetricReadFrom_drop {sender : UDPAddr}
    (hs : (pc.readFrom inbox b).1.addr = some sender) (hne : sender.string T ≠ dst) :
    symmetricReadFrom T pc dst inbox b =
      symmetricReadFrom T pc dst (pc.readFrom inbox b).2 (pc.readFrom inbox b).1.buf := by
  rw [symmetricReadFrom]
  split
  · rename_i h
    rw [hs] at h
    cases h
  · rename_i h
    obtain rfl := Option.some.inj (hs.symm.trans h)
    rw [if_pos hne]

/-- Everything else is handed on. -/
theorem symmetricReadFrom_keep
    (h : ∀ sender, (pc.readFrom inbox b).1.addr = some sender → sender.string T = dst) :
    symmetricReadFrom T pc dst inbox b = pc.readFrom inbox b := by
  rw [symmetricReadFrom]
  split
  · rfl
  · rename_i hs
    rw [if_neg (not_not_intro (h _ hs))]

theorem symmetricReadFrom_consumes (inbox : Inbox) (b : List Byte) :
    (symmetricReadFrom T pc dst inbox b).1.err = none ∨
      (symmetricReadFrom T pc dst inbox b).1.addr ≠ none →
    (symmetricReadFrom T pc dst inbox b).2.length < inbox.length := by
  induction inbox, b using symmetricReadFrom.induct T pc dst with
  | case1 inbox b x hnone =>
    rw [symmetricReadFrom_keep (by intro s hs; rw [hnone] at hs; cases hs)]
    exact pc.consumes inbox b
  | case2 inbox b x sender hs hne ih =>
    rw [symmetricReadFrom_drop hs hne]
    intro h
    exact lt_trans (ih h) (pc.consumes inbox b (.inr (by rw [hs]; exact Option.some_ne_none _)))
  | case3 inbox b x sender hs heq =>
    rw [symmetricReadFrom_keep]
    · exact pc.consumes inbox b
    · intro s hs'
      obtain rfl := Option.some.inj (hs.symm.trans hs')
      exact not_not.mp heq

variable (T) in
/-- `newSymmetricNATPacketConn`, with the session's destination text. -/
def symmetricNATPacketConn (pc : PacketConn) (dst : String) : PacketConn where
  readFrom := symmetricReadFrom T pc dst
  consumes := symmetricReadFrom_consumes

theorem symmetricNATPacketConn_keep {x : Received × Inbox} (hread : pc.readFrom inbox b = x)
    (h : ∀ sender, x.1.addr = some sender → sender.string T = dst) :
    (symmetricNATPacketConn T pc dst).readFrom inbox b = x := by
  subst hread
  exact symmetricReadFrom_keep h

/-! ### The copy loop -/

/-- `copyPacketData(dst, src, to, timeout)` with the buffer `buf`: the error returned,
and the destination. -/
def copyPacketData (dst : PacketSink) (src : PacketConn) (inbox : Inbox) (buf : List Byte) :
    Option Error × PacketSink :=
  let x := src.readFrom inbox buf
  match _h : x.1.err with
  | some .timeout => (none, dst)
  | some .eof => (none, dst)
  | some err => (some err, dst)
  | none =>
    match sliceTo x.1.buf x.1.n with
    | .error err => (some err, dst)
    | .ok p =>
      let w := dst.writeTo p
      match w.1 with
      | some err => (some err, w.2)
      | none => copyPacketData w.2 src x.2 x.1.buf
  termination_by inbox.length
  decreasing_by exact src.consumes _ _ (.inl _h)

/-- The loop's equation: one call of `ReadFrom`, and then the rest. -/
theorem copyPacketData_eq (sink : PacketSink) (src : PacketConn) (inbox : Inbox)
    (buf : List Byte) :
    copyPacketData sink src inbox buf =
      let x := src.readFrom inbox buf
      match x.1.err with
      | some .timeout => (none, sink)
      | some .eof => (none, sink)
      | some err => (some err, sink)
      | none =>
        match sliceTo x.1.buf x.1.n with
        | .error err => (some err, sink)
        | .ok p =>
          match (sink.writeTo p).1 with
          | some err => (some err, (sink.writeTo p).2)
          | none => copyPacketData (sink.writeTo p).2 src x.2 x.1.buf := by
  rw [copyPacketData]
  dsimp only
  split <;> simp_all

/-- It depends on the source only by what its `ReadFrom` gives. -/
theorem copyPacketData_congr (sink : PacketSink) {src : PacketConn} {inbox inbox' : Inbox}
    {buf buf' : List Byte} (h : src.readFrom inbox buf = src.readFrom inbox' buf') :
    copyPacketData sink src inbox buf = copyPacketData sink src inbox' buf' := by
  rw [copyPacketData_eq, copyPacketData_eq sink src inbox', h]

/-- One packet copied. -/
theorem copyPacketData_write {sink : PacketSink} {src : PacketConn} {x : Received × Inbox}
    {p : List Byte} (hread : src.readFrom inbox b = x) (herr : x.1.err = none)
    (hp : sliceTo x.1.buf x.1.n = .ok p) (hw : (sink.writeTo p).1 = none) :
    copyPacketData sink src inbox b = copyPacketData (sink.writeTo p).2 src x.2 x.1.buf := by
  rw [copyPacketData_eq, hread]
  simp only [herr, hp, hw]

/-- A number of bytes out of range. -/
theorem copyPacketData_slice_error {sink : PacketSink} {src : PacketConn} {x : Received × Inbox}
    {err : Error} (hread : src.readFrom inbox b = x) (herr : x.1.err = none)
    (hp : sliceTo x.1.buf x.1.n = .error err) :
    copyPacketData sink src inbox b = (some err, sink) := by
  rw [copyPacketData_eq, hread]
  simp only [herr, hp]

/-- Over the filter: a packet from another sender leaves no trace but in the
buffer. -/
theorem copyPacketData_drop (sink : PacketSink) {sender : UDPAddr}
    (hs : (pc.readFrom inbox b).1.addr = some sender) (hne : sender.string T ≠ dst) :
    copyPacketData sink (symmetricNATPacketConn T pc dst) inbox b =
      copyPacketData sink (symmetricNATPacketConn T pc dst) (pc.readFrom inbox b).2
        (pc.readFrom inbox b).1.buf :=
  copyPacketData_congr sink (symmetricReadFrom_drop hs hne)

end Tun2socks.Udp
