import Tun2socks.Udp.PacketConn

/-!
# Tun2socks.Udp.Receive

What `socksPacketConn.ReadFrom` makes of a datagram that is put into a used buffer.

`ReadFrom(b)` decodes all of `b`, not `b[:n]`: behind a short datagram it reads what
earlier datagrams have left there. A call is right (`Step.Sound`) when its result is
what decoding the received bytes alone gives; that is so exactly when the header which
the whole buffer begins with does not end behind the datagram (`Step.sound_iff`).
Otherwise the number of bytes returned is negative, and `buf[:n]` of the copy loop is
out of range.
-/

namespace Tun2socks.Udp

open Tun2socks.Go Tun2socks.Socks5

variable (T : IPv6Text)

/-- The sender and the payload that decoding the bytes `d` alone gives. -/
def decodeDatagram (d : List Byte) : Option (UDPAddr × List Byte) :=
  match decodeUDPPacket d with
  | .error _ => none
  | .ok (addr, payload) => addr.udpAddr.map fun u => (u, payload)

/-- One `ReadFrom`: the buffer before it, the datagram delivered, and the result. -/
structure Step where
  before : List Byte
  packet : Datagram
  result : Received

/-- The calls that receive the datagrams `ds` one after the other into one buffer,
which is `b` at first. -/
def steps : List Datagram → List Byte → List Step
  | [], _ => []
  | d :: ds, b =>
    let x := (socksPacketConn T socket).readFrom ((d :: ds).map .ok) b
    ⟨b, d, x.1⟩ :: steps ds x.1.buf

variable {T} in
theorem steps_cons {d : Datagram} {ds : List Datagram} {b : List Byte} {x : Received × Inbox}
    (h : (socksPacketConn T socket).readFrom ((d :: ds).map .ok) b = x) :
    steps T (d :: ds) b = ⟨b, d, x.1⟩ :: steps T ds x.1.buf := by
  rw [steps, h]

namespace Step

/-- The buffer when the embedded `ReadFrom` has returned. -/
def filled (s : Step) : List Byte := copy s.before (s.packet.data ++ s.packet.scratch)

/-- The bytes received, `b[:n]`. -/
def received (s : Step) : List Byte := s.packet.data.take s.before.length

/-- The result is what the received bytes alone decode to: the sender and, as
`b[:m]`, the payload; or an error when they do not decode. -/
def Sound (s : Step) : Prop :=
  match decodeDatagram s.received with
  | none => s.result.err ≠ none
  | some (sender, payload) =>
    s.result.err = none ∧ s.result.addr = some sender ∧
      0 ≤ s.result.n ∧ s.result.n ≤ s.received.length ∧
      sliceTo s.result.buf s.result.n = .ok payload

theorem not_sound {s : Step} (hrec : decodeDatagram s.received = none)
    (herr : s.result.err = none) : ¬ s.Sound := by
  rw [Sound, hrec]
  exact not_not_intro herr

/-- What a right call without error returns can be sliced. -/
theorem Sound.slice {s : Step} (h : s.Sound) (herr : s.result.err = none) :
    ∃ p, sliceTo s.result.buf s.result.n = .ok p := by
  rw [Sound] at h
  split at h
  · exact absurd herr h
  · exact ⟨_, h.2.2.2.2⟩

/-- A header with an IP at the beginning of the buffer ends within the datagram. -/
def HeaderWithin (s : Step) : Prop :=
  ∀ addr payload u, decodeUDPPacket s.filled = .ok (addr, payload) → addr.udpAddr = some u →
    3 + addr.length ≤ s.received.length

end Step

/-- What a call of the run returns is `socksDecode` of the filled buffer. -/
theorem result_of_mem_steps {ds : List Datagram} {b : List Byte} {s : Step}
    (h : s ∈ steps T ds b) :
    s.result =
      socksDecode T ⟨s.received.length, some s.packet.sender, none, s.filled⟩ := by
  induction ds generalizing b with
  | nil => cases h
  | cons d ds ih =>
    rcases List.mem_cons.mp h with rfl | h
    · rw [Step.received, List.length_take, Nat.min_comm, Nat.cast_min]
      rfl
    · exact ih h

namespace Step

variable {T} {s : Step}

/-- The datagram stands at the beginning of the buffer. -/
theorem exists_filled (s : Step) : ∃ stale, s.filled = s.received ++ stale :=
  copy_append s.before s.packet.data s.packet.scratch

/-- A header that ends within the datagram decodes from the datagram alone. -/
theorem decode_received {addr : Addr} {payload : List Byte}
    (h : decodeUDPPacket s.filled = .ok (addr, payload))
    (hle : 3 + addr.length ≤ s.received.length) :
    ∃ stale, payload = s.received.drop (3 + addr.length) ++ stale ∧
      decodeUDPPacket s.received = .ok (addr, s.received.drop (3 + addr.length)) := by
  obtain ⟨stale, hfilled⟩ := s.exists_filled
  obtain ⟨haddr, hpacket⟩ := decodeUDPPacket_eq_ok.mp h
  rw [hfilled] at hpacket
  have hhead : ([0x00, 0x00, 0x00] ++ addr).length = 3 + addr.length := by
    rw [List.length_append]
    rfl
  have htake : s.received.take (3 + addr.length) = [0x00, 0x00, 0x00] ++ addr := by
    have := congrArg (List.take (3 + addr.length)) hpacket
    rwa [List.take_append_of_le_length hle, List.take_left' hhead] at this
  have hdrop : s.received.drop (3 + addr.length) ++ stale = payload := by
    have := congrArg (List.drop (3 + addr.length)) hpacket
    rwa [List.drop_append_of_le_length hle, List.drop_left' hhead] at this
  refine ⟨stale, hdrop.symm, decodeUDPPacket_eq_ok.mpr ⟨haddr, ?_⟩⟩
  rw [← htake, List.take_append_drop]

/-- What decodes from the datagram alone decodes from the buffer. -/
theorem decode_filled {addr : Addr} {payload : List Byte}
    (h : decodeUDPPacket s.received = .ok (addr, payload)) :
    ∃ stale, decodeUDPPacket s.filled = .ok (addr, payload ++ stale) ∧
      3 + addr.length + payload.length = s.received.length := by
  obtain ⟨stale, hfilled⟩ := s.exists_filled
  obtain ⟨haddr, hpacket⟩ := decodeUDPPacket_eq_ok.mp h
  refine ⟨stale, decodeUDPPacket_eq_ok.mpr ⟨haddr, ?_⟩, ?_⟩
  · rw [hfilled, hpacket, List.append_assoc]
  · rw [hpacket, List.length_append, List.length_append]
    rfl

/-- A buffer that decodes has one header. -/
theorem headerWithin_iff {addr : Addr} {payload : List Byte} {u : UDPAddr}
    (hdec : decodeUDPPacket s.filled = .ok (addr, payload)) (hu : addr.udpAddr = some u) :
    s.HeaderWithin ↔ 3 + addr.length ≤ s.received.length := by
  constructor
  · intro h
    exact h addr payload u hdec hu
  · intro h addr' payload' u' hdec' _
    rw [hdec] at hdec'
    cases hdec'
    exact h

/-- If the header ends within the datagram, `b[:m]` is the payload of the datagram. -/
theorem slice_payload {addr : Addr} {payload : List Byte}
    (hdec : decodeUDPPacket s.filled = .ok (addr, payload))
    (hle : 3 + addr.length ≤ s.received.length) :
    sliceTo (copy s.filled payload) ((s.received.length : Int) - addr.length - 3) =
      .ok (s.received.drop (3 + addr.length)) := by
  obtain ⟨stale, hpayload, -⟩ := decode_received hdec hle
  have hlen : (s.received.drop (3 + addr.length)).length =
      s.received.length - (3 + addr.length) := List.length_drop
  have hm : (s.received.length : Int) - addr.length - 3 =
      ((s.received.drop (3 + addr.length)).length : Nat) := by
    rw [hlen]
    omega
  have hfit : (s.received.drop (3 + addr.length)).length ≤ s.filled.length := by
    obtain ⟨stale', hfilled⟩ := s.exists_filled
    rw [hlen, hfilled, List.length_append]
    omega
  rw [hm, sliceTo_ok (by rw [copy_length]; exact hfit), hpayload,
    copy_take (by rw [List.length_append]; exact Nat.le_add_right _ _) hfit, List.take_left' rfl]

/-- If the buffer does not decode to an address with an IP, nor does the datagram. -/
theorem decodeDatagram_eq_none
    (hnone : ∀ addr payload, decodeUDPPacket s.filled = .ok (addr, payload) → addr.udpAddr = none) :
    decodeDatagram s.received = none := by
  rcases hrec : decodeUDPPacket s.received with err | ⟨addr, payload⟩
  · rw [decodeDatagram, hrec]
  · obtain ⟨stale, hdec, -⟩ := decode_filled hrec
    rw [decodeDatagram, hrec]
    simp only [hnone addr _ hdec, Option.map_none]

/-- A call that returns the address and the payload of the whole buffer. -/
theorem sound_iff_of_ok {addr : Addr} {payload : List Byte} {u : UDPAddr}
    (hdec : decodeUDPPacket s.filled = .ok (addr, payload)) (hu : addr.udpAddr = some u)
    (hresult : s.result =
      ⟨(s.received.length : Int) - addr.length - 3, some u, none, copy s.filled payload⟩) :
    s.Sound ↔ 3 + addr.length ≤ s.received.length := by
  constructor
  · intro h
    rcases hrec : decodeUDPPacket s.received with err | ⟨addr', payload'⟩
    · -- the datagram alone does not decode, yet no error was returned
      refine absurd h (not_sound ?_ (by rw [hresult]))
      rw [decodeDatagram, hrec]
    · obtain ⟨stale, hdec', hlen⟩ := decode_filled hrec
      rw [hdec] at hdec'
      cases hdec'
      omega
  · intro hle
    obtain ⟨-, -, hrec⟩ := decode_received hdec hle
    have hspec : decodeDatagram s.received = some (u, s.received.drop (3 + addr.length)) := by
      simp only [decodeDatagram, hrec, hu, Option.map_some]
    rw [Sound, hspec, hresult]
    dsimp only
    exact ⟨rfl, rfl, by omega, by omega, slice_payload hdec hle⟩

/-- **One call.** It is right exactly when the header ends within the datagram. -/
theorem sound_iff {ds : List Datagram} {b : List Byte} (hs : s ∈ steps T ds b) :
    s.Sound ↔ s.HeaderWithin := by
  have hresult := result_of_mem_steps T hs
  rcases socksDecode_cases T
    (x := ⟨s.received.length, some s.packet.sender, none, s.filled⟩) rfl with
    ⟨addr, payload, u, hdec, hu, hres⟩ | ⟨hnone, text, hres⟩
  · -- the whole buffer decodes
    rw [headerWithin_iff hdec hu]
    exact sound_iff_of_ok hdec hu (hresult.trans hres)
  · -- the whole buffer does not decode to an address with an IP
    have hwithin : s.HeaderWithin := by
      intro addr payload u hdec hu
      rw [hnone addr payload hdec] at hu
      cases hu
    refine iff_of_true ?_ hwithin
    rw [Sound, decodeDatagram_eq_none hnone]
    dsimp only
    rw [hresult, hres]
    exact Option.some_ne_none _

end Step

/-! ### The copy loop -/

/-- A packet that is copied does not panic, if neither the sink nor the rest of the
loop does. -/
theorem copyPacketData_ne_panic_of_write {sink : PacketSink} {src : PacketConn} {inbox : Inbox}
    {b p : List Byte} {x : Received × Inbox} (hread : src.readFrom inbox b = x)
    (herr : x.1.err = none) (hp : sliceTo x.1.buf x.1.n = .ok p)
    (hsink : some .panic ∉ sink.answers)
    (hrest : some .panic ∉ (sink.writeTo p).2.answers →
      (copyPacketData (sink.writeTo p).2 src x.2 x.1.buf).1 ≠ some .panic) :
    (copyPacketData sink src inbox b).1 ≠ some .panic := by
  cases hw : (sink.writeTo p).1 with
  | some err =>
    rw [copyPacketData_eq, hread]
    simp only [herr, hp, hw]
    intro heq
    obtain rfl := Option.some.inj heq
    exact hsink (PacketSink.mem_answers_of_writeTo hw)
  | none =>
    rw [copyPacketData_write hread herr hp hw]
    exact hrest fun hmem => hsink (PacketSink.writeTo_answers sink p hmem)

/-- **The copy loop does not slice out of range** as long as the calls it makes are
right. -/
theorem copyPacketData_ne_panic (dst : String) (ds : List Datagram) {b : List Byte}
    {sink : PacketSink} (hsink : some .panic ∉ sink.answers)
    (h : ∀ s ∈ steps T ds b, s.Sound) :
    (copyPacketData sink (symmetricNATPacketConn T (socksPacketConn T socket) dst)
      (ds.map .ok) b).1 ≠ some .panic := by
  induction ds generalizing b sink with
  | nil =>
    have hread : (symmetricNATPacketConn T (socksPacketConn T socket) dst).readFrom [] b =
        (⟨0, none, some .timeout, b⟩, []) :=
      symmetricNATPacketConn_keep rfl (by intro s hs; cases hs)
    rw [List.map_nil, copyPacketData_eq, hread]
    exact fun h => nomatch h
  | cons d ds ih =>
    set x := (socksPacketConn T socket).readFrom ((d :: ds).map .ok) b with hx
    have hmem : (⟨b, d, x.1⟩ : Step) ∈ steps T (d :: ds) b := List.mem_cons_self ..
    have hsound := h _ hmem
    have hrest : ∀ s ∈ steps T ds x.1.buf, s.Sound :=
      fun s hs => h s (List.mem_cons_of_mem _ hs)
    have hresult := result_of_mem_steps T hmem
    dsimp only at hresult
    rcases socksDecode_cases T (x := ⟨(Step.received ⟨b, d, x.1⟩).length, some d.sender, none,
        Step.filled ⟨b, d, x.1⟩⟩) rfl with ⟨addr, payload, u, -, -, hres⟩ | ⟨-, text, hres⟩
    · rw [hres] at hresult
      have haddr : x.1.addr = some u := by rw [hresult]
      by_cases hdst : u.string T = dst
      · -- a packet of the session: sliced and written
        have hread : (symmetricNATPacketConn T (socksPacketConn T socket) dst).readFrom
            ((d :: ds).map .ok) b = x := by
          apply symmetricNATPacketConn_keep hx.symm
          intro sender hs
          obtain rfl := Option.some.inj (haddr.symm.trans hs)
          exact hdst
        have herr : x.1.err = none := by rw [hresult]
        obtain ⟨p, hp⟩ := hsound.slice herr
        exact copyPacketData_ne_panic_of_write hread herr hp hsink fun hnext => ih hnext hrest
      · rw [copyPacketData_drop sink haddr hdst]
        exact ih hsink hrest
    · rw [hres] at hresult
      have hread : (symmetricNATPacketConn T (socksPacketConn T socket) dst).readFrom
          ((d :: ds).map .ok) b = x := by
        apply symmetricNATPacketConn_keep hx.symm
        intro sender hs
        rw [hresult] at hs
        cases hs
      rw [copyPacketData_eq, hread]
      dsimp only
      rw [hresult]
      exact fun h => nomatch h

/-- **When the SOCKS5 receive path depends on the received datagrams only.** For every
sequence of datagrams received into one buffer, whatever it held before: all results
are those of decoding the received bytes alone, exactly when at each call a header
with an IP that the buffer begins with ends within the datagram. Then the copy loop
never slices out of range, whatever the session and the origin. -/
theorem socks_receive_iff (ds : List Datagram) (b : List Byte) :
    ((∀ s ∈ steps T ds b, s.Sound) ↔ ∀ s ∈ steps T ds b, s.HeaderWithin) ∧
    ((∀ s ∈ steps T ds b, s.HeaderWithin) → ∀ (dst : String) (sink : PacketSink),
      some .panic ∉ sink.answers →
      (copyPacketData sink (symmetricNATPacketConn T (socksPacketConn T socket) dst)
        (ds.map .ok) b).1 ≠ some .panic) := by
  have hiff : (∀ s ∈ steps T ds b, s.Sound) ↔ ∀ s ∈ steps T ds b, s.HeaderWithin :=
    forall₂_congr fun s hs => Step.sound_iff hs
  exact ⟨hiff, fun h dst sink hsink => copyPacketData_ne_panic T dst ds hsink (hiff.mpr h)⟩

/-- A datagram with a complete header and the payload `abc`. -/
theorem socks_receive_complete :
    let d : Datagram := ⟨[0, 0, 0, 1, 10, 0, 0, 1, 0, 53, 97, 98, 99], [], ⟨.none, 0⟩⟩
    ∀ s ∈ steps .decimal [d] (List.replicate 16 7), s.Sound := by
  intro d
  refine (socks_receive_iff .decimal [d] (List.replicate 16 7)).1.mpr ?_
  intro s hs addr payload u hdec _
  obtain rfl := List.mem_singleton.mp hs
  have hok : (.ok ([1, 10, 0, 0, 1, 0, 53], [97, 98, 99, 7, 7, 7]) : Except Error _) =
      .ok (addr, payload) := hdec
  cases hok
  decide

/-- A datagram and then one of four bytes: what the payload of the first has left in
the buffer completes the header of the second. The second result is a payload of -6
bytes, and the copy loop of the session `10.0.0.1:53` slices with it. -/
theorem socks_receive_stale_header :
    let dst : IP := .v4 ⟨[10, 0, 0, 1], rfl⟩
    let payload : List Byte := [1, 2, 3, 4, 10, 0, 0, 1, 0, 53]
    let ds : List Datagram :=
      [⟨[0, 0, 0, 1, 10, 0, 0, 1, 0, 53] ++ payload, [], ⟨.none, 0⟩⟩,
        ⟨[0, 0, 0, 1], [], ⟨.none, 0⟩⟩]
    let b : List Byte := List.replicate 20 7
    ((steps .decimal ds b).map fun s => (s.result.n, s.result.addr)) =
        [(10, some ⟨dst, 53⟩), (-6, some ⟨dst, 53⟩)] ∧
      ¬ (∀ s ∈ steps .decimal ds b, s.Sound) ∧
      (copyPacketData .fresh (symmetricNATPacketConn .decimal (socksPacketConn .decimal socket)
        (addrPortString .decimal dst 53)) (ds.map .ok) b).1 = some .panic := by
  intro dst payload ds b
  have hfirst : (socksPacketConn .decimal socket).readFrom (ds.map .ok) b =
      (⟨10, some ⟨dst, 53⟩, none, payload ++ payload⟩, [.ok ⟨[0, 0, 0, 1], [], ⟨.none, 0⟩⟩]) := by
    decide +kernel
  have hsecond : (socksPacketConn .decimal socket).readFrom
      [.ok ⟨[0, 0, 0, 1], [], ⟨.none, 0⟩⟩] (payload ++ payload) =
      (⟨-6, some ⟨dst, 53⟩, none, payload ++ payload⟩, []) := by
    decide +kernel
  refine ⟨by decide +kernel, ?_, ?_⟩
  · intro h
    have hmem : Step.mk (payload ++ payload) ⟨[0, 0, 0, 1], [], ⟨.none, 0⟩⟩
        ⟨-6, some ⟨dst, 53⟩, none, payload ++ payload⟩ ∈ steps .decimal ds b := by
      rw [steps_cons hfirst, steps_cons hsecond]
      exact List.mem_cons_of_mem _ List.mem_cons_self
    exact Step.not_sound (by decide +kernel) rfl (h _ hmem)
  · have hkeep : ∀ {inbox : Inbox} {b : List Byte} {x : Received × Inbox},
        (socksPacketConn .decimal socket).readFrom inbox b = x → x.1.addr = some ⟨dst, 53⟩ →
        (symmetricNATPacketConn .decimal (socksPacketConn .decimal socket)
          (addrPortString .decimal dst 53)).readFrom inbox b = x := by
      intro inbox b x hx haddr
      apply symmetricNATPacketConn_keep hx
      intro sender hs
      rw [haddr] at hs
      cases hs
      exact UDPAddr.string_of_v4 rfl
    rw [copyPacketData_write (hkeep hfirst rfl) rfl (sliceTo_ok (by decide)) rfl,
      copyPacketData_slice_error (hkeep hsecond rfl) rfl rfl]

end Tun2socks.Udp
