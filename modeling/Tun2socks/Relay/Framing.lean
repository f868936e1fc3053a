import Tun2socks.Relay.Conn

/-!
# Tun2socks.Relay.Framing

A UDP relay connection keeps the boundaries of datagrams.

Whether the request went out while dialing or goes out with the first datagram, and
whether a `Read` has room for a datagram or not, both directions carry the same frames. What a
connection sends (`Sending`) is followed for TCP as well, where nothing is framed.
-/

namespace Tun2socks.Relay

open Tun2socks.Go

/-- A datagram as it travels. -/
def frame (d : List Byte) : List Byte := putUint16 d.length ++ d

/-- How data goes out: TCP as it is, UDP in a frame. -/
def wrap : Bool → List Byte → List Byte
  | true, d => frame d
  | false, d => d

/-- The server accepts the request with the message `ok`. -/
def Codec.Accepts (C : Codec) (ok : List Byte) : Prop :=
  ∀ S, C.parse (ok ++ S) = (.ok ⟨version1, statusOK⟩, S)

theorem Codec.Accepts.readRelayResponse {C : Codec} {ok S : List Byte} {src : List Piece}
    (h : C.Accepts ok) (hsrc : Fragments (ok ++ S) src) :
    (readRelayResponse C src).1 = none ∧ Fragments S (readRelayResponse C src).2 := by
  obtain ⟨hresp, hfr⟩ := C.reads hsrc
  rw [h S] at hresp hfr
  refine ⟨?_, hfr⟩
  rw [Relay.readRelayResponse, hresp]
  rfl

/-! ### Reading a frame -/

section Calls

variable {C : Codec} {A : Allocator} {rc : RelayConn} {d S : List Byte}

theorem readData_frame (rc : RelayConn) (hudp : rc.udp = true) (hd : d.length ≤ 65535)
    (hsrc : Fragments (frame d ++ S) rc.conn.src) (k : Nat) :
    ∃ src, rc.readData A k = ((d.take k, none), rc.leaving src) ∧ Fragments S src := by
  rw [frame, List.append_assoc] at hsrc
  obtain ⟨src₁, hbb, hsrc₁⟩ := hsrc.readFull_append
  rw [putUint16_length] at hbb
  obtain ⟨src₂, hread, hsrc₂⟩ := hsrc₁.readFull_append
  have hlen : uint16 ((putUint16 d.length).getD 0 0) ((putUint16 d.length).getD 1 0) = d.length :=
    uint16_putUint16 (by omega)
  refine ⟨src₂, ?_, hsrc₂⟩
  unfold RelayConn.readData
  simp only [hudp, Bool.not_true, Bool.false_eq_true, if_false, hbb, hlen, hread]
  split
  next hk => rw [List.take_of_length_le hk]
  next hk => rw [A.copy_get (by omega)]

/-- A `Read` that finds the response still ahead, and accepts it. -/
theorem Read_first {ok : List Byte} (hok : C.Accepts ok) (hudp : rc.udp = true)
    (honce : rc.once = false) (hwbuf : rc.wbuf ≠ none) (hd : d.length ≤ 65535)
    (hsrc : Fragments (ok ++ (frame d ++ S)) rc.conn.src) (k : Nat) :
    ∃ src, rc.Read C A k = ((d.take k, none), { rc.leaving src with once := true }) ∧
      Fragments S src := by
  obtain ⟨hnone, hsrc'⟩ := hok.readRelayResponse hsrc
  obtain ⟨req, hreq⟩ := Option.ne_none_iff_exists'.mp hwbuf
  have hdo : rc.onceDo C =
      (none, { rc.leaving (readRelayResponse C rc.conn.src).2 with once := true }) := by
    simp only [RelayConn.onceDo, honce, Bool.false_eq_true, if_false, hreq, hnone]
  unfold RelayConn.Read
  rw [hdo]
  exact readData_frame { rc.leaving (readRelayResponse C rc.conn.src).2 with once := true } hudp hd
    hsrc' k

/-- A `Read` without a response to wait for. -/
theorem Read_later (hudp : rc.udp = true) (honce : rc.once = true ∨ rc.wbuf = none)
    (hd : d.length ≤ 65535) (hsrc : Fragments (frame d ++ S) rc.conn.src) (k : Nat) :
    ∃ src, rc.Read C A k = ((d.take k, none), { rc.leaving src with once := true }) ∧
      Fragments S src := by
  have hdo : rc.onceDo C = (none, { rc with once := true }) := by
    unfold RelayConn.onceDo
    split
    next h => rw [← h]
    next h => rw [honce.resolve_left h]
  unfold RelayConn.Read
  rw [hdo]
  exact readData_frame { rc with once := true } hudp hd hsrc k

/-! ### Writing a frame -/

theorem send_reliable (sent : List Byte) (hwire : rc.conn.wire = ⟨sent, []⟩) (b : List Byte) :
    rc.send b = ((b.length, none), { rc with conn.wire := ⟨sent ++ b, []⟩ }) := by
  have hwrite := Wire.write_reliable (w := rc.conn.wire) (by rw [hwire]) b
  have hcount := Wire.count_of_ok (w := rc.conn.wire) (b := b) (by rw [hwrite])
  unfold RelayConn.send
  rw [hcount, hwrite, hwire]

/-- A datagram that is too long changes nothing. -/
theorem udpWrite_refused (h : 65535 < d.length) :
    rc.udpWrite d = ((0, some (.new "write: data maximum exceeded")), rc) :=
  if_pos h

/-- The request, if it is still waiting, goes out with the datagram. -/
theorem udpWrite_accepted {sent : List Byte} (hwire : rc.conn.wire = ⟨sent, []⟩)
    (hd : d.length ≤ 65535) :
    (rc.udpWrite d).1 = (d.length, none) ∧
      (rc.udpWrite d).2.conn.wire = ⟨sent ++ rc.buffered ++ frame d, []⟩ ∧
      (rc.udpWrite d).2.buffered = [] := by
  unfold RelayConn.udpWrite
  rw [if_neg (Nat.not_lt.mpr hd)]
  split
  · dsimp only
    rw [send_reliable sent hwire]
    refine ⟨rfl, ?_, ?_⟩
    · simp only [frame, List.append_assoc]
    · simp only [RelayConn.buffered, List.drop_length, Option.getD_some]
  next hnil =>
    rw [not_not] at hnil
    rw [send_reliable sent hwire]
    dsimp only
    rw [send_reliable (sent ++ putUint16 d.length) rfl]
    refine ⟨rfl, ?_, hnil⟩
    simp only [frame, hnil, List.append_nil, List.append_assoc]

/-- And so it does with the first bytes of a TCP connection. -/
theorem tcpWrite_accepted {sent : List Byte} (hwire : rc.conn.wire = ⟨sent, []⟩) (b : List Byte) :
    (rc.tcpWrite b).1 = (b.length, none) ∧
      (rc.tcpWrite b).2.conn.wire = ⟨sent ++ rc.buffered ++ b, []⟩ ∧
      (rc.tcpWrite b).2.buffered = [] := by
  unfold RelayConn.tcpWrite
  split
  · dsimp only
    rw [send_reliable sent hwire]
    exact ⟨rfl, by rw [List.append_assoc], rfl⟩
  next hnil =>
    rw [not_not] at hnil
    rw [send_reliable sent hwire]
    exact ⟨rfl, by rw [hnil, List.append_nil], hnil⟩

end Calls

/-! ### The two directions -/

/-- A datagram can be too long. -/
def fits (udp : Bool) (b : List Byte) : Bool := !udp || b.length ≤ 65535

/-- The result of `Write(b)` on a transport that accepts everything. -/
def writeResult (udp : Bool) (b : List Byte) : Nat × Option Error :=
  if fits udp b then (b.length, none) else (0, some (.new "write: data maximum exceeded"))

/-- After the writes `past`: the request is out, followed by what was written, unless it has
been left to the first of them and there is none. -/
structure Sending (udp noDelay : Bool) (req : List Byte) (past : List (List Byte))
    (rc : RelayConn) : Prop where
  kind : rc.udp = udp
  out : if noDelay = true ∨ past ≠ [] then
      rc.conn.wire = ⟨req ++ past.flatMap (wrap udp), []⟩ ∧ rc.buffered = []
    else rc.conn.wire = ⟨[], []⟩ ∧ rc.buffered = req

/-- After `n` reads, with the datagrams `ahead` still to come: the response is read, unless
it has been left to the first read and there is none. -/
structure Receiving (noDelay : Bool) (ok : List Byte) (n : Nat) (ahead : List (List Byte))
    (rc : RelayConn) : Prop where
  udp : rc.udp = true
  once : rc.once = decide (0 < n)
  wbuf : rc.wbuf = none ↔ noDelay = true
  src : Fragments ((if noDelay = true ∨ 0 < n then [] else ok) ++ ahead.flatMap frame) rc.conn.src

/-- The result of `udpWrite(b)` on a transport that accepts everything. -/
def udpWriteResult (b : List Byte) : Nat × Option Error :=
  if b.length ≤ 65535 then (b.length, none)
  else (0, some (.new "write: data maximum exceeded"))

/-- The datagrams that are not refused. -/
def accepted (bs : List (List Byte)) : List (List Byte) := bs.filter (·.length ≤ 65535)

theorem writeResult_udp (b : List Byte) : writeResult true b = udpWriteResult b := by
  simp [writeResult, udpWriteResult, fits]

section Step

variable {C : Codec} {A : Allocator} {udp noDelay : Bool} {req ok : List Byte} {n : Nat}
  {past ahead : List (List Byte)} {rc : RelayConn}

theorem Write_accepted {sent b : List Byte} (hwire : rc.conn.wire = ⟨sent, []⟩)
    (hb : fits rc.udp b = true) :
    (rc.Write b).1 = (b.length, none) ∧
      (rc.Write b).2.conn.wire = ⟨sent ++ rc.buffered ++ wrap rc.udp b, []⟩ ∧
      (rc.Write b).2.buffered = [] := by
  unfold RelayConn.Write
  cases hudp : rc.udp with
  | true => exact udpWrite_accepted hwire (by simpa [fits, hudp] using hb)
  | false => exact tcpWrite_accepted hwire b

theorem Sending.write (h : Sending udp noDelay req past rc) (b : List Byte) :
    (rc.Write b).1 = writeResult udp b ∧
      Sending udp noDelay req (past ++ [b].filter (fits udp)) (rc.Write b).2 := by
  have hudp := (rc.Write_sameReader b).udp.trans h.kind
  cases hb : fits udp b with
  | true =>
    have hout := h.out
    -- whatever is out and whatever waits is the request and the writes so far
    obtain ⟨sent, hwire, hout⟩ : ∃ sent, rc.conn.wire = ⟨sent, []⟩ ∧
        sent ++ rc.buffered = req ++ past.flatMap (wrap udp) := by
      split at hout
      · exact ⟨_, hout.1, by rw [hout.2, List.append_nil]⟩
      next hpast =>
        push Not at hpast
        exact ⟨_, hout.1, by rw [hout.2, hpast.2]; simp⟩
    obtain ⟨hret, hwire', hbuf⟩ := Write_accepted hwire (by rw [h.kind, hb])
    have hacc : [b].filter (fits udp) = [b] := by simp [hb]
    refine ⟨?_, hudp, ?_⟩
    · rw [hret, writeResult, if_pos hb]
    · rw [if_pos (.inr (by simp [hacc])), hwire', hout, hacc, h.kind]
      refine ⟨?_, hbuf⟩
      simp
  | false =>
    obtain ⟨rfl, hlen⟩ : udp = true ∧ 65535 < b.length := by simpa [fits] using hb
    have hacc : [b].filter (fits true) = [] := by simp [hb]
    have hWrite : rc.Write b = rc.udpWrite b := if_pos h.kind
    rw [hWrite, udpWrite_refused hlen, writeResult, hb, hacc, List.append_nil]
    exact ⟨rfl, h⟩

/-- A `Read` does not touch what is being sent. -/
theorem Sending.keeps (h : Sending udp noDelay req past rc) (k : Nat) :
    Sending udp noDelay req past (rc.Read C A k).2 := by
  obtain ⟨src, hread⟩ := rc.Read_leaves (C := C) (A := A) k
  rw [hread]
  exact ⟨h.kind, h.out⟩

/-- A `Write` does not touch what is being received. -/
theorem Receiving.keeps (h : Receiving noDelay ok n ahead rc) (b : List Byte) :
    Receiving noDelay ok n ahead (rc.Write b).2 := by
  obtain ⟨hsrc, hudp, honce, hwbuf⟩ := rc.Write_sameReader b
  exact ⟨hudp.trans h.udp, honce.trans h.once, hwbuf.trans h.wbuf, hsrc ▸ h.src⟩

theorem Receiving.read (hok : C.Accepts ok) {d : List Byte} (hd : d.length ≤ 65535)
    (h : Receiving noDelay ok n (d :: ahead) rc) (k : Nat) :
    ∃ rc', rc.Read C A k = ((d.take k, none), rc') ∧ Receiving noDelay ok (n + 1) ahead rc' := by
  have hsrc := h.src
  obtain ⟨src, hret, hsrc'⟩ : ∃ src,
      rc.Read C A k = ((d.take k, none), { rc.leaving src with once := true }) ∧
        Fragments (ahead.flatMap frame) src := by
    split at hsrc
    next hlater =>
      refine Read_later h.udp ?_ hd hsrc k
      rw [h.once, h.wbuf, decide_eq_true_eq]
      exact hlater.symm
    next hfirst =>
      push Not at hfirst
      refine Read_first hok h.udp ?_ ?_ hd hsrc k
      · rw [h.once]
        exact decide_eq_false (by omega)
      · rw [Ne, h.wbuf]
        exact hfirst.1
  refine ⟨_, hret, h.udp, ?_, h.wbuf, ?_⟩
  · exact (decide_eq_true (Nat.succ_pos n)).symm
  · rw [if_pos (.inr (Nat.succ_pos n))]
    exact hsrc'

end Step

/-! ### Runs -/

/-- The datagrams given to the writes among the calls. -/
def written (cs : List Call) : List (List Byte) :=
  cs.filterMap fun | .write b => some b | .read _ => none

/-- The buffer sizes of the reads among the calls. -/
def sizes (cs : List Call) : List Nat :=
  cs.filterMap fun | .read k => some k | .write _ => none

/-- The results of the writes among the calls. -/
def writeResults (rs : List Result) : List (Nat × Option Error) :=
  rs.filterMap fun | .write n err => some (n, err) | .read .. => none

/-- The results of the reads among the calls. -/
def readResults (rs : List Result) : List (List Byte × Option Error) :=
  rs.filterMap fun | .read d err => some (d, err) | .write .. => none

section Run

variable {C : Codec} {A : Allocator} {udp noDelay : Bool} {req ok : List Byte} {n : Nat}
  {past ahead : List (List Byte)} {rc : RelayConn}

theorem Sending.run (h : Sending udp noDelay req past rc) (cs : List Call) :
    writeResults (calls (RelayConn.call C A) rc cs).1 = (written cs).map (writeResult udp) ∧
      Sending udp noDelay req (past ++ (written cs).filter (fits udp))
        (calls (RelayConn.call C A) rc cs).2 := by
  induction cs generalizing past rc with
  | nil =>
    refine ⟨rfl, ?_⟩
    simpa [written, calls] using h
  | cons c cs ih =>
    cases c with
    | read k => exact ih (h.keeps k)
    | write b =>
      obtain ⟨hret, h'⟩ := h.write b
      obtain ⟨hres, hrun⟩ := ih h'
      have hacc : (written (.write b :: cs)).filter (fits udp) =
          [b].filter (fits udp) ++ (written cs).filter (fits udp) := by
        rw [← List.filter_append]
        rfl
      refine ⟨?_, ?_⟩
      · exact congrArg₂ List.cons hret hres
      · rw [hacc, ← List.append_assoc]
        exact hrun

theorem Receiving.run (hok : C.Accepts ok) (hahead : ∀ d ∈ ahead, d.length ≤ 65535)
    (h : Receiving noDelay ok n ahead rc) (cs : List Call)
    (hcs : (sizes cs).length ≤ ahead.length) :
    readResults (calls (RelayConn.call C A) rc cs).1 =
        (sizes cs).zipWith (fun k d => (d.take k, none)) ahead ∧
      Receiving noDelay ok (n + (sizes cs).length) (ahead.drop (sizes cs).length)
        (calls (RelayConn.call C A) rc cs).2 := by
  induction cs generalizing n ahead rc with
  | nil => exact ⟨rfl, h⟩
  | cons c cs ih =>
    cases c with
    | read k =>
      cases ahead with
      | nil => cases hcs
      | cons d ahead =>
        obtain ⟨rc', hret, h'⟩ := h.read (A := A) hok (hahead d List.mem_cons_self) k
        obtain ⟨hres, hrun⟩ := ih (fun d hd => hahead d (List.mem_cons_of_mem _ hd)) h'
          (Nat.le_of_succ_le_succ hcs)
        simp only [calls, RelayConn.call, hret]
        refine ⟨?_, ?_⟩
        · exact congrArg ((d.take k, none) :: ·) hres
        · rw [Nat.add_assoc, Nat.add_comm 1] at hrun
          exact hrun
    | write b => exact ih hahead (h.keeps b) hcs

end Run

/-! ### From the dial on -/

section Dial

variable {C : Codec} {rl : Relay} {T : IPv6Text} {m : Metadata}

theorem dialContext_sending {network : Network} {src : List Piece} {rc : RelayConn}
    (h : rl.dialContext C T network m ⟨src, .fresh⟩ = .ok rc) :
    Sending (network = .udp) rl.noDelay (C.request (rl.request T network m)) [] rc := by
  unfold Relay.dialContext Relay.handshake at h
  cases hdelay : rl.noDelay with
  | false =>
    simp only [hdelay, Bool.false_eq_true, if_false] at h
    cases network with
    | tcp | udp =>
      cases h
      exact ⟨rfl, by simp [RelayConn.new, RelayConn.buffered, Wire.fresh]⟩
    | other n => cases h
  | true =>
    simp only [hdelay, if_true, Wire.write_reliable (w := .fresh) rfl] at h
    rcases hresp : readRelayResponse C src with ⟨_ | err, src'⟩
    · rw [hresp] at h
      cases network with
      | tcp | udp =>
        cases h
        exact ⟨rfl, by simp [RelayConn.new, RelayConn.buffered, Wire.fresh]⟩
      | other n => cases h
    · rw [hresp] at h
      cases h

/-- The dial succeeds if the server accepts the request. -/
theorem dialContext_receiving (rl : Relay) (T : IPv6Text) (m : Metadata) {ok : List Byte}
    (hok : C.Accepts ok) {ds : List (List Byte)} {src : List Piece}
    (hsrc : Fragments (ok ++ ds.flatMap frame) src) :
    ∃ rc, rl.dialContext C T .udp m ⟨src, .fresh⟩ = .ok rc ∧ Receiving rl.noDelay ok 0 ds rc := by
  unfold Relay.dialContext Relay.handshake
  cases hdelay : rl.noDelay with
  | false =>
    refine ⟨_, rfl, rfl, rfl, ?_, ?_⟩
    · simp
    · simpa [RelayConn.new] using hsrc
  | true =>
    obtain ⟨hnone, hsrc'⟩ := hok.readRelayResponse hsrc
    rcases hresp : readRelayResponse C src with ⟨err, src'⟩
    rw [hresp] at hnone hsrc'
    obtain rfl : err = none := hnone
    simp only [if_true, Wire.write_reliable (w := .fresh) rfl]
    refine ⟨_, rfl, rfl, rfl, ?_, ?_⟩
    · simp [RelayConn.new]
    · simpa [RelayConn.new] using hsrc'

end Dial

/-- **Datagram boundaries are kept in both directions.** On a UDP connection from a dial over
a transport that accepts everything, whatever calls are made: a datagram that is too
long is refused and changes nothing, and the others have gone out in order behind the
request, which waits for the first of them unless it was sent while dialing. If the
server sends its acceptance and then the frames of `ds`, the dial succeeds, and every
`Read` returns as much of the next datagram as it has room for and leaves the stream at
the frame behind it. -/
theorem relay_keeps_datagrams (C : Codec) (A : Allocator) (T : IPv6Text) (rl : Relay)
    (m : Metadata) :
    let req := C.request (rl.request T .udp m)
    (∀ (rc : RelayConn) b, 65535 < b.length →
      rc.udpWrite b = ((0, some (.new "write: data maximum exceeded")), rc)) ∧
    (∀ src rc, rl.dialContext C T .udp m ⟨src, .fresh⟩ = .ok rc → ∀ cs,
      let r := calls (RelayConn.call C A) rc cs
      writeResults r.1 = (written cs).map udpWriteResult ∧
      if rl.noDelay = true ∨ accepted (written cs) ≠ [] then
        r.2.conn.wire.sent = req ++ (accepted (written cs)).flatMap frame ∧ r.2.buffered = []
      else r.2.conn.wire.sent = [] ∧ r.2.buffered = req) ∧
    ∀ ok ds, C.Accepts ok → (∀ d ∈ ds, d.length ≤ 65535) →
      ∀ src, Fragments (ok ++ ds.flatMap frame) src →
      ∃ rc, rl.dialContext C T .udp m ⟨src, .fresh⟩ = .ok rc ∧
        ∀ cs, (sizes cs).length ≤ ds.length →
          let r := calls (RelayConn.call C A) rc cs
          readResults r.1 = (sizes cs).zipWith (fun k d => (d.take k, none)) ds ∧
          Fragments ((if rl.noDelay = true ∨ 0 < (sizes cs).length then [] else ok) ++
            (ds.drop (sizes cs).length).flatMap frame) r.2.conn.src := by
  intro req
  refine ⟨fun rc b hb => udpWrite_refused hb, ?_, ?_⟩
  · intro src rc hdial cs r
    obtain ⟨hres, hrun⟩ := (dialContext_sending hdial).run (C := C) (A := A) cs
    refine ⟨hres.trans (List.map_congr_left fun b _ => writeResult_udp b), ?_⟩
    have hout := hrun.out
    rw [List.nil_append, show decide (Network.udp = .udp) = true from rfl,
      show (written cs).filter (fits true) = accepted (written cs) from rfl] at hout
    split at hout
    next h =>
      rw [if_pos h]
      exact ⟨congrArg Wire.sent hout.1, hout.2⟩
    next h =>
      rw [if_neg h]
      exact ⟨congrArg Wire.sent hout.1, hout.2⟩
  · intro ok ds hok hds src hsrc
    obtain ⟨rc, hdial, hrec⟩ := dialContext_receiving rl T m hok hsrc
    refine ⟨rc, hdial, ?_⟩
    intro cs hcs r
    obtain ⟨hres, hrun⟩ := hrec.run (A := A) hok hds cs hcs
    rw [Nat.zero_add] at hrun
    exact ⟨hres, hrun.src⟩

/-- Two datagrams are received, the first into a buffer that is too short for it, and one is
sent between the reads. -/
theorem relay_keeps_two :
    let rl : Relay := ⟨"", "", false⟩
    let m : Metadata := ⟨.v4 ⟨[10, 0, 0, 1], rfl⟩, 53⟩
    let src : List Piece := [⟨[1, 0, 0, 3, 7], none⟩, ⟨[8, 9, 0, 1], none⟩, ⟨[6], some .eof⟩]
    Codec.short.Accepts [1, 0] ∧
    ∃ rc, rl.dialContext .short .decimal .udp m ⟨src, .fresh⟩ = .ok rc ∧
      let r := calls (RelayConn.call .short .zeros) rc [.read 2, .write [5], .read 4]
      readResults r.1 = [([7, 8], none), ([6], none)] ∧
        r.2.conn.wire.sent = [1, 0x81] ++ [0, 1, 5] := by
  intro rl m src
  have hok : Codec.short.Accepts [1, 0] := by
    intro S
    simp [Codec.short, shortParse, version1, statusOK]
  have hsrc : Fragments ([1, 0] ++ [[7, 8, 9], [6]].flatMap frame) src :=
    .cons [1, 0, 0, 3, 7] (.cons [8, 9, 0, 1] (.eof [6]))
  have h := relay_keeps_datagrams .short .zeros .decimal rl m
  obtain ⟨rc, hdial, hread⟩ := h.2.2 [1, 0] [[7, 8, 9], [6]] hok (by decide) src hsrc
  refine ⟨hok, rc, hdial, ?_, ?_⟩
  · exact (hread [.read 2, .write [5], .read 4] (by decide)).1
  · exact (h.2.1 src rc hdial [.read 2, .write [5], .read 4]).2.1

end Tun2socks.Relay
