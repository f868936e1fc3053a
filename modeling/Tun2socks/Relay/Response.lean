import Tun2socks.Relay.Framing

/-!
# Tun2socks.Relay.Response

What a connection still returns after the relay has turned the request down.

The error of the handshake is a variable of the one `Read` that runs `once.Do`. That `Read`
reports it; the next finds `once` done and returns whatever follows on the stream. A read error
in the middle of the response is such an error too, and the stream may go on behind it.
-/

namespace Tun2socks.Relay

open Tun2socks.Go

/-- What `readRelayResponse` makes of a stream: its error, and what it leaves. -/
def Codec.outcome (C : Codec) (S : List Byte) : Option Error × List Byte :=
  (verdict (C.parse S).1, (C.parse S).2)

theorem Codec.outcome_spec (C : Codec) {S : List Byte} {src : List Piece} (h : Fragments S src) :
    (readRelayResponse C src).1 = (C.outcome S).1 ∧
      Fragments (C.outcome S).2 (readRelayResponse C src).2 := by
  obtain ⟨hresp, hfr⟩ := C.reads h
  exact ⟨congrArg verdict hresp, hfr⟩

/-! ### What there is to get -/

/-- The bytes of a piece that a read can return without the error that comes with the last. -/
def openBytes (p : Piece) : List Byte := if p.err = none then p.data else p.data.dropLast

/-- What the next read of a UDP connection finds: a whole datagram, or none if one of its two
`io.ReadFull` fails; and what is left in the reader. -/
def nextFrame (ps : List Piece) : Option (List Byte) × List Piece :=
  let bb := readFull 2 ps
  match bb.2.1 with
  | some _ => (none, bb.2.2)
  | none =>
    let r := readFull (uint16 (bb.1.getD 0 0) (bb.1.getD 1 0)) bb.2.2
    (if r.2.1 = none then some r.1 else none, r.2.2)

theorem nextFrame_lt {ps : List Piece} (h : ps ≠ []) :
    readerSize (nextFrame ps).2 < readerSize ps := by
  have hhead := readerSize_readLoop_lt (k := 2) (by decide) h
  unfold nextFrame
  dsimp only
  split
  · exact hhead
  · exact lt_of_le_of_lt (readerSize_readLoop_le _ _) hhead

/-- The datagrams that reads find in what a reader has in store. -/
def arrivals (ps : List Piece) : List (List Byte) :=
  if ps = [] then [] else (nextFrame ps).1.toList ++ arrivals (nextFrame ps).2
  termination_by readerSize ps
  decreasing_by
    rename_i h
    exact nextFrame_lt h

/-- What reads can get out of a reader. -/
def payload (udp : Bool) (ps : List Piece) : List Byte :=
  if udp then (arrivals ps).flatten else ps.flatMap openBytes

/-- The call has returned data without an error. -/
def Result.yields : Result → Bool
  | .read d none => !d.isEmpty
  | _ => false

section Reads

variable {C : Codec} {A : Allocator} {rc : RelayConn}

theorem Read_of_once (h : rc.once = true) (k : Nat) : rc.Read C A k = rc.readData A k := by
  simp only [RelayConn.Read, RelayConn.onceDo, h, if_true]

/-- A `Read` of a UDP connection. -/
theorem readData_udp (hudp : rc.udp = true) (k : Nat) :
    (rc.readData A k).2 = rc.leaving (nextFrame rc.conn.src).2 ∧
      match (nextFrame rc.conn.src).1 with
      | some d => (rc.readData A k).1 = (d.take k, none)
      | none => (rc.readData A k).1.2 ≠ none := by
  unfold RelayConn.readData nextFrame
  simp only [hudp, Bool.not_true, Bool.false_eq_true, if_false]
  cases hbb : (readFull 2 rc.conn.src).2.1 with
  | some err => exact ⟨rfl, Option.some_ne_none err⟩
  | none =>
    generalize readFull 2 rc.conn.src = bb
    have hlt := uint16_lt (bb.1.getD 0 0) (bb.1.getD 1 0)
    generalize uint16 (bb.1.getD 0 0) (bb.1.getD 1 0) = dLen at hlt
    dsimp only
    cases hr : (readFull dLen bb.2.2).2.1 with
    | some err => split <;> exact ⟨rfl, by simp⟩
    | none =>
      have hlen := readFull_length hr
      simp only [if_true]
      split
      next hk => exact ⟨rfl, by rw [List.take_of_length_le (hlen.trans_le hk)]⟩
      · have hcopy : copy (A.get dLen) (readFull dLen bb.2.2).1 = (readFull dLen bb.2.2).1 := by
          have := A.copy_get (d := (readFull dLen bb.2.2).1) (by omega)
          rwa [hlen] at this
        exact ⟨rfl, by rw [hcopy]⟩

end Reads

/-! ### Streams without payload -/

section Silent

variable {C : Codec} {A : Allocator} {rc : RelayConn}

/-- The response is behind the connection, and there is nothing to get from the rest. -/
structure Silent (rc : RelayConn) : Prop where
  once : rc.once = true
  payload : payload rc.udp rc.conn.src = []

/-- A `Read` of a TCP connection. -/
theorem Silent.readTcp (h : Silent rc) (hudp : rc.udp = false) (k : Nat) :
    (Result.read (rc.readData A k).1.1 (rc.readData A k).1.2).yields = false ∧
      Silent (rc.readData A k).2 := by
  have hpay : rc.conn.src.flatMap openBytes = [] := by simpa [Relay.payload, hudp] using h.payload
  have hread : rc.readData A k = (((Go.read k rc.conn.src).1, (Go.read k rc.conn.src).2.1),
      rc.leaving (Go.read k rc.conn.src).2.2) := by
    simp only [RelayConn.readData, hudp, Bool.not_false, if_true]
  rw [hread]
  suffices hsilent : (Result.read (Go.read k rc.conn.src).1 (Go.read k rc.conn.src).2.1).yields =
      false ∧ (Go.read k rc.conn.src).2.2.flatMap openBytes = [] by
    refine ⟨hsilent.1, h.once, ?_⟩
    simpa [Relay.payload, RelayConn.leaving, hudp] using hsilent.2
  generalize rc.conn.src = src at hpay
  cases src with
  | nil => exact ⟨rfl, rfl⟩
  | cons p ps =>
    obtain ⟨d, e⟩ := p
    rw [List.flatMap_cons, List.append_eq_nil_iff] at hpay
    obtain ⟨hopen, hrest⟩ := hpay
    simp only [Go.read]
    cases e with
    | none =>
      obtain rfl : d = [] := hopen
      exact ⟨rfl, hrest⟩
    | some e =>
      have hlen : d.length ≤ 1 := by
        have hdrop : d.dropLast = [] := hopen
        rw [← List.length_eq_zero_iff, List.length_dropLast] at hdrop
        omega
      split
      · exact ⟨rfl, hrest⟩
      · -- only a read without room stays below the error
        obtain rfl : k = 0 := by omega
        refine ⟨rfl, ?_⟩
        rw [List.drop_zero, List.flatMap_cons, hopen, hrest]
        rfl

/-- A `Read` of a UDP connection. -/
theorem Silent.readUdp (h : Silent rc) (hudp : rc.udp = true) (k : Nat) :
    (Result.read (rc.readData A k).1.1 (rc.readData A k).1.2).yields = false ∧
      Silent (rc.readData A k).2 := by
  have hpay : (arrivals rc.conn.src).flatten = [] := by simpa [Relay.payload, hudp] using h.payload
  obtain ⟨hrest, hret⟩ := readData_udp (A := A) hudp k
  rw [hrest]
  have hnext : (nextFrame rc.conn.src).1.toList.flatten = [] ∧
      (arrivals (nextFrame rc.conn.src).2).flatten = [] := by
    by_cases hnil : rc.conn.src = []
    · rw [hnil]
      exact ⟨rfl, by rw [show (nextFrame []).2 = [] from rfl, arrivals, if_pos rfl]; rfl⟩
    · rw [arrivals, if_neg hnil, List.flatten_append, List.append_eq_nil_iff] at hpay
      exact hpay
  refine ⟨?_, h.once, ?_⟩
  · cases hd : (nextFrame rc.conn.src).1 with
    | some d =>
      rw [hd] at hret hnext
      obtain rfl : d = [] := by simpa using hnext.1
      rw [hret, List.take_nil]
      rfl
    | none =>
      rw [hd] at hret
      obtain ⟨err, herr⟩ := Option.ne_none_iff_exists'.mp hret
      rw [herr]
      rfl
  · simpa [Relay.payload, RelayConn.leaving, hudp] using hnext.2

theorem Silent.call (h : Silent rc) (c : Call) :
    (rc.call C A c).1.yields = false ∧ Silent (rc.call C A c).2 := by
  cases c with
  | write b =>
    obtain ⟨hsrc, hudp, honce, -⟩ := rc.Write_sameReader b
    refine ⟨rfl, honce.trans h.once, ?_⟩
    rw [RelayConn.call, hsrc, hudp]
    exact h.payload
  | read k =>
    unfold RelayConn.call
    dsimp only
    rw [Read_of_once h.once]
    cases hudp : rc.udp with
    | false => exact h.readTcp hudp k
    | true => exact h.readUdp hudp k

theorem Silent.run (h : Silent rc) (cs : List Call) :
    ∀ x ∈ (calls (RelayConn.call C A) rc cs).1, x.yields = false := by
  induction cs generalizing rc with
  | nil => exact fun _ hx => nomatch hx
  | cons c cs ih =>
    obtain ⟨hyields, h'⟩ := h.call c
    intro x hx
    rcases List.mem_cons.mp hx with rfl | hx
    · exact hyields
    · exact ih h' x hx

end Silent

/-! ### Streams with payload -/

section Audible

variable {C : Codec} {A : Allocator} {rc : RelayConn}

/-- What a later call yields. -/
theorem yields_of_call (c : Call)
    (h : ∃ cs, ∃ x ∈ (calls (RelayConn.call C A) (rc.call C A c).2 cs).1, x.yields = true) :
    ∃ cs, ∃ x ∈ (calls (RelayConn.call C A) rc cs).1, x.yields = true := by
  obtain ⟨cs, x, hx, hyields⟩ := h
  exact ⟨c :: cs, x, List.mem_cons_of_mem _ hx, hyields⟩

/-- Reads of one byte get at the data of a TCP stream. -/
theorem yields_tcp (hudp : rc.udp = false) (honce : rc.once = true)
    (hpay : rc.conn.src.flatMap openBytes ≠ []) :
    ∃ cs, ∃ x ∈ (calls (RelayConn.call C A) rc cs).1, x.yields = true := by
  generalize hps : rc.conn.src = ps at hpay
  induction ps generalizing rc with
  | nil => exact absurd rfl hpay
  | cons p ps ih =>
    obtain ⟨d, e⟩ := p
    have hcall : rc.call C A (.read 1) = (.read (Go.read 1 (⟨d, e⟩ :: ps)).1
        (Go.read 1 (⟨d, e⟩ :: ps)).2.1, rc.leaving (Go.read 1 (⟨d, e⟩ :: ps)).2.2) := by
      unfold RelayConn.call
      dsimp only
      rw [Read_of_once honce]
      simp only [RelayConn.readData, hudp, Bool.not_false, if_true, hps]
    by_cases hopen : openBytes ⟨d, e⟩ = []
    · -- nothing to get from this piece: one read leaves it behind, or there is nothing in it
      rw [List.flatMap_cons, hopen, List.nil_append] at hpay
      have hlen : d.length ≤ 1 := by
        cases e with
        | none =>
          obtain rfl : d = [] := hopen
          exact Nat.zero_le 1
        | some e =>
          have hdrop : d.dropLast = [] := hopen
          rw [← List.length_eq_zero_iff, List.length_dropLast] at hdrop
          omega
      refine yields_of_call (.read 1) ?_
      rw [hcall]
      simp only [Go.read, if_pos hlen]
      exact @ih (rc.leaving ps) hudp honce rfl hpay
    · refine ⟨[.read 1], _, List.mem_cons_self, ?_⟩
      rw [hcall]
      cases d with
      | nil => cases e <;> exact absurd rfl hopen
      | cons b d =>
        simp only [Go.read]
        split
        next hle =>
          -- the one byte of the piece comes without an error
          cases e with
          | none => rfl
          | some e =>
            obtain rfl : d = [] := by simpa using hle
            exact absurd rfl hopen
        · rfl

/-- Reads of one byte get at the data of a UDP stream. -/
theorem yields_udp (hudp : rc.udp = true) (honce : rc.once = true)
    (hpay : (arrivals rc.conn.src).flatten ≠ []) :
    ∃ cs, ∃ x ∈ (calls (RelayConn.call C A) rc cs).1, x.yields = true := by
  generalize hps : rc.conn.src = ps at hpay
  induction ps using arrivals.induct generalizing rc with
  | case1 => exact absurd (by rw [arrivals, if_pos rfl]; rfl) hpay
  | case2 ps hne ih =>
    obtain ⟨hrest, hret⟩ := readData_udp (A := A) hudp 1
    have hcall : rc.call C A (.read 1) = (.read (rc.readData A 1).1.1 (rc.readData A 1).1.2,
        rc.leaving (nextFrame ps).2) := by
      unfold RelayConn.call
      dsimp only
      rw [Read_of_once honce, hrest, hps]
    rw [hps] at hret
    rw [arrivals, if_neg hne, List.flatten_append, Ne, List.append_eq_nil_iff, not_and_or] at hpay
    by_cases hhead : (nextFrame ps).1.toList.flatten = []
    · refine yields_of_call (.read 1) ?_
      rw [hcall]
      exact @ih (rc.leaving (nextFrame ps).2) hudp honce rfl
        (hpay.resolve_left (not_not_intro hhead))
    · refine ⟨[.read 1], _, List.mem_cons_self, ?_⟩
      rw [hcall]
      cases hd : (nextFrame ps).1 with
      | none =>
        rw [hd] at hhead
        exact absurd rfl hhead
      | some d =>
        rw [hd] at hhead hret
        rw [hret]
        cases d with
        | nil => exact absurd rfl hhead
        | cons b d => rfl

end Audible

/-! ### The handshake -/

section Handshake

variable {C : Codec} {A : Allocator} {rc : RelayConn}

/-- Until the first `Read`, the stream is as it was. -/
def Fresh (udp : Bool) (ps : List Piece) (rc : RelayConn) : Prop :=
  rc.udp = udp ∧ rc.wbuf ≠ none ∧ (rc.once = false → rc.conn.src = ps)

theorem Fresh.run {udp : Bool} {ps : List Piece} (h : Fresh udp ps rc) (cs : List Call) :
    Fresh udp ps (calls (RelayConn.call C A) rc cs).2 := by
  refine calls_induction (P := fun _ _ rc => Fresh udp ps rc) ?_ h cs
  rintro - - rc c ⟨hudp, hwbuf, hsrc⟩
  cases c with
  | read k =>
    obtain ⟨src, hread⟩ := rc.Read_leaves (C := C) (A := A) k
    unfold RelayConn.call
    dsimp only
    rw [hread]
    exact ⟨hudp, hwbuf, fun h => nomatch h⟩
  | write b =>
    obtain ⟨hsrc', hudp', honce', hwbuf'⟩ := rc.Write_sameReader b
    refine ⟨hudp'.trans hudp, ?_, ?_⟩
    · exact fun h => hwbuf (hwbuf'.mp h)
    · intro honce
      exact hsrc'.trans (hsrc (honce'.symm.trans honce))

/-- The `Read` that runs the handshake, when that fails. -/
theorem Read_failed (rc : RelayConn) {err : Error} (honce : rc.once = false)
    (hwbuf : rc.wbuf ≠ none) (hfail : (readRelayResponse C rc.conn.src).1 = some err) (k : Nat) :
    rc.Read C A k = (([], some err),
      { rc.leaving (readRelayResponse C rc.conn.src).2 with once := true }) := by
  obtain ⟨req, hreq⟩ := Option.ne_none_iff_exists'.mp hwbuf
  simp only [RelayConn.Read, RelayConn.onceDo, honce, Bool.false_eq_true, if_false, hreq, hfail]

/-- The connection `dialContext` returns without `noDelay`. -/
def RelayConn.delayed (conn : Conn) (udp : Bool) (req : List Byte) : RelayConn :=
  { new conn false udp with wbuf := some req }

theorem fresh_delayed (ps : List Piece) (wire : Wire) (udp : Bool) (req : List Byte) :
    Fresh udp ps (.delayed ⟨ps, wire⟩ udp req) :=
  ⟨rfl, Option.some_ne_none req, fun _ => rfl⟩

/-- No read after one in which the handshake has failed returns data, whatever was called
before. -/
def NeverYields (C : Codec) (A : Allocator) (udp : Bool) (req : List Byte) (ps : List Piece) :
    Prop :=
  ∀ wire before k after,
    let rc := (calls (RelayConn.call C A) (.delayed ⟨ps, wire⟩ udp req) before).2
    rc.once = false → (readRelayResponse C rc.conn.src).1 ≠ none →
    ∀ x ∈ (calls (RelayConn.call C A) (rc.Read C A k).2 after).1, x.yields = false

theorem neverYields_iff (C : Codec) (A : Allocator) (udp : Bool) (req : List Byte)
    (ps : List Piece) :
    NeverYields C A udp req ps ↔
      (readRelayResponse C ps).1 = none ∨ payload udp (readRelayResponse C ps).2 = [] := by
  constructor
  · intro h
    by_contra hcond
    push Not at hcond
    obtain ⟨hfail, hpay⟩ := hcond
    obtain ⟨err, herr⟩ := Option.ne_none_iff_exists'.mp hfail
    have hread := Read_failed (A := A) (.delayed ⟨ps, .fresh⟩ udp req) rfl (Option.some_ne_none req)
      herr 0
    have hyields : ∃ cs, ∃ x ∈ (calls (RelayConn.call C A)
        ((RelayConn.delayed ⟨ps, .fresh⟩ udp req).Read C A 0).2 cs).1, x.yields = true := by
      rw [hread]
      cases udp with
      | false => exact yields_tcp rfl rfl hpay
      | true => exact yields_udp rfl rfl hpay
    obtain ⟨cs, x, hx, hyields⟩ := hyields
    rw [h .fresh [] 0 cs rfl hfail x hx] at hyields
    cases hyields
  · intro hcond wire before k after rc honce hfail
    obtain ⟨hudp, hwbuf, hsrc⟩ := (fresh_delayed ps wire udp req).run (C := C) (A := A) before
    obtain ⟨err, herr⟩ := Option.ne_none_iff_exists'.mp hfail
    have hread := Read_failed (A := A) rc honce hwbuf herr k
    rw [hsrc honce] at herr hread
    refine Silent.run ?_ after
    rw [hread]
    rcases hcond with hok | hpay
    · rw [hok] at herr
      cases herr
    · refine ⟨rfl, ?_⟩
      rw [← hudp] at hpay
      exact hpay

end Handshake

/-! ### Streams without read errors -/

/-- The complete frames a stream begins with. -/
def frames : List Byte → List (List Byte)
  | hi :: lo :: t =>
    if uint16 hi lo ≤ t.length then t.take (uint16 hi lo) :: frames (t.drop (uint16 hi lo)) else []
  | _ => []
  termination_by t => t.length
  decreasing_by
    simp only [List.length_drop, List.length_cons]
    omega

/-- What reads can get out of a stream that does not fail. -/
def streamPayload (udp : Bool) (t : List Byte) : List Byte :=
  if udp then (frames t).flatten else t

/-- The next frame of a stream, if it is complete. -/
theorem nextFrame_fragments {t : List Byte} {ps : List Piece} (h : Fragments t ps) :
    (frames t = [] ∧ nextFrame ps = (none, [])) ∨
      ∃ d t', frames t = d :: frames t' ∧ (nextFrame ps).1 = some d ∧
        Fragments t' (nextFrame ps).2 := by
  match t with
  | [] | [_] =>
    left
    refine ⟨by rw [frames]; simp, ?_⟩
    simp only [nextFrame]
    rw [h.readFull_short (by simp)]
  | hi :: lo :: t =>
    obtain ⟨src, hbb, hsrc⟩ := Fragments.readFull_append (s := [hi, lo]) h
    have hbb : readFull 2 ps = ([hi, lo], none, src) := hbb
    have hlo : uint16 ([hi, lo].getD 0 0) ([hi, lo].getD 1 0) = uint16 hi lo := rfl
    by_cases hlen : uint16 hi lo ≤ t.length
    · right
      obtain ⟨src', hread, hsrc'⟩ := hsrc.readFull_ok hlen
      refine ⟨t.take (uint16 hi lo), t.drop (uint16 hi lo), by rw [frames, if_pos hlen], ?_, ?_⟩
      · simp only [nextFrame, hbb, hlo, hread, if_true]
      · simp only [nextFrame, hbb, hlo, hread]
        exact hsrc'
    · left
      refine ⟨by rw [frames, if_neg hlen], ?_⟩
      simp only [nextFrame, hbb, hlo]
      rw [hsrc.readFull_short (Nat.lt_of_not_le hlen)]
      simp

theorem arrivals_nil : arrivals [] = [] := by
  rw [arrivals, if_pos rfl]

/-- However a stream is cut, reads find its frames. -/
theorem arrivals_fragments {t : List Byte} {ps : List Piece} (h : Fragments t ps) :
    arrivals ps = frames t := by
  induction ps using arrivals.induct generalizing t with
  | case1 =>
    obtain ⟨hnil, -⟩ | ⟨d, t', -, hnext, -⟩ := nextFrame_fragments h
    · rw [hnil, arrivals_nil]
    · cases hnext
  | case2 ps hne ih =>
    rw [arrivals, if_neg hne]
    obtain ⟨hnil, hnext⟩ | ⟨d, t', hframes, hnext, hrest⟩ := nextFrame_fragments h
    · rw [hnext, hnil, arrivals_nil]
      rfl
    · rw [hnext, ih hrest, hframes]
      rfl

/-- A reader of a stream that does not fail has its payload to give, but for bytes that come
with the end of it. -/
theorem payload_of_streamPayload {udp : Bool} {t : List Byte} {ps : List Piece}
    (h : Fragments t ps) (hpay : streamPayload udp t = []) : payload udp ps = [] := by
  cases udp with
  | true =>
    have hflat : (frames t).flatten = [] := hpay
    rwa [payload, if_pos rfl, arrivals_fragments h]
  | false =>
    obtain rfl : t = [] := hpay
    rw [payload, if_neg Bool.false_ne_true, List.flatMap_eq_nil_iff]
    intro p hp
    have hdata : p.data = [] := List.flatMap_eq_nil_iff.mp h.flatMap_data p hp
    simp [openBytes, hdata]

theorem payload_successful {udp : Bool} {t : List Byte} {ps : List Piece} (h : Successful t ps) :
    payload udp ps = streamPayload udp t := by
  cases udp with
  | true =>
    rw [payload, if_pos rfl, arrivals_fragments h.fragments]
    rfl
  | false =>
    rw [payload, if_neg Bool.false_ne_true, streamPayload, if_neg Bool.false_ne_true, ← h.data]
    exact List.flatMap_congr fun p hp => by rw [openBytes, if_pos (h.err p hp)]

/-- **Data after a refusal.** On a connection without `noDelay`, for whatever its transport has
in store, read errors included: no read returns data after the response has failed, if and only
if the response does not fail or what it leaves in the reader holds no payload, which is for TCP
no byte that comes without an error, and for UDP no frame that reads find and that is not empty.
For a stream without read errors, however it is cut, that is no byte, or no complete frame that
is not empty. -/
theorem relay_yields_iff (C : Codec) (A : Allocator) (udp : Bool) (req : List Byte) :
    (∀ ps, NeverYields C A udp req ps ↔
      (readRelayResponse C ps).1 = none ∨ payload udp (readRelayResponse C ps).2 = []) ∧
    ∀ S, (∀ ps, Fragments S ps → NeverYields C A udp req ps) ↔
      (C.outcome S).1 = none ∨ streamPayload udp (C.outcome S).2 = [] := by
  refine ⟨neverYields_iff C A udp req, fun S => ⟨fun h => ?_, fun hcond ps hps => ?_⟩⟩
  · have hps : Successful S [⟨S, none⟩] := ⟨by simp, by simp⟩
    obtain ⟨herr, -⟩ := C.outcome_spec hps.fragments
    have hcond := (neverYields_iff C A udp req _).mp (h _ hps.fragments)
    have hleft : payload udp (readRelayResponse C [⟨S, none⟩]).2 =
        streamPayload udp (C.outcome S).2 := payload_successful (C.succeeds hps)
    rwa [herr, hleft] at hcond
  · obtain ⟨herr, hfr⟩ := C.outcome_spec hps
    rw [neverYields_iff, herr]
    exact hcond.imp_right (payload_of_streamPayload hfr)

/-- Two TCP connections. To the first the relay answers with status 1, and three bytes follow: the
first `Read` reports the status, the second returns the bytes. On the second a timeout cuts the
response in two: the first `Read` reports it, the second returns the rest of the response and
what follows. -/
theorem relay_yields_after_status :
    (let rc := RelayConn.delayed ⟨[⟨[1, 1, 7, 8, 9], none⟩], .fresh⟩ false [1, 1]
    (readRelayResponse .short rc.conn.src).1 = some (.new "status 1") ∧
      (calls (RelayConn.call .short .zeros) rc [.read 4, .read 4]).1 =
        [.read [] (some (.new "status 1")), .read [7, 8, 9] none]) ∧
    (let rc := RelayConn.delayed ⟨[⟨[1], some .timeout⟩, ⟨[0, 7, 8, 9], none⟩], .fresh⟩ false [1, 1]
    (readRelayResponse .short rc.conn.src).1 = some .timeout ∧
      (calls (RelayConn.call .short .zeros) rc [.read 4, .read 4]).1 =
        [.read [] (some .timeout), .read [0, 7, 8, 9] none]) := by
  decide +kernel

end Tun2socks.Relay
