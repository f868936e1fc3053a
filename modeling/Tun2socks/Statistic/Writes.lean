import Tun2socks.Shadowaead.Records
import Tun2socks.SimpleObfs.Tls
import Tun2socks.Udp.Send

/-!
# Tun2socks.Statistic.Writes

What the traffic counters are told about the bytes written.

The trackers of `tunnel/statistic/tracker.go` add the number a `Write` or `WriteTo` returns
to the upload figures, whatever the error. `Go.Reports` says which number that should be,
and each of the four writers that cut or wrap its caller's bytes is compared with it. The
records a writer below has accepted are those of the calls before the first that failed
(`Go.attempts`).

* `Writer.Write` of an AEAD stream counts the record that failed.
* `TLSObfs.Write` returns the length of the chunk that failed, without those before it.
* The two `WriteTo` methods return the length of the packet, its header included.
-/

namespace Tun2socks.Statistic

open Tun2socks.Go

/-! ### The AEAD stream -/

section Aead

open Shadowaead

/-- The parts of `p` in the records that the writer below `w` accepts during `Write(p)`. -/
def aeadAccepted (w : Writer) (p : List Byte) : List (List Byte) :=
  (attempts Writer.writeRecord w (chunks payloadSizeMask p)).1.1

/-- The loop of `Write` from offset `n` writes the chunks of what is left, up to the first
that fails. It returns the whole length, or an offset behind the failed record. -/
theorem writeLoop_attempts (p : List Byte) (n : Nat) (w : Writer) (hn : n ≤ p.length) :
    let r := attempts Writer.writeRecord w (chunks payloadSizeMask (p.drop n))
    (Writer.writeLoop p n w).2.1 = r.1.2 ∧
      (r.1.2 = none → (Writer.writeLoop p n w).1 = p.length) ∧
      (r.1.2 ≠ none → n + r.1.1.flatten.length < (Writer.writeLoop p n w).1) := by
  induction n, w using Writer.writeLoop.induct (p := p) with
  | case1 n w hlt nr r err herr =>
    simp only [r, nr] at herr
    rw [Writer.chunks_drop hlt, attempts_failed herr, Writer.writeLoop, if_pos hlt]
    simp only [herr]
    have hpos := Writer.nextSize_pos hlt
    refine ⟨trivial, fun h => absurd h (Option.some_ne_none err), fun _ => ?_⟩
    rw [List.flatten_nil, List.length_nil]
    omega
  | case2 n w hlt nr r hok ih =>
    simp only [r, nr] at hok ih
    have hle := Writer.nextSize_le hlt
    have hlen := Writer.length_nextChunk hlt
    rw [Writer.chunks_drop hlt, attempts_succeeded hok, Writer.writeLoop, if_pos hlt]
    simp only [hok]
    obtain ⟨herr, hall, hfailed⟩ := ih hle
    refine ⟨herr, hall, fun h => ?_⟩
    have := hfailed h
    rw [List.flatten_cons, List.length_append, hlen]
    omega
  | case3 n w hge =>
    have hn' : n = p.length := by omega
    rw [Writer.writeLoop, if_neg hge, hn', List.drop_length, chunks_nil]
    exact ⟨rfl, fun _ => rfl, fun h => absurd rfl h⟩

/-- One record is one `Write` on the writer below. -/
theorem writeRecord_wire (w : Writer) (d : List Byte) :
    ∃ msg, ((w.writeRecord d).1, (w.writeRecord d).2.wire) = w.wire.write msg :=
  ⟨_, rfl⟩

/-- `Writer.Write` reports the caller's bytes only if all of its records are taken: after
an error the failed record is counted too. -/
theorem aead_reports_iff (w : Writer) (p : List Byte) :
    Reports p (aeadAccepted w p) (w.write p).1 (w.write p).2.1 ↔
      w.wire.Takes ((p.length + payloadSizeMask - 1) / payloadSizeMask) := by
  by_cases hp : p = []
  · subst hp
    refine iff_of_true ⟨le_rfl, fun _ => rfl, fun _ => ?_⟩ (Wire.takes_zero _)
    rw [aeadAccepted, chunks_nil]
    rfl
  · obtain ⟨herr, hall, hfailed⟩ := writeLoop_attempts p 0 w (Nat.zero_le _)
    rw [List.drop_zero] at herr hall hfailed
    rw [Writer.write, if_neg hp, herr, ← length_chunks (by decide),
      ← attempts_takes Writer.wire writeRecord_wire w le_rfl, ← attempts_eq_none_iff]
    constructor
    · intro h
      by_contra hne
      have := hfailed hne
      have := h.failed hne
      rw [aeadAccepted] at this
      omega
    · intro hnone
      exact ⟨(hall hnone).le, fun _ => hall hnone, fun h => absurd hnone h⟩

end Aead

/-! ### TLS obfuscation -/

section Tls

open SimpleObfs

/-- `to.write(b)`, without the number it returns. -/
def tlsWrite (e : Entropy) (o : TLSObfs) (b : List Byte) : Option Error × TLSObfs :=
  ((o.write e b).1.2, (o.write e b).2)

/-- The parts of `b` in the messages that the connection below `o` accepts during
`Write(b)`. -/
def tlsAccepted (e : Entropy) (o : TLSObfs) (b : List Byte) : List (List Byte) :=
  (attempts (tlsWrite e) o (chunks chunkSize b)).1.1

theorem write_fst (e : Entropy) (o : TLSObfs) (b : List Byte) : (o.write e b).1.1 = b.length := by
  unfold TLSObfs.write
  split <;> rfl

/-- The loop of `Write` returns the length at its end, and before it the length of the
chunk that failed. -/
theorem tlsLoop_attempts (e : Entropy) (length : Nat) (cs : List (List Byte)) (o : TLSObfs) :
    let r := attempts (tlsWrite e) o cs
    let n := (TLSObfs.writeLoop e length cs o).1.1
    (TLSObfs.writeLoop e length cs o).1.2 = r.1.2 ∧ (r.1.2 = none → n = length) ∧
      (r.1.2 ≠ none → ∃ c rest, cs = r.1.1 ++ c :: rest ∧ n = c.length) := by
  induction cs generalizing o with
  | nil => exact ⟨rfl, fun _ => rfl, fun h => absurd rfl h⟩
  | cons c cs ih =>
    have hn := write_fst e o c
    rw [TLSObfs.writeLoop]
    rcases hw : o.write e c with ⟨⟨n, _ | err⟩, o'⟩
    · have hok : (tlsWrite e o c).1 = none := by rw [tlsWrite, hw]
      have hnext : (tlsWrite e o c).2 = o' := by rw [tlsWrite, hw]
      rw [attempts_succeeded hok, hnext]
      obtain ⟨herr, hall, hfailed⟩ := ih o'
      refine ⟨herr, hall, fun h => ?_⟩
      obtain ⟨d, rest, hcs, hd⟩ := hfailed h
      exact ⟨d, rest, congrArg (c :: ·) hcs, hd⟩
    · have hfail : (tlsWrite e o c).1 = some err := by rw [tlsWrite, hw]
      rw [attempts_failed hfail]
      rw [hw] at hn
      exact ⟨rfl, fun h => (nomatch h), fun _ => ⟨c, cs, rfl, hn⟩⟩

/-- One chunk is one `Write` on the connection below. -/
theorem tlsWrite_wire (e : Entropy) (o : TLSObfs) (b : List Byte) :
    ∃ msg, ((tlsWrite e o b).1, (tlsWrite e o b).2.conn.wire) = o.conn.wire.write msg := by
  unfold tlsWrite TLSObfs.write
  split
  · exact ⟨_, rfl⟩
  · exact ⟨_, rfl⟩

/-- `TLSObfs.Write` reports the caller's bytes if all of its chunks are taken, and by
accident where the second of two full chunks fails. -/
theorem tls_reports_iff (e : Entropy) (o : TLSObfs) (b : List Byte) :
    Reports b (tlsAccepted e o b) (o.Write e b).1.1 (o.Write e b).1.2 ↔
      o.conn.wire.Takes ((b.length + chunkSize - 1) / chunkSize) ∨
        o.conn.wire.Takes 1 ∧ ¬ o.conn.wire.Takes 2 ∧ 2 * chunkSize ≤ b.length := by
  have hcount := length_chunks (show 0 < chunkSize by decide) b
  have htakes (k : Nat) (hk : k ≤ (chunks chunkSize b).length) :
      k ≤ (attempts (tlsWrite e) o (chunks chunkSize b)).1.1.length ↔ o.conn.wire.Takes k :=
    attempts_takes (·.conn.wire) (tlsWrite_wire e) o hk
  obtain ⟨herr, hall, hfailed⟩ := tlsLoop_attempts e b.length (chunks chunkSize b) o
  rw [TLSObfs.Write, herr, tlsAccepted, ← hcount, ← htakes _ le_rfl, ← attempts_eq_none_iff]
  generalize attempts (tlsWrite e) o (chunks chunkSize b) = r at hall hfailed htakes ⊢
  generalize (TLSObfs.writeLoop e b.length (chunks chunkSize b) o).1.1 = n at hall hfailed ⊢
  by_cases hnone : r.1.2 = none
  · have hn := hall hnone
    exact iff_of_true ⟨hn.le, fun _ => hn, fun h => absurd hnone h⟩ (.inl hnone)
  · rw [or_iff_right hnone]
    obtain ⟨c, rest, hcs, hn⟩ := hfailed hnone
    obtain ⟨hdone, hc, hlt⟩ := chunks_eq_append (by decide) hcs
    -- the failed chunk is as long as what is left, up to a full chunk
    have hlen : c.length = min chunkSize (b.length - r.1.1.length * chunkSize) := by
      rw [hc, List.length_take, List.length_drop]
    have hsize : chunkSize = 16384 := rfl
    rw [hsize] at hdone hlt hlen hcount htakes ⊢
    constructor
    · intro h
      have := h.failed hnone
      exact ⟨(htakes 1 (by omega)).mp (by omega), mt (htakes 2 (by omega)).mpr (by omega), by omega⟩
    · rintro ⟨hfirst, hsecond, hlong⟩
      have := (htakes 1 (by omega)).mpr hfirst
      have := mt (htakes 2 (by omega)).mp hsecond
      exact ⟨by omega, fun h => absurd h hnone, fun _ => by omega⟩

end Tls

/-! ### Packets -/

section Packets

open Udp

/-- The caller's bytes, if the socket has taken a datagram. -/
def packetAccepted (sink sink' : PacketSink) (b : List Byte) : List (List Byte) :=
  if sink'.written = sink.written then [] else [b]

/-- A call that fails before it reaches the socket. -/
theorem reports_of_failed (sink : PacketSink) (b : List Byte) (err : Error) :
    Reports b (packetAccepted sink sink b) 0 (some err) :=
  ⟨Nat.zero_le _, fun h => (nomatch h), fun _ => by rw [packetAccepted, if_pos rfl]; rfl⟩

/-- A packet longer than `b` is reported rightly only where a socket refuses it. -/
theorem socket_reports_iff {b packet : List Byte} (hlong : b.length < packet.length)
    (sink : PacketSink) :
    Reports b (packetAccepted sink (socketWriteTo sink packet).2 b) (socketWriteTo sink packet).1.1
        (socketWriteTo sink packet).1.2 ↔
      sink.Refuses := by
  rcases socketWriteTo_cases sink packet with ⟨htakes, hok⟩ | ⟨hrefuses, ⟨err, hfail⟩, hsink⟩
  · rw [hok]
    refine iff_of_false (fun h => ?_) htakes
    exact absurd h.le (Nat.not_le_of_lt hlong)
  · rw [hfail, packetAccepted, if_pos hsink]
    exact iff_of_true ⟨Nat.zero_le _, fun h => (nomatch h), fun _ => rfl⟩ hrefuses

variable {T : IPv6Text} (P : IPv6Literals T) (sink : PacketSink) (b : List Byte)
  (addr : Destination)

/-- `socksPacketConn.WriteTo` reports the caller's bytes only where it fails. -/
theorem socks_reports_iff :
    let r := socksWriteTo P socketWriteTo sink b addr
    Reports b (packetAccepted sink r.2 b) r.1.1 r.1.2 ↔
      ∀ a, addr.socksAddr P = some a → sink.Refuses := by
  intro r
  cases ha : addr.socksAddr P with
  | none =>
    obtain ⟨err, h⟩ := socksWriteTo_none socketWriteTo sink b ha
    rw [show r = _ from h]
    exact iff_of_true (reports_of_failed sink b err) (fun _ h => nomatch h)
  | some a =>
    rw [show r = _ from socksWriteTo_some socketWriteTo sink b ha, socket_reports_iff]
    · exact ⟨fun h _ _ => h, fun h => h a rfl⟩
    · simp only [List.length_append, List.length_cons]
      omega

/-- `ssPacketConn.WriteTo` reports the caller's bytes only where it fails, and with a
cipher in between only where it fails before the socket is reached. -/
theorem ss_reports_iff (rand : Nat → Byte) (scratch : List.Vector Byte Shadowsocks.maxPacketSize)
    (cipher : Cipher) :
    let r := ssWriteTo P (cipher.packetConn rand scratch) sink b addr
    Reports b (packetAccepted sink r.2 b) r.1.1 r.1.2 ↔
      ∀ a, addr.socksAddr P = some a → cipher.Refuses rand sink (a.length + b.length) := by
  intro r
  cases ha : addr.socksAddr P with
  | none =>
    obtain ⟨err, h⟩ := ssWriteTo_none (cipher.packetConn rand scratch) sink b ha
    rw [show r = _ from h]
    exact iff_of_true (reports_of_failed sink b err) (fun _ h => nomatch h)
  | some a =>
    have hpos := List.length_pos_iff.mpr (socksAddr_ne_nil ha)
    have hlong : b.length < (a ++ b).length := by
      rw [List.length_append]
      omega
    rw [show r = _ from ssWriteTo_some (cipher.packetConn rand scratch) sink b ha,
      show (∀ a', some a = some a' → cipher.Refuses rand sink (a'.length + b.length)) ↔
        cipher.Refuses rand sink (a ++ b).length by simp]
    by_cases hdummy : cipher = .dummy
    · subst hdummy
      exact socket_reports_iff hlong sink
    · rcases cipher_packetConn_cases hdummy sink (a ++ b) with
        ⟨hrefuses, err, hpack⟩ | ⟨htakes, hn⟩
      · rw [hpack]
        exact iff_of_true (reports_of_failed sink b err) hrefuses
      · rw [hn]
        exact iff_of_false (fun hr => absurd hr.le (Nat.not_le_of_lt hlong)) htakes

end Packets

/-! ### The four writers -/

/-- **Where a write reports the caller's own bytes.** For every input `b` and every behaviour
of the writer below:

* `Writer.Write` does so exactly if the writer below takes as many writes as there are
  records in `b`;
* `TLSObfs.Write` exactly if the connection below takes as many writes as there are chunks
  in `b`, or if there are at least two full chunks and it takes the first and not the second;
* `socksPacketConn.WriteTo` exactly if there is no address to put in front of `b`, or the
  socket refuses the datagram;
* `ssPacketConn.WriteTo` exactly if there is no such address, or `Cipher.Refuses` the packet
  of address and `b`. -/
theorem writes_report_iff (b : List Byte) (w : Shadowaead.Writer) (e : SimpleObfs.Entropy)
    (o : SimpleObfs.TLSObfs) {T : IPv6Text} (P : IPv6Literals T) (addr : Udp.Destination)
    (sink : PacketSink) (rand : Nat → Byte)
    (scratch : List.Vector Byte Shadowsocks.maxPacketSize) (cipher : Udp.Cipher) :
    (Reports b (aeadAccepted w b) (w.write b).1 (w.write b).2.1 ↔
      w.wire.Takes
        ((b.length + Shadowaead.payloadSizeMask - 1) / Shadowaead.payloadSizeMask)) ∧
    (Reports b (tlsAccepted e o b) (o.Write e b).1.1 (o.Write e b).1.2 ↔
      o.conn.wire.Takes ((b.length + SimpleObfs.chunkSize - 1) / SimpleObfs.chunkSize) ∨
        o.conn.wire.Takes 1 ∧ ¬ o.conn.wire.Takes 2 ∧ 2 * SimpleObfs.chunkSize ≤ b.length) ∧
    (let r := Udp.socksWriteTo P Udp.socketWriteTo sink b addr
     Reports b (packetAccepted sink r.2 b) r.1.1 r.1.2 ↔
      ∀ a, addr.socksAddr P = some a → sink.Refuses) ∧
    (let r := Udp.ssWriteTo P (cipher.packetConn rand scratch) sink b addr
     Reports b (packetAccepted sink r.2 b) r.1.1 r.1.2 ↔
      ∀ a, addr.socksAddr P = some a → cipher.Refuses rand sink (a.length + b.length)) :=
  ⟨aead_reports_iff w b, tls_reports_iff e o b, socks_reports_iff P sink b addr,
    ss_reports_iff P sink b addr rand scratch cipher⟩

/-- Each of the four misreports. A first record that is refused counts in full with either
stream; a datagram of one byte that is taken counts as eleven with SOCKS5 and as eight with
Shadowsocks. -/
theorem writes_misreport :
    (let w : Shadowaead.Writer := .new ⟨[], [some (0, .timeout)]⟩ .tagged
     (w.write [7, 8]).1 = 2 ∧ (w.write [7, 8]).2.1 = some .timeout ∧
      ¬ Reports [7, 8] (aeadAccepted w [7, 8]) (w.write [7, 8]).1 (w.write [7, 8]).2.1) ∧
    (let e : SimpleObfs.Entropy := ⟨0, .replicate 28 0, .replicate 32 0⟩
     let o : SimpleObfs.TLSObfs := .new ⟨[], ⟨[], [some (0, .timeout)]⟩⟩ []
     (o.Write e [7, 8]).1 = (2, some .timeout) ∧
      ¬ Reports [7, 8] (tlsAccepted e o [7, 8]) (o.Write e [7, 8]).1.1 (o.Write e [7, 8]).1.2) ∧
    (let addr : Udp.Destination := .metadata ⟨.v4 ⟨[1, 2, 3, 4], rfl⟩, 53⟩
     let r := Udp.socksWriteTo .decimal Udp.socketWriteTo .fresh [7] addr
     r.1 = (11, none) ∧ ¬ Reports [7] (packetAccepted .fresh r.2 [7]) r.1.1 r.1.2) ∧
    (let addr : Udp.Destination := .metadata ⟨.v4 ⟨[1, 2, 3, 4], rfl⟩, 53⟩
     let r := Udp.ssWriteTo .decimal Udp.socketWriteTo .fresh [7] addr
     r.1 = (8, none) ∧ ¬ Reports [7] (packetAccepted .fresh r.2 [7]) r.1.1 r.1.2) := by
  refine ⟨?_, ?_, ?_, ?_⟩
  · intro w
    have hwrite : (w.write [7, 8]).1 = 2 ∧ (w.write [7, 8]).2.1 = some .timeout := by
      rw [Shadowaead.Writer.write, if_neg (by decide), Shadowaead.Writer.writeLoop,
        if_pos (by decide)]
      exact ⟨rfl, rfl⟩
    refine ⟨hwrite.1, hwrite.2, fun h => ?_⟩
    exact absurd ((aead_reports_iff w [7, 8]).mp h _ (List.mem_cons_self ..)) (by decide)
  · intro e o
    have hwrite : (o.Write e [7, 8]).1 = (2, some .timeout) := by
      rw [SimpleObfs.TLSObfs.Write, chunks_of_length_le (by decide) (by decide)]
      rfl
    refine ⟨hwrite, fun h => ?_⟩
    rcases (tls_reports_iff e o [7, 8]).mp h with htakes | ⟨htakes, -⟩
    · exact absurd (htakes _ (List.mem_cons_self ..)) (by decide)
    · exact absurd (htakes _ (List.mem_cons_self ..)) (by decide)
  · refine ⟨rfl, fun h => ?_⟩
    exact absurd h.le (by decide)
  · refine ⟨rfl, fun h => ?_⟩
    exact absurd h.le (by decide)

end Tun2socks.Statistic
