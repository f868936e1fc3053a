import Tun2socks.Shadowaead.Delivery
import Tun2socks.SimpleObfs.TlsRead
import Tun2socks.SimpleObfs.TlsWrite
import Tun2socks.Socks5.Packet
import Tun2socks.Tunnel.System
import Tun2socks.Udp.Send

/-!
# Tun2socks.Shadowsocks.Session

A TCP session whose proxy is Shadowsocks with an AEAD cipher and the TLS obfuscation: the copy
loops of the tunnel over `shadowaead.Conn` over `TLSObfs`, as `Shadowsocks.DialContext` stacks them.

Each layer cuts the bytes anew: the copy loops by their buffer, the cipher into chunks of
`payloadSizeMask`, the obfuscation into records, the network as it likes. What one layer hands
to the next is therefore known here only up to the way it is cut, and the results hold for every
cut: the server finds the destination and then what the application has sent, and the
application gets what the server has sent.
-/

namespace Tun2socks.Shadowsocks

open Tun2socks.Go Tun2socks.Statistic Tun2socks.Socks5 Tun2socks.Shadowaead Tun2socks.SimpleObfs
open Tun2socks.Udp (serializeSocksAddr)

/-! ### The cipher -/

section Cipher

variable {ciph : Shadowaead.Cipher} {rand : Nat → Byte} {A : AEAD}

theorem flatten_chunks (ps : List (List Byte)) :
    (ps.flatMap (chunks payloadSizeMask)).flatten = ps.flatten := by
  induction ps with
  | nil => rfl
  | cons p ps ih =>
    rw [List.flatMap_cons, List.flatten_append, ih, chunks_flatten payloadSizeMask_pos,
      List.flatten_cons]

/-- A connection that gets what another has sent owes what was written there. -/
theorem delivers_written (hsalt : 0 < ciph.saltSize)
    (henc : ciph.encrypter (Shadowaead.Conn.newSalt rand ciph) = .ok A)
    (hdec : ciph.decrypter (Shadowaead.Conn.newSalt rand ciph) = .ok A)
    {written : List (List Byte)} (hne : ∀ p ∈ written, p ≠ []) {pieces : List Piece}
    (hfr : Fragments ((Shadowaead.Conn.new ⟨[], .fresh⟩ ciph).writes rand written).sent pieces) :
    Shadowaead.Conn.Delivers A written.flatten (.new ⟨pieces, .fresh⟩ ciph) := by
  refine ⟨hsalt, ?_⟩
  rw [Shadowaead.Conn.writes_sent (A := A) rfl rfl henc hne] at hfr
  by_cases hw : written = []
  · rw [if_pos hw] at hfr
    exact .inl ⟨by rw [hw]; rfl, hfr⟩
  · rw [if_neg hw] at hfr
    refine .inr ⟨_, written.flatMap (chunks payloadSizeMask), ?_, hdec, fun d hd => ?_,
      (flatten_chunks written).symm, hfr⟩
    · simp [Shadowaead.Conn.newSalt, Shadowaead.Conn.new]
    · obtain ⟨p, -, hd⟩ := List.mem_flatMap.mp hd
      obtain ⟨hpos, hle⟩ := length_of_mem_chunks hd
      exact ⟨List.length_pos_iff.mp hpos, hle⟩

end Cipher

/-! ### The obfuscation -/

/-- The server gets what was written, whatever the calls were. -/
theorem received_writes {server : List Byte} (hserver : 212 + chunkSize + server.length ≤ 65535)
    {calls : List WriteCall} (hne : calls.flatMap WriteCall.data ≠ []) (src : List Piece) :
    ∃ cs, received ((TLSObfs.new ⟨src, .fresh⟩ server).writes calls).2.conn.wire.sent =
      some (server, cs) ∧ cs.flatten = calls.flatMap WriteCall.data := by
  have hnew : Sent server [] (TLSObfs.new ⟨src, .fresh⟩ server) :=
    sent_new ⟨0, .replicate 28 0, .replicate 32 0⟩ src server
  obtain ⟨e, hwire⟩ := (hnew.writes calls).2.wire
  rw [List.nil_append] at hwire
  refine ⟨chunksOf calls, ?_, chunksOf_flatten calls⟩
  rw [hwire]
  obtain ⟨c, cs, hcs⟩ := List.exists_cons_of_ne_nil
    (fun hnil => hne ((chunksOf_eq_nil_iff calls).mp hnil))
  rw [hcs]
  refine received_flight e hserver fun d hd => ?_
  rw [← hcs] at hd
  exact (length_of_mem_chunksOf hd).2

/-- What a reader sees of the results of its reads: nothing after the first error. -/
def piecesOf : List (List Byte × Option Error) → List Piece
  | [] => []
  | (d, none) :: rs => ⟨d, none⟩ :: piecesOf rs
  | (d, some e) :: _ => [⟨d, some e⟩]

/-- What the reads of a `TLSObfs` return is a way to cut the payload. -/
theorem fragments_reads {S : ServerStream} {got unread : List Byte}
    {past ahead : List ServerRecord} {o : TLSObfs} (h : At S got past unread ahead o)
    (ks : List Nat) :
    Fragments ((o.reads ks).1.flatMap Prod.fst) (piecesOf (o.reads ks).1) := by
  induction ks generalizing got past unread ahead o with
  | nil => exact .nil
  | cons k ks ih =>
    obtain ⟨d, e, past₁, unread₁, ahead₁, o₁, hread, h₁, howed, he⟩ := h.read k
    simp only [TLSObfs.reads, hread, List.flatMap_cons]
    rcases he with rfl | ⟨rfl, hzero⟩
    · exact .cons d (ih h₁)
    · -- all has been returned before, and no more comes
      obtain ⟨past', unread', ahead', h', howed', -⟩ := h₁.reads ks
      have hall := h₁.got_all (by omega)
      have hall' := h'.got_all (by omega)
      have hnil : (o₁.reads ks).1.flatMap Prod.fst = [] := by
        simpa [hall] using hall'
      rw [hnil, List.append_nil]
      exact .eof d

/-! ### Both directions -/

section Session

open Tun2socks.Tunnel

/-- What `shadowaead.Conn` has written to the layer below after `DialContext` to `m`, which writes
the address, and the writes `ps`. -/
def dialSent (rand : Nat → Byte) (ciph : Shadowaead.Cipher) (m : Metadata)
    (ps : List (List Byte)) : List Byte :=
  ((Shadowaead.Conn.new ⟨[], .fresh⟩ ciph).writes rand (serializeSocksAddr m :: ps)).sent

/-- The stack of a dialed connection: what the server finds in what it gets. -/
theorem dial_arrives {ciph : Shadowaead.Cipher} {rand : Nat → Byte} {A : AEAD} (hA : A.Correct)
    (hsalt : 0 < ciph.saltSize)
    (henc : ciph.encrypter (Shadowaead.Conn.newSalt rand ciph) = .ok A)
    (hdec : ciph.decrypter (Shadowaead.Conn.newSalt rand ciph) = .ok A) (m : Metadata)
    {ps : List (List Byte)} (hne : ∀ p ∈ ps, p ≠ []) {server : List Byte}
    (hserver : 212 + chunkSize + server.length ≤ 65535) {calls : List WriteCall}
    (hcalls : calls.flatMap WriteCall.data = dialSent rand ciph m ps) :
    ∃ cs, received ((TLSObfs.new ⟨[], .fresh⟩ server).writes calls).2.conn.wire.sent =
        some (server, cs) ∧
      ∀ pieces, Fragments cs.flatten pieces → ∀ rcalls,
        let peer := (Shadowaead.Conn.new ⟨pieces, .fresh⟩ ciph).run rcalls
        delivered peer.1 <+: serializeSocksAddr m ++ ps.flatten ∧
        (peer.2.Drained → delivered peer.1 = serializeSocksAddr m ++ ps.flatten) := by
  have hne' : ∀ p ∈ serializeSocksAddr m :: ps, p ≠ [] :=
    List.forall_mem_cons.mpr ⟨serializeAddr_ne_nil _ _ _, hne⟩
  have hsent : calls.flatMap WriteCall.data ≠ [] := by
    -- the salt at least
    rw [hcalls, dialSent, Shadowaead.Conn.writes_sent (A := A) rfl rfl henc hne', if_neg (by simp)]
    intro hnil
    have hlen := congrArg List.length (List.append_eq_nil_iff.mp hnil).1
    simp only [Shadowaead.Conn.newSalt, Shadowaead.Conn.new, List.length_map, List.length_range,
      List.length_nil] at hlen
    omega
  obtain ⟨cs, hreceived, hcs⟩ := received_writes hserver hsent []
  refine ⟨cs, hreceived, fun pieces hfr rcalls => ?_⟩
  rw [hcs, hcalls, dialSent] at hfr
  obtain ⟨data, hdata, hdel, -⟩ := (delivers_written hsalt henc hdec hne' hfr).run hA rcalls
  rw [List.flatten_cons] at hdata
  refine ⟨⟨data, hdata.symm⟩, fun hdrained => ?_⟩
  rw [hdata, hdel.drained hdrained, List.append_nil]

variable {ι ρ υ G : Type} [Fintype ι] [DecidableEq ι] [DecidableEq ρ] [DecidableEq υ]
  [AddCommGroupWithOne G] {uuid : ι → υ} (network : ι → Network) (dst : ι → String)
  (acts : List (Goroutines.Action ι Act (Other ρ υ)))

/-- The target of a TCP stream has the beginning of what was read, and all of it if the loop has
returned without an error. -/
theorem writes_prefix_run {i : ι} (htcp : network i = .tcp) (d : Direction) :
    let t := ((tunnelRun ρ υ G uuid network dst acts).proc i).stream d
    t.writes.flatten <+: t.reads.flatten ∧ (∀ p ∈ t.writes, p ≠ []) ∧
      (t.pc.result = some none → t.writes = t.reads) := by
  intro t
  have hsound : ((tunnelRun ρ υ G uuid network dst acts).proc i).Sound :=
    sound_run network dst acts i
  obtain ⟨rest, hreads, howes⟩ := (hsound.relays d).owed
  refine ⟨⟨rest.flatten, ?_⟩, fun p hp => ?_, fun hres => ?_⟩
  · rw [← List.flatten_append, ← hreads]
  · have hp : p ∈ t.reads := by
      rw [hreads]
      exact List.mem_append_left _ hp
    exact reads_ne_nil_run network dst acts htcp d p hp
  · rw [howes.eq_nil hres, List.append_nil] at hreads
    exact hreads.symm

/-- **What the application sends arrives.** The upload of a TCP session over a Shadowsocks proxy
with the TLS obfuscation, in every run of the tunnel. However `shadowaead.Conn` hands its bytes to
`TLSObfs`, and however these reach the server, the server finds the records of its own name, and
in them, with the key, the destination of the session and then what the application has sent.
The name must leave room in the first record for a chunk. -/
theorem upload_arrives {i : ι} (htcp : network i = .tcp) {ciph : Shadowaead.Cipher}
    {rand : Nat → Byte} {A : AEAD} (hA : A.Correct) (hsalt : 0 < ciph.saltSize)
    (henc : ciph.encrypter (Shadowaead.Conn.newSalt rand ciph) = .ok A)
    (hdec : ciph.decrypter (Shadowaead.Conn.newSalt rand ciph) = .ok A)
    {m : Metadata} (hip : m.dstIP ≠ .none) {server : List Byte}
    (hserver : 212 + chunkSize + server.length ≤ 65535) {calls : List WriteCall}
    (hcalls : calls.flatMap WriteCall.data = dialSent rand ciph m
      (((tunnelRun ρ υ G uuid network dst acts).proc i).stream .upload).writes) :
    let t := ((tunnelRun ρ υ G uuid network dst acts).proc i).stream .upload
    ∃ cs, received ((TLSObfs.new ⟨[], .fresh⟩ server).writes calls).2.conn.wire.sent =
        some (server, cs) ∧
      ∀ pieces, Fragments cs.flatten pieces → ∀ rcalls,
        let peer := (Shadowaead.Conn.new ⟨pieces, .fresh⟩ ciph).run rcalls
        delivered peer.1 <+: serializeSocksAddr m ++ t.reads.flatten ∧
        (peer.2.Drained → ∃ data, delivered peer.1 = serializeSocksAddr m ++ data ∧
          splitAddr (delivered peer.1) = some (serializeSocksAddr m) ∧
          (serializeSocksAddr m).udpAddr = some ⟨m.dstIP, m.dstPort.toNat⟩ ∧
          (t.pc.result = some none → data = t.reads.flatten)) := by
  intro t
  obtain ⟨hbegin, hne, hall⟩ :
      t.writes.flatten <+: t.reads.flatten ∧ (∀ p ∈ t.writes, p ≠ []) ∧
        (t.pc.result = some none → t.writes = t.reads) :=
    writes_prefix_run network dst acts htcp .upload
  obtain ⟨hcomplete, hudp⟩ := serializeAddr_ip hip m.dstPort
  obtain ⟨cs, hreceived, hpeer⟩ := dial_arrives hA hsalt henc hdec m hne hserver hcalls
  refine ⟨cs, hreceived, fun pieces hfr rcalls => ?_⟩
  obtain ⟨hpre, hdrained⟩ := hpeer pieces hfr rcalls
  refine ⟨hpre.trans ((List.prefix_append_right_inj _).mpr hbegin), fun hd => ?_⟩
  refine ⟨t.writes.flatten, hdrained hd, ?_, hudp, fun hres => by rw [hall hres]⟩
  rw [hdrained hd]
  exact splitAddr_eq_some.mpr ⟨hcomplete, _, rfl⟩

/-- The application has sent two bytes. -/
theorem upload_arrives_two :
    let ciph := metaCipher (fun psk _ _ _ => psk) (fun _ => .ok AEAD.tagged) [1, 2, 3]
    let t := ((tunnelRun Unit Unit (BitVec 64) (id : Unit → Unit) (fun _ => .tcp)
      (fun _ => "192.0.2.1:80") [.proc () (.dial none), .proc () .handler,
        .proc () (.stream .upload (.read ⟨[1, 2], none, none⟩)),
        .proc () (.stream .upload (.write 2 none))]).proc ()).stream .upload
    let m : Metadata := ⟨.v4 ⟨[192, 0, 2, 1], rfl⟩, 80⟩
    let call : WriteCall :=
      ⟨⟨0, .replicate 28 0, .replicate 32 0⟩, dialSent (fun _ => 7) ciph m t.writes⟩
    t.writes = [[1, 2]] ∧
      ∃ cs, received ((TLSObfs.new ⟨[], .fresh⟩ [97]).writes [call]).2.conn.wire.sent =
        some ([97], cs) := by
  intro ciph t m call
  have h := upload_arrives (fun _ => .tcp) (fun _ => "192.0.2.1:80")
    [.proc () (.dial none), .proc () .handler,
      .proc () (.stream .upload (.read ⟨[1, 2], none, none⟩)),
      .proc () (.stream .upload (.write 2 none))] rfl AEAD.tagged_correct
    (show 0 < ciph.saltSize by decide) rfl rfl (show m.dstIP ≠ .none from IP.noConfusion)
    (show 212 + chunkSize + [97].length ≤ 65535 by decide)
    (show [call].flatMap WriteCall.data = dialSent (fun _ => 7) ciph m t.writes by simp [call])
  exact ⟨by decide +kernel, h.imp fun _ h => h.1⟩

/-- **What the server sends arrives.** The download of such a session: `S` is how the server puts
what its cipher has sent into records, `ks` are the sizes of the buffers with which the client's
cipher reads from `TLSObfs`, and the calls are those with which the copy loop reads from the
cipher. The application has got the beginning of what the server has written. -/
theorem download_arrives {i : ι} (htcp : network i = .tcp) {ciph : Shadowaead.Cipher}
    {rand : Nat → Byte} {A : AEAD} (hA : A.Correct) (hsalt : 0 < ciph.saltSize)
    (henc : ciph.encrypter (Shadowaead.Conn.newSalt rand ciph) = .ok A)
    (hdec : ciph.decrypter (Shadowaead.Conn.newSalt rand ciph) = .ok A)
    {ps : List (List Byte)} (hne : ∀ p ∈ ps, p ≠ []) {S : ServerStream}
    (hS : S.payloads = ((Shadowaead.Conn.new ⟨[], .fresh⟩ ciph).writes rand ps).sent)
    {pieces : List Piece} (hfr : Fragments S.bytes pieces) (server : List Byte) {ks : List Nat}
    (hks : S.payloads.length + S.records.length ≤ ks.countP (0 < ·)) (rcalls : List ReaderCall)
    (hreads : (((tunnelRun ρ υ G uuid network dst acts).proc i).stream .download).reads.flatten =
      delivered ((Shadowaead.Conn.new ⟨piecesOf ((TLSObfs.new ⟨pieces, .fresh⟩ server).reads ks).1,
        .fresh⟩ ciph).run rcalls).1) :
    let t := ((tunnelRun ρ υ G uuid network dst acts).proc i).stream .download
    let conn := (Shadowaead.Conn.new ⟨piecesOf ((TLSObfs.new ⟨pieces, .fresh⟩ server).reads ks).1,
      .fresh⟩ ciph).run rcalls
    t.writes.flatten <+: ps.flatten ∧
      (t.pc.result = some none → conn.2.Drained → t.writes.flatten = ps.flatten) := by
  intro t conn
  obtain ⟨hbegin, -, hall⟩ :
      t.writes.flatten <+: t.reads.flatten ∧ (∀ p ∈ t.writes, p ≠ []) ∧
        (t.pc.result = some none → t.writes = t.reads) :=
    writes_prefix_run network dst acts htcp .download
  have hat := At.new S server .fresh hfr
  -- the reads of the cipher's layer return the whole payload
  have hpayload : ((TLSObfs.new ⟨pieces, .fresh⟩ server).reads ks).1.flatMap Prod.fst =
      S.payloads := by
    obtain ⟨past, unread, ahead, hend, howed, -⟩ := hat.reads ks
    rw [owed_records] at howed
    exact hend.got_all (by omega)
  have hfragments := fragments_reads hat ks
  rw [hpayload, hS] at hfragments
  obtain ⟨data, hdata, hdel, -⟩ :=
    (delivers_written hsalt henc hdec hne hfragments).run hA rcalls
  have hgot : ps.flatten = t.reads.flatten ++ data := by rw [hdata, hreads]
  refine ⟨hbegin.trans ⟨data, hgot.symm⟩, fun hres hdrained => ?_⟩
  rw [hall hres, hgot, hdel.drained hdrained, List.append_nil]

/-- The server has written one byte, which the application has got. -/
theorem download_arrives_one :
    let ciph := metaCipher (fun psk _ _ _ => psk) (fun _ => .ok AEAD.tagged) [1, 2, 3]
    let sent := ((Shadowaead.Conn.new ⟨[], .fresh⟩ ciph).writes (fun _ => 7) [[5]]).sent
    let S : ServerStream :=
      ⟨⟨.replicate 105 0, sent, by decide +kernel⟩, [], by decide, by decide⟩
    let t := ((tunnelRun Unit Unit (BitVec 64) (id : Unit → Unit) (fun _ => .tcp)
      (fun _ => "192.0.2.1:80") [.proc () (.dial none), .proc () .handler,
        .proc () (.stream .download (.read ⟨[5], none, none⟩)),
        .proc () (.stream .download .step), .proc () (.stream .download .step),
        .proc () (.stream .download .step),
        .proc () (.stream .download (.write 1 none))]).proc ()).stream .download
    S.payloads = sent ∧ t.writes = [[5]] ∧ t.writes.flatten <+: [[5]].flatten := by
  intro ciph sent S t
  have hpayloads : S.payloads = sent := by decide +kernel
  have hfr : Fragments S.bytes [⟨S.bytes, none⟩] := by simpa using Fragments.cons S.bytes .nil
  have hks : S.payloads.length + S.records.length ≤
      (List.replicate 100 100).countP (0 < ·) := by decide +kernel
  have hreads : t.reads.flatten = delivered ((Shadowaead.Conn.new
      ⟨piecesOf ((TLSObfs.new ⟨[⟨S.bytes, none⟩], .fresh⟩ []).reads (List.replicate 100 100)).1,
        .fresh⟩ ciph).run [.read 100]).1 := by decide +kernel
  have hne : ∀ p ∈ [[5]], p ≠ ([] : List Byte) := by decide
  exact ⟨hpayloads, by decide +kernel, (download_arrives (fun _ => .tcp) (fun _ => "192.0.2.1:80")
    _ rfl AEAD.tagged_correct (show 0 < ciph.saltSize by decide) rfl rfl hne hpayloads hfr [] hks
    [.read 100] hreads).1⟩

end Session

end Tun2socks.Shadowsocks
