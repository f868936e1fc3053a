import Tun2socks.Codec.Tls
import Tun2socks.SimpleObfs.Tls

/-!
# Tun2socks.SimpleObfs.TlsWrite

What a TLS parser makes of the bytes a `TLSObfs` sends.

`received` takes a stream apart by its length fields alone: one `ClientHello`, then
application data. The connection's writes are related to it in two steps. `Sent` says
which messages are on the wire after any run of `Write` calls, in terms of the chunks
written; `received_flight` says that these messages decode to these chunks, which is
where the constants in `makeClientHelloMsg` have to be right.
-/

namespace Tun2socks.SimpleObfs

open Tun2socks.Go Tun2socks.Codec Tun2socks.Codec.Decoder

/-! ### The receiving side -/

/-- The body of an application data record of TLS 1.2. -/
def body (r : Tls.Record) : Option (List Byte) :=
  if r.contentType = 0x17 ∧ r.version = [0x03, 0x03] then some r.fragment else none

/-- The server name and the data of a stream that is one `ClientHello` and then
application data: the session ticket, and the bodies of the records. -/
def received (sent : List Byte) : Option (List Byte × List (List Byte)) :=
  match all (repeated Tls.record) sent with
  | some (r :: rs) => do
    guard (r.contentType = 22)
    let hello ← all Tls.handshake r.fragment
    let ticket ← hello.find 0x23
    let name ← (hello.find 0).bind (all Tls.serverName)
    let bodies ← rs.mapM body
    return (name, ticket :: bodies)
  | _ => none

/-! ### The `ClientHello` -/

section Hello

variable (e : Entropy) (data server : List Byte)

/-- The content of the `server_name` extension. -/
def serverNameList : List Byte :=
  putUint16 (server.length + 3) ++ ([0] ++ (putUint16 server.length ++ server))

/-- The extensions, in the order of the message. -/
def helloExtensions : List Tls.Extension := [
  ⟨0x23, data⟩, ⟨0x00, serverNameList server⟩, ⟨0x0b, ecPoint.drop 4⟩, ⟨0x0a, groups.drop 4⟩,
  ⟨0x0d, signature.drop 4⟩, ⟨0x16, []⟩, ⟨0x17, []⟩]

/-- An extension on the wire. -/
def extensionBytes (x : Tls.Extension) : List Byte :=
  putUint16 x.type ++ (putUint16 x.data.length ++ x.data)

/-- The message without the headers of record and handshake. -/
def helloBody : List Byte :=
  [0x03, 0x03] ++ ((putUint32 e.unixTime ++ e.random.toList) ++ (([32] ++ e.sessionID.toList) ++
    (([0x00, 0x38] ++ cipherSuites) ++ (([0x01] ++ [0x00]) ++
      (putUint16 ((helloExtensions data server).flatMap extensionBytes).length ++
        (helloExtensions data server).flatMap extensionBytes)))))

/-- The hello message: its handshake header and its body. -/
def helloFragment : List Byte :=
  [1] ++ (([0] ++ putUint16 (helloBody e data server).length) ++ helloBody e data server)

theorem serverNameList_length : (serverNameList server).length = server.length + 5 := by
  simp [serverNameList, putUint16]

theorem extensions_length :
    ((helloExtensions data server).flatMap extensionBytes).length =
      79 + data.length + server.length := by
  simp [helloExtensions, extensionBytes, serverNameList_length, putUint16, ecPoint, groups,
    signature]
  omega

theorem helloBody_length :
    (helloBody e data server).length = 208 + data.length + server.length := by
  simp only [helloBody, List.length_append, extensions_length, putUint32, putUint16_length,
    List.Vector.toList_length, cipherSuites, List.length_cons, List.length_nil]
  omega

theorem helloFragment_length :
    (helloFragment e data server).length = 212 + data.length + server.length := by
  simp only [helloFragment, List.length_append, helloBody_length, putUint16_length,
    List.length_cons, List.length_nil]
  omega

/-- The fixed extensions are written out with their headers. -/
theorem extensionBytes_fixed :
    extensionBytes ⟨0x0b, ecPoint.drop 4⟩ = ecPoint ∧
    extensionBytes ⟨0x0a, groups.drop 4⟩ = groups ∧
      extensionBytes ⟨0x0d, signature.drop 4⟩ = signature ∧
      extensionBytes ⟨0x16, []⟩ = encryptThenMac ∧
      extensionBytes ⟨0x17, []⟩ = extendedMasterSecret := by
  decide

theorem extensions_eq :
    (helloExtensions data server).flatMap extensionBytes =
      [0x00, 0x23] ++ (putUint16 data.length ++ data) ++
      ([0x00, 0x00] ++ (putUint16 (server.length + 5) ++ serverNameList server)) ++
      ecPoint ++ groups ++ signature ++ encryptThenMac ++ extendedMasterSecret := by
  obtain ⟨hec, hgroups, hsignature, hmac, hsecret⟩ := extensionBytes_fixed
  simp only [helloExtensions, List.flatMap_cons, List.flatMap_nil, hec, hgroups, hsignature, hmac,
    hsecret, List.append_nil, List.append_assoc]
  rw [extensionBytes, extensionBytes, serverNameList_length]
  rw [show putUint16 0x23 = [0x00, 0x23] by decide, show putUint16 0x00 = [0x00, 0x00] by decide]
  simp only [List.append_assoc]

/-- The constants of `makeClientHelloMsg` are the lengths of what follows them. -/
theorem makeClientHelloMsg_eq :
    makeClientHelloMsg e data server = [22] ++ ([0x03, 0x01] ++
      (putUint16 (helloFragment e data server).length ++ helloFragment e data server)) := by
  rw [helloFragment_length, helloFragment, helloBody_length, helloBody, extensions_length,
    extensions_eq]
  unfold makeClientHelloMsg serverNameList
  simp only [List.append_assoc, List.cons_append, List.nil_append]

/-- The message as a TLS parser sees it. -/
def clientHello : Tls.ClientHello where
  version := [0x03, 0x03]
  random := putUint32 e.unixTime ++ e.random.toList
  sessionID := e.sessionID.toList
  cipherSuites := cipherSuites
  compressionMethods := [0x00]
  extensions := helloExtensions data server

variable {data server} (hfits : 212 + data.length + server.length ≤ 65535)
include hfits

/-- No extension is too long for its length field. -/
theorem helloExtensions_fit {x : Tls.Extension} (hx : x ∈ helloExtensions data server) :
    x.type < 65536 ∧ x.data.length < 65536 := by
  simp only [helloExtensions, List.mem_cons, List.not_mem_nil, or_false] at hx
  rcases hx with rfl | rfl | rfl | rfl | rfl | rfl | rfl
  · refine ⟨show 0x23 < 65536 by decide, ?_⟩
    dsimp only
    omega
  · refine ⟨show 0x00 < 65536 by decide, ?_⟩
    rw [serverNameList_length]
    omega
  all_goals exact ⟨by decide, by decide⟩

theorem all_extensions :
    all (repeated Tls.extension) ((helloExtensions data server).flatMap extensionBytes) =
      some (helloExtensions data server) := by
  have h := all_repeated (p := Tls.extension) extensionBytes id (helloExtensions data server) ?_ ?_
  · rwa [List.map_id] at h
  · intro x hx
    obtain ⟨htype, hdata⟩ := helloExtensions_fit hfits hx
    exact Tls.decodes_extension htype hdata
  · intro x _
    simp [extensionBytes, putUint16]

theorem decodes_helloBody :
    Decodes Tls.clientHello (helloBody e data server) (clientHello e data server) := by
  have hsid : Decodes (uint 1) [32] e.sessionID.toList.length := by
    rw [e.sessionID.toList_length]
    exact decodes_uint [32] rfl
  have hciphers : Decodes (uint 2) [0x00, 0x38] cipherSuites.length :=
    decodes_uint [0x00, 0x38] rfl
  have hcompression : Decodes (uint 1) [0x01] [(0x00 : Byte)].length := decodes_uint [0x01] rfl
  have hextensions : Decodes (uint 2)
      (putUint16 ((helloExtensions data server).flatMap extensionBytes).length)
      ((helloExtensions data server).flatMap extensionBytes).length := by
    refine decodes_uint16 ?_
    rw [extensions_length]
    omega
  refine (decodes_bytes [0x03, 0x03] rfl).bind ?_
  refine (decodes_bytes (putUint32 e.unixTime ++ e.random.toList) ?_).bind ?_
  · simp [putUint32, putUint16]
  refine (decodes_vector hsid).bind ?_
  refine (decodes_vector hciphers).bind ?_
  refine (decodes_vector hcompression).bind ?_
  exact (decodes_nested hextensions (all_extensions hfits)).bind_nil .pure

theorem all_handshake :
    all Tls.handshake (helloFragment e data server) = some (clientHello e data server) := by
  have hlen : Decodes (uint 3) ([0] ++ putUint16 (helloBody e data server).length)
      (helloBody e data server).length := by
    have h := decodes_uint ([0] ++ putUint16 (helloBody e data server).length) rfl
    rwa [List.singleton_append, beNat_zero_cons, beNat_putUint16] at h
    rw [helloBody_length]
    omega
  exact ((decodes_literal [1]).bind (decodes_nested hlen (decodes_helloBody e hfits).all)).all

theorem clientHello_find :
    (clientHello e data server).find 0x23 = some data ∧
      ((clientHello e data server).find 0).bind (all Tls.serverName) = some server := by
  refine ⟨rfl, ?_⟩
  change all Tls.serverName (serverNameList server) = some server
  exact Tls.all_serverName (by omega)

end Hello

/-! ### The messages of a run -/

/-- What carries chunks: a `ClientHello` the first, application data the others. -/
def flight (e : Entropy) (server : List Byte) : List (List Byte) → List Byte
  | [] => []
  | c :: cs => makeClientHelloMsg e c server ++ cs.flatMap applicationData

/-- The same as records. -/
def flightRecords (e : Entropy) (server c : List Byte) (cs : List (List Byte)) : List Tls.Record :=
  ⟨22, [0x03, 0x01], helloFragment e c server⟩ :: cs.map fun c => ⟨0x17, [0x03, 0x03], c⟩

/-- A record on the wire. -/
def recordBytes (r : Tls.Record) : List Byte :=
  [UInt8.ofNat r.contentType] ++ (r.version ++ (putUint16 r.fragment.length ++ r.fragment))

theorem applicationData_eq (c : List Byte) :
    applicationData c = recordBytes ⟨0x17, [0x03, 0x03], c⟩ := by
  simp [applicationData, recordBytes]

theorem flight_eq (e : Entropy) (server c : List Byte) (cs : List (List Byte)) :
    flight e server (c :: cs) = (flightRecords e server c cs).flatMap recordBytes := by
  have hdata : applicationData = fun c => recordBytes ⟨0x17, [0x03, 0x03], c⟩ :=
    funext applicationData_eq
  rw [flight, makeClientHelloMsg_eq, flightRecords, List.flatMap_cons, List.flatMap_map, hdata]
  rfl

theorem mapM_body (cs : List (List Byte)) :
    (cs.map fun c => (⟨0x17, [0x03, 0x03], c⟩ : Tls.Record)).mapM body = some cs := by
  induction cs with
  | nil => rfl
  | cons c cs ih => simp [ih, body]

/-- **The messages decode.** The server finds its name, and the chunks in order. -/
theorem received_flight (e : Entropy) {server c : List Byte} {cs : List (List Byte)}
    (hserver : 212 + chunkSize + server.length ≤ 65535)
    (hlen : ∀ d ∈ c :: cs, d.length ≤ chunkSize) :
    received (flight e server (c :: cs)) = some (server, c :: cs) := by
  obtain ⟨hc, hcs⟩ := List.forall_mem_cons.mp hlen
  have hfits : 212 + c.length + server.length ≤ 65535 := by omega
  have hrecords : all (repeated Tls.record) (flight e server (c :: cs)) =
      some (flightRecords e server c cs) := by
    rw [flight_eq]
    have h := all_repeated (p := Tls.record) recordBytes id (flightRecords e server c cs) ?_ ?_
    · rwa [List.map_id] at h
    · intro r hr
      rcases List.mem_cons.mp hr with rfl | hr
      · refine Tls.decodes_record 22 rfl ?_
        rw [helloFragment_length]
        omega
      · obtain ⟨d, hd, rfl⟩ := List.mem_map.mp hr
        have hsize : d.length < 65536 := (hcs d hd).trans_lt (by decide)
        exact Tls.decodes_record 0x17 rfl hsize
    · intro r _
      simp [recordBytes]
  obtain ⟨hticket, hname⟩ := clientHello_find e hfits
  rw [received, hrecords]
  simp only [flightRecords, all_handshake e hfits, mapM_body]
  simp [hticket, hname]

/-- A `Write` call: what it draws from clock and random generator, and its argument. -/
structure WriteCall where
  entropy : Entropy
  data : List Byte

/-- A run of `Write` calls: what each returns, and the connection afterwards. -/
def TLSObfs.writes (o : TLSObfs) : List WriteCall → List (Nat × Option Error) × TLSObfs
  | [] => ([], o)
  | w :: ws =>
    let r := o.Write w.entropy w.data
    let t := r.2.writes ws
    (r.1 :: t.1, t.2)

/-- The chunks that a run of calls writes. -/
def chunksOf (calls : List WriteCall) : List (List Byte) :=
  calls.flatMap fun w => chunks chunkSize w.data

theorem chunksOf_flatten (calls : List WriteCall) :
    (chunksOf calls).flatten = calls.flatMap WriteCall.data := by
  induction calls with
  | nil => rfl
  | cons w ws ih =>
    rw [chunksOf, List.flatMap_cons, List.flatten_append, chunks_flatten (by decide),
      List.flatMap_cons, ← ih, chunksOf]

theorem length_of_mem_chunksOf {calls : List WriteCall} {c : List Byte} (h : c ∈ chunksOf calls) :
    1 ≤ c.length ∧ c.length ≤ chunkSize := by
  obtain ⟨w, -, hc⟩ := List.mem_flatMap.mp h
  exact length_of_mem_chunks hc

/-- Nothing has been chunked as long as nothing has been written. -/
theorem chunksOf_eq_nil_iff (calls : List WriteCall) :
    chunksOf calls = [] ↔ calls.flatMap WriteCall.data = [] := by
  constructor
  · intro h
    rw [← chunksOf_flatten, h]
    rfl
  · intro h
    rw [← chunksOf_flatten] at h
    cases hcs : chunksOf calls with
    | nil => rfl
    | cons c cs =>
      have hc : c ∈ chunksOf calls := by simp [hcs]
      have hpos := (length_of_mem_chunksOf hc).1
      rw [hcs, List.flatten_cons] at h
      rw [(List.append_eq_nil_iff.mp h).1] at hpos
      exact absurd hpos (by decide)

/-- The connection has sent the chunks `cs`, and nothing goes wrong with sending. -/
structure Sent (server : List Byte) (cs : List (List Byte)) (o : TLSObfs) : Prop where
  name : o.server = server
  wire : ∃ e, o.conn.wire = ⟨flight e server cs, []⟩
  first : o.firstRequest = true ↔ cs = []

section Run

variable {server : List Byte} {cs : List (List Byte)} {o : TLSObfs}

theorem sent_new (e : Entropy) (src : List Piece) (server : List Byte) :
    Sent server [] (.new ⟨src, .fresh⟩ server) :=
  ⟨rfl, ⟨e, rfl⟩, by simp [TLSObfs.new]⟩

theorem flight_concat (e : Entropy) (server c : List Byte) (hcs : cs ≠ []) :
    flight e server (cs ++ [c]) = flight e server cs ++ applicationData c := by
  cases cs with
  | nil => exact absurd rfl hcs
  | cons d ds => simp [flight]

theorem send_reliable {sent : List Byte} (hwire : o.conn.wire = ⟨sent, []⟩) (msg : List Byte) :
    o.send msg = (none, { o with conn.wire := ⟨sent ++ msg, []⟩ }) := by
  rw [TLSObfs.send, hwire]
  rfl

/-- One chunk. -/
theorem Sent.write (h : Sent server cs o) (e : Entropy) (c : List Byte) :
    ∃ o', o.write e c = ((c.length, none), o') ∧ Sent server (cs ++ [c]) o' := by
  obtain ⟨rfl, ⟨e', hwire⟩, hfirst⟩ := h
  by_cases hcs : cs = []
  · subst hcs
    have hflight : flight e o.server [c] =
        flight e' o.server [] ++ makeClientHelloMsg e c o.server := by
      simp [flight]
    refine ⟨{ o with conn.wire := ⟨flight e o.server [c], []⟩, firstRequest := false }, ?_, rfl,
      ⟨e, rfl⟩, by simp⟩
    rw [TLSObfs.write, if_pos (hfirst.mpr rfl), send_reliable hwire, hflight]
  · have hf : ¬ o.firstRequest = true := fun hf => hcs (hfirst.mp hf)
    refine ⟨{ o with conn.wire := ⟨flight e' o.server (cs ++ [c]), []⟩ }, ?_, rfl, ⟨e', rfl⟩,
      by simp [hf]⟩
    rw [TLSObfs.write, if_neg hf, send_reliable hwire, flight_concat e' o.server c hcs]

/-- One `Write`. -/
theorem Sent.writeLoop (h : Sent server cs o) (e : Entropy) (length : Nat)
    (ds : List (List Byte)) :
    ∃ o', o.writeLoop e length ds = ((length, none), o') ∧ Sent server (cs ++ ds) o' := by
  induction ds generalizing cs o with
  | nil => exact ⟨o, rfl, by rwa [List.append_nil]⟩
  | cons d ds ih =>
    obtain ⟨o₁, hwrite, h₁⟩ := h.write e d
    obtain ⟨o', hloop, h'⟩ := ih h₁
    refine ⟨o', ?_, by rwa [List.append_assoc] at h'⟩
    rw [TLSObfs.writeLoop, hwrite]
    exact hloop

/-- A run of `Write` calls: each of them reports all of its bytes. -/
theorem Sent.writes (h : Sent server cs o) (calls : List WriteCall) :
    (o.writes calls).1 = calls.map (fun w => (w.data.length, none)) ∧
      Sent server (cs ++ chunksOf calls) (o.writes calls).2 := by
  induction calls generalizing cs o with
  | nil => exact ⟨rfl, by simpa [chunksOf, TLSObfs.writes] using h⟩
  | cons w ws ih =>
    obtain ⟨o₁, hwrite, h₁⟩ := h.writeLoop w.entropy w.data.length (chunks chunkSize w.data)
    obtain ⟨hres, h'⟩ := ih h₁
    rw [← TLSObfs.Write] at hwrite
    rw [TLSObfs.writes, hwrite]
    refine ⟨by rw [List.map_cons, hres], ?_⟩
    rwa [List.append_assoc] at h'

end Run

/-- **Writes decode back to the data.** After any number of the calls, either nothing
has been written and nothing sent, or what has been sent is one `ClientHello` for the
server and application data, and carries the chunks of what has been written. -/
theorem writes_decode (src : List Piece) (server : List Byte)
    (hserver : 212 + 16384 + server.length ≤ 65535) (calls : List WriteCall) :
    let o := TLSObfs.new ⟨src, .fresh⟩ server
    (o.writes calls).1 = calls.map (fun w => (w.data.length, none)) ∧
    (chunksOf calls).flatten = calls.flatMap WriteCall.data ∧
    (∀ c ∈ chunksOf calls, 1 ≤ c.length ∧ c.length ≤ 16384) ∧
    ∀ n,
      let sent := (o.writes (calls.take n)).2.conn.wire.sent
      if (calls.take n).flatMap WriteCall.data = [] then sent = []
      else received sent = some (server, chunksOf (calls.take n)) := by
  intro o
  have hnew : Sent server [] o := sent_new ⟨0, .replicate 28 0, .replicate 32 0⟩ src server
  refine ⟨(hnew.writes calls).1, chunksOf_flatten calls, fun c hc => length_of_mem_chunksOf hc, ?_⟩
  intro n
  obtain ⟨e, hwire⟩ := (hnew.writes (calls.take n)).2.wire
  rw [List.nil_append] at hwire
  dsimp only
  rw [hwire]
  split
  · rename_i hnil
    rw [(chunksOf_eq_nil_iff _).mpr hnil]
    rfl
  · rename_i hne
    obtain ⟨c, cs, hcs⟩ := List.exists_cons_of_ne_nil
      (fun hnil => hne ((chunksOf_eq_nil_iff _).mp hnil))
    rw [hcs]
    refine received_flight e hserver fun d hd => ?_
    rw [← hcs] at hd
    exact (length_of_mem_chunksOf hd).2

/-- An empty write and two short ones, to the host `a.b`. -/
theorem writes_decode_short :
    let e : Entropy := ⟨0, .replicate 28 0, .replicate 32 0⟩
    let o := TLSObfs.new ⟨[], .fresh⟩ [97, 46, 98]
    received (o.writes [⟨e, []⟩, ⟨e, [1, 2, 3]⟩, ⟨e, [4]⟩]).2.conn.wire.sent =
      some ([97, 46, 98], [[1, 2, 3], [4]]) := by
  intro e o
  have hchunks : chunksOf [⟨e, []⟩, ⟨e, [1, 2, 3]⟩, ⟨e, [4]⟩] = [[1, 2, 3], [4]] := by
    rw [chunksOf, List.flatMap_cons, List.flatMap_cons, List.flatMap_cons, chunks_nil,
      chunks_of_length_le (by decide) (by decide), chunks_of_length_le (by decide) (by decide)]
    rfl
  have h := (writes_decode [] [97, 46, 98] (by decide)
    [⟨e, []⟩, ⟨e, [1, 2, 3]⟩, ⟨e, [4]⟩]).2.2.2 3
  simpa [hchunks] using h

end Tun2socks.SimpleObfs
