import Tun2socks.Go.Io
import Tun2socks.Metadata

/-!
# Tun2socks.Relay.Conn

Model of `proxy/relay/relay.go`: the dial, and the connection it returns.

With `noDelay` the relay request is sent and its response read while dialing. Without, the
request waits in `wbuf` for the first write, and the response is read by the first `Read`,
inside a `sync.Once`.

The messages of the relay protocol are those of another package. A `Codec` is what is
assumed of it: a request is written as some bytes, and a response is read from the stream
however that is cut, up to some point.
-/

-- `Relay` is also the name of the proxy type of the package
set_option linter.dupNamespace false

namespace Tun2socks.Relay

open Tun2socks.Go

/-! ### Messages -/

/-- `relay.AddrIPv4` and `relay.AddrIPv6`, the address types of a feature. -/
inductive AddrType
  | ipv4
  | ipv6
  deriving DecidableEq

/-- A feature of a request: the network, the credentials, or the address to connect to. -/
inductive Feature
  | network
  | userAuth (username password : String)
  | addr (atype : AddrType) (host : String) (port : UInt16)
  deriving DecidableEq

/-- `relay.Version1`. -/
def version1 : Byte := 1

/-- `relay.CmdConnect`. -/
def cmdConnect : Byte := 1

/-- `relay.FUDP`, the flag of a command that asks for UDP. -/
def fUDP : Byte := 0x80

/-- `relay.StatusOK`. -/
def statusOK : Byte := 0

/-- `relay.Request`. -/
structure Request where
  version : Byte
  cmd : Byte
  features : List Feature

/-- `relay.Response`. -/
structure Response where
  version : Byte
  status : Byte
  deriving DecidableEq

/-- The messages of the relay protocol, as bytes. -/
structure Codec where
  /-- What `Request.WriteTo` writes. -/
  request : Request → List Byte
  /-- `Response.ReadFrom`. -/
  response : List Piece → Except Error Response × List Piece
  /-- What `Response.ReadFrom` makes of a stream, and what it leaves of it. -/
  parse : List Byte → Except Error Response × List Byte
  reads : ∀ {S ps}, Fragments S ps →
    (response ps).1 = (parse S).1 ∧ Fragments (parse S).2 (response ps).2
  succeeds : ∀ {S ps}, Successful S ps → Successful (parse S).2 (response ps).2

/-- A response of two bytes, its version and its status. -/
def shortResponse (ps : List Piece) : Except Error Response × List Piece :=
  match (readFull 2 ps).2.1 with
  | some err => (.error err, (readFull 2 ps).2.2)
  | none => (.ok ⟨(readFull 2 ps).1.getD 0 0, (readFull 2 ps).1.getD 1 0⟩, (readFull 2 ps).2.2)

/-- What a stream says as such a response, and what is left of it. -/
def shortParse (S : List Byte) : Except Error Response × List Byte :=
  (if 2 ≤ S.length then .ok ⟨(S.take 2).getD 0 0, (S.take 2).getD 1 0⟩
    else .error (if S = [] then .eof else .unexpectedEOF), S.drop 2)

theorem shortResponse_reads {S : List Byte} {ps : List Piece} (h : Fragments S ps) :
    (shortResponse ps).1 = (shortParse S).1 ∧
      Fragments (shortParse S).2 (shortResponse ps).2 := by
  unfold shortResponse shortParse
  by_cases hS : 2 ≤ S.length
  · obtain ⟨ps', hread, hfr⟩ := h.readFull_ok hS
    simp only [hread, if_pos hS]
    exact ⟨trivial, hfr⟩
  · simp only [h.readFull_short (Nat.lt_of_not_le hS), if_neg hS]
    rw [List.drop_of_length_le (by omega)]
    exact ⟨trivial, .nil⟩

theorem shortResponse_succeeds {S : List Byte} {ps : List Piece} (h : Successful S ps) :
    Successful (shortParse S).2 (shortResponse ps).2 := by
  have hfull := h.readFull 2
  unfold shortResponse
  split
  · exact hfull
  · exact hfull

/-- The contract can be met: messages of two bytes. -/
def Codec.short : Codec where
  request r := [r.version, r.cmd]
  response := shortResponse
  parse := shortParse
  reads := shortResponse_reads
  succeeds := shortResponse_succeeds

/-- `ErrBadVersion`. -/
def errBadVersion : Error := .new "bad version"

/-- What `readRelayResponse` thinks of a response. -/
def Response.check (resp : Response) : Option Error :=
  if resp.version ≠ version1 then some errBadVersion
  else if resp.status ≠ statusOK then some (.new ("status " ++ toString resp.status.toNat))
  else none

/-- The error of `readRelayResponse`, given what `Response.ReadFrom` returned. -/
def verdict : Except Error Response → Option Error
  | .error err => some err
  | .ok resp => resp.check

/-- `readRelayResponse`: the error, and what is left in the reader. -/
def readRelayResponse (C : Codec) (src : List Piece) : Option Error × List Piece :=
  (verdict (C.response src).1, (C.response src).2)

/-! ### The connection -/

/-- `relayConn`; `once` says that `once.Do` has run, and a nil `wbuf` is `none`. -/
structure RelayConn where
  conn : Conn
  udp : Bool
  once : Bool
  wbuf : Option (List Byte)

/-- `buffer.Get`: a buffer with anything in it. -/
structure Allocator where
  get : Nat → List Byte
  length_get : ∀ n, n ≤ 65536 → (get n).length = n

/-- Buffers of zeros. -/
def Allocator.zeros : Allocator := ⟨fun n => List.replicate n 0, fun _ _ => List.length_replicate⟩

/-- What fills a buffer of the pool replaces what was in it. -/
theorem Allocator.copy_get (A : Allocator) {d : List Byte} (h : d.length ≤ 65536) :
    copy (A.get d.length) d = d := by
  rw [copy, A.length_get _ h, List.take_length, List.drop_of_length_le, List.append_nil]
  rw [A.length_get _ h]

namespace RelayConn

/-- `newRelayConn`. -/
def new (conn : Conn) (noDelay udp : Bool) : RelayConn :=
  ⟨conn, udp, false, if noDelay then none else some []⟩

/-- The connection after reads that have left `src`. -/
def leaving (rc : RelayConn) (src : List Piece) : RelayConn := { rc with conn.src := src }

/-- The `once.Do` of `Read`, with the error it leaves in `err`. -/
def onceDo (C : Codec) (rc : RelayConn) : Option Error × RelayConn :=
  if rc.once then (none, rc)
  else
    match rc.wbuf with
    | none => (none, { rc with once := true })
    | some _ =>
      let r := readRelayResponse C rc.conn.src
      (r.1, { rc.leaving r.2 with once := true })

/-- The rest of `Read(b)` with `len(b) = k`. -/
def readData (A : Allocator) (rc : RelayConn) (k : Nat) : (List Byte × Option Error) × RelayConn :=
  if !rc.udp then
    let r := Go.read k rc.conn.src
    ((r.1, r.2.1), rc.leaving r.2.2)
  else
    let bb := readFull 2 rc.conn.src
    match bb.2.1 with
    | some err => (([], some err), rc.leaving bb.2.2)
    | none =>
      let dLen := uint16 (bb.1.getD 0 0) (bb.1.getD 1 0)
      let r := readFull dLen bb.2.2
      if dLen ≤ k then ((r.1, r.2.1), rc.leaving r.2.2)
      else (((copy (A.get dLen) r.1).take k, r.2.1), rc.leaving r.2.2)

/-- `Read(b)` with `len(b) = k`: the bytes put into `b`, the error. -/
def Read (C : Codec) (A : Allocator) (rc : RelayConn) (k : Nat) :
    (List Byte × Option Error) × RelayConn :=
  match rc.onceDo C with
  | (some err, rc) => (([], some err), rc)
  | (none, rc) => rc.readData A k

/-- What `wbuf` holds. -/
def buffered (rc : RelayConn) : List Byte := rc.wbuf.getD []

/-- `rc.Conn.Write(b)`: the number and the error it returns. -/
def send (rc : RelayConn) (b : List Byte) : (Nat × Option Error) × RelayConn :=
  ((rc.conn.wire.count b, (rc.conn.wire.write b).1),
    { rc with conn.wire := (rc.conn.wire.write b).2 })

/-- `tcpWrite`. The request goes out together with the first bytes. -/
def tcpWrite (rc : RelayConn) (b : List Byte) : (Nat × Option Error) × RelayConn :=
  if rc.buffered ≠ [] then
    let r := rc.send (rc.buffered ++ b)
    ((b.length, r.1.2), { r.2 with wbuf := some [] })
  else rc.send b

/-- `udpWrite`. What a failed `wbuf.WriteTo` has not written stays in `wbuf`. -/
def udpWrite (rc : RelayConn) (b : List Byte) : (Nat × Option Error) × RelayConn :=
  if b.length > 65535 then ((0, some (.new "write: data maximum exceeded")), rc)
  else if rc.buffered ≠ [] then
    let out := rc.buffered ++ putUint16 b.length ++ b
    let r := rc.send out
    ((b.length, r.1.2), { r.2 with wbuf := some (out.drop r.1.1) })
  else
    match rc.send (putUint16 b.length) with
    | ((_, some err), rc) => ((b.length, some err), rc)
    | ((_, none), rc) => rc.send b

/-- `Write(b)`. -/
def Write (rc : RelayConn) (b : List Byte) : (Nat × Option Error) × RelayConn :=
  if rc.udp then rc.udpWrite b else rc.tcpWrite b

/-! ### What a call leaves alone -/

section Frame

variable {C : Codec} {A : Allocator} (rc : RelayConn)

theorem onceDo_leaves (C : Codec) :
    ∃ src, (rc.onceDo C).2 = { rc.leaving src with once := true } := by
  unfold onceDo
  split
  next h => exact ⟨rc.conn.src, by rw [leaving, ← h]⟩
  · split
    · exact ⟨rc.conn.src, rfl⟩
    · exact ⟨_, rfl⟩

theorem readData_leaves (k : Nat) : ∃ src, (rc.readData A k).2 = rc.leaving src := by
  unfold readData
  split
  · exact ⟨_, rfl⟩
  · dsimp only
    split
    · exact ⟨_, rfl⟩
    · split
      · exact ⟨_, rfl⟩
      · exact ⟨_, rfl⟩

/-- A `Read` changes what is left to read and that `once` has run. -/
theorem Read_leaves (k : Nat) :
    ∃ src, (rc.Read C A k).2 = { rc.leaving src with once := true } := by
  obtain ⟨src, hdo⟩ := rc.onceDo_leaves C
  unfold Read
  split
  next heq =>
    rw [heq] at hdo
    exact ⟨src, hdo⟩
  next heq =>
    rw [heq] at hdo
    subst hdo
    obtain ⟨src', hread⟩ := readData_leaves (A := A) { rc.leaving src with once := true } k
    exact ⟨src', hread⟩

/-- A `Write` changes the wire and what `wbuf` holds. -/
structure SameReader (rc rc' : RelayConn) : Prop where
  src : rc'.conn.src = rc.conn.src
  udp : rc'.udp = rc.udp
  once : rc'.once = rc.once
  wbuf : rc'.wbuf = none ↔ rc.wbuf = none

theorem buffered_ne_nil {rc : RelayConn} (h : rc.buffered ≠ []) (b : List Byte) :
    some b = none ↔ rc.wbuf = none := by
  constructor
  · exact fun h => nomatch h
  · intro hnone
    rw [buffered, hnone] at h
    exact absurd rfl h

theorem Write_sameReader (b : List Byte) : SameReader rc (rc.Write b).2 := by
  unfold Write
  split
  · unfold udpWrite
    split
    · exact ⟨rfl, rfl, rfl, Iff.rfl⟩
    · split
      next hne => exact ⟨rfl, rfl, rfl, buffered_ne_nil hne _⟩
      · split
        next heq =>
          obtain rfl := congrArg Prod.snd heq
          exact ⟨rfl, rfl, rfl, Iff.rfl⟩
        next heq =>
          obtain rfl := congrArg Prod.snd heq
          exact ⟨rfl, rfl, rfl, Iff.rfl⟩
  · unfold tcpWrite
    split
    next hne => exact ⟨rfl, rfl, rfl, buffered_ne_nil hne _⟩
    · exact ⟨rfl, rfl, rfl, Iff.rfl⟩

end Frame

end RelayConn

/-! ### Dialing -/

/-- `M.Network`; `other` is a value without a name. -/
inductive Network
  | tcp
  | udp
  | other (n : UInt8)
  deriving DecidableEq

/-- `Network.String()`. -/
def Network.string : Network → String
  | tcp => "tcp"
  | udp => "udp"
  | other n => "network(" ++ toString n.toNat ++ ")"

/-- The proxy, with its credentials. -/
structure Relay where
  user : String
  pass : String
  noDelay : Bool

/-- `serializeRelayAddr`. -/
def serializeRelayAddr (T : IPv6Text) (m : Metadata) : Feature :=
  .addr (match m.dstIP with | .v4 _ => .ipv4 | _ => .ipv6) (m.dstIP.addrString T) m.dstPort

namespace Relay

/-- The request `dialContext` builds. -/
def request (rl : Relay) (T : IPv6Text) (network : Network) (m : Metadata) : Request where
  version := version1
  cmd := if network = .udp then cmdConnect ||| fUDP else cmdConnect
  features :=
    (if network = .udp then [.network] else []) ++
    (if rl.user ≠ "" then [.userAuth rl.user rl.pass] else []) ++ [serializeRelayAddr T m]

/-- The `if rl.noDelay` block of `dialContext` on the connection `c`. -/
def handshake (rl : Relay) (C : Codec) (req : List Byte) (c : Conn) : Except Error Conn :=
  if rl.noDelay then
    match c.wire.write req with
    | (some err, _) => .error err
    | (none, wire) =>
      match readRelayResponse C c.src with
      | (some err, _) => .error err
      | (none, src) => .ok ⟨src, wire⟩
  else .ok c

/-- The part of `dialContext` behind the dial, on the connection `c`. -/
def dialContext (rl : Relay) (C : Codec) (T : IPv6Text) (network : Network) (m : Metadata)
    (c : Conn) : Except Error RelayConn :=
  let req := C.request (rl.request T network m)
  match rl.handshake C req c with
  | .error err => .error err
  | .ok c =>
    match network with
    | .other _ => .error (.new ("network " ++ network.string ++ " is unsupported"))
    | _ =>
      let rc := RelayConn.new c rl.noDelay (network = .udp)
      .ok (if rl.noDelay then rc else { rc with wbuf := some req })

end Relay

/-! ### Calls -/

/-- A call on the connection, with the length of the buffer or the data. -/
inductive Call
  | read (k : Nat)
  | write (b : List Byte)

/-- What a call returns. -/
inductive Result
  | read (d : List Byte) (err : Option Error)
  | write (n : Nat) (err : Option Error)
  deriving DecidableEq

/-- What a call returns, and what it leaves. -/
def RelayConn.call (C : Codec) (A : Allocator) (rc : RelayConn) : Call → Result × RelayConn
  | .read k =>
    let r := rc.Read C A k
    (.read r.1.1 r.1.2, r.2)
  | .write b =>
    let r := rc.Write b
    (.write r.1.1 r.1.2, r.2)

end Tun2socks.Relay
