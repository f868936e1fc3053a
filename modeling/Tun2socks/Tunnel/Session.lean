import Tun2socks.Go.Basic
import Tun2socks.Statistic.Manager

/-!
# Tun2socks.Tunnel.Session

Model of a session: `handleTCPConn` and `handleUDPConn` of `tunnel/tcp.go` and
`tunnel/udp.go`, with the two goroutines that each of them starts.

A session is three goroutines. The handler dials, wraps the connection in a tracker, waits for
the other two and closes both connections. The other two copy one direction each, with
`io.CopyBuffer` or `copyPacketData`. `io.CopyBuffer` leaves the copying to the source if that has
`WriteTo` and to the target if that has `ReadFrom`. A tracker has neither, and no more has the
origin connection, a `core.tcpConn` around the `gonet.TCPConn` of the stack, so that it is the
plain loop here. What the connections answer is given from outside, call by
call, and may be anything. What the session does to its surroundings is an `Effect`: calls on
its two connections, and the operations on the statistics manager.

The tracker counts what the calls on the remote connection return: those of `Read` on the way
down, those of `Write` on the way up. Each count is three additions, to two counters of the
manager and to one of its own, and only after these the call returns to the copy loop.
-/

namespace Tun2socks.Tunnel

open Tun2socks.Go Tun2socks.Statistic

/-- `M.Network`. -/
inductive Network
  | tcp
  | udp
  deriving DecidableEq

/-- The two connections of a session. -/
inductive Side
  | origin
  | remote
  deriving DecidableEq

/-- The connection that a direction reads from, and the one that it writes to. -/
def source : Direction → Side
  | .upload => .origin
  | .download => .remote

@[inherit_doc source]
def target : Direction → Side
  | .upload => .remote
  | .download => .origin

theorem source_injective : Function.Injective source := by
  intro d e h
  cases d <;> cases e <;> first | rfl | cases h

theorem target_injective : Function.Injective target := by
  intro d e h
  cases d <;> cases e <;> first | rfl | cases h

/-- The size of the buffer: `buffer.RelayBufferSize`, or `buffer.MaxSegmentSize`. -/
def bufferSize : Network → Nat
  | .tcp => 20480
  | .udp => 65535

/-- A call on a connection whose result is not used. -/
inductive Call
  | close
  | closeRead
  | closeWrite
  | setReadDeadline
  deriving DecidableEq

/-- What a step of a session does to its surroundings. -/
inductive Effect
  /-- `manager.Join` -/
  | join
  /-- `manager.Leave` -/
  | leave
  /-- `uploadTemp.Add(n)` or `downloadTemp.Add(n)` -/
  | addTemp (d : Direction) (n : Int)
  /-- `uploadTotal.Add(n)` or `downloadTotal.Add(n)`, with the number of the `addTemp` before -/
  | addTotal (d : Direction)
  | call (side : Side) (c : Call)
  deriving DecidableEq

/-! ### One direction -/

/-- What `Read` or `ReadFrom` returned. -/
structure Reading where
  data : List Byte
  /-- `from.String()`, `none` for a nil address and for `Read` -/
  sender : Option String
  err : Option Error

/-- Where the goroutine of a direction stands. -/
inductive Pc
  /-- before `src.SetReadDeadline`, in `copyPacketData` only -/
  | arm
  /-- in `src.Read` or `src.ReadFrom` -/
  | reading
  /-- in `dst.Write` or `dst.WriteTo`, with the error that came with the data -/
  | writing (data : List Byte) (er : Option Error)
  /-- before `dst.SetReadDeadline`, in `copyPacketData` only -/
  | rearm
  /-- the copy loop has returned -/
  | copied (err : Option Error)
  /-- `src.CloseRead()` is done -/
  | readClosed (err : Option Error)
  /-- `dst.CloseWrite()` is done -/
  | writeClosed (err : Option Error)
  /-- `wg.Done()` -/
  | done (err : Option Error)
  deriving DecidableEq

/-- The counter that a tracker is going to add to. -/
inductive Stage
  | temp
  | total
  /-- `UploadTotal` or `DownloadTotal` of the tracker -/
  | own
  deriving DecidableEq

/-- The goroutine of a direction, the tracker's counter for it, and what has happened to it. -/
structure Stream (G : Type) where
  pc : Pc
  /-- the call has returned `n` and the tracker is counting -/
  count : Option (Stage × Int)
  /-- `UploadTotal` or `DownloadTotal` of the tracker -/
  total : G
  /-- history: what each call that read from the source returned -/
  answers : List Reading
  /-- history: what the target is owed of them, see `Reading.owed` -/
  reads : List (List Byte)
  /-- history: those of them that the target took -/
  writes : List (List Byte)
  /-- history: what the calls on the tracked connection returned -/
  counted : List Int

/-- The answer to a pending call; `step` for a step that waits for none. -/
inductive Answer
  | read (r : Reading)
  | write (n : Int) (ew : Option Error)
  | step

/-- `errInvalidWrite` and `ErrShortWrite` of package `io`. -/
def errInvalidWrite : Error := .new "invalid write result"

@[inherit_doc errInvalidWrite]
def errShortWrite : Error := .new "short write"

/-- The end of a round of `io.CopyBuffer`, with the error of its `Read`. -/
def endRound : Option Error → Pc
  | none => .reading
  | some .eof => .copied none
  | some err => .copied (some err)

/-- `symmetricNATPacketConn` drops the packet: it stands around the remote connection of a
UDP session. -/
def dropped (dst : String) (d : Direction) (r : Reading) : Bool :=
  match d, r.sender with
  | .download, some sender => sender ≠ dst
  | _, _ => false

/-- What a direction has to pass on of an answer of its source. For TCP that is the data, with or
without an error; for UDP it is the packet, if it comes from the right address and alone: that
which comes with an error `copyPacketData` never looks at. -/
def Reading.owed (r : Reading) (dst : String) (d : Direction) : Network → List (List Byte)
  | .tcp => if r.data = [] then [] else [r.data]
  | .udp => if dropped dst d r || r.err.isSome then [] else [r.data]

/-- The copy loop after `src.Read` or `src.ReadFrom`. -/
def afterRead (dst : String) (d : Direction) (r : Reading) : Network → Pc
  | .tcp => if r.data = [] then endRound r.err else .writing r.data r.err
  | .udp =>
    if dropped dst d r then .reading
    else
      match r.err with
      | none => .writing r.data none
      | some .timeout => .copied none
      | some .eof => .copied none
      | some err => .copied (some err)

/-- The data that the loop goes on to write. -/
def Pc.data : Pc → List (List Byte)
  | writing data _ => [data]
  | _ => []

/-- The copy loop after `dst.Write` or `dst.WriteTo`. -/
def afterWrite (data : List Byte) (er : Option Error) (n : Int) (ew : Option Error) :
    Network → Pc
  | .tcp =>
    let invalid : Bool := n < 0 ∨ (data.length : Int) < n
    let nw := if invalid then 0 else n
    match if invalid then ew.or (some errInvalidWrite) else ew with
    | some err => .copied (some err)
    | none => if (data.length : Int) ≠ nw then .copied (some errShortWrite) else endRound er
  | .udp =>
    match ew with
    | some err => .copied (some err)
    | none => .rearm

/-- `Write` has taken the whole of the data, or `WriteTo` the packet. -/
def accepts (data : List Byte) (n : Int) (ew : Option Error) : Network → Bool
  | .tcp => ew = none ∧ n = data.length
  | .udp => ew = none

namespace Stream

variable {G : Type}

/-- `copyPacketData` starts with a deadline, `io.CopyBuffer` with its first read. -/
def new [Zero G] : Network → Stream G
  | .tcp => ⟨.reading, none, 0, [], [], [], []⟩
  | .udp => ⟨.arm, none, 0, [], [], [], []⟩

/-- The error of the last call that read from the source. -/
def last (s : Stream G) : Option Error := s.answers.getLast?.bind Reading.err

/-- A call has returned `n`. If it was on the remote connection, the tracker counts it. -/
def track (s : Stream G) (side : Side) (n : Int) : Stream G :=
  match side with
  | .origin => s
  | .remote => { s with count := some (.temp, n), counted := s.counted ++ [n] }

/-- `src.Read` or `src.ReadFrom` has returned `r`. -/
def read (s : Stream G) (net : Network) (dst : String) (d : Direction) (r : Reading) : Stream G :=
  { s with
    pc := afterRead dst d r net
    answers := s.answers ++ [r]
    reads := s.reads ++ r.owed dst d net }.track (source d) r.data.length

/-- `dst.Write` or `dst.WriteTo` has returned `n` and `ew`. -/
def write (s : Stream G) (net : Network) (d : Direction) (data : List Byte) (er : Option Error)
    (n : Int) (ew : Option Error) : Stream G :=
  { s with
    pc := afterWrite data er n ew net
    writes := if accepts data n ew net then s.writes ++ [data] else s.writes }.track (target d) n

/-- A step that is not an answer. -/
def go (s : Stream G) (net : Network) (d : Direction) : Stream G × Option Effect :=
  match s.pc with
  | .arm => ({ s with pc := .reading }, some (.call (source d) .setReadDeadline))
  | .rearm => ({ s with pc := .arm }, some (.call (target d) .setReadDeadline))
  | .copied err =>
    match net with
    | .tcp => ({ s with pc := .readClosed err }, some (.call (source d) .closeRead))
    | .udp => ({ s with pc := .done err }, none)
  | .readClosed err => ({ s with pc := .writeClosed err }, some (.call (target d) .closeWrite))
  | .writeClosed err => ({ s with pc := .done err }, some (.call (target d) .setReadDeadline))
  | .reading | .writing .. | .done _ => (s, none)

variable [Add G] [IntCast G]

/-- The next addition of a tracker. -/
def add (s : Stream G) (d : Direction) (n : Int) : Stage → Stream G × Option Effect
  | .temp => ({ s with count := some (.total, n) }, some (.addTemp d n))
  | .total => ({ s with count := some (.own, n) }, some (.addTotal d))
  | .own => ({ s with count := none, total := s.total + n }, none)

/-- One step of `unidirectionalStream` or `unidirectionalPacketStream`. An answer that nobody
waits for, or that is longer than the buffer, changes nothing. -/
def step (s : Stream G) (net : Network) (dst : String) (d : Direction) (a : Answer) :
    Stream G × Option Effect :=
  match s.count, a with
  | some (stage, n), .step => s.add d n stage
  | some _, _ => (s, none)
  | none, .step => s.go net d
  | none, .read r =>
    match s.pc with
    | .reading => if r.data.length ≤ bufferSize net then (s.read net dst d r, none) else (s, none)
    | _ => (s, none)
  | none, .write n ew =>
    match s.pc with
    | .writing data er => (s.write net d data er n ew, none)
    | _ => (s, none)

end Stream

/-! ### The session -/

/-- Where the handler stands. -/
inductive Handler
  /-- in `DialContext` or `DialUDP` -/
  | dialing
  /-- before `NewTCPTracker` or `NewUDPTracker` -/
  | dialed
  /-- in `wg.Wait()` -/
  | piping
  /-- in `Close` of the tracker, before `manager.Leave` -/
  | leaving
  /-- after it, before `Close` of the connection -/
  | closing
  /-- before `Close` of the origin, `dialed` if there was a remote connection -/
  | returning (dialed : Bool)
  | returned (dialed : Bool)
  deriving DecidableEq

/-- A session: its handler and its two directions. -/
structure Session (G : Type) where
  network : Network
  /-- `metadata.DestinationAddress()` -/
  dst : String
  handler : Handler
  stream : Direction → Stream G

/-- A step of one of the goroutines of a session, with the answer that it gets. -/
inductive Act
  | dial (err : Option Error)
  | handler
  | stream (d : Direction) (a : Answer)

/-- The goroutine has called `wg.Done()`. -/
def Pc.isDone : Pc → Bool
  | done _ => true
  | _ => false

theorem Pc.eq_done {pc : Pc} (h : pc.isDone = true) : ∃ err, pc = .done err := by
  cases pc with
  | done err => exact ⟨err, rfl⟩
  | arm | reading | writing | rearm | copied | readClosed | writeClosed => cases h

namespace Session

variable {G : Type}

/-- A session before its dial. -/
def new [Zero G] (network : Network) (dst : String) : Session G :=
  ⟨network, dst, .dialing, fun _ => .new network⟩

/-- The next step of the handler, after the dial. -/
def handle (s : Session G) : Session G × Option Effect :=
  match s.handler with
  | .dialed => ({ s with handler := .piping }, some .join)
  | .piping =>
    if (s.stream .upload).pc.isDone && (s.stream .download).pc.isDone then
      ({ s with handler := .leaving }, none)
    else (s, none)
  | .leaving => ({ s with handler := .closing }, some .leave)
  | .closing => ({ s with handler := .returning true }, some (.call .remote .close))
  | .returning b => ({ s with handler := .returned b }, some (.call .origin .close))
  | .dialing | .returned _ => (s, none)

variable [Add G] [IntCast G]

/-- One step of one of the three goroutines. -/
def next (s : Session G) : Act → Session G × Option Effect
  | .dial err =>
    match s.handler with
    | .dialing =>
      ({ s with handler := if err = none then .dialed else .returning false }, none)
    | _ => (s, none)
  | .handler => s.handle
  | .stream d a =>
    match s.handler with
    | .piping =>
      let r := (s.stream d).step s.network s.dst d a
      ({ s with stream := Function.update s.stream d r.1 }, r.2)
    | _ => (s, none)

end Session

end Tun2socks.Tunnel
