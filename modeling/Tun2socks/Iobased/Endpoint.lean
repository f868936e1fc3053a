import Tun2socks.Go.Packet
import Tun2socks.Go.Region

/-!
# Tun2socks.Iobased.Endpoint

Model of `core/device/iobased/endpoint.go`: the link endpoint between the network stack
and an `io.ReadWriter` that reads and writes whole packets, and the two of these that the
repository plugs in, `TUN` and the `os.File` of `fdbased`.

Both loops agree with the device on `offset` bytes in front of a packet. They do not agree
on the number that `Read` returns: `TUN` counts the packet, a file counts the bytes in
front as well, and `dispatchLoop` takes it for the length of the packet.
-/

namespace Tun2socks.Iobased

open Tun2socks.Go

/-! ### Devices -/

/-- An `io.ReadWriter` over a device for whole frames. -/
structure ReadWriter where
  /-- `Read(data)` of the next frame: the number returned, and `data` afterwards -/
  read : (frame data : List Byte) → Nat × List Byte
  /-- `Write(b)`: the frame that the device gets -/
  write : (b : List Byte) → List Byte

/-- `TUN`. The device reads to `packet[offset:]` and writes from there. -/
def tun (offset : Nat) : ReadWriter where
  read frame data := (min frame.length (data.length - offset), store data offset frame)
  write b := b.drop offset

/-- An `os.File`. -/
def osFile : ReadWriter where
  read frame data := (min frame.length data.length, copy data frame)
  write b := b

/-- The offset that `parseFD` opens a file descriptor with. -/
def fdOffset (goos : String) : Nat := if goos = "ios" then 4 else 0

/-! ### The endpoint -/

/-- `Endpoint`, as far as its loops look at it. -/
structure Endpoint where
  rw : ReadWriter
  mtu : Nat
  offset : Nat
  mtu_pos : 0 < mtu

/-- `header.IPv4ProtocolNumber` and `header.IPv6ProtocolNumber`. -/
inductive NetworkProtocol
  | ipv4
  | ipv6
  deriving DecidableEq

/-- `header.IPVersion(b)`. -/
def ipVersion : List Byte → Int
  | [] => -1
  | b :: _ => (b >>> 4).toNat

/-- The cases of the `switch` on the version. -/
def protocolOf (b : List Byte) : Option NetworkProtocol :=
  if ipVersion b = 4 then some .ipv4 else if ipVersion b = 6 then some .ipv6 else none

/-- One round of `dispatchLoop`: what `Read` has to deliver, and what `IsAttached` says. -/
structure Arrival where
  read : Except Error (List Byte)
  attached : Bool

/-- A frame for an attached endpoint. -/
def Arrival.frame (b : List Byte) : Arrival := ⟨.ok b, true⟩

/-- `tcpip.ErrInvalidEndpointState`. -/
def errInvalidEndpointState : Error := .new "endpoint is in invalid state"

namespace Endpoint

/-- `New(rw, mtu, offset)`. -/
def new (rw : Option ReadWriter) (mtu : UInt32) (offset : Int) : Except Error Endpoint :=
  if h : mtu.toNat = 0 then .error (.new "MTU size is zero")
  else
    match rw with
    | none => .error (.new "RW interface is nil")
    | some rw =>
      if offset < 0 then .error (.new "offset must be non-negative")
      else .ok ⟨rw, mtu.toNat, offset.toNat, Nat.pos_of_ne_zero h⟩

/-- The same endpoint on another device. -/
def withDevice (e : Endpoint) (rw : ReadWriter) : Endpoint := { e with rw := rw }

/-- The body of `dispatchLoop` for a `Read` without an error: what is injected, if
anything is. -/
def dispatch (e : Endpoint) (frame : List Byte) (attached : Bool) :
    Option (NetworkProtocol × List Byte) :=
  let r := e.rw.read frame (List.replicate (e.offset + e.mtu) 0)
  if r.1 = 0 ∨ r.1 > e.mtu then none
  else if attached = false then none
  else (protocolOf (r.2.drop e.offset)).map fun p => (p, (r.2.drop e.offset).take r.1)

/-- `dispatchLoop`: the packets injected, in order. -/
def dispatchLoop (e : Endpoint) : List Arrival → List (NetworkProtocol × List Byte)
  | [] => []
  | a :: as =>
    match a.read with
    | .error _ => []
    | .ok frame => (e.dispatch frame a.attached).toList ++ dispatchLoop e as

/-- `writePacket(pkt)`. -/
def writePacket (e : Endpoint) (sink : PacketSink) (pkt : List Byte) : Option Error × PacketSink :=
  let buf := if e.offset ≠ 0 then List.replicate e.offset 0 ++ pkt else pkt
  let w := sink.writeTo (e.rw.write buf)
  (w.1.map fun _ => errInvalidEndpointState, w.2)

/-- `outboundLoop`, for the packets that `ReadContext` returns until it is cancelled. An
error of `writePacket` is not looked at. -/
def outboundLoop (e : Endpoint) (sink : PacketSink) (pkts : List (List Byte)) : PacketSink :=
  pkts.foldl (fun sink pkt => (e.writePacket sink pkt).2) sink

end Endpoint

/-! ### Packets -/

/-- An IP packet that fits into the MTU. -/
structure Packet (mtu : Nat) where
  data : List Byte
  protocol : NetworkProtocol
  pos : 1 ≤ data.length
  le : data.length ≤ mtu
  version : protocolOf data = some protocol

/-- What the stack is to get of it. -/
def Packet.injected {mtu : Nat} (q : Packet mtu) : NetworkProtocol × List Byte :=
  (q.protocol, q.data)

/-- The version stands in the first byte. -/
theorem Packet.protocolOf_append {mtu : Nat} (q : Packet mtu) (rest : List Byte) :
    protocolOf (q.data ++ rest) = some q.protocol := by
  rw [← q.version]
  cases hq : q.data with
  | nil => exact absurd q.pos (by rw [hq]; decide)
  | cons b bs => rfl

/-- A packet copied into a fresh buffer. -/
theorem copy_replicate {q : List Byte} {n : Nat} (h : q.length ≤ n) :
    copy (List.replicate n 0) q = q ++ List.replicate (n - q.length) 0 := by
  rw [copy, List.length_replicate, List.take_of_length_le h, List.drop_replicate]

namespace Endpoint

/-- Frames that arrive at an attached endpoint are dispatched one by one. -/
theorem dispatchLoop_frames {α : Type} (e : Endpoint) (g : α → List Byte) (xs : List α) :
    e.dispatchLoop (xs.map fun x => .frame (g x)) =
      xs.filterMap fun x => e.dispatch (g x) true := by
  induction xs with
  | nil => rfl
  | cons x xs ih =>
    rw [List.map_cons, dispatchLoop, List.filterMap_cons, ih]
    dsimp only [Arrival.frame]
    cases e.dispatch (g x) true with
    | none => rfl
    | some p => rfl

/-- If every frame is injected, as `f` says, so is the run. -/
theorem dispatchLoop_eq_map {α : Type} {e : Endpoint} {g : α → List Byte}
    {f : α → NetworkProtocol × List Byte} (h : ∀ x, e.dispatch (g x) true = some (f x))
    (xs : List α) : e.dispatchLoop (xs.map fun x => .frame (g x)) = xs.map f := by
  rw [dispatchLoop_frames, funext h, List.filterMap_eq_map']

/-- A packet from `TUN`. -/
theorem dispatch_tun (e : Endpoint) (q : Packet e.mtu) :
    (e.withDevice (tun e.offset)).dispatch q.data true = some q.injected := by
  have hpos := q.pos
  have hle := q.le
  have hn : min q.data.length (e.offset + e.mtu - e.offset) = q.data.length := by omega
  have hdata : (store (List.replicate (e.offset + e.mtu) 0) e.offset q.data).drop e.offset =
      q.data ++ List.replicate (e.mtu - q.data.length) 0 := by
    rw [drop_store _ (by simp), List.drop_replicate, Nat.add_sub_cancel_left, copy_replicate hle]
  simp only [dispatch, withDevice, tun, List.length_replicate, hn, hdata]
  rw [if_neg (by omega), if_neg (by simp), q.protocolOf_append, Option.map_some, List.take_left]
  rfl

/-- A packet from a file: the bytes in front count for the length, so that as many bytes too
many are injected, or nothing at all. -/
theorem dispatch_osFile (e : Endpoint) (front : List.Vector Byte e.offset) (q : Packet e.mtu) :
    (e.withDevice osFile).dispatch (front.1 ++ q.data) true =
      if e.mtu < e.offset + q.data.length then none
      else some (q.protocol, q.data ++ List.replicate e.offset 0) := by
  have hpos := q.pos
  have hle := q.le
  have hlen : (front.1 ++ q.data).length = e.offset + q.data.length := by
    rw [List.length_append, front.2]
  have hn : min (front.1 ++ q.data).length (e.offset + e.mtu) = e.offset + q.data.length := by omega
  have hdata : (copy (List.replicate (e.offset + e.mtu) 0) (front.1 ++ q.data)).drop e.offset =
      q.data ++ List.replicate (e.mtu - q.data.length) 0 := by
    rw [copy_replicate (by omega), List.append_assoc, List.drop_left' front.2, hlen,
      Nat.add_sub_add_left]
  simp only [dispatch, withDevice, osFile, List.length_replicate, hn, hdata]
  by_cases hmtu : e.mtu < e.offset + q.data.length
  · rw [if_pos (.inr hmtu), if_pos hmtu]
  · rw [if_neg (by omega), if_neg (by simp), if_neg hmtu, q.protocolOf_append, Option.map_some,
      Nat.add_comm, List.take_length_add_append, List.take_replicate, Nat.min_eq_left (by omega)]

/-- What `writePacket` writes to a file. -/
theorem writePacket_osFile (e : Endpoint) {sink : PacketSink} (hsink : sink.Working)
    (pkt : List Byte) :
    ((e.withDevice osFile).writePacket sink pkt).2.written =
      sink.written ++ [List.replicate e.offset 0 ++ pkt] := by
  have hbuf : (if e.offset ≠ 0 then List.replicate e.offset 0 ++ pkt else pkt) =
      List.replicate e.offset 0 ++ pkt := by
    by_cases h : e.offset = 0
    · rw [if_neg (not_not_intro h), h]
      rfl
    · rw [if_pos h]
  dsimp only [writePacket, withDevice, osFile]
  rw [hbuf]
  exact (hsink.writeTo _).2

/-- What `outboundLoop` writes to a file. -/
theorem outboundLoop_osFile (e : Endpoint) (pkts : List (List Byte)) {sink : PacketSink}
    (hsink : sink.Working) :
    ((e.withDevice osFile).outboundLoop sink pkts).written =
      sink.written ++ pkts.map (List.replicate e.offset 0 ++ ·) := by
  induction pkts generalizing sink with
  | nil => exact (List.append_nil _).symm
  | cons pkt pkts ih =>
    have hnext : ((e.withDevice osFile).writePacket sink pkt).2.Working :=
      fun answer h => hsink answer (sink.writeTo_answers _ h)
    rw [outboundLoop, List.foldl_cons, ← outboundLoop, ih hnext, e.writePacket_osFile hsink,
      List.map_cons, List.append_assoc]
    rfl

/-- A run of packets from a file. One packet is enough to tell the difference. -/
theorem dispatchLoop_osFile_iff (e : Endpoint) (f : List.Vector Byte e.offset × Packet e.mtu)
    (fs : List (List.Vector Byte e.offset × Packet e.mtu)) :
    (e.withDevice osFile).dispatchLoop ((f :: fs).map fun x => .frame (x.1.1 ++ x.2.data)) =
        (f :: fs).map (·.2.injected) ↔ e.offset = 0 := by
  constructor
  · intro h
    by_contra hne
    rw [dispatchLoop_frames, List.filterMap_cons, dispatch_osFile, List.map_cons] at h
    by_cases hmtu : e.mtu < e.offset + f.2.data.length
    · -- the first packet is dropped, and there are too few
      rw [if_pos hmtu] at h
      dsimp only at h
      have hlen : (fs.filterMap fun x =>
          (e.withDevice osFile).dispatch (x.1.1 ++ x.2.data) true).length = fs.length + 1 := by
        rw [h, List.length_cons, List.length_map]
      exact absurd (List.length_filterMap_le _ fs) (by rw [hlen]; omega)
    · -- the first packet is too long
      rw [if_neg hmtu] at h
      have hhead := congrArg (fun p => p.2.length) (List.cons.inj h).1
      dsimp only [Packet.injected] at hhead
      rw [List.length_append, List.length_replicate] at hhead
      omega
  · intro h
    refine dispatchLoop_eq_map ?_ (f :: fs)
    intro x
    have hle := x.2.le
    have hnone : List.replicate e.offset (0 : Byte) = [] := by rw [h, List.replicate_zero]
    rw [dispatch_osFile, if_neg (by omega), hnone, List.append_nil]
    rfl

end Endpoint

/-- **When packets reach the stack intact.** Whatever bytes stand in front of them, packets
from `TUN` are injected as they are. Packets from a file are if and only if there is
nothing in front; and so are packets that the endpoint itself has written to a file. -/
theorem dispatch_intact_iff (e : Endpoint) (f : List.Vector Byte e.offset × Packet e.mtu)
    (fs : List (List.Vector Byte e.offset × Packet e.mtu)) :
    (e.withDevice (tun e.offset)).dispatchLoop ((f :: fs).map fun x => .frame x.2.data) =
        (f :: fs).map (·.2.injected) ∧
    ((e.withDevice osFile).dispatchLoop ((f :: fs).map fun x => .frame (x.1.1 ++ x.2.data)) =
        (f :: fs).map (·.2.injected) ↔ e.offset = 0) ∧
    ((e.withDevice osFile).dispatchLoop
        (((e.withDevice osFile).outboundLoop .fresh
          ((f :: fs).map (·.2.data))).written.map .frame) =
        (f :: fs).map (·.2.injected) ↔ e.offset = 0) := by
  refine ⟨?_, e.dispatchLoop_osFile_iff f fs, ?_⟩
  · refine Endpoint.dispatchLoop_eq_map ?_ (f :: fs)
    intro x
    exact e.dispatch_tun x.2
  -- the endpoint's own frames have zeros in front
  have hzero := e.dispatchLoop_osFile_iff (⟨List.replicate e.offset 0, List.length_replicate⟩, f.2)
    (fs.map fun x => (⟨List.replicate e.offset 0, List.length_replicate⟩, x.2))
  rw [e.outboundLoop_osFile _ (fun _ h => absurd h List.not_mem_nil)]
  simpa [PacketSink.fresh, Function.comp_def] using hzero

/-- On iOS, with an MTU of 8: a packet of four bytes gets four more, and one of five, which
fits as well, is dropped. -/
theorem dispatch_ios_padded_dropped :
    Endpoint.dispatchLoop ⟨osFile, 8, fdOffset "ios", by decide⟩
      [.frame ([0, 0, 0, 2] ++ [0x45, 1, 2, 3]), .frame ([0, 0, 0, 2] ++ [0x45, 1, 2, 3, 4])] =
    [(.ipv4, [0x45, 1, 2, 3, 0, 0, 0, 0])] := by
  decide

end Tun2socks.Iobased
