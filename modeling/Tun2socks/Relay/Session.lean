import Tun2socks.Relay.Framing
import Tun2socks.Tunnel.System

/-!
# Tun2socks.Relay.Session

What the relay hears of a session.

Without `noDelay` the request waits for the first write, so it reaches the relay together with
the first data of the application, and not at all as long as the application is silent. The
reads of the session, which wait for the response, run beside the writes and change nothing
here.
-/

namespace Tun2socks.Relay

open Tun2socks.Go Tun2socks.Tunnel

/-- The session's `M.Network`, of which a session has one of two. -/
def ofSession : Tunnel.Network → Network
  | .tcp => .tcp
  | .udp => .udp

/-- How data goes out: TCP as it is, UDP in a frame. -/
def encode : Tunnel.Network → List Byte → List Byte
  | .tcp, d => d
  | .udp, d => frame d

theorem encode_eq_wrap (net : Tunnel.Network) :
    encode net = wrap (decide (ofSession net = .udp)) := by
  cases net <;> rfl

/-- What fits into the tunnel's buffer is not too long for the relay. -/
theorem fits_of_le {net : Tunnel.Network} {b : List Byte} (h : b.length ≤ bufferSize net) :
    fits (decide (ofSession net = .udp)) b = true := by
  cases net with
  | tcp => rfl
  | udp => simpa [fits, ofSession, bufferSize] using h

section Session

variable {ι ρ υ G : Type} [Fintype ι] [DecidableEq ι] [DecidableEq ρ] [DecidableEq υ]
  [AddCommGroupWithOne G] {uuid : ι → υ} (network : ι → Tunnel.Network) (dst : ι → String)

/-- **The relay hears nothing before the application speaks, and then everything.** The upload of
a session over a relay, in every run of the tunnel; `cs` are the calls of the connection, in
which the writes of the upload and the reads of the download may be mixed. Every write succeeds.
The relay has got the request, once and first, and then what the application has sent but for one
piece at most, a datagram in a frame of its own; but without `noDelay` it has got nothing at all
until the first write. -/
theorem relay_hears (acts : List (Goroutines.Action ι Act (Other ρ υ))) {i : ι} {C : Codec}
    (A : Allocator) {T : IPv6Text} {rl : Relay} {m : Metadata} {src : List Piece} {rc : RelayConn}
    (hdial : rl.dialContext C T (ofSession (network i)) m ⟨src, .fresh⟩ = .ok rc)
    {cs : List Call} (hcs : written cs =
      (((tunnelRun ρ υ G uuid network dst acts).proc i).stream .upload).writes) :
    let t := ((tunnelRun ρ υ G uuid network dst acts).proc i).stream .upload
    let r := calls (RelayConn.call C A) rc cs
    (∀ x ∈ writeResults r.1, x.2 = none) ∧
      (r.2.conn.wire.sent = if rl.noDelay = true ∨ t.writes ≠ [] then
        C.request (rl.request T (ofSession (network i)) m) ++
          t.writes.flatMap (encode (network i)) else []) ∧
      ∃ rest, t.reads = t.writes ++ rest ∧ rest.length ≤ 1 ∧
        (t.pc.result = some none → rest = []) := by
  intro t r
  obtain ⟨⟨rest, hreads, howes⟩, hbounded, -, -⟩ :
      t.Relays ((tunnelRun ρ υ G uuid network dst acts).proc i).network :=
    (sound_run network dst acts i).relays .upload
  rw [network_run] at hbounded
  have hfits : ∀ b ∈ written cs, b.length ≤ bufferSize (network i) := by
    intro b hb
    rw [hcs] at hb
    refine hbounded b ?_
    rw [hreads]
    exact List.mem_append_left _ hb
  obtain ⟨hres, hsending⟩ := (dialContext_sending hdial).run (C := C) (A := A) cs
  refine ⟨?_, ?_, rest, hreads, howes.length_le, howes.eq_nil⟩
  · intro x hx
    rw [hres] at hx
    obtain ⟨b, hb, rfl⟩ := List.mem_map.mp hx
    rw [writeResult, if_pos (fits_of_le (hfits b hb))]
  have hout := hsending.out
  rw [List.nil_append, List.filter_eq_self.mpr fun b hb => fits_of_le (hfits b hb), hcs,
    ← encode_eq_wrap] at hout
  split at hout
  · rename_i h
    exact (congrArg Wire.sent hout.1).trans (if_pos h).symm
  · rename_i h
    exact (congrArg Wire.sent hout.1).trans (if_neg h).symm

end Session

/-- An application that has been silent, and has then sent two bytes. -/
theorem relay_hears_two :
    let rl : Relay := ⟨"", "", false⟩
    let m : Metadata := ⟨.v4 ⟨[10, 0, 0, 1], rfl⟩, 53⟩
    let rc : RelayConn := ⟨⟨[], .fresh⟩, false, false, some [1, 1]⟩
    let upload (acts : List (Goroutines.Action Unit Act (Other Unit Unit))) :=
      ((tunnelRun Unit Unit (BitVec 64) id (fun _ => .tcp) (fun _ => "10.0.0.1:53")
        ([.proc () (.dial none), .proc () .handler] ++ acts)).proc ()).stream .upload
    let sends : List (Goroutines.Action Unit Act (Other Unit Unit)) :=
      [.proc () (.stream .upload (.read ⟨[1, 2], none, none⟩)),
        .proc () (.stream .upload (.write 2 none))]
    rl.dialContext .short .decimal .tcp m ⟨[], .fresh⟩ = .ok rc ∧
      (upload []).writes = [] ∧
      (calls (RelayConn.call .short .zeros) rc [.read 4]).2.conn.wire.sent = [] ∧
      (upload sends).writes = [[1, 2]] ∧
      (calls (RelayConn.call .short .zeros) rc [.read 4, .write [1, 2]]).2.conn.wire.sent =
        [1, 1, 1, 2] := by
  intro rl m rc upload sends
  have hdial : rl.dialContext .short .decimal (ofSession .tcp) m ⟨[], .fresh⟩ = .ok rc := rfl
  have hsilent : (upload []).writes = [] := by decide +kernel
  have hspoken : (upload sends).writes = [[1, 2]] := by decide +kernel
  refine ⟨hdial, hsilent, ?_, hspoken, ?_⟩
  · have h := (relay_hears _ _ _ .zeros hdial (show written [.read 4] = _ from hsilent.symm)).2.1
    change _ = if _ ∨ (upload []).writes ≠ [] then _ else [] at h
    rw [hsilent] at h
    exact h
  · have h := (relay_hears _ _ _ .zeros hdial
      (show written [.read 4, .write [1, 2]] = _ from hspoken.symm)).2.1
    change _ = if _ ∨ (upload sends).writes ≠ [] then
      _ ++ (upload sends).writes.flatMap _ else [] at h
    rw [hspoken] at h
    exact h

end Tun2socks.Relay
