import Tun2socks.Go.Dial
import Tun2socks.Http.Connect
import Tun2socks.Relay.Conn
import Tun2socks.Socks4.Handshake
import Tun2socks.Socks5.Handshake

/-!
# Tun2socks.Proxy.Dial

`DialContext` and `DialUDP` of every proxy under `proxy/`, and the sockets they leave open.

The outcome of each step outside the repository is given (`Outcomes`); a connection comes
with everything its server is going to send, so that the handshakes are the real ones. The
functions that defer a `Close` read the error from their named result, which every `return`
of theirs sets, also where an inner `err` hides it.

Most of the functions are one scheme, `dialThen`: dial, and talk to the server under the
deferred `Close`. `Socks5.DialUDP` opens a second socket, and leaves it to a goroutine that
reads the first one to its end. `Shadowsocks.DialUDP` has no deferred `Close`, and nothing
closes its socket if the server's address cannot be resolved.
-/

-- `Proxy` is also the name of the interface of the package
set_option linter.dupNamespace false

namespace Tun2socks.Proxy

open Tun2socks.Go Tun2socks.Go.Dial

/-! ### The proxies -/

/-- `socks4.Socks4`. -/
structure Socks4 where
  addr : String
  userID : List Byte

/-- `socks5.Socks5`. -/
structure Socks5 where
  addr : String
  user : List Byte
  pass : List Byte
  unix : Bool

/-- `shadowsocks.Shadowsocks`. -/
structure Shadowsocks where
  addr : String
  /-- `Write(b)` of the connection that the cipher and the obfuscation make of a dialed one -/
  write : List Byte → Session Unit

/-- The proxies that a protocol can be parsed to. -/
inductive Proxy
  | direct
  | reject
  | http (h : Http.HTTP)
  | socks4 (ss : Socks4)
  | socks5 (ss : Socks5)
  | shadowsocks (ss : Shadowsocks)
  | relay (addr : String) (rl : Relay.Relay)
  | ssh (addr : String)

/-- What the steps of a dial give. -/
structure Outcomes where
  /-- `dialer.DialContext` -/
  dial : Except Error Conn
  /-- `dialer.ListenPacket` -/
  listen : Except Error Unit
  /-- `net.ResolveUDPAddr` -/
  resolve : Except Error UDPAddr
  /-- the error of a `relay.Request` that cannot be written, whatever it is written to -/
  request : Option Error
  /-- `ssh.NewClientConn` -/
  newClientConn : Except Error Unit
  /-- `client.Dial` of SSH -/
  clientDial : Except Error Unit

/-- What a dial returns. -/
inductive Handed
  /-- a connection, as the handshake has left it -/
  | conn (c : Nat) (state : Conn)
  | relayConn (c : Nat) (rc : Relay.RelayConn)
  | sshConn (c : Nat)
  | directPacketConn (pc : Nat)
  | ssPacketConn (pc : Nat) (rAddr : UDPAddr)
  | socksPacketConn (pc : Nat) (rAddr : UDPAddr) (tcpConn : Nat)
  /-- the `nopConn` and the `nopPacketConn` of `Reject` -/
  | nop

/-- The sockets behind it. -/
def Handed.sockets : Handed → List Nat
  | conn c _ => [c]
  | relayConn c _ => [c]
  | sshConn c => [c]
  | directPacketConn pc => [pc]
  | ssPacketConn pc _ => [pc]
  | socksPacketConn pc _ tcpConn => [pc, tcpConn]
  | nop => []

/-- `errors.ErrUnsupported`. -/
def errUnsupported : Error := .new "unsupported operation"

/-- `dialer.DialContext(ctx, network, addr)` and the wrapping of its error. -/
def connect (addr : String) (dial : Except Error Conn) : Dial (Nat × Conn) :=
  errorf (fun err => "connect to " ++ addr ++ ": " ++ err) («open» dial)

/-- `net.ResolveUDPAddr("udp", addr)` and the wrapping of its error. -/
def resolveUDPAddr (addr : String) (resolve : Except Error UDPAddr) : Dial UDPAddr :=
  errorf (fun err => "resolve udp address " ++ addr ++ ": " ++ err) (step resolve)

/-- `dialer.ListenPacket("udp", "")` and the wrapping of its error. -/
def listenPacket (listen : Except Error Unit) : Dial (Nat × Unit) :=
  errorf (fun err => "listen packet: " ++ err) («open» listen)

/-- A `DialContext` that dials and talks to the server, with
`defer func(c net.Conn) { utils.SafeConnClose(c, err) }(c)` in between. -/
def dialThen {α : Type} (addr : String) (dial : Except Error Conn) (handshake : Session α)
    (hand : Nat → α → Conn → Handed) : Dial Handed := do
  let c ← connect addr dial
  closeOnError c.1 do
    let r ← talk handshake c.2
    return hand c.1 r.1 r.2

section Dials

variable {T : IPv6Text} (P : IPv6Literals T) (lib : Http.Library) (C : Relay.Codec)
  (network : Relay.Network) (m : Metadata) (o : Outcomes)

/-! ### TCP -/

/-- `Direct.DialContext`. -/
def directDialContext : Dial Handed := do
  let c ← «open» o.dial
  return .conn c.1 c.2

/-- `HTTP.DialContext`. -/
def httpDialContext (h : Http.HTTP) : Dial Handed :=
  dialThen h.addr o.dial (h.shakeHand lib T m) fun c _ state => .conn c state

/-- `Socks4.DialContext`. -/
def socks4DialContext (ss : Socks4) : Dial Handed :=
  dialThen ss.addr o.dial
    (Socks4.clientHandshake P (ascii (m.destinationAddress T)) Socks4.cmdConnect ss.userID)
    fun c _ state => .conn c state

/-- The `*socks5.User` of the configuration. -/
def Socks5.socksUser (ss : Socks5) : Option Socks5.User :=
  if ss.user ≠ [] then some ⟨ss.user, ss.pass⟩ else none

/-- `Socks5.DialContext`. -/
def socks5DialContext (ss : Socks5) : Dial Handed :=
  dialThen ss.addr o.dial
    (Socks5.clientHandshake (Socks5.serializeAddr [] m.dstIP m.dstPort) 0x01 ss.socksUser)
    fun c _ state => .conn c state

/-- `Shadowsocks.DialContext`. -/
def shadowsocksDialContext (ss : Shadowsocks) : Dial Handed :=
  dialThen ss.addr o.dial (ss.write (Socks5.serializeAddr [] m.dstIP m.dstPort))
    fun c _ state => .conn c state

/-- The part of `Relay.dialContext` behind the dial. The request is written in the `noDelay`
block or in that of a known network. -/
def relayHandshake (rl : Relay.Relay) : Session Relay.RelayConn := fun c =>
  match o.request with
  | none =>
    match rl.dialContext C T network m c with
    | .ok rc => .ok rc rc.conn
    | .error err => .error err c
  | some err =>
    match rl.noDelay, network with
    | false, .other _ => .error (.new ("network " ++ network.string ++ " is unsupported")) c
    | _, _ => .error err c

/-- `Relay.dialContext`. -/
def relayDialContext (addr : String) (rl : Relay.Relay) : Dial Handed :=
  dialThen addr o.dial (relayHandshake (T := T) C network m o rl) fun c rc _ => .relayConn c rc

/-- `SSH.DialContext`. Closing the client closes the connection it works on. -/
def sshDialContext (addr : String) : Dial Handed := do
  let c ← connect addr o.dial
  closeOnError c.1 do
    step o.newClientConn
    match o.clientDial with
    | .error err => do
      close c.1
      throw err
    | .ok _ => return .sshConn c.1

/-- `DialContext`. -/
def dialContext : Proxy → Dial Handed
  | .direct => directDialContext o
  | .reject => return .nop
  | .http h => httpDialContext (T := T) lib m o h
  | .socks4 ss => socks4DialContext P m o ss
  | .socks5 ss => socks5DialContext m o ss
  | .shadowsocks ss => shadowsocksDialContext m o ss
  | .relay addr rl => relayDialContext (T := T) C network m o addr rl
  | .ssh addr => sshDialContext o addr

/-! ### UDP -/

/-- `Direct.DialUDP`. -/
def directDialUDP : Dial Handed := do
  let pc ← «open» o.listen
  return .directPacketConn pc.1

/-- `bindAddr.IP.IsUnspecified()`, for which an IPv4 address may also be in its long form. -/
def isUnspecified : IP → Bool
  | .none => false
  | .v4 ip => ip.1 = List.replicate 4 0
  | .v6 ip => ip.1 = List.replicate 16 0 ∨ ip.1 = List.replicate 10 0 ++ [0xff, 0xff, 0, 0, 0, 0]

/-- `%#v` of a `socks5.Addr`. -/
def goSyntax (addr : List Byte) : String :=
  "socks5.Addr\x7b" ++
    ", ".intercalate (addr.map fun b => "0x" ++ String.ofList (Nat.toDigits 16 b.toNat)) ++ "\x7d"

/-- `Socks5.DialUDP`. The goroutine closes both sockets. -/
def socks5DialUDP (ss : Socks5) : Dial Handed :=
  if ss.unix then
    throw (.new (errUnsupported.text ++ " when unix domain socket is enabled"))
  else do
    let c ← connect ss.addr o.dial
    closeOnError c.1 do
      let r ← errorf (fun err => "client handshake: " ++ err) (talk
        (Socks5.clientHandshake [Socks5.atypIPv4, 0, 0, 0, 0, 0, 0] 0x03 ss.socksUser) c.2)
      let pc ← listenPacket o.listen
      go c.1 [c.1, pc.1]
      match Socks5.Addr.udpAddr r.1 with
      | none => throw (.new ("invalid UDP binding address: " ++ goSyntax r.1))
      | some bindAddr =>
        if isUnspecified bindAddr.ip then do
          let udpAddr ← resolveUDPAddr ss.addr o.resolve
          return .socksPacketConn pc.1 ⟨udpAddr.ip, bindAddr.port⟩ c.1
        else return .socksPacketConn pc.1 bindAddr c.1

/-- `Shadowsocks.DialUDP`. -/
def shadowsocksDialUDP (ss : Shadowsocks) : Dial Handed := do
  let pc ← listenPacket o.listen
  let udpAddr ← resolveUDPAddr ss.addr o.resolve
  return .ssPacketConn pc.1 udpAddr

/-- `DialUDP`. -/
def dialUDP : Proxy → Dial Handed
  | .direct => directDialUDP o
  | .reject => return .nop
  | .http _ => throw errUnsupported
  | .socks4 _ => throw errUnsupported
  | .socks5 ss => socks5DialUDP o ss
  | .shadowsocks ss => shadowsocksDialUDP o ss
  | .relay addr rl => relayDialContext (T := T) C network m o addr rl
  | .ssh _ => throw errUnsupported

end Dials

/-- The scheme, run on no sockets. -/
theorem dialThen_empty {α : Type} (addr : String) (dial : Except Error Conn)
    (handshake : Session α) (hand : Nat → α → Conn → Handed) :
    dialThen addr dial handshake hand .empty =
      match dial with
      | .error err => .error (.new ("connect to " ++ addr ++ ": " ++ err.text)) .empty
      | .ok c =>
        match handshake c with
        | .ok a c => .ok (hand 0 a c) ⟨[false], []⟩
        | .error err _ => .error err ⟨[true], []⟩ := by
  cases dial with
  | error err => rfl
  | ok c =>
    have hrun : dialThen addr (.ok c) handshake hand .empty =
        closeOnError 0 (talk handshake c >>= fun r => pure (hand 0 r.1 r.2)) ⟨[false], []⟩ := rfl
    rw [hrun]
    cases hc : handshake c <;>
      simp [closeOnError, talk, bind, EStateM.bind, pure, EStateM.pure, hc, Sockets.close]

/-- `Http.Connect` has the same dial, on a connection alone. -/
theorem httpDialContext_eq (T : IPv6Text) (lib : Http.Library) (m : Metadata) (o : Outcomes)
    (h : Http.HTTP) :
    (∀ x s, httpDialContext (T := T) lib m o h .empty = .ok x s →
      ∃ c, x = .conn 0 c ∧ h.dialContext lib T m o.dial = ⟨some c, false, none⟩) ∧
    (∀ err s, httpDialContext (T := T) lib m o h .empty = .error err s →
      (h.dialContext lib T m o.dial).err = some err ∧
        (h.dialContext lib T m o.dial).closed = s.closed.any id) := by
  rw [httpDialContext, dialThen_empty]
  unfold Http.HTTP.dialContext
  cases o.dial with
  | error err => simp [Sockets.empty]
  | ok c => cases hc : h.shakeHand lib T m c <;> simp [hc]

/-! ### What stays open -/

theorem released_none : Sockets.empty.Released := by decide

theorem released_one : (Sockets.mk [true] []).Released := by decide

/-- The deferred `Close` of the first socket ends the goroutine, and with it the second. -/
theorem released_two : (Sockets.mk [true, false] [(0, [0, 1])]).Released := by decide

theorem handsOut_none : Sockets.empty.HandsOut [] := ⟨by decide, by decide⟩

theorem handsOut_one : (Sockets.mk [false] []).HandsOut [0] := ⟨by decide, by decide⟩

theorem handsOut_two : (Sockets.mk [false, false] [(0, [0, 1])]).HandsOut [1, 0] :=
  ⟨by decide, by decide⟩

/-- The scheme is clean, whatever the server sends. -/
theorem clean_dialThen {α : Type} (addr : String) (dial : Except Error Conn)
    (handshake : Session α) (hand : Nat → α → Conn → Handed)
    (hhand : ∀ c a state, (hand c a state).sockets = [c]) :
    Clean Handed.sockets (dialThen addr dial handshake hand) := by
  rw [Clean, dialThen, connect, wp_bind, wp_errorf, wp_open]
  refine ⟨fun c _ => ?_, fun _ _ => released_none⟩
  rw [wp_closeOnError, wp_bind, wp_talk]
  refine ⟨fun a state _ => ?_, fun _ _ _ => released_one⟩
  rw [wp_pure, hhand]
  exact handsOut_one

theorem clean_sshDialContext (o : Outcomes) (addr : String) :
    Clean Handed.sockets (sshDialContext o addr) := by
  rw [Clean, sshDialContext, connect, wp_bind, wp_errorf, wp_open]
  refine ⟨fun c _ => ?_, fun _ _ => released_none⟩
  rw [wp_closeOnError, wp_bind, wp_step]
  refine ⟨fun _ _ => ?_, fun _ _ => released_one⟩
  cases o.clientDial with
  | error err =>
    rw [wp_bind, wp_close, wp_throw]
    exact released_one
  | ok _ => exact handsOut_one

/-- A function that opens one socket and does no more. -/
theorem clean_open {α : Type} (outcome : Except Error α) (hand : Nat × α → Handed)
    (hhand : ∀ x, (hand x).sockets = [x.1]) :
    Clean Handed.sockets (do let x ← «open» outcome; return hand x) := by
  rw [Clean, wp_bind, wp_open]
  refine ⟨fun a _ => ?_, fun _ _ => released_none⟩
  rw [wp_pure, hhand]
  exact handsOut_one

theorem clean_socks5DialUDP (o : Outcomes) (ss : Socks5) :
    Clean Handed.sockets (socks5DialUDP o ss) := by
  unfold Clean socks5DialUDP
  split
  · exact released_none
  · rw [connect, wp_bind, wp_errorf, wp_open]
    refine ⟨fun c _ => ?_, fun _ _ => released_none⟩
    rw [wp_closeOnError, wp_bind, wp_errorf, wp_talk]
    refine ⟨fun addr state _ => ?_, fun _ _ _ => released_one⟩
    rw [listenPacket, wp_bind, wp_errorf, wp_open]
    refine ⟨fun pc _ => ?_, fun _ _ => released_one⟩
    rw [wp_bind, wp_go]
    cases Socks5.Addr.udpAddr addr with
    | none => exact released_two
    | some bindAddr =>
      dsimp only
      split
      · rw [resolveUDPAddr, wp_bind, wp_errorf, wp_step]
        exact ⟨fun udpAddr _ => handsOut_two, fun _ _ => released_two⟩
      · exact handsOut_two

/-- A socket that has been opened stays open if the address is not resolved. -/
theorem clean_shadowsocksDialUDP_iff (o : Outcomes) (ss : Shadowsocks) :
    Clean Handed.sockets (shadowsocksDialUDP o ss) ↔
      ¬ (o.listen = .ok () ∧ ∃ err, o.resolve = .error err) := by
  have hleak : ¬ (Sockets.mk [false] []).Released := by decide
  rw [Clean, shadowsocksDialUDP, listenPacket, wp_bind, wp_errorf, wp_open]
  constructor
  · rintro ⟨hopen, -⟩ ⟨hlisten, err, hresolve⟩
    have hfail := hopen () hlisten
    rw [resolveUDPAddr, wp_bind, wp_errorf, wp_step] at hfail
    exact hleak (hfail.2 err hresolve)
  · intro h
    refine ⟨fun u hlisten => ?_, fun _ _ => released_none⟩
    rw [resolveUDPAddr, wp_bind, wp_errorf, wp_step]
    refine ⟨fun udpAddr _ => handsOut_one, fun err hresolve => ?_⟩
    exact absurd ⟨hlisten, err, hresolve⟩ h

section Clean

variable {T : IPv6Text} (P : IPv6Literals T) (lib : Http.Library) (C : Relay.Codec)
  (network : Relay.Network) (m : Metadata) (o : Outcomes)

theorem clean_dialContext (p : Proxy) :
    Clean Handed.sockets (dialContext P lib C network m o p) := by
  cases p with
  | direct => exact clean_open o.dial _ fun _ => rfl
  | reject => exact handsOut_none
  | http h =>
    rw [dialContext, httpDialContext]
    exact clean_dialThen _ _ _ _ fun _ _ _ => rfl
  | socks4 ss =>
    rw [dialContext, socks4DialContext]
    exact clean_dialThen _ _ _ _ fun _ _ _ => rfl
  | socks5 ss =>
    rw [dialContext, socks5DialContext]
    exact clean_dialThen _ _ _ _ fun _ _ _ => rfl
  | shadowsocks ss =>
    rw [dialContext, shadowsocksDialContext]
    exact clean_dialThen _ _ _ _ fun _ _ _ => rfl
  | relay addr rl =>
    rw [dialContext, relayDialContext]
    exact clean_dialThen _ _ _ _ fun _ _ _ => rfl
  | ssh addr => exact clean_sshDialContext o addr

/-- **Which dials leave no socket behind.** For every proxy, every outcome of the steps and
every server: `DialContext` is clean, and `DialUDP` is clean exactly if it is not that of
Shadowsocks with a socket opened and the server's address not resolved. Clean means: after
an error every socket has been closed, once the goroutine has ended too; and otherwise the
sockets handed out are open, and are all there are. -/
theorem dials_clean_iff (p : Proxy) :
    Clean Handed.sockets (dialContext P lib C network m o p) ∧
      (Clean Handed.sockets (dialUDP (T := T) C network m o p) ↔
        ¬ ((∃ ss, p = .shadowsocks ss) ∧ o.listen = .ok () ∧ ∃ err, o.resolve = .error err)) := by
  refine ⟨clean_dialContext P lib C network m o p, ?_⟩
  cases p with
  | shadowsocks ss =>
    have hss : ∃ ss', Proxy.shadowsocks ss = .shadowsocks ss' := ⟨ss, rfl⟩
    rw [dialUDP, clean_shadowsocksDialUDP_iff, and_iff_right hss]
  | direct => exact iff_of_true (clean_open o.listen _ fun _ => rfl) (by simp)
  | reject => exact iff_of_true handsOut_none (by simp)
  | http h => exact iff_of_true released_none (by simp)
  | socks4 ss => exact iff_of_true released_none (by simp)
  | socks5 ss => exact iff_of_true (clean_socks5DialUDP o ss) (by simp)
  | relay addr rl =>
    exact iff_of_true (clean_dialContext P lib C network m o (.relay addr rl)) (by simp)
  | ssh addr => exact iff_of_true released_none (by simp)

end Clean

/-- The socket opened, and a server whose name does not resolve: `DialUDP` returns the error,
and the socket is still open. -/
theorem shadowsocksDialUDP_leaks :
    let o : Outcomes :=
      ⟨.error .timeout, .ok (), .error (.new "no such host"), none, .ok (), .ok ()⟩
    let p : Proxy := .shadowsocks ⟨"nohost:8388", Session.send⟩
    let x : Dial Handed := dialUDP (T := .decimal) .short .udp ⟨.none, 53⟩ o p
    x .empty = .error (.new "resolve udp address nohost:8388: no such host") ⟨[false], []⟩ ∧
      ¬ Clean Handed.sockets x := by
  intro o p x
  refine ⟨rfl, fun h => ?_⟩
  have := (clean_shadowsocksDialUDP_iff o ⟨"nohost:8388", Session.send⟩).mp h
  exact this ⟨rfl, _, rfl⟩

end Tun2socks.Proxy
