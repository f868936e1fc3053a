import Tun2socks.Codec.Decoder
import Tun2socks.Go.Netip
import Tun2socks.Go.Session

/-!
# Tun2socks.Socks4.Handshake

Model of `ClientHandshake` of `transport/socks4/socks4.go`.

A request has no length: its first string ends at a zero byte, and whether a second one
follows is told by the IP. `Server.request` reads it by the rules of SOCKS 4A, and the
main theorem says that what it reads is what the client meant.
-/

namespace Tun2socks.Socks4

open Tun2socks.Go Tun2socks.Go.Session

/-- `Version`. -/
def version : Byte := 0x04

/-- `CmdConnect`. -/
def cmdConnect : Byte := 0x01
/-- `CmdBind`. -/
def cmdBind : Byte := 0x02

/-- `RequestGranted`. -/
def requestGranted : Byte := 90
/-- `RequestRejected`. -/
def requestRejected : Byte := 91
/-- `RequestIdentdFailed`. -/
def requestIdentdFailed : Byte := 92
/-- `RequestIdentdMismatched`. -/
def requestIdentdMismatched : Byte := 93

/-- `errVersionMismatched`. -/
def errVersionMismatched : Error := .new "version code mismatched"
/-- `errIPv6NotSupported`. -/
def errIPv6NotSupported : Error := .new "IPv6 not supported"
/-- `ErrCmdNotSupported`. -/
def errCmdNotSupported : Error := .new "command not supported"

/-- `ErrRequestRejected`. -/
def errRequestRejected : Error := .new "request rejected or failed"
/-- `ErrRequestIdentdFailed`. -/
def errRequestIdentdFailed : Error :=
  .new "request rejected because SOCKS server cannot connect to identd on the client"
/-- `ErrRequestIdentdMismatched`. -/
def errRequestIdentdMismatched : Error :=
  .new "request rejected because the client program and identd report different user-ids"
/-- `ErrRequestUnknownCode`. -/
def errRequestUnknownCode : Error := .new "request failed with unknown code"

/-- `isReservedIP`: 0.0.0.0/24 without 0.0.0.0. -/
def isReservedIP (ip : List.Vector Byte 4) : Bool :=
  decide (ip.1 ≠ [0, 0, 0, 0]) && decide (ip.1.take 3 = [0, 0, 0])

/-- `splitHostPort(addr)`. -/
def splitHostPort (addr : List Byte) : Except Error (List Byte × UInt16) := do
  let (host, portStr) ← HostPort.split addr
  let portInt ← parseUint 65535 portStr
  return (host, UInt16.ofNat portInt)

variable {T : IPv6Text}

/-- The `switch` of `ClientHandshake`: the IP to send for a host. -/
def destinationIP (P : IPv6Literals T) (host : List Byte) : Except Error (List.Vector Byte 4) :=
  match parseAddr P host with
  | .none => .ok ⟨[0, 0, 0, 1], rfl⟩
  | .v4 ip => .ok ip
  | .v6 ip => if IP.Mapped ip then .ok (IP.last4 ip) else .error errIPv6NotSupported

/-- The request. -/
def req (command : Byte) (port : UInt16) (ip : List.Vector Byte 4) (userID host : List Byte) :
    List Byte :=
  [version, command] ++ putUint16 port.toNat ++ ip.1 ++ userID ++ [0x00] ++
    if isReservedIP ip then host ++ [0x00] else []

/-- What the eight bytes of the reply say. -/
def checkReply (resp : List Byte) : Except Error Unit :=
  if resp.getD 0 0 ≠ 0x00 then .error errVersionMismatched
  else if resp.getD 1 0 = requestGranted then .ok ()
  else if resp.getD 1 0 = requestRejected then .error errRequestRejected
  else if resp.getD 1 0 = requestIdentdFailed then .error errRequestIdentdFailed
  else if resp.getD 1 0 = requestIdentdMismatched then .error errRequestIdentdMismatched
  else .error errRequestUnknownCode

/-- `ClientHandshake`. -/
def clientHandshake (P : IPv6Literals T) (addr : List Byte) (command : Byte)
    (userID : List Byte) : Session Unit :=
  if command = cmdBind then throw errCmdNotSupported
  else
    match splitHostPort addr with
    | .error err => throw err
    | .ok (host, port) =>
      match destinationIP P host with
      | .error err => throw err
      | .ok ip => do
        send (req command port ip userID host)
        let resp ← readInto (List.replicate 8 0) 0 8
        match checkReply resp with
        | .error err => throw err
        | .ok () => pure ()

/-! ### The server's side -/

/-- The destination of a request: an address, or a name that the server resolves. -/
inductive Destination
  | ip (b : List Byte)
  | host (name : List Byte)
  deriving DecidableEq

/-- What a server reads from the client. -/
structure Request where
  command : Byte
  port : Nat
  destination : Destination
  userID : List Byte
  deriving DecidableEq

namespace Server

open Codec Codec.Decoder

/-- A request by the rules of SOCKS 4A: the name of a host follows exactly if the IP is
0.0.0.x with x not zero. -/
def request : Decoder Request := do
  literal [0x04]
  let command ← bytes 1
  let port ← uint 2
  let ip ← bytes 4
  let userID ← untilNul
  if ip.take 3 = [0, 0, 0] ∧ ip.drop 3 ≠ [0] then
    let name ← untilNul
    return ⟨command.headD 0, port, .host name, userID⟩
  else return ⟨command.headD 0, port, .ip ip, userID⟩

end Server

/-- What the client means by a host: the IPv4 address it denotes, if that is not
reserved, and the host as it is otherwise. -/
def destination (P : IPv6Literals T) (host : List Byte) : Destination :=
  match (parseAddr P host).unmap with
  | .v4 ip => if isReservedIP ip then .host host else .ip ip.1
  | _ => .host host

/-- The addresses for which nothing is sent: they do not split, or the port is no
decimal number up to 65535, or the host is an IPv6 literal that is not IPv4-mapped. -/
def Refused (P : IPv6Literals T) (addr : List Byte) : Prop :=
  (∃ err, HostPort.split addr = .error err) ∨
    ∃ host port, HostPort.split addr = .ok (host, port) ∧
      (¬ (port ≠ [] ∧ (∀ c ∈ port, isDigit c) ∧ decimal 0 port ≤ 65535) ∨
        ∃ ip, parseAddr P host = .v6 ip ∧ ¬ IP.Mapped ip)

section Request

variable {P : IPv6Literals T} {addr host userID : List Byte} {port : UInt16}
  {ip : List.Vector Byte 4}

/-- The two sides tell a reserved IP in the same way. -/
theorem isReservedIP_iff :
    isReservedIP ip = true ↔ ip.1.take 3 = [0, 0, 0] ∧ ip.1.drop 3 ≠ [0] := by
  match ip with
  | ⟨[b₀, b₁, b₂, b₃], _⟩ =>
    simp only [isReservedIP, Bool.and_eq_true, decide_eq_true_eq, ne_eq, List.take_succ_cons,
      List.take_zero, List.drop_succ_cons, List.drop_zero, List.cons.injEq, and_true]
    grind

open Codec.Decoder in
/-- A server reads a request back. -/
theorem all_request (command : Byte) (huser : 0 ∉ userID) (hhost : 0 ∉ host) :
    all Server.request (req command port ip userID host) =
      some ⟨command, port.toNat, if isReservedIP ip then .host host else .ip ip.1, userID⟩ := by
  have hreq : req command port ip userID host = [version] ++ ([command] ++ (putUint16 port.toNat ++
      (ip.1 ++ ((userID ++ [0]) ++ if isReservedIP ip then host ++ [0] else [])))) := by
    simp [req]
  rw [hreq]
  apply Decodes.all
  refine (decodes_literal [version]).bind ((decodes_bytes [command] rfl).bind ?_)
  refine (decodes_uint16 port.toNat_lt).bind ((decodes_bytes ip.1 ip.2).bind ?_)
  refine (decodes_untilNul huser).bind ?_
  by_cases hres : isReservedIP ip
  · rw [if_pos (isReservedIP_iff.mp hres), if_pos hres, if_pos hres]
    exact (decodes_untilNul hhost).bind_nil .pure
  · rw [if_neg (isReservedIP_iff.not.mp hres), if_neg hres, if_neg hres]
    exact .pure

/-- The IP sent is the one meant, or announces the host. -/
theorem destination_of_ok (h : destinationIP P host = .ok ip) :
    (if isReservedIP ip then Destination.host host else .ip ip.1) = destination P host := by
  rw [destinationIP] at h
  rw [destination]
  split at h
  · rename_i hparse
    cases h
    rw [hparse]
    rfl
  · rename_i hparse
    cases h
    rw [hparse]
    rfl
  · rename_i b hparse
    split at h
    · rename_i hm
      cases h
      rw [hparse, IP.unmap_of_mapped hm]
    · cases h

theorem destinationIP_error : (∃ err, destinationIP P host = .error err) ↔
    ∃ b, parseAddr P host = .v6 b ∧ ¬ IP.Mapped b := by
  rw [destinationIP]
  split
  · rename_i hparse
    simp [hparse]
  · rename_i hparse
    simp [hparse]
  · rename_i b hparse
    by_cases hm : IP.Mapped b <;> simp [hparse, hm]

theorem splitHostPort_of_ok {portStr : List Byte} {portInt : Nat}
    (hs : HostPort.split addr = .ok (host, portStr)) (hp : parseUint 65535 portStr = .ok portInt) :
    splitHostPort addr = .ok (host, UInt16.ofNat portInt) := by
  rw [splitHostPort, hs, ok_bind]
  dsimp only
  rw [hp, ok_bind]
  rfl

/-- A port is parsed if it is a decimal number that fits. -/
theorem exists_parseUint {s : List Byte} : (∃ n, parseUint 65535 s = .ok n) ↔
    s ≠ [] ∧ (∀ c ∈ s, isDigit c) ∧ decimal 0 s ≤ 65535 := by
  simp only [parseUint_eq_ok]
  constructor
  · rintro ⟨n, hne, hdigits, rfl, hle⟩
    exact ⟨hne, hdigits, hle⟩
  · rintro ⟨hne, hdigits, hle⟩
    exact ⟨_, hne, hdigits, rfl, hle⟩

/-- What happens before anything is sent: an error, or the parts of the address and the
IP. -/
theorem refused_or_parts (P : IPv6Literals T) (addr : List Byte) :
    (Refused P addr ∧ ((∃ err, splitHostPort addr = .error err) ∨
      ∃ host port err, splitHostPort addr = .ok (host, port) ∧ destinationIP P host = .error err)) ∨
    (¬ Refused P addr ∧ ∃ host portStr portInt ip, HostPort.split addr = .ok (host, portStr) ∧
      parseUint 65535 portStr = .ok portInt ∧ destinationIP P host = .ok ip) := by
  cases hs : HostPort.split addr with
  | error err =>
    refine .inl ⟨.inl ⟨err, hs⟩, .inl ⟨err, ?_⟩⟩
    rw [splitHostPort, hs]
    rfl
  | ok r =>
    obtain ⟨host, portStr⟩ := r
    have hrefused : Refused P addr ↔
        ¬ (portStr ≠ [] ∧ (∀ c ∈ portStr, isDigit c) ∧ decimal 0 portStr ≤ 65535) ∨
          ∃ ip, parseAddr P host = .v6 ip ∧ ¬ IP.Mapped ip := by
      simp [Refused, hs]
    rw [← exists_parseUint, ← destinationIP_error] at hrefused
    cases hp : parseUint 65535 portStr with
    | error err =>
      refine .inl ⟨hrefused.mpr (.inl (by simp [hp])), .inl ⟨err, ?_⟩⟩
      rw [splitHostPort, hs, ok_bind]
      dsimp only
      rw [hp]
      rfl
    | ok portInt =>
      have hsplit := splitHostPort_of_ok hs hp
      cases hip : destinationIP P host with
      | error err =>
        exact .inl ⟨hrefused.mpr (.inr ⟨err, hip⟩), .inr ⟨host, _, err, hsplit, hip⟩⟩
      | ok ip =>
        refine .inr ⟨hrefused.not.mpr ?_, host, portStr, portInt, ip, rfl, hp, hip⟩
        simp [hp, hip]

end Request

/-! ### The handshake -/

section Handshake

variable {P : IPv6Literals T} {addr host userID S : List Byte} {port : UInt16}
  {ip : List.Vector Byte 4}
  {pieces : List Piece}

theorem clientHandshake_of_parts (hsplit : splitHostPort addr = .ok (host, port))
    (hip : destinationIP P host = .ok ip) :
    clientHandshake P addr cmdConnect userID = (do
      send (req cmdConnect port ip userID host)
      let resp ← readInto (List.replicate 8 0) 0 8
      match checkReply resp with
      | .error err => throw err
      | .ok () => pure ()) := by
  rw [clientHandshake, if_neg (by decide), hsplit]
  dsimp only
  rw [hip]

theorem clientHandshake_of_error (userID : List Byte)
    (h : (∃ err, splitHostPort addr = .error err) ∨
      ∃ host port err, splitHostPort addr = .ok (host, port) ∧ destinationIP P host = .error err) :
    ∃ err, clientHandshake P addr cmdConnect userID = throw err := by
  rw [clientHandshake, if_neg (by decide)]
  rcases h with ⟨err, hs⟩ | ⟨host, port, err, hs, hip⟩
  · exact ⟨err, by rw [hs]⟩
  · refine ⟨err, ?_⟩
    rw [hs]
    dsimp only
    rw [hip]

/-- A reply of eight bytes is read, and not one byte more. -/
theorem clientHandshake_reply (hsplit : splitHostPort addr = .ok (host, port))
    (hip : destinationIP P host = .ok ip) {resp rest : List Byte} (hresp : resp.length = 8)
    (hS : Fragments (resp ++ rest) pieces) :
    ∃ c, Peer rest (req cmdConnect port ip userID host) c ∧
      clientHandshake P addr cmdConnect userID ⟨pieces, .fresh⟩ =
        match checkReply resp with
        | .error err => .error err c
        | .ok () => .ok () c := by
  have hpeer : Peer (resp ++ rest) [] ⟨pieces, .fresh⟩ := ⟨hS, rfl⟩
  obtain ⟨c₁, hsend, hc₁⟩ := returns_send (req cmdConnect port ip userID host) _ hpeer
  have hreads : Returns (readInto (List.replicate 8 0) 0 8) (resp ++ rest)
      (req cmdConnect port ip userID host) (resp ++ (List.replicate 8 0).drop 8) rest _ :=
    returns_readInto_zero hresp (by simp)
  obtain ⟨c₂, hread, hc₂⟩ := hreads c₁ hc₁
  refine ⟨c₂, hc₂, ?_⟩
  have hbuf : resp ++ (List.replicate 8 (0 : Byte)).drop 8 = resp := by simp
  rw [clientHandshake_of_parts hsplit hip, bind_ok hsend, bind_ok hread, hbuf]
  cases checkReply resp <;> rfl

/-- A shorter one is an error. -/
theorem clientHandshake_short (hsplit : splitHostPort addr = .ok (host, port))
    (hip : destinationIP P host = .ok ip) (hlen : S.length < 8) (hS : Fragments S pieces) :
    ∃ err c, c.wire.sent = req cmdConnect port ip userID host ∧
      clientHandshake P addr cmdConnect userID ⟨pieces, .fresh⟩ = .error err c := by
  have hpeer : Peer S [] ⟨pieces, .fresh⟩ := ⟨hS, rfl⟩
  obtain ⟨c₁, hsend, hc₁⟩ := returns_send (req cmdConnect port ip userID host) _ hpeer
  obtain ⟨err, c₂, hread, hsent⟩ := fails_readInto (i := 0) (j := 8) (by omega) c₁ hc₁
  refine ⟨err, c₂, hsent, ?_⟩
  rw [clientHandshake_of_parts hsplit hip, bind_ok hsend]
  exact bind_error hread

theorem checkReply_eq_ok {resp : List Byte} (hresp : resp.length = 8) :
    checkReply resp = .ok () ↔ ∃ six, six.length = 6 ∧ resp = [0, 90] ++ six := by
  match resp with
  | vn :: cd :: six =>
    have hsix : six.length = 6 := by simpa using hresp
    have hparts :
        (∃ six', six'.length = 6 ∧ vn :: cd :: six = [0, 90] ++ six') ↔ vn = 0 ∧ cd = 90 := by
      constructor
      · rintro ⟨six', -, h⟩
        cases h
        exact ⟨rfl, rfl⟩
      · rintro ⟨rfl, rfl⟩
        exact ⟨six, hsix, rfl⟩
    rw [hparts, checkReply, List.getD_cons_zero, List.getD_cons_succ, List.getD_cons_zero]
    by_cases hvn : vn = 0
    · by_cases hcd : cd = 90
      · simp [hvn, hcd, requestGranted]
      · rw [if_neg (not_not_intro hvn), if_neg (show ¬ cd = requestGranted from hcd)]
        refine iff_of_false ?_ fun h => hcd h.2
        split_ifs <;> simp
    · rw [if_pos hvn]
      exact iff_of_false (by simp) fun h => hvn h.1

/-- The server grants the request. -/
theorem granted_iff (hlen : 8 ≤ S.length) :
    (∃ six rest, six.length = 6 ∧ S = [0, 90] ++ six ++ rest) ↔ checkReply (S.take 8) = .ok () := by
  rw [checkReply_eq_ok (by rw [List.length_take]; omega)]
  constructor
  · rintro ⟨six, rest, hsix, rfl⟩
    exact ⟨six, hsix, List.take_left' (by simp [hsix])⟩
  · rintro ⟨six, hsix, htake⟩
    exact ⟨six, S.drop 8, hsix, by rw [← htake, List.take_append_drop]⟩

/-- What a handshake with these parts does, against any reply. -/
theorem clientHandshake_outcome (userID : List Byte)
    (hsplit : splitHostPort addr = .ok (host, port)) (hip : destinationIP P host = .ok ip)
    (hS : Fragments S pieces) :
    let out := clientHandshake P addr cmdConnect userID ⟨pieces, .fresh⟩
    (final out).wire.sent = req cmdConnect port ip userID host ∧
    ((∃ c, out = .ok () c) ↔ ∃ six rest, six.length = 6 ∧ S = [0, 90] ++ six ++ rest) ∧
    (8 ≤ S.length → Fragments (S.drop 8) (final out).src) := by
  dsimp only
  by_cases hlen : 8 ≤ S.length
  · rw [granted_iff hlen]
    rw [← List.take_append_drop 8 S] at hS
    obtain ⟨c, hc, hout⟩ := clientHandshake_reply hsplit hip (by rw [List.length_take]; omega) hS
    rw [hout]
    cases checkReply (S.take 8) with
    | error err => exact ⟨by rw [final, hc.wire], by simp, fun _ => hc.src⟩
    | ok => exact ⟨by rw [final, hc.wire], by simp, fun _ => hc.src⟩
  · obtain ⟨err, c, hsent, hout⟩ := clientHandshake_short hsplit hip (by omega) hS
    rw [hout]
    refine ⟨hsent, iff_of_false (by simp) ?_, fun h => absurd h hlen⟩
    rintro ⟨six, rest, hsix, rfl⟩
    simp [hsix] at hlen

end Handshake

/-- **A SOCKS 4A server recovers what the client meant.** For every address and every
user ID and host without zero byte, against every server stream, cut in any way: nothing
is sent exactly if the address is refused, and then there is an error. Otherwise the
bytes sent are one request by the rules of SOCKS 4A, for the port, the user ID and the
destination meant; the handshake succeeds exactly if the server's first eight bytes are
0, 90 and six more; and it reads eight bytes, if there are so many. -/
theorem clientHandshake_recovered (P : IPv6Literals T) (addr userID S : List Byte)
    (pieces : List Piece) (hS : Fragments S pieces) (huser : 0 ∉ userID)
    (hhost : ∀ host port, HostPort.split addr = .ok (host, port) → 0 ∉ host) :
    let out := clientHandshake P addr cmdConnect userID ⟨pieces, .fresh⟩
    ((final out).wire.sent = [] ↔ Refused P addr) ∧
    (Refused P addr → ∃ err, out = .error err ⟨pieces, .fresh⟩) ∧
    (¬ Refused P addr →
      (∃ host portStr port, HostPort.split addr = .ok (host, portStr) ∧
        parseUint 65535 portStr = .ok port ∧
        Codec.Decoder.all Server.request (final out).wire.sent =
          some ⟨cmdConnect, port, destination P host, userID⟩) ∧
      ((∃ c, out = .ok () c) ↔ ∃ six rest, six.length = 6 ∧ S = [0, 90] ++ six ++ rest) ∧
      (8 ≤ S.length → Fragments (S.drop 8) (final out).src)) := by
  intro out
  rcases refused_or_parts P addr with
    ⟨hrefused, herror⟩ | ⟨hrefused, host, portStr, portInt, ip, hs, hp, hip⟩
  · obtain ⟨err, hthrow⟩ := clientHandshake_of_error userID herror
    have hout : out = .error err ⟨pieces, .fresh⟩ := congrFun hthrow _
    refine ⟨iff_of_true ?_ hrefused, fun _ => ⟨err, hout⟩, fun h => absurd hrefused h⟩
    rw [hout]
    rfl
  · have hsplit := splitHostPort_of_ok hs hp
    have hport : (UInt16.ofNat portInt).toNat = portInt :=
      UInt16.toNat_ofNat_of_lt' (Nat.lt_succ_of_le (parseUint_eq_ok.mp hp).2.2.2)
    have hread : Codec.Decoder.all Server.request
        (req cmdConnect (UInt16.ofNat portInt) ip userID host) =
          some ⟨cmdConnect, portInt, destination P host, userID⟩ := by
      rw [all_request cmdConnect huser (hhost host portStr hs), hport, destination_of_ok hip]
    have hout := clientHandshake_outcome userID hsplit hip hS
    refine ⟨iff_of_false ?_ hrefused, fun h => absurd h hrefused, fun _ =>
      ⟨⟨host, portStr, portInt, hs, hp, by rw [hout.1, hread]⟩, hout.2⟩⟩
    rw [hout.1]
    simp [req]

theorem clientHandshake_recovered_name :
    let out := clientHandshake .decimal (ascii "a.b:80") cmdConnect (ascii "me")
      ⟨[⟨[0], none⟩, ⟨[90, 0, 0, 0, 0, 0, 0, 7], none⟩], .fresh⟩
    Codec.Decoder.all Server.request (final out).wire.sent =
      some ⟨cmdConnect, 80, .host (ascii "a.b"), ascii "me"⟩ ∧ ∃ c, out = .ok () c := by
  have hS : Fragments [0, 90, 0, 0, 0, 0, 0, 0, 7]
      [⟨[0], none⟩, ⟨[90, 0, 0, 0, 0, 0, 0, 7], none⟩] :=
    .cons [0] (.cons [90, 0, 0, 0, 0, 0, 0, 7] .nil)
  have hsplit : HostPort.split (ascii "a.b:80") = .ok (ascii "a.b", ascii "80") := by decide
  have hhost : ∀ host port, HostPort.split (ascii "a.b:80") = .ok (host, port) → 0 ∉ host := by
    intro host port h
    rw [hsplit] at h
    cases h
    decide
  obtain ⟨hsent, -, hmeant⟩ :=
    clientHandshake_recovered .decimal (ascii "a.b:80") (ascii "me") _ _ hS (by decide) hhost
  obtain ⟨⟨host, portStr, port, hs, hp, hread⟩, hok, -⟩ := hmeant (hsent.not.mp (by decide +kernel))
  rw [hsplit] at hs
  cases hs
  have hport : parseUint 65535 (ascii "80") = .ok 80 := by decide
  rw [hport] at hp
  cases hp
  exact ⟨hread, hok.mpr ⟨[0, 0, 0, 0, 0, 0], [7], rfl, rfl⟩⟩

end Tun2socks.Socks4
