import Tun2socks.Go.Session
import Tun2socks.Socks5.Addr

/-!
# Tun2socks.Socks5.Handshake

Model of `ClientHandshake` and `ReadAddr` of `transport/socks5/socks5.go`.

The one scratch buffer the stages share is part of the model. The method stage is
described by `Negotiates`, and a whole handshake by `Grammar`; the program is shown to
return exactly on the streams of the grammar, to leave exactly what follows them, and to
send nothing early.
-/

namespace Tun2socks.Socks5

open Tun2socks.Go Tun2socks.Go.Session

/-- `MaxAuthLen`. -/
def maxAuthLen : Nat := 255

/-- `Command.String`. -/
def commandString (c : Byte) : String :=
  if c = 0x01 then "CONNECT"
  else if c = 0x02 then "BIND"
  else if c = 0x03 then "UDP ASSOCIATE"
  else "UNDEFINED"

/-- `%#02x` of a byte. -/
def hexByte (b : Byte) : String :=
  "0x" ++ String.ofList [Nat.digitChar (b.toNat / 16), Nat.digitChar (b.toNat % 16)]

/-- `Reply.String`. -/
def replyString (r : Byte) : String :=
  if r = 0x00 then "succeeded"
  else if r = 0x01 then "general SOCKS server failure"
  else if r = 0x02 then "connection not allowed by ruleset"
  else if r = 0x03 then "network unreachable"
  else if r = 0x04 then "host unreachable"
  else if r = 0x05 then "connection refused"
  else if r = 0x06 then "TTL expired"
  else if r = 0x07 then "command not supported"
  else if r = 0x08 then "address type not supported"
  else "unassigned <" ++ hexByte r ++ ">"

/-- `User`. -/
structure User where
  username : List Byte
  password : List Byte

/-- The RFC 1929 message. -/
def authMsg (u : User) : List Byte :=
  [0x01, UInt8.ofNat u.username.length] ++ u.username ++ [UInt8.ofNat u.password.length] ++
    u.password

/-- The branch of `ClientHandshake` for method 2. -/
def authenticate (user : Option User) (buf : List Byte) : Session (List Byte) :=
  match user with
  | none => throw (.new "auth required")
  | some u =>
    if u.username.length = 0 ∨ u.password.length = 0 then
      throw (.new "auth username/password empty")
    else if u.username.length > maxAuthLen ∨ u.password.length > maxAuthLen then
      throw (.new "auth username/password too long")
    else do
      send (authMsg u)
      let buf ← readInto buf 0 2
      if buf.getD 1 0 ≠ 0x00 then throw (.new "rejected username/password") else pure buf

/-- The method stage of `ClientHandshake`. -/
def negotiate (user : Option User) (buf : List Byte) : Session (List Byte) := do
  let buf ← readInto buf 0 2
  if buf.getD 0 0 ≠ version then throw (.new "socks version mismatched")
  else if buf.getD 1 0 = methodUserPass then authenticate user buf
  else if buf.getD 1 0 ≠ methodNoAuth then throw (.new "unsupported method")
  else pure buf

/-- `ReadAddr(r, b)`. -/
def readAddr (b : List Byte) : Session Addr :=
  if b.length < maxAddrLen then throw .shortBuffer
  else do
    let b ← readInto b 0 1
    if b.getD 0 0 = atypDomainName then do
      let b ← readInto b 1 2
      let domainLength := (b.getD 1 0).toNat
      let b ← readInto b 2 (2 + domainLength + 2)
      pure (b.take (1 + 1 + domainLength + 2))
    else if b.getD 0 0 = atypIPv4 then do
      let b ← readInto b 1 (1 + ipv4len + 2)
      pure (b.take (1 + ipv4len + 2))
    else if b.getD 0 0 = atypIPv6 then do
      let b ← readInto b 1 (1 + ipv6len + 2)
      pure (b.take (1 + ipv6len + 2))
    else throw (.new "invalid address type")

/-- The method offered. -/
def offered (user : Option User) : Byte :=
  match user with
  | some _ => methodUserPass
  | none => methodNoAuth

/-- `ClientHandshake`. -/
def clientHandshake (addr : Addr) (command : Byte) (user : Option User) : Session Addr := do
  send [version, 0x01, offered user]
  let buf ← negotiate user (List.replicate maxAddrLen 0)
  send ([version, command, 0x00] ++ addr)
  let buf ← readInto buf 0 3
  if buf.getD 1 0 ≠ 0x00 then
    throw (.new (commandString command ++ ": " ++ replyString (buf.getD 1 0)))
  else readAddr buf

/-! ### Reading an address -/

section ReadAddr

variable {a : Addr} {S sent buf : List Byte}

/-- The last step: the rest of the address is read behind its first bytes `h`. -/
theorem returns_rest {h body tail : List Byte} {i j : Nat} (hi : h.length = i)
    (hj : i + body.length = j) (htail : j ≤ i + tail.length) :
    Returns (do let b ← readInto (h ++ tail) i j; pure (b.take j)) (body ++ S) sent
      (h ++ body) S sent := by
  refine (returns_readInto hj (by rw [List.length_append, hi]; exact htail)).bind ?_
  have htake : ((h ++ tail).take i ++ body ++ (h ++ tail).drop j).take j = h ++ body := by
    rw [List.take_left' hi]
    exact List.take_left' (by rw [List.length_append, hi, hj])
  rw [htake]
  exact Returns.pure

/-- A complete address is read, and not one byte more. -/
theorem returns_readAddr (ha : Complete a) (hbuf : maxAddrLen ≤ buf.length) :
    Returns (readAddr buf) (a ++ S) sent a S sent := by
  have hlen : 259 ≤ buf.length := hbuf
  rw [readAddr, if_neg (Nat.not_lt.mpr hbuf)]
  cases ha with
  | ipv4 ip hi lo =>
    refine (returns_readInto_zero (d := [atypIPv4]) rfl (by simp; omega)).bind ?_
    exact returns_rest (h := [atypIPv4]) rfl (by simp [ip.2, ipv4len])
      (by simp [ipv4len]; omega)
  | domainName len name hi lo =>
    have hname := len.toNat_lt
    refine (returns_readInto_zero (d := [atypDomainName]) rfl (by simp; omega)).bind ?_
    refine (returns_readInto (d := [len]) (i := 1) rfl (by simp; omega)).bind ?_
    exact returns_rest (h := [atypDomainName, len]) rfl (by simp [name.2]; omega)
      (by simp; omega)
  | ipv6 ip hi lo =>
    refine (returns_readInto_zero (d := [atypIPv6]) rfl (by simp; omega)).bind ?_
    exact returns_rest (h := [atypIPv6]) rfl (by simp [ip.2, ipv6len])
      (by simp [ipv6len]; omega)

/-- Nothing else is. -/
theorem fails_readAddr (hS : splitAddr S = none) (hbuf : maxAddrLen ≤ buf.length) :
    Fails (readAddr buf) S sent sent := by
  have hlen : 259 ≤ buf.length := hbuf
  rw [readAddr, if_neg (Nat.not_lt.mpr hbuf)]
  cases S with
  | nil => exact (fails_readInto (by simp)).bind
  | cons atyp body =>
    refine (returns_readInto_zero (d := [atyp]) rfl (by simp; omega)).bind_fails ?_
    -- what is missing, by the type of the address
    have hshort : ∀ {len}, addrLen (atyp :: body) = some len → body.length + 1 < len := by
      intro len hlen
      rw [splitAddr, hlen] at hS
      dsimp only at hS
      split at hS
      · assumption
      · cases hS
    simp only [List.singleton_append, List.getD_cons_zero]
    by_cases hd : atyp = atypDomainName
    · subst hd
      rw [if_pos rfl]
      cases body with
      | nil => exact (fails_readInto (by simp)).bind
      | cons len body =>
        refine (returns_readInto (d := [len]) (i := 1) rfl (by simp; omega)).bind_fails ?_
        have hlen := hshort (addrLen_domainName len body)
        rw [List.length_cons] at hlen
        exact (fails_readInto (show 2 + body.length < 2 + len.toNat + 2 by omega)).bind
    · rw [if_neg hd]
      by_cases h4 : atyp = atypIPv4
      · subst h4
        rw [if_pos rfl]
        have hlen := hshort (addrLen_ipv4 body)
        exact (fails_readInto (show 1 + body.length < 1 + ipv4len + 2 by omega)).bind
      · rw [if_neg h4]
        by_cases h6 : atyp = atypIPv6
        · subst h6
          rw [if_pos rfl]
          have hlen := hshort (addrLen_ipv6 body)
          exact (fails_readInto (show 1 + body.length < 1 + ipv6len + 2 by omega)).bind
        · rw [if_neg h6]
          exact Fails.throw

/-- **The stream parser and the slice parser agree.** For every byte string, every way
a reader cuts it before it reports the end, and every buffer that is large enough:
`ReadAddr` succeeds exactly if `SplitAddr` does, and then both return the same bytes,
of which there are at most `MaxAddrLen` and which are all that `ReadAddr` has consumed.
What follows an accepted address does not matter. -/
theorem readAddr_agrees_splitAddr :
    (∀ (s : List Byte) (ps : List Piece) (buf : List Byte), Fragments s ps →
      maxAddrLen ≤ buf.length →
      ((∃ a c, readAddr buf ⟨ps, .fresh⟩ = .ok a c) ↔ splitAddr s ≠ none) ∧
      ∀ a c, readAddr buf ⟨ps, .fresh⟩ = .ok a c →
        splitAddr s = some a ∧ (∃ rest, s = a ++ rest ∧ Fragments rest c.src) ∧
          a.length ≤ maxAddrLen) ∧
    ∀ s a, splitAddr s = some a → ∀ t, splitAddr (a ++ t) = some a := by
  refine ⟨fun s ps buf hfr hbuf => ?_, fun s a h t =>
    splitAddr_eq_some.mpr ⟨(splitAddr_eq_some.mp h).1, t, rfl⟩⟩
  have hpeer : Peer s [] ⟨ps, .fresh⟩ := ⟨hfr, rfl⟩
  cases hs : splitAddr s with
  | none =>
    obtain ⟨err, c', hfail, -⟩ := fails_readAddr hs hbuf _ hpeer
    rw [hfail]
    refine ⟨⟨?_, fun h => absurd rfl h⟩, ?_⟩
    · rintro ⟨a, c, h⟩
      cases h
    · intro a c h
      cases h
  | some a =>
    obtain ⟨ha, rest, rfl⟩ := splitAddr_eq_some.mp hs
    obtain ⟨c', hret, hpeer'⟩ := returns_readAddr ha hbuf _ hpeer
    rw [hret]
    refine ⟨⟨fun _ => Option.some_ne_none a, fun _ => ⟨a, c', rfl⟩⟩, ?_⟩
    rintro a₁ c₁ h
    cases h
    exact ⟨rfl, ⟨rest, rfl, hpeer'.src⟩, ha.length_le⟩

end ReadAddr

/-! ### The method stage -/

/-- Both fields have a length that fits the message. -/
def User.Valid (u : User) : Prop :=
  1 ≤ u.username.length ∧ u.username.length ≤ 255 ∧
    1 ≤ u.password.length ∧ u.password.length ≤ 255

/-- The server chooses a method and accepts: the bytes it sends for that, the
credentials sent to it, and what follows. -/
inductive Negotiates (user : Option User) : List Byte → List Byte → List Byte → Prop
  | noAuth (rest : List Byte) : Negotiates user ([5, 0] ++ rest) [] rest
  | userPass (u : User) (v : Byte) (rest : List Byte) (huser : user = some u) (hvalid : u.Valid) :
      Negotiates user ([5, 2] ++ [v, 0] ++ rest) (authMsg u) rest

section Negotiate

variable {user : Option User} {S auth rest buf : List Byte}

theorem authenticate_of_valid {u : User} (hu : u.Valid) (buf : List Byte) :
    authenticate (some u) buf = (do
      send (authMsg u)
      let buf ← readInto buf 0 2
      if buf.getD 1 0 ≠ 0x00 then throw (.new "rejected username/password") else pure buf) := by
  obtain ⟨h₁, h₂, h₃, h₄⟩ := hu
  rw [authenticate, if_neg (by omega), if_neg (by rw [maxAuthLen]; omega)]

/-- On a stream of the grammar the stage returns. -/
theorem returns_negotiate (sent : List Byte) (h : Negotiates user S auth rest)
    (hbuf : buf.length = maxAddrLen) :
    ∃ buf', buf'.length = maxAddrLen ∧
      Returns (negotiate user buf) S sent buf' rest (sent ++ auth) := by
  have hmax : maxAddrLen = 259 := rfl
  cases h with
  | noAuth rest =>
    refine ⟨[5, 0] ++ buf.drop 2, by simp [hbuf, hmax], ?_⟩
    rw [List.append_nil]
    exact (returns_readInto_zero (d := [5, 0]) rfl (by simp [hbuf, hmax])).bind Returns.pure
  | userPass u v rest huser hvalid =>
    subst huser
    refine ⟨[v, 0] ++ ([5, 2] ++ buf.drop 2).drop 2, by simp [hbuf, hmax], ?_⟩
    rw [List.append_assoc]
    refine (returns_readInto_zero (d := [5, 2]) rfl (by simp [hbuf, hmax])).bind ?_
    change Returns (authenticate (some u) ([5, 2] ++ buf.drop 2)) _ _ _ _ _
    rw [authenticate_of_valid hvalid]
    refine (returns_send (authMsg u)).bind ?_
    exact (returns_readInto_zero (d := [v, 0]) rfl (by simp [hbuf, hmax])).bind Returns.pure

/-- Credentials that do not fit the message are not sent. -/
theorem fails_authenticate_of_not_valid {u : User} (hu : ¬ u.Valid) (sent : List Byte) :
    Fails (authenticate (some u) buf) S sent sent := by
  rw [authenticate]
  split
  · exact Fails.throw
  · rw [if_pos]
    · exact Fails.throw
    · rw [User.Valid] at hu
      rw [maxAuthLen]
      omega

/-- A server that does not accept the credentials has got them. -/
theorem fails_authenticate_of_rejected {u : User} (hu : u.Valid) (sent : List Byte)
    (h : ∀ v rest, S ≠ [v, 0] ++ rest) (hbuf : buf.length = maxAddrLen) :
    Fails (authenticate (some u) buf) S sent (sent ++ authMsg u) := by
  have hmax : maxAddrLen = 259 := rfl
  rw [authenticate_of_valid hu]
  refine (returns_send (authMsg u)).bind_fails ?_
  match S with
  | [] => exact (fails_readInto (by simp)).bind
  | [x] => exact (fails_readInto (by simp)).bind
  | v :: status :: rest =>
    have hstatus : status ≠ 0 := by
      rintro rfl
      exact h v rest rfl
    refine (returns_readInto_zero (d := [v, status]) rfl (by simp [hbuf, hmax])).bind_fails ?_
    change Fails (if status ≠ 0x00 then _ else _) _ _ _
    rw [if_pos hstatus]
    exact Fails.throw

/-- Credentials are sent only if the server chose method 2 and there are some to send. -/
def Asked (user : Option User) (S auth : List Byte) : Prop :=
  auth = [] ∨ (∃ S', S = [5, 2] ++ S') ∧ ∃ u, user = some u ∧ u.Valid ∧ auth = authMsg u

theorem Negotiates.asked (h : Negotiates user S auth rest) : Asked user S auth := by
  cases h with
  | noAuth => exact .inl rfl
  | userPass u v rest huser hvalid =>
    exact .inr ⟨⟨[v, 0] ++ rest, by simp⟩, u, huser, hvalid, rfl⟩

/-- On any other stream it fails, with the credentials sent only if asked for. -/
theorem fails_negotiate (sent : List Byte) (h : ∀ auth rest, ¬ Negotiates user S auth rest)
    (hbuf : buf.length = maxAddrLen) :
    ∃ auth, Fails (negotiate user buf) S sent (sent ++ auth) ∧ Asked user S auth := by
  have hmax : maxAddrLen = 259 := rfl
  have hnone : Fails (negotiate user buf) S sent sent →
      ∃ auth, Fails (negotiate user buf) S sent (sent ++ auth) ∧ Asked user S auth :=
    fun hfail => ⟨[], by rwa [List.append_nil], .inl rfl⟩
  match S with
  | [] => exact hnone (fails_readInto (by simp)).bind
  | [x] => exact hnone (fails_readInto (by simp)).bind
  | v :: m :: S =>
    have hread : Returns (readInto buf 0 2) ([v, m] ++ S) sent ([v, m] ++ buf.drop 2) S sent :=
      returns_readInto_zero rfl (by simp [hbuf, hmax])
    by_cases hv : v = version
    · subst hv
      by_cases hm : m = methodUserPass
      · subst hm
        -- everything now depends on the credentials and the server's verdict on them
        have hcont : ∀ {sent'}, Fails (authenticate user ([version, methodUserPass] ++ buf.drop 2))
            S sent sent' → Fails (negotiate user buf) ([version, methodUserPass] ++ S) sent sent' :=
          fun hfail => hread.bind_fails hfail
        cases user with
        | none => exact hnone (hcont Fails.throw)
        | some u =>
          by_cases hvalid : u.Valid
          · have hrejected : ∀ v rest, S ≠ [v, 0] ++ rest := by
              rintro v rest rfl
              exact h _ _ (.userPass u v rest rfl hvalid)
            exact ⟨authMsg u, hcont (fails_authenticate_of_rejected hvalid sent hrejected
              (by simp [hbuf, hmax])), .inr ⟨⟨S, rfl⟩, u, rfl, hvalid, rfl⟩⟩
          · exact hnone (hcont (fails_authenticate_of_not_valid hvalid sent))
      · have hm0 : m ≠ methodNoAuth := by
          rintro rfl
          exact h _ _ (.noAuth S)
        refine hnone (hread.bind_fails ?_)
        change Fails (if version ≠ version then _ else if m = methodUserPass then _ else
          if m ≠ methodNoAuth then _ else _) _ _ _
        rw [if_neg (not_not_intro rfl), if_neg hm, if_pos hm0]
        exact Fails.throw
    · refine hnone (hread.bind_fails ?_)
      change Fails (if v ≠ version then _ else _) _ _ _
      rw [if_pos hv]
      exact Fails.throw

end Negotiate

/-! ### The whole handshake -/

/-- The server streams on which a handshake succeeds: the address it ends with, what
follows, and the credentials sent. -/
def Grammar (user : Option User) (S auth : List Byte) (a : Addr) (rest : List Byte) : Prop :=
  ∃ (m : Byte) (A : List Byte) (v r : Byte),
    S = [5, m] ++ A ++ [v, 0, r] ++ a ++ rest ∧ Complete a ∧
      ((m = 0 ∧ A = [] ∧ auth = []) ∨
        (m = 2 ∧ ∃ u v', user = some u ∧ u.Valid ∧ A = [v', 0] ∧ auth = authMsg u))

section Handshake

variable {user : Option User} {S auth rest : List Byte} {a addr : Addr} {command : Byte}

theorem grammar_iff : Grammar user S auth a rest ↔
    ∃ v r, Negotiates user S auth ([v, 0, r] ++ a ++ rest) ∧ Complete a := by
  constructor
  · rintro ⟨m, A, v, r, rfl, ha, ⟨rfl, rfl, rfl⟩ | ⟨rfl, u, v', huser, hvalid, rfl, rfl⟩⟩
    · refine ⟨v, r, ?_, ha⟩
      have hneg : Negotiates user _ _ _ := .noAuth ([v, 0, r] ++ a ++ rest)
      simpa using hneg
    · refine ⟨v, r, ?_, ha⟩
      have hneg := Negotiates.userPass u v' ([v, 0, r] ++ a ++ rest) huser hvalid
      simpa using hneg
  · rintro ⟨v, r, h, ha⟩
    cases h with
    | noAuth => exact ⟨0, [], v, r, by simp, ha, .inl ⟨rfl, rfl, rfl⟩⟩
    | userPass u v' _ huser hvalid =>
      exact ⟨2, [v', 0], v, r, by simp, ha, .inr ⟨rfl, u, v', huser, hvalid, rfl, rfl⟩⟩

theorem returns_clientHandshake (h : Grammar user S auth a rest) :
    Returns (clientHandshake addr command user) S [] a rest
      ([version, 0x01, offered user] ++ auth ++ ([version, command, 0x00] ++ addr)) := by
  have hmax : maxAddrLen = 259 := rfl
  have hzero : (List.replicate maxAddrLen (0 : Byte)).length = maxAddrLen := List.length_replicate
  obtain ⟨v, r, hneg, ha⟩ := grammar_iff.mp h
  obtain ⟨buf, hbuf, hret⟩ := returns_negotiate [version, 0x01, offered user] hneg hzero
  refine (returns_send [version, 0x01, offered user]).bind (hret.bind ?_)
  refine (returns_send ([version, command, 0x00] ++ addr)).bind ?_
  rw [List.append_assoc]
  refine (returns_readInto_zero (d := [v, 0, r]) rfl (by simp [hbuf, hmax])).bind ?_
  exact returns_readAddr ha (by simp [hbuf, hmax])

/-- What a failed handshake may have sent: the offer, the credentials if the server
asked for them, and the request if it accepted. -/
def Cautious (addr : Addr) (command : Byte) (user : Option User) (S sent : List Byte) : Prop :=
  ∃ auth req, sent = [version, 0x01, offered user] ++ auth ++ req ∧
    (auth = [] ∨ (∃ S', S = [5, 2] ++ S') ∧ ∃ u, user = some u ∧ u.Valid ∧ auth = authMsg u) ∧
    (req = [] ∨ req = [version, command, 0x00] ++ addr ∧ ∃ rest, Negotiates user S auth rest)

theorem fails_clientHandshake (h : ∀ auth a rest, ¬ Grammar user S auth a rest) :
    ∃ sent, Fails (clientHandshake addr command user) S [] sent ∧
      Cautious addr command user S sent := by
  have hmax : maxAddrLen = 259 := rfl
  have hzero : (List.replicate maxAddrLen (0 : Byte)).length = maxAddrLen := List.length_replicate
  by_cases hneg : ∃ auth rest, Negotiates user S auth rest
  · -- the method stage succeeds, and the request is sent
    obtain ⟨auth, rest, hneg⟩ := hneg
    obtain ⟨buf, hbuf, hret⟩ := returns_negotiate [version, 0x01, offered user] hneg hzero
    refine ⟨[version, 0x01, offered user] ++ auth ++ ([version, command, 0x00] ++ addr), ?_,
      auth, _, rfl, hneg.asked, .inr ⟨rfl, rest, hneg⟩⟩
    refine (returns_send [version, 0x01, offered user]).bind_fails (hret.bind_fails ?_)
    refine (returns_send ([version, command, 0x00] ++ addr)).bind_fails ?_
    match rest with
    | [] => exact (fails_readInto (by simp)).bind
    | [_] => exact (fails_readInto (by simp)).bind
    | [_, _] => exact (fails_readInto (by simp)).bind
    | v :: rep :: r :: tail =>
      refine (returns_readInto_zero (d := [v, rep, r]) rfl (by simp [hbuf, hmax])).bind_fails ?_
      change Fails (if rep ≠ 0x00 then _ else _) _ _ _
      by_cases hrep : rep = 0x00
      · subst hrep
        rw [if_neg (not_not_intro rfl)]
        apply fails_readAddr _ (by simp [hbuf, hmax])
        cases hsplit : splitAddr tail with
        | none => rfl
        | some a =>
          obtain ⟨ha, rest, rfl⟩ := splitAddr_eq_some.mp hsplit
          exact absurd (grammar_iff.mpr ⟨v, r, by simpa using hneg, ha⟩) (h auth a rest)
      · rw [if_pos hrep]
        exact Fails.throw
  · obtain ⟨auth, hfail, hasked⟩ := fails_negotiate [version, 0x01, offered user]
      (fun auth rest hn => hneg ⟨auth, rest, hn⟩) hzero
    refine ⟨[version, 0x01, offered user] ++ auth, ?_, auth, [], by rw [List.append_nil], hasked,
      .inl rfl⟩
    exact (returns_send [version, 0x01, offered user]).bind_fails hfail.bind

end Handshake

/-- **`ClientHandshake` accepts exactly its grammar and reads not one byte more.** Over
a transport whose writes succeed, for every user, command and address, every server
stream and every way to cut it: the handshake returns an address exactly on the
streams of the grammar; then it is the address of the stream, what follows it is
left unread, and the offer, the credentials (if asked for) and the request have been
sent. On every other stream the request has been sent only if the method stage
succeeded, and the credentials only if the server chose method 2. -/
theorem clientHandshake_iff (addr : Addr) (command : Byte) (user : Option User)
    (S : List Byte) (pieces : List Piece) (hS : Fragments S pieces) :
    let out := clientHandshake addr command user ⟨pieces, .fresh⟩
    ((∃ a c, out = .ok a c) ↔ ∃ auth a rest, Grammar user S auth a rest) ∧
    (∀ auth a rest, Grammar user S auth a rest → ∃ c, out = .ok a c ∧ Fragments rest c.src ∧
      c.wire.sent = [5, 1, offered user] ++ auth ++ ([5, command, 0] ++ addr)) ∧
    (∀ err c, out = .error err c → Cautious addr command user S c.wire.sent) := by
  intro out
  have hpeer : Peer S [] ⟨pieces, .fresh⟩ := ⟨hS, rfl⟩
  have hok : ∀ auth a rest, Grammar user S auth a rest → ∃ c, out = .ok a c ∧
      Fragments rest c.src ∧
      c.wire.sent = [5, 1, offered user] ++ auth ++ ([5, command, 0] ++ addr) := by
    intro auth a rest hg
    obtain ⟨c, hout, hc⟩ := returns_clientHandshake hg _ hpeer
    exact ⟨c, hout, hc.src, by rw [hc.wire]; rfl⟩
  have hfail : (∀ auth a rest, ¬ Grammar user S auth a rest) →
      ∃ err c, out = .error err c ∧ Cautious addr command user S c.wire.sent := by
    intro hno
    obtain ⟨sent, hfails, hcautious⟩ := fails_clientHandshake hno
    obtain ⟨err, c, hout, hsent⟩ := hfails _ hpeer
    exact ⟨err, c, hout, by rw [hsent]; exact hcautious⟩
  refine ⟨⟨?_, ?_⟩, hok, ?_⟩
  · rintro ⟨a, c, hout⟩
    by_contra hno
    obtain ⟨err, c', herr, -⟩ := hfail fun auth a rest hg => hno ⟨auth, a, rest, hg⟩
    rw [hout] at herr
    cases herr
  · rintro ⟨auth, a, rest, hg⟩
    obtain ⟨c, hout, -⟩ := hok auth a rest hg
    exact ⟨a, c, hout⟩
  · intro err c hout
    have hno : ∀ auth a rest, ¬ Grammar user S auth a rest := by
      intro auth a rest hg
      obtain ⟨c', hout', -⟩ := hok auth a rest hg
      rw [hout] at hout'
      cases hout'
    obtain ⟨err', c', hout', hcautious⟩ := hfail hno
    rw [hout] at hout'
    cases hout'
    exact hcautious

/-- A server that wants no authentication, in one piece with the first byte of the
tunnelled stream. -/
theorem clientHandshake_noAuth :
    let S : List Byte := [5, 0] ++ [5, 0, 0] ++ [1, 127, 0, 0, 1, 0, 80] ++ [104]
    ∃ c, clientHandshake [1, 10, 0, 0, 1, 0, 53] 1 none ⟨[⟨S, none⟩], .fresh⟩ =
        .ok [1, 127, 0, 0, 1, 0, 80] c ∧ Fragments [104] c.src ∧
      c.wire.sent = [5, 1, 0] ++ ([5, 1, 0] ++ [1, 10, 0, 0, 1, 0, 53]) := by
  intro S
  have hfr : Fragments S [⟨S, none⟩] := by simpa using Fragments.cons S Fragments.nil
  exact (clientHandshake_iff [1, 10, 0, 0, 1, 0, 53] 1 none S [⟨S, none⟩] hfr).2.1 []
    [1, 127, 0, 0, 1, 0, 80] [104]
    ⟨0, [], 5, 0, rfl, .ipv4 ⟨[127, 0, 0, 1], rfl⟩ 0 80, .inl ⟨rfl, rfl, rfl⟩⟩

end Tun2socks.Socks5
