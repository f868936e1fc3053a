import Tun2socks.Go.Bufio
import Tun2socks.Go.Session
import Tun2socks.Metadata

/-!
# Tun2socks.Http.Connect

The `CONNECT` handshake of the HTTP proxy.

`shakeHand` reads the proxy's answer through a `bufio.Reader` that it throws away when
it returns. Whatever that reader has taken from the connection beyond the head of the
answer is gone: the tunnel begins after it. So nothing is lost exactly when the reader
has not read past the head (`connect_keeps_rest_iff`). Either the transport delivers no
byte of the tunnel together with the last byte of the head, or the head is so long that
the buffer is full right at its end.

What `net/http` makes of a request and of the head of a response is a parameter,
`Library`.
-/

namespace Tun2socks.Http

open Tun2socks.Go

/-- The fields of an `http.Request` that the proxy sets. -/
structure Request where
  method : String
  host : String
  header : List (String × String)

/-- The fields of an `http.Response` that the proxy reads. -/
structure Response where
  statusCode : Nat
  status : String

/-- The library functions the handshake rests on: the bytes of `Request.Write`,
`base64.StdEncoding`, and what the head of a response says. -/
structure Library where
  write : Request → List Byte
  encodeToString : String → String
  response : List Byte → Except Error Response

/-- `HTTP`: the proxy. -/
structure HTTP where
  addr : String
  user : String
  pass : String

/-- `basicAuth`. -/
def basicAuth (lib : Library) (username password : String) : String :=
  lib.encodeToString (username ++ ":" ++ password)

/-- An end of the stream inside a response is unexpected. -/
def noEOF (err : Error) : Error := if err = .eof then .unexpectedEOF else err

/-- The part of `http.ReadResponse` that reads: a status line, and header lines up to a
blank one. -/
def readHead (b : BufReader) : Except Error (List Byte) × BufReader :=
  match b.readLine [] with
  | (.error err, b) => (.error (noEOF err), b)
  | (.ok status, b) =>
    match b.readBlock status with
    | (.error err, b) => (.error (noEOF err), b)
    | (.ok head, b) => (.ok head, b)

/-- `http.ReadResponse(bufio.NewReader(rw), req)`. The reader is not kept: of what it
has done only the reads on the connection remain. -/
def readResponse (lib : Library) : Session Response := fun c =>
  match readHead (.new c.src) with
  | (.error err, b) => .error err { c with src := b.src }
  | (.ok head, b) =>
    match lib.response head with
    | .error err => .error err { c with src := b.src }
    | .ok resp => .ok resp { c with src := b.src }

namespace HTTP

/-- The request that `shakeHand` makes. -/
def request (lib : Library) (T : IPv6Text) (h : HTTP) (m : Metadata) : Request where
  method := "CONNECT"
  host := m.destinationAddress T
  header := ("Proxy-Connection", "Keep-Alive") ::
    if h.user ≠ "" ∧ h.pass ≠ "" then
      [("Proxy-Authorization", "Basic " ++ basicAuth lib h.user h.pass)]
    else []

/-- `HTTP.shakeHand`. -/
def shakeHand (lib : Library) (T : IPv6Text) (h : HTTP) (m : Metadata) : Session Unit := do
  Session.send (lib.write (h.request lib T m))
  let resp ← readResponse lib
  if resp.statusCode = 200 then pure ()
  else if resp.statusCode = 407 then throw (.new "HTTP auth required by proxy")
  else if resp.statusCode = 405 then throw (.new "CONNECT method not allowed by proxy")
  else throw (.new ("HTTP connect status: " ++ resp.status))

end HTTP

/-- What `DialContext` returns, and whether it has closed the connection. -/
structure Dialed where
  conn : Option Conn
  closed : Bool
  err : Option Error

/-- `HTTP.DialContext`, given the outcome of dialing the proxy. -/
def HTTP.dialContext (lib : Library) (T : IPv6Text) (h : HTTP) (m : Metadata)
    (dial : Except Error Conn) : Dialed :=
  match dial with
  | .error err => ⟨none, false, some (.new ("connect to " ++ h.addr ++ ": " ++ err.text))⟩
  | .ok c =>
    match h.shakeHand lib T m c with
    | .ok _ c => ⟨some c, false, none⟩
    | .error err c => ⟨some c, true, some err⟩

/-! ### Reading the head -/

/-- The form of a response head: a status line, header lines, and a blank line. -/
def IsHead (H : List Byte) : Prop :=
  ∃ status B, H = status ++ B ∧ IsLine status ∧ BufReader.Block B

/-- `http.ReadResponse` consumes exactly `H`. -/
def Consumes (H : List Byte) (pieces : List Piece) : Prop := (readHead (.new pieces)).1 = .ok H

/-- What the reader of the handshake has taken from the connection and not used. -/
def buffered (pieces : List Piece) : List Byte := (readHead (.new pieces)).2.buf

/-- The transport has a read that ends with the head: a piece ends there. -/
def EndsAt (H : List Byte) (pieces : List Piece) : Prop :=
  ∃ ps qs, pieces = ps ++ qs ∧ ps.flatMap Piece.data = H

/-- The piece that goes past the head is cut at its end by the buffer: from where the piece
begins, reads of as much as the buffer has room for lead there. -/
def CutAt (H : List Byte) (pieces : List Piece) : Prop :=
  ∃ ps d e qs j, pieces = ps ++ ⟨d, e⟩ :: qs ∧ H.length ≤ (ps.flatMap Piece.data ++ d).length ∧
    (BufReader.refill H)^[j] (ps.flatMap Piece.data).length = H.length

section Head

variable {H rest : List Byte} {pieces : List Piece}

/-- The reads of the handshake are going to stop at the end of the head. -/
theorem stops_of_endsAt_or_cutAt (h : EndsAt H pieces ∨ CutAt H pieces) :
    BufReader.Stops (H ++ rest) H.length [] pieces := by
  rcases h with ⟨ps, qs, hps, hdata⟩ | ⟨ps, d, e, qs, j, hps, hle, hj⟩
  · exact .inl ⟨ps, qs, hps, by rw [List.nil_append, hdata]⟩
  · refine .inr ⟨ps, d, e, qs, j, hps, by rwa [List.nil_append], ?_⟩
    rw [List.nil_append, BufReader.refill_append_iff, hj]

/-- Reads that have stopped there have left the buffer empty. -/
theorem buf_eq_nil_of_stops {b : BufReader}
    (h : BufReader.Stops (H ++ rest) H.length (H ++ b.buf) b.src) : b.buf = [] := by
  rw [← List.length_eq_zero_iff]
  rcases h with ⟨us, qs, -, hn⟩ | ⟨us, d, e, qs, j, -, -, hj⟩
  · simp only [List.length_append] at hn
    omega
  · have hle := BufReader.le_refill (H ++ rest) j (H ++ b.buf ++ us.flatMap Piece.data).length
    simp only [List.length_append] at hle hj
    omega

/-- Whatever the transport does, a head that has been consumed. -/
theorem readHead_follows {b : BufReader} (hfr : Fragments (H ++ rest) pieces)
    (h : readHead (.new pieces) = (.ok H, b)) :
    b.Follows pieces (H ++ rest) H ∧ (EndsAt H pieces → b.buf = []) := by
  unfold readHead at h
  split at h
  · cases h
  next status b₁ hline =>
    split at h
    · cases h
    next B b₂ hblock =>
      obtain ⟨hB, rfl⟩ := Prod.mk.inj h
      obtain rfl := Except.ok.inj hB
      obtain ⟨status, rfl, hfollows₁, hends₁⟩ :=
        BufReader.readLine_follows hline (BufReader.follows_new hfr)
      obtain ⟨B, rfl, hfollows, hends⟩ := BufReader.readBlock_follows hblock hfollows₁
      refine ⟨hfollows, ?_⟩
      rintro ⟨ps, qs, hps, hdata⟩
      -- neither the status line nor the block after it goes past the head
      have hstatus := hends₁ _ ⟨ps, qs, hps, congrArg List.length hdata⟩
      have hblock := hends _ (hstatus.resolve_right (by simp))
      obtain ⟨us, -, -, hn⟩ := hblock.resolve_right (Nat.lt_irrefl _)
      simp only [List.length_append] at hn
      exact List.eq_nil_of_length_eq_zero (by omega)

theorem readHead_spec (hH : IsHead H) (hfr : Fragments (H ++ rest) pieces)
    (hsteady : BufReader.Steady pieces) :
    ∃ b, readHead (.new pieces) = (.ok H, b) ∧ b.Reads pieces (H ++ rest) H ∧
      (EndsAt H pieces ∨ CutAt H pieces → b.buf = []) := by
  obtain ⟨status, B, rfl, hstatus, hB⟩ := hH
  obtain ⟨b₁, hline, hreads₁, hstops₁⟩ := BufReader.readLine_spec [] hstatus
    (BufReader.reads_new hfr hsteady) (List.append_assoc status B rest)
  obtain ⟨b, hblock, hreads, hstops⟩ := BufReader.readBlock_spec status hB hreads₁
    (List.append_assoc status B rest)
  refine ⟨b, ?_, hreads, fun hends => ?_⟩
  · rw [List.nil_append] at hline
    rw [readHead, hline]
    dsimp only
    rw [hblock]
  · have hle : ([] ++ status).length ≤ (status ++ B).length := by simp
    exact buf_eq_nil_of_stops (hstops _ le_rfl (hstops₁ _ hle (stops_of_endsAt_or_cutAt hends)))

/-- Behind the head, the buffer comes before what the connection still delivers. -/
theorem fragments_behind_head {b : BufReader} (h : b.Follows pieces (H ++ rest) H) :
    ∃ t, rest = b.buf ++ t ∧ Fragments t b.src := by
  obtain ⟨t, ht, hfr⟩ := h.stream
  rw [List.append_assoc] at ht
  exact ⟨t, (List.append_cancel_left ht).symm, hfr⟩

theorem fragments_rest_iff {b : BufReader} (h : b.Follows pieces (H ++ rest) H) :
    Fragments rest b.src ↔ b.buf = [] := by
  obtain ⟨t, rfl, hfr⟩ := fragments_behind_head h
  constructor
  · intro hrest
    have hsame : b.buf ++ t = t := hrest.flatMap_data.symm.trans hfr.flatMap_data
    exact List.append_left_eq_self.mp hsame
  · intro hbuf
    rwa [hbuf]

/-- If the reads for a head shorter than the buffer do not go past it, the last of them ends
with a piece. -/
theorem endsAt_of_buf_eq_nil {b : BufReader} (h : b.Follows pieces (H ++ rest) H)
    (hlt : H.length < bufioSize) (hbuf : b.buf = []) : EndsAt H pieces := by
  have hposition := h.position
  rw [hbuf, List.append_nil] at hposition
  rcases hposition with ⟨ps, hps, hdata⟩ | hlong
  · exact ⟨ps, b.src, hps, hdata⟩
  · exact absurd hlong (Nat.not_le_of_lt hlt)

/-- Reads that do not go past the head end with a piece or with the buffer. -/
theorem endsAt_or_cutAt_of_buf_eq_nil {b : BufReader} (h : b.Reads pieces (H ++ rest) H)
    (hbuf : b.buf = []) : EndsAt H pieces ∨ CutAt H pieces := by
  have hreached := h.reached
  rw [hbuf, List.append_nil] at hreached
  rcases hreached with ⟨ps, hps, hdata⟩ | ⟨ps, d, e, qs, k, j, hps, -, -, hH, hj⟩
  · exact .inl ⟨ps, b.src, hps, hdata⟩
  · refine .inr ⟨ps, d, e, qs, j, hps, ?_, (BufReader.refill_append_iff H rest j _).mp hj⟩
    rw [hH, List.length_append, List.length_append, List.length_take]
    omega

end Head

/-! ### The handshake -/

theorem readResponse_ok {lib : Library} {c : Conn} {H : List Byte} {b : BufReader} {resp : Response}
    (hread : readHead (.new c.src) = (.ok H, b)) (hresp : lib.response H = .ok resp) :
    readResponse lib c = .ok resp { c with src := b.src } := by
  rw [readResponse, hread]
  dsimp only
  rw [hresp]

/-- A proxy that answers `200` is connected to, and of its reads only those for the head
have been made. -/
theorem dialContext_ok (lib : Library) (T : IPv6Text) (h : HTTP) (m : Metadata)
    {H : List Byte} {pieces : List Piece} {b : BufReader} {status : String}
    (hread : readHead (.new pieces) = (.ok H, b)) (hresp : lib.response H = .ok ⟨200, status⟩) :
    h.dialContext lib T m (.ok ⟨pieces, .fresh⟩) =
      ⟨some ⟨b.src, ⟨lib.write (h.request lib T m), []⟩⟩, false, none⟩ := by
  have hsend : Session.send (lib.write (h.request lib T m)) ⟨pieces, .fresh⟩ =
      .ok () ⟨pieces, ⟨lib.write (h.request lib T m), []⟩⟩ := rfl
  have hshake : h.shakeHand lib T m ⟨pieces, .fresh⟩ =
      .ok () ⟨b.src, ⟨lib.write (h.request lib T m), []⟩⟩ :=
    (Session.bind_ok hsend).trans (Session.bind_ok (readResponse_ok hread hresp))
  simp only [HTTP.dialContext, hshake]

/-- **What the handshake leaves of the tunnel.** For every head of a `200` answer, everything
that follows it, and every way in which the transport cuts the two. If the transport does not
answer nothing a hundred times in a row, the head is consumed and the connection established.
Whenever these two are so, the reads on the connection yield what follows the bytes that the
discarded reader has buffered. They yield all of `rest` exactly when it has buffered none. That
is the case if a piece of the transport ends with the head, and for a head shorter than the
buffer in no other case. For a longer one, over a transport that does not stall, it is the case
as well if the buffer cuts a piece there. -/
theorem connect_keeps_rest_iff (lib : Library) (T : IPv6Text) (h : HTTP) (m : Metadata)
    {H rest : List Byte} {pieces : List Piece} {status : String} (hH : IsHead H)
    (hresp : lib.response H = .ok ⟨200, status⟩) (hfr : Fragments (H ++ rest) pieces) :
    (BufReader.Steady pieces → Consumes H pieces ∧
      ∃ c, h.dialContext lib T m (.ok ⟨pieces, .fresh⟩) = ⟨some c, false, none⟩) ∧
    ∀ c, h.dialContext lib T m (.ok ⟨pieces, .fresh⟩) = ⟨some c, false, none⟩ →
      Consumes H pieces →
        (∃ t, rest = buffered pieces ++ t ∧ Fragments t c.src) ∧
        (Fragments rest c.src ↔ buffered pieces = []) ∧
        (EndsAt H pieces → Fragments rest c.src) ∧
        (H.length < bufioSize → (Fragments rest c.src ↔ EndsAt H pieces)) ∧
        (BufReader.Steady pieces →
          (Fragments rest c.src ↔ EndsAt H pieces ∨ CutAt H pieces)) := by
  constructor
  · intro hsteady
    obtain ⟨b, hread, -⟩ := readHead_spec hH hfr hsteady
    exact ⟨congrArg Prod.fst hread, _, dialContext_ok lib T h m hread hresp⟩
  · intro c hdial hconsumes
    obtain ⟨b, hread⟩ : ∃ b, readHead (.new pieces) = (.ok H, b) := ⟨_, Prod.ext hconsumes rfl⟩
    obtain ⟨hfollows, hends⟩ := readHead_follows hfr hread
    have hbuffered : buffered pieces = b.buf := by rw [buffered, hread]
    have hkeeps : Fragments rest b.src ↔ b.buf = [] := fragments_rest_iff hfollows
    rw [dialContext_ok lib T h m hread hresp] at hdial
    obtain rfl := Option.some.inj (Dialed.mk.inj hdial).1
    refine ⟨?_, ?_, fun hend => hkeeps.mpr (hends hend),
      fun hlt => hkeeps.trans ⟨endsAt_of_buf_eq_nil hfollows hlt, hends⟩, fun hsteady => ?_⟩
    · rw [hbuffered]
      exact fragments_behind_head hfollows
    · rw [hbuffered]
      exact hkeeps
    · obtain ⟨b', hread', hreads, hstops⟩ := readHead_spec hH hfr hsteady
      obtain rfl : b' = b := (Prod.mk.inj (hread'.symm.trans hread)).2
      exact hkeeps.trans ⟨endsAt_or_cutAt_of_buf_eq_nil hreads, hstops⟩

/-- `HTTP/1.1 200 OK`, no headers. -/
def okHead : List Byte :=
  [72, 84, 84, 80, 47, 49, 46, 49, 32, 50, 48, 48, 32, 79, 75, 13, 10] ++ [13, 10]

theorem isHead_okHead : IsHead okHead :=
  ⟨_, _, rfl, ⟨[72, 84, 84, 80, 47, 49, 46, 49, 32, 50, 48, 48, 32, 79, 75, 13], rfl, by decide⟩,
    .blank ⟨[13], rfl, by decide⟩ rfl⟩

/-- A stand-in for the library that knows this one answer. -/
def okLibrary : Library where
  write r := (r.method ++ " " ++ r.host).toList.map fun c => UInt8.ofNat c.toNat
  encodeToString s := s
  response H :=
    if H = okHead then .ok ⟨200, "200 OK"⟩ else .error (.new "malformed HTTP response")

theorem okLibrary_response : okLibrary.response okHead = .ok ⟨200, "200 OK"⟩ := by
  simp [okLibrary]

/-- A server that speaks first, with a transport that delivers the proxy's answer alone:
the greeting arrives. -/
theorem connect_keeps_greeting :
    ∃ c, HTTP.dialContext okLibrary .decimal ⟨"proxy:80", "", ""⟩ ⟨.v4 ⟨[10, 0, 0, 1], rfl⟩, 25⟩
        (.ok ⟨[⟨okHead, none⟩, ⟨[50, 50, 48], none⟩], .fresh⟩) = ⟨some c, false, none⟩ ∧
      Fragments [50, 50, 48] c.src := by
  obtain ⟨hdials, hkeeps⟩ := connect_keeps_rest_iff okLibrary .decimal
    ⟨"proxy:80", "", ""⟩ ⟨.v4 ⟨[10, 0, 0, 1], rfl⟩, 25⟩ isHead_okHead
    okLibrary_response (.cons okHead (.cons [50, 50, 48] .nil))
  obtain ⟨hconsumes, c, hdial⟩ := hdials (BufReader.steady_of_length_lt (by decide))
  obtain ⟨-, -, hends, -⟩ := hkeeps c hdial hconsumes
  exact ⟨c, hdial, hends ⟨[⟨okHead, none⟩], _, rfl, rfl⟩⟩

/-- The same server, when one read delivers the answer and the greeting: the greeting is
lost. -/
theorem connect_loses_greeting :
    IsHead okHead ∧ okLibrary.response okHead = .ok ⟨200, "200 OK"⟩ ∧
    Fragments (okHead ++ [50, 50, 48]) [⟨okHead ++ [50, 50, 48], none⟩] ∧
    ∃ c, HTTP.dialContext okLibrary .decimal ⟨"proxy:80", "", ""⟩ ⟨.v4 ⟨[10, 0, 0, 1], rfl⟩, 25⟩
        (.ok ⟨[⟨okHead ++ [50, 50, 48], none⟩], .fresh⟩) = ⟨some c, false, none⟩ ∧
      c.src.flatMap Piece.data = [] := by
  have hfr : Fragments (okHead ++ [50, 50, 48]) [⟨okHead ++ [50, 50, 48], none⟩] := by
    simpa using Fragments.cons (okHead ++ [50, 50, 48]) .nil
  obtain ⟨b, hread, hreads, -⟩ :=
    readHead_spec isHead_okHead hfr (BufReader.steady_of_length_lt (by decide))
  refine ⟨isHead_okHead, okLibrary_response, hfr, _,
    dialContext_ok okLibrary .decimal _ _ hread okLibrary_response, ?_⟩
  rcases hreads.position with ⟨ps, hps, hdata⟩ | hlong
  · -- the one piece has been taken
    cases ps with
    | nil => cases hdata
    | cons p ps =>
      obtain ⟨-, hsrc⟩ := List.append_eq_nil_iff.mp (List.cons.inj hps).2.symm
      rw [hsrc]
      rfl
  · -- it is too short to be cut by the buffer
    obtain ⟨t, ht, -⟩ := fragments_behind_head hreads.toFollows
    have := congrArg List.length ht
    simp only [okHead, bufioSize, List.length_append, List.length_cons, List.length_nil]
      at this hlong
    omega

end Tun2socks.Http
