import Tun2socks.Go.Io

/-!
# Tun2socks.Go.Session

Programs that talk to a peer over an `io.ReadWriter`.

A program runs in the error and state monad over a connection. Against a peer that
sends the bytes `S` its behaviour does not depend on how the transport cuts them, and
is given by two judgements: `Returns` (the result, what is left of `S`, and all bytes
sent) and `Fails` (all bytes sent). The rules below derive them for a program from its
parts.
-/

namespace Tun2socks.Go

/-- A conversation on a connection, which may fail. -/
abbrev Session := EStateM Error Conn

namespace Session

/-- `rw.Write(b)`, returning on an error. -/
def send (b : List Byte) : Session Unit := fun c =>
  let r := c.wire.write b
  match r.1 with
  | none => .ok () { c with wire := r.2 }
  | some err => .error err { c with wire := r.2 }

/-- `io.ReadFull(rw, buf[i:j])`, returning on an error: the buffer afterwards. -/
def readInto (buf : List Byte) (i j : Nat) : Session (List Byte) := fun c =>
  let r := readFull (j - i) c.src
  match r.2.1 with
  | none => .ok (buf.take i ++ copy (buf.drop i) r.1) { c with src := r.2.2 }
  | some err => .error err { c with src := r.2.2 }

/-- The connection as a program leaves it. -/
def final {α : Type} : EStateM.Result Error Conn α → Conn
  | .ok _ c => c
  | .error _ c => c

/-- The peer is going to send `S`, in any pieces; `sent` has been sent, and nothing
goes wrong with sending. -/
structure Peer (S sent : List Byte) (c : Conn) : Prop where
  src : Fragments S c.src
  wire : c.wire = ⟨sent, []⟩

/-- Against a peer that sends `S`, the program returns `a`; `S'` is left unread, and
the bytes sent so far go from `sent` to `sent'`. -/
def Returns {α : Type} (x : Session α) (S sent : List Byte) (a : α) (S' sent' : List Byte) : Prop :=
  ∀ c, Peer S sent c → ∃ c', x c = .ok a c' ∧ Peer S' sent' c'

/-- Against a peer that sends `S`, the program returns an error, with `sent'` sent. -/
def Fails {α : Type} (x : Session α) (S sent sent' : List Byte) : Prop :=
  ∀ c, Peer S sent c → ∃ err c', x c = .error err c' ∧ c'.wire.sent = sent'

section Rules

variable {α β : Type} {x : Session α} {f : α → Session β} {a : α} {b : β}
  {S S' S'' sent sent' sent'' : List Byte}

/-- A first part that has returned. -/
theorem bind_ok {c c' : Conn} (hx : x c = .ok a c') : (x >>= f) c = f a c' := by
  change EStateM.bind x f c = _
  rw [EStateM.bind, hx]

/-- A first part that has failed. -/
theorem bind_error {c c' : Conn} {err : Error} (hx : x c = .error err c') :
    (x >>= f) c = .error err c' := by
  change EStateM.bind x f c = _
  rw [EStateM.bind, hx]

theorem Returns.pure : Returns (Pure.pure a) S sent a S sent :=
  fun c hc => ⟨c, rfl, hc⟩

theorem Returns.bind (hx : Returns x S sent a S' sent') (hf : Returns (f a) S' sent' b S'' sent'') :
    Returns (x >>= f) S sent b S'' sent'' := by
  intro c hc
  obtain ⟨c', hxc, hc'⟩ := hx c hc
  obtain ⟨c'', hfc, hc''⟩ := hf c' hc'
  exact ⟨c'', (bind_ok hxc).trans hfc, hc''⟩

theorem Fails.throw {err : Error} : Fails (throw err : Session α) S sent sent :=
  fun c hc => ⟨err, c, rfl, by rw [hc.wire]⟩

theorem Fails.bind (hx : Fails x S sent sent') : Fails (x >>= f) S sent sent' := by
  intro c hc
  obtain ⟨err, c', hxc, hsent⟩ := hx c hc
  exact ⟨err, c', bind_error hxc, hsent⟩

/-- The first part returns, and then the rest fails. -/
theorem Returns.bind_fails (hx : Returns x S sent a S' sent') (hf : Fails (f a) S' sent' sent'') :
    Fails (x >>= f) S sent sent'' := by
  intro c hc
  obtain ⟨c', hxc, hc'⟩ := hx c hc
  obtain ⟨err, c'', hfc, hsent⟩ := hf c' hc'
  exact ⟨err, c'', (bind_ok hxc).trans hfc, hsent⟩

theorem returns_send (m : List Byte) : Returns (send m) S sent () S (sent ++ m) := by
  intro c hc
  have hw : c.wire.write m = (none, ⟨sent ++ m, []⟩) := by
    rw [hc.wire]
    rfl
  refine ⟨{ c with wire := ⟨sent ++ m, []⟩ }, ?_, hc.src, rfl⟩
  rw [send, hw]

/-- The next bytes go to `buf[i:j]`. -/
theorem returns_readInto {buf d : List Byte} {i j : Nat} (hd : i + d.length = j)
    (hbuf : j ≤ buf.length) :
    Returns (readInto buf i j) (d ++ S) sent (buf.take i ++ d ++ buf.drop j) S sent := by
  subst hd
  intro c hc
  obtain ⟨ps, hread, hfr⟩ := hc.src.readFull_append
  refine ⟨{ c with src := ps }, ?_, hfr, hc.wire⟩
  have hcopy : copy (buf.drop i) d = d ++ buf.drop (i + d.length) := by
    rw [copy, List.take_of_length_le (by rw [List.length_drop]; omega), List.drop_drop]
  rw [readInto, Nat.add_sub_cancel_left, hread]
  dsimp only
  rw [hcopy, List.append_assoc]

/-- The same from the beginning of the buffer. -/
theorem returns_readInto_zero {buf d : List Byte} {j : Nat} (hd : d.length = j)
    (hbuf : j ≤ buf.length) :
    Returns (readInto buf 0 j) (d ++ S) sent (d ++ buf.drop j) S sent :=
  returns_readInto (by rw [Nat.zero_add, hd]) hbuf

/-- The stream ends before `buf[i:j]` is full. -/
theorem fails_readInto {buf : List Byte} {i j : Nat} (hS : i + S.length < j) :
    Fails (readInto buf i j) S sent sent := by
  intro c hc
  refine ⟨if S = [] then .eof else .unexpectedEOF, { c with src := [] }, ?_, by rw [hc.wire]⟩
  rw [readInto, hc.src.readFull_short (by omega)]

end Rules

end Session

end Tun2socks.Go
