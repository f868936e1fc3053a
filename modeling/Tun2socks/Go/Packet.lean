import Tun2socks.Go.Net

/-!
# Tun2socks.Go.Packet

The `net.PacketConn` interface.

The datagrams a socket is going to deliver are given from outside (`Inbox`). A
connection is a function from the inbox and the caller's buffer; those that wrap
another one call its function. Each carries the fact that a `ReadFrom` which returns
without an error, or with a sender, has used up some of the inbox, and loops around
`ReadFrom` terminate by it.
-/

namespace Tun2socks.Go

/-- A datagram, as the embedded `ReadFrom` delivers it: its bytes, what is left in
the buffer right behind them, and its sender. -/
structure Datagram where
  data : List Byte
  scratch : List Byte
  sender : UDPAddr
  deriving DecidableEq

/-- What the coming `ReadFrom` calls of a socket are going to find: a datagram or an error
each. -/
abbrev Inbox := List (Except Error Datagram)

/-- What `ReadFrom(b)` returned, and `b` after the call. -/
structure Received where
  n : Int
  addr : Option UDPAddr
  err : Option Error
  buf : List Byte
  deriving DecidableEq

/-- A `net.PacketConn`, by its `ReadFrom`. One that returns without an error, or with a
sender, has used up some of the inbox. -/
structure PacketConn where
  readFrom : Inbox → List Byte → Received × Inbox
  consumes : ∀ inbox b, (readFrom inbox b).1.err = none ∨ (readFrom inbox b).1.addr ≠ none →
    (readFrom inbox b).2.length < inbox.length

/-- A socket. With nothing left to deliver its reads time out. -/
def socket : PacketConn where
  readFrom inbox b :=
    match inbox with
    | [] => (⟨0, none, some .timeout, b⟩, [])
    | .error err :: inbox => (⟨0, none, some err, b⟩, inbox)
    | .ok d :: inbox =>
      (⟨min d.data.length b.length, some d.sender, none, copy b (d.data ++ d.scratch)⟩, inbox)
  consumes inbox b h := by
    rcases inbox with _ | ⟨_ | d, inbox⟩
    · rcases h with h | h
      · cases h
      · exact absurd rfl h
    · exact Nat.lt_succ_self _
    · exact Nat.lt_succ_self _

/-- A connection that rewrites what an embedded one received, and hands on the
errors of that one without a sender. -/
def PacketConn.wrap (pc : PacketConn) (f : Received → Received)
    (hf : ∀ x err, x.err = some err → f x = ⟨0, none, some err, x.buf⟩) : PacketConn where
  readFrom inbox b := (f (pc.readFrom inbox b).1, (pc.readFrom inbox b).2)
  consumes inbox b h := by
    apply pc.consumes
    left
    cases herr : (pc.readFrom inbox b).1.err with
    | none => rfl
    | some err =>
      rw [hf _ err herr] at h
      rcases h with h | h
      · cases h
      · exact absurd rfl h

/-- A connection that rewrites what an embedded one received. It reports success or a
sender only where that one did. -/
def PacketConn.map (pc : PacketConn) (f : Received → Received)
    (hf : ∀ x, (f x).err = none ∨ (f x).addr ≠ none → x.err = none ∨ x.addr ≠ none) :
    PacketConn where
  readFrom inbox b := (f (pc.readFrom inbox b).1, (pc.readFrom inbox b).2)
  consumes inbox b h := pc.consumes inbox b (hf _ h)

/-- What a socket makes of a datagram. -/
theorem socket_readFrom (d : Datagram) (inbox : Inbox) (b : List Byte) :
    socket.readFrom (.ok d :: inbox) b =
      (⟨min d.data.length b.length, some d.sender, none, copy b (d.data ++ d.scratch)⟩, inbox) :=
  rfl

/-- The receiving end of `WriteTo`: the datagrams taken so far, and the answers to
the next calls, `some err` for a failure. Once these are used up every call
succeeds. -/
structure PacketSink where
  written : List (List Byte)
  answers : List (Option Error)

namespace PacketSink

/-- A sink that has taken nothing yet and never fails. -/
def fresh : PacketSink := ⟨[], []⟩

/-- `WriteTo(b, addr)`: the error and the sink afterwards. -/
def writeTo (s : PacketSink) (b : List Byte) : Option Error × PacketSink :=
  match s.answers with
  | [] => (none, ⟨s.written ++ [b], []⟩)
  | none :: as => (none, ⟨s.written ++ [b], as⟩)
  | some err :: as => (some err, ⟨s.written, as⟩)

/-- The next call is going to fail. -/
def Refuses (s : PacketSink) : Prop := ∃ err, s.answers.head? = some (some err)

/-- No call is going to fail. -/
def Working (s : PacketSink) : Prop := ∀ answer ∈ s.answers, answer = none

theorem Working.writeTo {s : PacketSink} (h : s.Working) (b : List Byte) :
    (s.writeTo b).1 = none ∧ (s.writeTo b).2.written = s.written ++ [b] := by
  obtain ⟨written, answers⟩ := s
  rcases answers with _ | ⟨_ | err, as⟩
  · exact ⟨rfl, rfl⟩
  · exact ⟨rfl, rfl⟩
  · exact absurd (h _ (List.mem_cons_self ..)) (Option.some_ne_none err)

/-- The answers still to come are some of those that were. -/
theorem writeTo_answers (s : PacketSink) (b : List Byte) : (s.writeTo b).2.answers ⊆ s.answers := by
  obtain ⟨written, answers⟩ := s
  rcases answers with _ | ⟨_ | err, as⟩
  · exact List.Subset.refl _
  · exact List.subset_cons_self _ _
  · exact List.subset_cons_self _ _

theorem mem_answers_of_writeTo {s : PacketSink} {b : List Byte} {err : Error}
    (h : (s.writeTo b).1 = some err) : some err ∈ s.answers := by
  obtain ⟨written, answers⟩ := s
  rcases answers with _ | ⟨_ | err', as⟩
  · cases h
  · cases h
  · cases h
    exact List.mem_cons_self ..

end PacketSink

end Tun2socks.Go
