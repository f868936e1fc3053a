import Tun2socks.Tunnel.Streams

/-!
# Tun2socks.Tunnel.Pipe

A TCP session between two connections that keep to what they have in store: each has its
bytes and an error at their end (`drain`), and takes what is written to it. A direction that is
done sets a read deadline on its target, and once a connection has one its reads may time out.

The scheduler is free. `pipe_delivers` says that whatever it does the session comes to its end,
and that by then each connection has got all that the other one had, or as much of it as was
read before the deadline cut the rest off.
-/

namespace Tun2socks.Tunnel

open Tun2socks.Go Tun2socks.Statistic

/-- The bytes read so far and what the source has in store make up `all`: the bytes that it
had, and the error at their end. Where a read has timed out, they are a beginning of it. -/
def Pc.Left (all : List Byte × Error) (cut : Bool) (src : List Piece) (read : List Byte) :
    Pc → Prop
  | reading | writing _ none => all = (read ++ (drain src).1, (drain src).2)
  | writing _ (some e) => all = (read, e)
  | copied err | readClosed err | writeClosed err | done err =>
    all.1 = read ∧ err = ignoreEOF all.2 ∨ cut = true ∧ err = some .timeout ∧ read <+: all.1
  | arm | rearm => False

theorem endRound_some (e : Error) : endRound (some e) = .copied (ignoreEOF e) := by
  cases e with
  | eof => rfl
  | unexpectedEOF | shortBuffer | timeout | panic | new => rfl

theorem afterWrite_all (data : List Byte) (er : Option Error) :
    afterWrite data er data.length none .tcp = endRound er := by
  have hneg : ¬ (data.length : Int) < 0 := by omega
  simp [afterWrite, hneg]

namespace Stream

variable {G : Type}

/-- The answer to the pending call of a direction, what the source has in store after it, and
the target. -/
def ask (s : Stream G) (net : Network) (src : List Piece) (dst : Wire) :
    Answer × List Piece × Wire :=
  match s.count, s.pc with
  | none, .reading =>
    let x := Go.read (bufferSize net) src
    (.read ⟨x.1, none, x.2.1⟩, x.2.2, dst)
  | none, .writing data _ => (.write (dst.count data) (dst.write data).1, src, (dst.write data).2)
  | _, _ => (.step, src, dst)

/-- The direction is on its way with the bytes of the source, and the target has what was
written. -/
structure Carries (all : List Byte × Error) (cut : Bool) (s : Stream G) (src : List Piece)
    (dst : Wire) : Prop where
  left : s.pc.Left all cut src s.reads.flatten
  taken : s.reads = s.writes ++ s.pc.data
  reliable : dst.answers = []
  sent : dst.sent = s.writes.flatten

variable {all : List Byte × Error} {cut : Bool} {s : Stream G} {src : List Piece} {dst : Wire}

theorem carries_new [Zero G] (hdst : dst = .fresh) :
    Carries (drain src) false (new .tcp : Stream G) src dst := by
  subst hdst
  exact ⟨rfl, rfl, rfl, rfl⟩

/-- A `Read`. -/
theorem Carries.read (h : s.Carries all cut src dst) (hpc : s.pc = .reading) (peer : String)
    (d : Direction) :
    (s.read .tcp peer d ⟨(Go.read (bufferSize .tcp) src).1, none,
      (Go.read (bufferSize .tcp) src).2.1⟩).Carries all cut
        (Go.read (bufferSize .tcp) src).2.2 dst := by
  obtain ⟨hleft, htaken, hreliable, hsent⟩ := h
  rw [hpc] at hleft htaken
  obtain rfl : all = (s.reads.flatten ++ (drain src).1, (drain src).2) := hleft
  have htaken : s.reads = s.writes := by simpa [Pc.data] using htaken
  set x := Go.read (bufferSize .tcp) src with hx
  constructor
  · simp only [read_reads, List.flatten_append, owed_tcp_flatten]
    simp only [Stream.read, track_pc, afterRead]
    cases herr : x.2.1 with
    | none =>
      rw [(drain_of_success (hx ▸ herr)).1, ← hx]
      split
      · rename_i hnil
        simp [hnil, endRound, Pc.Left]
      · simp [Pc.Left]
    | some e =>
      rw [(drain_of_error (hx ▸ herr)).1, ← hx]
      split
      · rename_i hnil
        simp [hnil, endRound_some, Pc.Left]
      · simp [Pc.Left]
  · rw [read_reads, htaken, ← afterRead_data]
    simp [Stream.read]
  · exact hreliable
  · simpa [Stream.read] using hsent

/-- A `Read` that times out. -/
theorem Carries.timeout (h : s.Carries all cut src dst) (hpc : s.pc = .reading) (peer : String)
    (d : Direction) :
    (s.read .tcp peer d ⟨[], none, some .timeout⟩).Carries all true src dst := by
  obtain ⟨hleft, htaken, hreliable, hsent⟩ := h
  rw [hpc] at hleft htaken
  obtain rfl : all = (s.reads.flatten ++ (drain src).1, (drain src).2) := hleft
  constructor
  · rw [read_reads]
    simp [Stream.read, afterRead, endRound, Reading.owed, Pc.Left]
  · rw [read_reads]
    simpa [Stream.read, afterRead, endRound, Reading.owed, Pc.data] using htaken
  · exact hreliable
  · simpa [Stream.read] using hsent

/-- A `Write`. -/
theorem Carries.write (h : s.Carries all cut src dst) {data : List Byte} {er : Option Error}
    (hpc : s.pc = .writing data er) (d : Direction) :
    (s.write .tcp d data er (dst.count data) (dst.write data).1).Carries all cut src
      (dst.write data).2 := by
  obtain ⟨hleft, htaken, hreliable, hsent⟩ := h
  rw [hpc] at hleft htaken
  rw [Pc.data] at htaken
  rw [Wire.count_of_ok (by rw [Wire.write_reliable hreliable]), Wire.write_reliable hreliable]
  have hacc : accepts data data.length none .tcp = true := by simp [accepts]
  constructor
  · simp only [Stream.write, track_pc, track_reads, afterWrite_all]
    cases er with
    | none => exact hleft
    | some e =>
      rw [endRound_some]
      obtain rfl : all = (s.reads.flatten, e) := hleft
      exact .inl ⟨rfl, rfl⟩
  · simp only [Stream.write, track_pc, track_reads, track_writes, afterWrite_all, hacc, if_true]
    rw [htaken]
    obtain h | ⟨-, h⟩ | ⟨e, h⟩ := endRound_cases er <;> rw [h] <;> simp [Pc.data]
  · rfl
  · simp [Stream.write, hacc, hsent]

theorem Carries.setPc (h : s.Carries all cut src dst) {pc : Pc}
    (hleft : s.pc.Left all cut src s.reads.flatten → pc.Left all cut src s.reads.flatten)
    (hdata : pc.data = s.pc.data) : { s with pc := pc }.Carries all cut src dst :=
  ⟨hleft h.left, by rw [hdata]; exact h.taken, h.reliable, h.sent⟩

theorem Carries.go (h : s.Carries all cut src dst) (d : Direction) :
    (s.go .tcp d).1.Carries all cut src dst := by
  have hleft := h.left
  unfold Stream.go
  split
  · rename_i hpc
    rw [hpc] at hleft
    exact hleft.elim
  · rename_i hpc
    rw [hpc] at hleft
    exact hleft.elim
  · rename_i hpc
    exact h.setPc (by rw [hpc]; exact id) (by rw [hpc]; rfl)
  · rename_i hpc
    exact h.setPc (by rw [hpc]; exact id) (by rw [hpc]; rfl)
  · rename_i hpc
    exact h.setPc (by rw [hpc]; exact id) (by rw [hpc]; rfl)
  · exact h
  · exact h
  · exact h

variable [Add G] [IntCast G]

/-- One step, with the answer of the connections. -/
theorem Carries.step (h : s.Carries all cut src dst) (peer : String) (d : Direction) :
    (s.step .tcp peer d (s.ask .tcp src dst).1).1.Carries all cut (s.ask .tcp src dst).2.1
      (s.ask .tcp src dst).2.2 := by
  cases hc : s.count with
  | some c =>
    obtain ⟨stage, n⟩ := c
    simp only [ask, Stream.step, hc]
    cases stage with
    | temp | total | own => exact ⟨h.left, h.taken, h.reliable, h.sent⟩
  | none =>
    cases hpc : s.pc with
    | reading =>
      simp only [ask, Stream.step, hc, hpc]
      rw [if_pos (read_length_le ..)]
      exact h.read hpc peer d
    | writing data er =>
      simp only [ask, Stream.step, hc, hpc]
      exact h.write hpc d
    | arm | rearm | copied | readClosed | writeClosed | done =>
      simp only [ask, Stream.step, hc, hpc]
      exact h.go d

/-- A direction sets the deadline of its target with the step that makes it done, and no other
deadline at all. -/
theorem Carries.step_done (h : s.Carries all cut src dst) (peer : String) (d : Direction)
    (a : Answer) :
    ((s.step .tcp peer d a).2 = some (.call (target d) .setReadDeadline) ∧
        (s.step .tcp peer d a).1.pc.isDone = true) ∨
      (∀ side, (s.step .tcp peer d a).2 ≠ some (.call side .setReadDeadline)) ∧
        (s.step .tcp peer d a).1.pc.isDone = s.pc.isDone := by
  have hleft := h.left
  unfold Stream.step
  split
  · rename_i stage n _
    cases stage with
    | temp | total | own => exact .inr ⟨by simp [Stream.add], rfl⟩
  · exact .inr ⟨by simp, rfl⟩
  · unfold Stream.go
    split <;> rename_i hpc <;> rw [hpc] at hleft ⊢
    · exact hleft.elim
    · exact hleft.elim
    · exact .inr ⟨by simp, rfl⟩
    · exact .inr ⟨by simp, rfl⟩
    · exact .inl ⟨rfl, rfl⟩
    · exact .inr ⟨by simp, rfl⟩
    · exact .inr ⟨by simp, rfl⟩
    · exact .inr ⟨by simp, rfl⟩
  · split
    · rename_i hpc
      split
      · rename_i r _ _ _
        refine .inr ⟨by simp, ?_⟩
        simp only [Stream.read, track_pc, hpc]
        obtain hgo | hgo | ⟨-, hgo⟩ | ⟨err, hgo⟩ := afterRead_cases peer d r .tcp <;>
          rw [hgo] <;> rfl
      · exact .inr ⟨by simp, rfl⟩
    · exact .inr ⟨by simp, rfl⟩
  · split
    · rename_i n ew _ _ data er hpc
      refine .inr ⟨by simp, ?_⟩
      simp only [Stream.write, track_pc, hpc]
      obtain ⟨-, ⟨-, hgo⟩ | ⟨hnet, -⟩⟩ | ⟨-, err, hgo⟩ := afterWrite_cases data er n ew .tcp
      · obtain hend | ⟨-, hend⟩ | ⟨e, hend⟩ := endRound_cases er <;> rw [hgo, hend] <;> rfl
      · cases hnet
      · rw [hgo]
        rfl
    · exact .inr ⟨by simp, rfl⟩

end Stream

/-! ### What is left to do -/

/-- What stands before a goroutine, in steps. -/
def Pc.rank : Pc → Nat
  | writing .. => 24
  | reading => 16
  | copied _ => 12
  | readClosed _ => 11
  | writeClosed _ => 10
  | arm | rearm | done _ => 0

/-- The additions that a tracker has still to make. -/
def Stage.rank : Stage → Nat
  | temp => 3
  | total => 2
  | own => 1

/-- The steps a direction has still to take are no more than this. -/
def Stream.size {G : Type} (s : Stream G) (src : List Piece) : Nat :=
  32 * readerSize src + s.pc.rank + s.count.elim 0 fun c => c.1.rank

theorem endRound_rank (err : Option Error) : (endRound err).rank ≤ 16 := by
  obtain h | ⟨-, h⟩ | ⟨e, h⟩ := endRound_cases err <;> rw [h] <;> simp [Pc.rank]

/-- A `Read` uses up some of what the reader has. -/
theorem readerSize_read_lt {k : Nat} (hk : 0 < k) {src : List Piece} (h : src ≠ []) :
    readerSize (Go.read k src).2.2 < readerSize src := by
  cases src with
  | nil => exact absurd rfl h
  | cons p ps =>
    obtain ⟨d, e⟩ := p
    simp only [Go.read]
    split
    · simp [readerSize]
    · simp only [readerSize, List.map_cons, List.sum_cons, List.length_drop]
      omega

namespace Stream

variable {G : Type} {s : Stream G} {src : List Piece} {dst : Wire}

theorem size_track (s : Stream G) (hc : s.count = none) (side : Side) (n : Int) (src : List Piece) :
    (s.track side n).size src ≤ s.size src + 3 := by
  cases side with
  | origin => exact Nat.le_add_right _ _
  | remote =>
    simp only [size, track, hc]
    exact Nat.le_refl _

theorem size_read (hc : s.count = none) (hpc : s.pc = .reading) (peer : String) (d : Direction)
    (src : List Piece) :
    (s.read .tcp peer d ⟨(Go.read (bufferSize .tcp) src).1, none,
        (Go.read (bufferSize .tcp) src).2.1⟩).size (Go.read (bufferSize .tcp) src).2.2 <
      s.size src := by
  refine lt_of_le_of_lt (size_track _ (by exact hc) _ _ _) ?_
  have hreading : Pc.rank .reading = 16 := rfl
  simp only [size, hc, hpc, Option.elim]
  cases src with
  | nil =>
    change 15 < 16
    decide
  | cons p ps =>
    have hlt := readerSize_read_lt (k := bufferSize .tcp) (by decide) (List.cons_ne_nil p ps)
    have hrank : ∀ r, (afterRead peer d r .tcp).rank ≤ 24 := by
      intro r
      rw [afterRead]
      split
      · exact le_trans (endRound_rank _) (by decide)
      · exact Nat.le_refl _
    have := hrank ⟨(Go.read (bufferSize .tcp) (p :: ps)).1, none,
      (Go.read (bufferSize .tcp) (p :: ps)).2.1⟩
    omega

theorem size_timeout (hc : s.count = none) (hpc : s.pc = .reading) (peer : String)
    (d : Direction) (src : List Piece) :
    (s.read .tcp peer d ⟨[], none, some .timeout⟩).size src < s.size src := by
  refine lt_of_le_of_lt (size_track _ (by exact hc) _ _ _) ?_
  have hreading : Pc.rank .reading = 16 := rfl
  have hcopied : (afterRead peer d ⟨[], none, some .timeout⟩ .tcp).rank = 12 := rfl
  simp only [size, hc, hpc, Option.elim]
  omega

theorem size_write (hc : s.count = none) {data : List Byte} {er : Option Error}
    (hpc : s.pc = .writing data er) (d : Direction) (n : Int) (ew : Option Error)
    (src : List Piece) : (s.write .tcp d data er n ew).size src < s.size src := by
  refine lt_of_le_of_lt (size_track _ (by exact hc) _ _ _) ?_
  have hwriting : Pc.rank (.writing data er) = 24 := rfl
  simp only [size, hc, hpc, Option.elim]
  have hrank : (afterWrite data er n ew .tcp).rank ≤ 16 := by
    obtain ⟨-, ⟨-, h⟩ | ⟨hnet, -⟩⟩ | ⟨-, err, h⟩ := afterWrite_cases data er n ew .tcp
    · rw [h]
      exact endRound_rank er
    · cases hnet
    · simp [h, Pc.rank]
  omega

theorem size_go (hdone : s.pc.isDone = false) {all : List Byte × Error} {cut : Bool}
    (h : s.Carries all cut src dst) (hr : s.pc ≠ .reading) (hw : ∀ data er, s.pc ≠ .writing data er)
    (d : Direction) : (s.go .tcp d).1.size src < s.size src := by
  have hleft := h.left
  cases hpc : s.pc with
  | arm | rearm =>
    rw [hpc] at hleft
    exact hleft.elim
  | reading => exact absurd hpc hr
  | writing data er => exact absurd hpc (hw data er)
  | copied err | readClosed err | writeClosed err =>
    simp [go, hpc, size, Pc.rank]
  | done err =>
    rw [hpc] at hdone
    cases hdone

variable [Add G] [IntCast G]

/-- A direction that is not done gets closer to its end with every step. -/
theorem size_step {all : List Byte × Error} {cut : Bool} (h : s.Carries all cut src dst)
    (hdone : s.pc.isDone = false) (peer : String) (d : Direction) :
    (s.step .tcp peer d (s.ask .tcp src dst).1).1.size (s.ask .tcp src dst).2.1 < s.size src := by
  cases hc : s.count with
  | some c =>
    obtain ⟨stage, n⟩ := c
    simp only [ask, step, hc]
    cases stage with
    | temp | total | own => simp [add, size, hc, Stage.rank]
  | none =>
    cases hpc : s.pc with
    | reading =>
      simp only [ask, step, hc, hpc]
      rw [if_pos (read_length_le ..)]
      exact size_read hc hpc peer d src
    | writing data er =>
      simp only [ask, step, hc, hpc]
      exact size_write hc hpc d _ _ src
    | arm | rearm | copied | readClosed | writeClosed | done =>
      simp only [ask, step, hc, hpc]
      exact size_go hdone h (by simp [hpc]) (by simp [hpc]) d

/-- And one that is done stays. -/
theorem size_step_done (hdone : s.pc.isDone = true) (peer : String) (d : Direction) :
    (s.step .tcp peer d (s.ask .tcp src dst).1).1.size (s.ask .tcp src dst).2.1 ≤ s.size src := by
  obtain ⟨err, hpc⟩ := Pc.eq_done hdone
  cases hc : s.count with
  | some c =>
    obtain ⟨stage, n⟩ := c
    simp only [ask, step, hc]
    cases stage with
    | temp | total | own => simp [add, size, hc, Stage.rank]
  | none => simp [ask, step, go, hc, hpc]

end Stream

/-! ### The pipe -/

/-- A TCP session, with what the source of each direction has in store, and its target. -/
structure Pipe (G : Type) where
  session : Session G
  src : Direction → List Piece
  dst : Direction → Wire
  /-- the connection has a read deadline -/
  deadline : Side → Bool
  /-- history: a read of the direction has timed out -/
  cut : Direction → Bool

/-- What the scheduler can choose: the next step of a goroutine, or that the read which a
direction waits in times out. -/
inductive Turn
  | handler
  | stream (d : Direction)
  | timeout (d : Direction)

/-- The steps that the handler has still to take. -/
def Handler.rank : Handler → Nat
  | dialing => 6
  | dialed => 5
  | piping => 4
  | leaving => 3
  | closing => 2
  | returning _ => 1
  | returned _ => 0

namespace Pipe

variable {G : Type}

/-- `handleTCPConn` is called with `origin`, and its dial is going to give `remote`. -/
def start [Zero G] (peer : String) (origin remote : Conn) : Pipe G where
  session := .new .tcp peer
  src
    | .upload => origin.src
    | .download => remote.src
  dst
    | .upload => remote.wire
    | .download => origin.wire
  deadline := fun _ => false
  cut := fun _ => false

/-- The goroutine is not blocked and has not ended; or it is in a read that can time out. -/
def canMove (p : Pipe G) : Turn → Bool
  | .handler =>
    match p.session.handler with
    | .piping => (p.session.stream .upload).pc.isDone && (p.session.stream .download).pc.isDone
    | .returned _ => false
    | _ => true
  | .stream d => p.session.handler = .piping ∧ (p.session.stream d).pc.isDone = false
  | .timeout d =>
    p.session.handler = .piping ∧ p.deadline (source d) = true ∧
      (p.session.stream d).count = none ∧ (p.session.stream d).pc = .reading

theorem canMove_timeout {p : Pipe G} {d : Direction} (h : p.canMove (.timeout d) = true) :
    p.session.handler = .piping ∧ p.deadline (source d) = true ∧
      (p.session.stream d).count = none ∧ (p.session.stream d).pc = .reading := by
  simpa [canMove] using h

/-- The steps a session has still to take are no more than this. -/
def size (p : Pipe G) : Nat :=
  p.session.handler.rank + (p.session.stream .upload).size (p.src .upload) +
    (p.session.stream .download).size (p.src .download)

/-- A step of a stream changes the size of its direction only. -/
theorem size_update (p : Pipe G) (d : Direction) {n : Nat} {s : Stream G} {src : List Piece}
    (hlt : n + s.size src ≤ (p.session.stream d).size (p.src d)) (q : Pipe G)
    (hh : q.session.handler = p.session.handler)
    (hs : q.session.stream = Function.update p.session.stream d s)
    (hsrc : q.src = Function.update p.src d src) : n + q.size ≤ p.size := by
  simp only [size, hh, hs, hsrc]
  cases d with
  | upload =>
    simp only [Function.update_self,
      Function.update_of_ne (show Direction.download ≠ .upload by decide)]
    omega
  | download =>
    simp only [Function.update_self,
      Function.update_of_ne (show Direction.upload ≠ .download by decide)]
    omega

/-- The read deadlines after a step. -/
def arm (deadline : Side → Bool) : Option Effect → Side → Bool
  | some (.call side .setReadDeadline) => Function.update deadline side true
  | _ => deadline

variable [AddCommGroupWithOne G]

/-- The goroutine takes its next step, if it can. -/
def step (p : Pipe G) : Turn → Pipe G
  | .handler =>
    match p.session.handler with
    | .dialing => { p with session := (p.session.next (.dial none)).1 }
    | _ => { p with session := (p.session.next .handler).1 }
  | .stream d =>
    match p.session.handler with
    | .piping =>
      let x := (p.session.stream d).ask p.session.network (p.src d) (p.dst d)
      let y := p.session.next (.stream d x.1)
      { p with
        session := y.1
        src := Function.update p.src d x.2.1
        dst := Function.update p.dst d x.2.2
        deadline := arm p.deadline y.2 }
    | _ => p
  | .timeout d =>
    if p.canMove (.timeout d) then
      { p with
        session := (p.session.next (.stream d (.read ⟨[], none, some .timeout⟩))).1
        cut := Function.update p.cut d true }
    else p

/-- The turns one after the other. -/
def run (p : Pipe G) (sched : List Turn) : Pipe G := sched.foldl step p

/-- How many turns of a schedule went to a goroutine that could move. -/
def moves (p : Pipe G) : List Turn → Nat
  | [] => 0
  | t :: ts => (p.canMove t).toNat + (p.step t).moves ts

/-! ### Runs -/

/-- What holds at every point of a run: `all d` is what the source of direction `d` had. -/
structure Sound (all : Direction → List Byte × Error) (p : Pipe G) : Prop where
  session : p.session.Sound
  tcp : p.session.network = .tcp
  carries : ∀ d, (p.session.stream d).Carries (all d) (p.cut d) (p.src d) (p.dst d)
  /-- the dial has not failed -/
  dialed : p.session.handler ≠ .returning false ∧ p.session.handler ≠ .returned false
  /-- a direction that is done has set its deadline, and nobody else sets one -/
  armed : ∀ d, p.deadline (target d) = (p.session.stream d).pc.isDone
  timely : ∀ d, p.cut d = true → p.deadline (source d) = true

theorem sound_start (peer : String) {origin remote : Conn} (ho : origin.wire = .fresh)
    (hr : remote.wire = .fresh) :
    (start peer origin remote : Pipe G).Sound
      fun d => drain ((start peer origin remote : Pipe G).src d) := by
  refine ⟨Session.sound_new _ _, rfl, ?_, by simp [start, Session.new], fun _ => rfl, nofun⟩
  intro d
  cases d with
  | upload => exact Stream.carries_new hr
  | download => exact Stream.carries_new ho

variable {all : Direction → List Byte × Error} {p : Pipe G}

/-- The handler leaves the streams alone. -/
theorem Sound.handler (h : p.Sound all) : (p.step .handler).Sound all := by
  obtain ⟨hs, htcp, hcarries, hne, harmed, htimely⟩ := h
  simp only [step]
  split
  · rename_i hh
    refine ⟨hs.next _, ?_, ?_, ?_, ?_, htimely⟩ <;> simp only [Session.next, hh, if_true]
    · exact htcp
    · exact hcarries
    · exact ⟨by simp, by simp⟩
    · exact harmed
  · have hsame : (p.session.next .handler).1 = _ := p.session.handle_eq
    refine ⟨hs.next _, ?_, ?_, ?_, ?_, htimely⟩
    · rw [hsame]
      exact htcp
    · rw [hsame]
      exact hcarries
    · simp only [Session.next, Session.handle]
      split
      · exact ⟨by simp, by simp⟩
      · split
        · exact ⟨by simp, by simp⟩
        · exact hne
      · exact ⟨by simp, by simp⟩
      · exact ⟨by simp, by simp⟩
      · rename_i b hh
        cases b with
        | true => exact ⟨by simp, by simp⟩
        | false => exact absurd hh hne.1
      · exact hne
      · exact hne
    · rw [hsame]
      exact harmed

/-- What a stream does to the deadlines. -/
theorem Sound.arm_next (h : p.Sound all) (d : Direction) (a : Answer)
    (hh : p.session.handler = .piping) :
    (∀ e, arm p.deadline (p.session.next (.stream d a)).2 (target e) =
        (((p.session.next (.stream d a)).1).stream e).pc.isDone) ∧
      ∀ side, p.deadline side = true →
        arm p.deadline (p.session.next (.stream d a)).2 side = true := by
  have hstep := (h.carries d).step_done p.session.dst d a
  simp only [Session.next, hh, h.tcp]
  obtain ⟨heff, hdone⟩ | ⟨heff, hdone⟩ := hstep
  · rw [heff]
    refine ⟨fun e => ?_, fun side hside => ?_⟩
    · by_cases he : e = d
      · subst he
        simp [arm, hdone]
      · have hne : target e ≠ target d := fun heq => he (target_injective heq)
        simp only [arm, Function.update_of_ne he, Function.update_of_ne hne]
        exact h.armed e
    · simp [arm, Function.update_apply, hside]
  · have harm : arm p.deadline ((p.session.stream d).step .tcp p.session.dst d a).2 =
        p.deadline := by
      unfold arm
      split
      · rename_i side heq
        exact absurd heq (heff side)
      · rfl
    rw [harm]
    refine ⟨fun e => ?_, fun _ => id⟩
    by_cases he : e = d
    · subst he
      rw [Function.update_self, hdone]
      exact h.armed e
    · rw [Function.update_of_ne he]
      exact h.armed e

theorem Sound.stream (h : p.Sound all) (d : Direction) : (p.step (.stream d)).Sound all := by
  simp only [step]
  split
  · rename_i hh
    obtain ⟨harmed, hmono⟩ := h.arm_next d
      ((p.session.stream d).ask p.session.network (p.src d) (p.dst d)).1 hh
    refine ⟨h.session.next _, ?_, ?_, ?_, harmed, fun e he => hmono _ (h.timely e he)⟩ <;>
      simp only [Session.next, hh]
    · exact h.tcp
    · intro e
      by_cases he : e = d
      · subst he
        simp only [Function.update_self, h.tcp]
        exact (h.carries e).step _ _
      · simp only [Function.update_of_ne he]
        exact h.carries e
    · exact ⟨by simp, by simp⟩
  · exact h

theorem Sound.timeout (h : p.Sound all) (d : Direction) : (p.step (.timeout d)).Sound all := by
  simp only [step]
  split
  · rename_i hcan
    obtain ⟨hh, hset, hc, hpc⟩ := canMove_timeout hcan
    have hread : (p.session.stream d).step .tcp p.session.dst d (.read ⟨[], none, some .timeout⟩) =
        ((p.session.stream d).read .tcp p.session.dst d ⟨[], none, some .timeout⟩, none) := by
      simp [Stream.step, hc, hpc]
    obtain ⟨harmed, -⟩ := h.arm_next d (.read ⟨[], none, some .timeout⟩) hh
    refine ⟨h.session.next _, ?_, ?_, ?_, fun e => ?_, fun e he => ?_⟩
    · simp only [Session.next, hh]
      exact h.tcp
    · intro e
      simp only [Session.next, hh, h.tcp, hread]
      by_cases he : e = d
      · subst he
        simp only [Function.update_self]
        exact (h.carries e).timeout hpc _ _
      · simp only [Function.update_of_ne he]
        exact h.carries e
    · simp only [Session.next, hh]
      exact ⟨by simp, by simp⟩
    · rw [← harmed e]
      simp only [Session.next, hh, h.tcp, hread]
      rfl
    · by_cases hed : e = d
      · subst hed
        exact hset
      · exact h.timely e (by simpa [Function.update_of_ne hed] using he)
  · exact h

theorem Sound.step (h : p.Sound all) (t : Turn) : (p.step t).Sound all := by
  cases t with
  | handler => exact h.handler
  | stream d => exact h.stream d
  | timeout d => exact h.timeout d

theorem Sound.run (h : p.Sound all) (sched : List Turn) : (p.run sched).Sound all :=
  List.foldlRecOn (motive := Sound all) sched Pipe.step h fun _ hp t _ => hp.step t

theorem size_handler (p : Pipe G) :
    (p.canMove .handler).toNat + (p.step .handler).size ≤ p.size := by
  cases hh : p.session.handler with
  | piping =>
    by_cases hdone : ((p.session.stream .upload).pc.isDone &&
        (p.session.stream .download).pc.isDone) = true
    · simp only [step, Session.next, Session.handle, canMove, size, Handler.rank, hh, hdone,
        if_true, Bool.toNat_true]
      omega
    · simp [step, Session.next, Session.handle, canMove, size, Handler.rank, hh, hdone]
  | dialing | dialed | leaving | closing | returning | returned =>
    simp only [step, Session.next, Session.handle, canMove, size, Handler.rank, hh, if_true,
      Bool.toNat_true, Bool.toNat_false]
    omega

theorem Sound.size_stream (h : p.Sound all) (d : Direction) :
    (p.canMove (.stream d)).toNat + (p.step (.stream d)).size ≤ p.size := by
  by_cases hh : p.session.handler = .piping
  · have hlt : (p.canMove (.stream d)).toNat +
        ((p.session.stream d).step .tcp p.session.dst d
          ((p.session.stream d).ask .tcp (p.src d) (p.dst d)).1).1.size
          ((p.session.stream d).ask .tcp (p.src d) (p.dst d)).2.1 ≤
        (p.session.stream d).size (p.src d) := by
      cases hdone : (p.session.stream d).pc.isDone with
      | true =>
        simpa [canMove, hdone] using Stream.size_step_done hdone p.session.dst d
      | false =>
        have := Stream.size_step (h.carries d) hdone p.session.dst d
        simp only [canMove, hh, hdone, and_self, decide_true, Bool.toNat_true]
        omega
    refine size_update p d hlt _ ?_ ?_ ?_ <;> simp only [Pipe.step, hh, Session.next, h.tcp]
  · have hstep : p.step (.stream d) = p := by
      simp only [Pipe.step]
    simp [hstep, canMove, hh]

theorem Sound.size_timeout (h : p.Sound all) (d : Direction) :
    (p.canMove (.timeout d)).toNat + (p.step (.timeout d)).size ≤ p.size := by
  by_cases hcan : p.canMove (.timeout d) = true
  · obtain ⟨hh, -, hc, hpc⟩ := canMove_timeout hcan
    rw [hcan, Bool.toNat_true]
    have hlt := Nat.succ_le_of_lt (Stream.size_timeout hc hpc p.session.dst d (p.src d))
    rw [Nat.succ_eq_one_add] at hlt
    refine size_update p d hlt _ ?_ ?_ ?_
    · simp only [Pipe.step, hcan, if_true, Session.next, hh]
    · simp [Pipe.step, hcan, Session.next, hh, h.tcp, Stream.step, hc, hpc]
    · simp only [Pipe.step, hcan, if_true, Function.update_eq_self]
  · simp [Pipe.step, hcan]

/-- Every move brings the session closer to its end, and nothing takes it away from there. -/
theorem Sound.moves_add_size (h : p.Sound all) (sched : List Turn) :
    p.moves sched + (p.run sched).size ≤ p.size := by
  induction sched generalizing p with
  | nil => simp [moves, Pipe.run]
  | cons t ts ih =>
    have ht : (p.canMove t).toNat + (p.step t).size ≤ p.size := by
      cases t with
      | handler => exact size_handler p
      | stream d => exact h.size_stream d
      | timeout d => exact h.size_timeout d
    have hts : (p.step t).moves ts + (p.run (t :: ts)).size ≤ (p.step t).size := ih (h.step t)
    rw [moves]
    omega

/-- Where nothing can move, the handler has returned. -/
theorem Sound.returned (h : p.Sound all) (hstuck : ∀ t, p.canMove t = false) :
    p.session.handler = .returned true := by
  have hhandler := hstuck .handler
  cases hh : p.session.handler with
  | returned b =>
    cases b with
    | true => rfl
    | false => exact absurd hh h.dialed.2
  | piping =>
    -- one of the streams is not done, and could go on
    simp only [canMove, hh, Bool.and_eq_false_iff] at hhandler
    rcases hhandler with hd | hd
    · have := hstuck (.stream .upload)
      simp [canMove, hh, hd] at this
    · have := hstuck (.stream .download)
      simp [canMove, hh, hd] at this
  | dialing | dialed | leaving | closing | returning =>
    simp [canMove, hh] at hhandler

/-- A direction that is done has carried everything up to the cut, if there was one, and counted
it. -/
theorem Sound.delivered (h : p.Sound all) (hret : p.session.handler = .returned true)
    (d : Direction) :
    (p.dst d).sent <+: (all d).1 ∧ (p.cut d = false → (p.dst d).sent = (all d).1) ∧
      (p.session.stream d).total = ((p.dst d).sent.length : G) := by
  have hdone := h.session.finished (by rw [hret]; rfl) d
  obtain ⟨hleft, htaken, -, hsent⟩ := h.carries d
  have hmeasures := h.session.measures h.tcp d
  have htallies := h.session.tallies d
  rw [Stream.Tallies, h.session.settles d hdone] at htallies
  simp only [Option.elim, Int.cast_zero, add_zero] at htallies
  obtain ⟨err, hpc⟩ := Pc.eq_done hdone
  rw [hpc] at hleft htaken
  have heq : (p.session.stream d).reads = (p.session.stream d).writes := by
    simpa [Pc.data] using htaken
  rw [heq, ← hsent] at hleft
  refine ⟨?_, fun hcut => ?_, ?_⟩
  · obtain ⟨hall, -⟩ | ⟨-, -, hpre⟩ := hleft
    · rw [hall]
    · exact hpre
  · obtain ⟨hall, -⟩ | ⟨htrue, -⟩ := hleft
    · exact hall.symm
    · rw [hcut] at htrue
      cases htrue
  · have hsum : (p.session.stream d).counted.sum = ((p.dst d).sent.length : Int) := by
      cases d with
      | upload => rw [hmeasures.upload rfl (by rw [hpc]; exact htaken), hsent]
      | download => rw [hmeasures.download rfl, heq, hsent]
    rw [htallies, hsum, Int.cast_natCast]

end Pipe

/-- **A session carries both streams to their ends.** Whatever the schedule, the goroutines
take at most so many steps; and where none can take another, the handler has returned and each
connection has got the bytes that the other one had, also those that came together with an error,
and the tracker has counted them. Only the deadline for a half-closed session cuts a direction
short: its source has one as soon as the other direction is done, and not before; then the target
has got the beginning of the bytes. -/
theorem pipe_delivers {G : Type} [AddCommGroupWithOne G] (peer : String) {origin remote : Conn}
    (ho : origin.wire = .fresh) (hr : remote.wire = .fresh) (sched : List Turn) :
    let p : Pipe G := Pipe.start peer origin remote
    let q := p.run sched
    p.moves sched ≤ p.size ∧
      (∀ d, q.deadline (target d) = (q.session.stream d).pc.isDone) ∧
      (∀ d, q.cut d = true → q.deadline (source d) = true) ∧
      ((∀ t, q.canMove t = false) →
        q.session.handler = .returned true ∧
        ∀ d, (q.dst d).sent <+: (drain (p.src d)).1 ∧
          (q.cut d = false → (q.dst d).sent = (drain (p.src d)).1) ∧
          (q.session.stream d).total = ((q.dst d).sent.length : G)) := by
  intro p q
  have hsound := Pipe.sound_start (G := G) peer ho hr
  have hrun := hsound.run sched
  refine ⟨le_trans (Nat.le_add_right _ _) (hsound.moves_add_size sched), hrun.armed, hrun.timely,
    fun hstuck => ?_⟩
  have hret := hrun.returned hstuck
  exact ⟨hret, hrun.delivered hret⟩

/-- Three bytes one way and then, with the end of that stream, two of four the other way: the
deadline passes before the rest of them is read. -/
theorem pipe_delivers_three_two :
    ∃ sched : List Turn,
      let p := (Pipe.start "192.0.2.1:80" ⟨[⟨[1, 2], none⟩, ⟨[3], some .eof⟩], .fresh⟩
        ⟨[⟨[8, 9], none⟩, ⟨[6, 7], none⟩], .fresh⟩ : Pipe (BitVec 64)).run sched
      (∀ t, p.canMove t = false) ∧ (p.dst .upload).sent = [1, 2, 3] ∧ p.cut .download = true ∧
        (p.dst .download).sent <+: [8, 9, 6, 7] ∧ (p.dst .download).sent = [8, 9] := by
  have hstuck : ∀ t, ((Pipe.start "192.0.2.1:80" ⟨[⟨[1, 2], none⟩, ⟨[3], some .eof⟩], .fresh⟩
      ⟨[⟨[8, 9], none⟩, ⟨[6, 7], none⟩], .fresh⟩ : Pipe (BitVec 64)).run ([.handler, .handler] ++
        List.replicate 5 (.stream .download) ++ List.replicate 20 (.stream .upload) ++
        [.timeout .download] ++ List.replicate 10 (.stream .download) ++
        List.replicate 4 .handler)).canMove t = false := by
    intro t
    cases t with
    | handler => decide +kernel
    | stream d | timeout d => cases d <;> decide +kernel
  obtain ⟨-, hboth⟩ := (pipe_delivers "192.0.2.1:80" rfl rfl _).2.2.2 hstuck
  exact ⟨_, hstuck, (hboth .upload).2.1 (by decide +kernel), by decide +kernel,
    (hboth .download).1, by decide +kernel⟩

end Tun2socks.Tunnel
