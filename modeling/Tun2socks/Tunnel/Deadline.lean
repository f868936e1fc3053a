import Tun2socks.Go.Deadline
import Tun2socks.Tunnel.System

/-!
# Tun2socks.Tunnel.Deadline

Sessions in time: when a connection is given up for want of data.

Of a TCP session, a direction that has ended gives the other one `tcpWaitTimeout` more, by a
read deadline that is set once. Of a UDP session, both directions move the read deadlines of
both connections with every packet that they forward, so neither gives up while the other is
in use. Packets that `symmetricNATPacketConn` drops move no deadline.

`time.Now()` and the `SetReadDeadline` that uses it are one step here, and time passes between
steps only.
-/

namespace Tun2socks.Tunnel

open Tun2socks.Go Tun2socks.Statistic

/-- `tcpWaitTimeout`, in nanoseconds. -/
def tcpWaitTimeout : Nat := 60 * 10 ^ 9

/-- How long a read deadline is set ahead: `timeout` is the tunnel's `udpTimeout`. -/
def readTimeout (timeout : Nat) : Network → Nat
  | .tcp => tcpWaitTimeout
  | .udp => timeout

section

variable {G : Type}

/-- The goroutine is in `src.Read` or `src.ReadFrom` and can be given `r`. -/
def Stream.takes (s : Stream G) (net : Network) (r : Reading) : Bool :=
  s.count = none && s.pc = .reading && r.data.length ≤ bufferSize net

/-- The answer to a pending `dst.Write` or `dst.WriteTo` that has taken all. -/
def Stream.forwards (s : Stream G) (net : Network) (n : Int) (ew : Option Error) : Bool :=
  match s.count, s.pc with
  | none, .writing data _ => accepts data n ew net
  | _, _ => false

/-- What a step does to the deadlines, or needs of them; what is passed on is noted. -/
def Stream.event [Add G] [IntCast G] (s : Stream G) (net : Network) (dst : String)
    (d : Direction) (a : Answer) : Option (Deadline.Event Side Direction) :=
  match a, (s.step net dst d a).2 with
  | _, some (.call side .setReadDeadline) => some (.set side d)
  | .read r, _ =>
    if s.takes net r then
      some (if r.err = some .timeout then .timeout (source d) else .read (source d))
    else none
  | .write n ew, _ => if s.forwards net n ew then some (.note d) else none
  | .step, _ => none

/-- A session, and the deadlines of its two connections. -/
structure Timed (G : Type) where
  timers : Deadline.State Side Direction
  session : Session G

/-- A step of the session, or of the clock. -/
inductive Timed.Action
  /-- time passes -/
  | pass (n : Nat)
  | session (a : Act)

end

namespace Timed

variable {G : Type} [AddCommGroupWithOne G] (timeout : Nat)

/-- A session before its dial, at time zero. -/
def start (network : Network) (dst : String) : Timed G := ⟨.start, .new network dst⟩

/-- What a step of the session does to the deadlines, or needs of them. -/
def event (s : Session G) : Act → Option (Deadline.Event Side Direction)
  | .stream d a =>
    match s.handler with
    | .piping => (s.stream d).event s.network s.dst d a
    | _ => none
  | .dial _ | .handler => none

/-- One step. A read does not return what it cannot return now. -/
def step (s : Timed G) : Action → Timed G
  | .pass n => { s with timers := s.timers.pass n }
  | .session a =>
    match event s.session a with
    | none => { s with session := (s.session.next a).1 }
    | some e =>
      if s.timers.allows e then
        ⟨s.timers.record (readTimeout timeout s.session.network) e, (s.session.next a).1⟩
      else s

/-- The steps one after the other. -/
def run (network : Network) (dst : String) (acts : List Action) : Timed G :=
  acts.foldl (step timeout) (start network dst)

end Timed

/-! ### What a step of a goroutine can do -/

/-- Only `copyPacketData` sets deadlines around its reads, and only `unidirectionalStream` does
the half-close. -/
def Pc.fits : Network → Pc → Bool
  | .tcp, arm | .tcp, rearm => false
  | .udp, readClosed _ | .udp, writeClosed _ => false
  | _, _ => true

/-- A step of a copy loop leads here, and not past the half-close. -/
structure Pc.Inside (net : Network) (pc : Pc) : Prop where
  isDone : pc.isDone = false
  fits : pc.fits net = true

/-- What a step can do, with the event that it is for the deadlines. -/
inductive Pc.Timing (net : Network) (d : Direction) :
    Pc → Pc → Option (Deadline.Event Side Direction) → Prop
  | stay (pc : Pc) : Timing net d pc pc none
  | move {pc pc' : Pc} (hdone : pc.isDone = false) (harm : pc ≠ .arm) (hrearm : pc ≠ .rearm)
      (hpc : pc' ≠ .reading) (hdone' : pc'.isDone = true → net = .udp)
      (hfits : pc.fits net → pc'.fits net) : Timing net d pc pc' none
  | arm : Timing net d .arm .reading (some (.set (source d) d))
  | rearm : Timing net d .rearm .arm (some (.set (target d) d))
  | finish (err : Option Error) :
      Timing net d (.writeClosed err) (.done err) (some (.set (target d) d))
  | read {pc' : Pc} (h : pc'.Inside net) : Timing net d .reading pc' (some (.read (source d)))
  | timeout {pc' : Pc} (h : pc'.Inside net) :
      Timing net d .reading pc' (some (.timeout (source d)))
  | forward {data : List Byte} {er : Option Error} {pc' : Pc} (h : pc'.Inside net)
      (hudp : net = .udp → pc' = .rearm) : Timing net d (.writing data er) pc' (some (.note d))

theorem endRound_inside (err : Option Error) (net : Network) : (endRound err).Inside net := by
  obtain h | ⟨-, h⟩ | ⟨e, h⟩ := endRound_cases err <;> rw [h] <;>
    exact ⟨rfl, by cases net <;> rfl⟩

theorem afterRead_inside (dst : String) (d : Direction) (r : Reading) (net : Network) :
    (afterRead dst d r net).Inside net := by
  obtain h | h | ⟨-, h⟩ | ⟨e, h⟩ := afterRead_cases dst d r net <;> rw [h] <;>
    exact ⟨rfl, by cases net <;> rfl⟩

/-- A write notes the packet and goes on, or ends the loop. -/
theorem afterWrite_timing (data : List Byte) (er : Option Error) (n : Int) (ew : Option Error)
    (net : Network) (d : Direction) :
    Pc.Timing net d (.writing data er) (afterWrite data er n ew net)
      (if accepts data n ew net then some (.note d) else none) := by
  obtain ⟨hacc, ⟨rfl, h⟩ | ⟨rfl, h⟩⟩ | ⟨hacc, err, h⟩ := afterWrite_cases data er n ew net <;>
    rw [h, hacc]
  · exact .forward (endRound_inside er .tcp) nofun
  · exact .forward ⟨rfl, rfl⟩ fun _ => rfl
  · exact .move rfl Pc.noConfusion Pc.noConfusion Pc.noConfusion Bool.noConfusion
      fun _ => by cases net <;> rfl

theorem Stream.step_timing {G : Type} [Add G] [IntCast G] (s : Stream G) (net : Network)
    (dst : String) (d : Direction) (a : Answer) :
    Pc.Timing net d s.pc (s.step net dst d a).1.pc (s.event net dst d a) := by
  cases hc : s.count with
  | some c =>
    obtain ⟨stage, n⟩ := c
    cases a with
    | read r => simpa [event, step, hc, takes] using Pc.Timing.stay s.pc
    | write n ew => simpa [event, step, hc, forwards] using Pc.Timing.stay s.pc
    | step =>
      cases stage with
      | temp | total | own => simpa [event, step, hc, add] using Pc.Timing.stay s.pc
  | none =>
    cases a with
    | read r =>
      cases hpc : s.pc with
      | reading =>
        by_cases hr : r.data.length ≤ bufferSize net
        · have hinside := afterRead_inside dst d r net
          simp only [event, step, hc, hpc, hr, takes, if_true, read, track_pc, decide_true,
            Bool.and_self]
          split
          · exact .timeout hinside
          · exact .read hinside
        · simpa [event, step, hc, hpc, hr, takes] using Pc.Timing.stay .reading
      | arm | writing | rearm | copied | readClosed | writeClosed | done =>
        simpa [event, step, hc, hpc, takes] using Pc.Timing.stay _
    | write n ew =>
      cases hpc : s.pc with
      | writing data er =>
        simp only [event, step, hc, hpc, forwards, write, track_pc]
        exact afterWrite_timing data er n ew net d
      | arm | reading | rearm | copied | readClosed | writeClosed | done =>
        simpa [event, step, hc, hpc, forwards] using Pc.Timing.stay _
    | step =>
      cases hpc : s.pc with
      | arm => simpa [event, step, hc, hpc, go] using Pc.Timing.arm
      | rearm => simpa [event, step, hc, hpc, go] using Pc.Timing.rearm
      | writeClosed err => simpa [event, step, hc, hpc, go] using Pc.Timing.finish err
      | copied err =>
        cases net with
        | tcp =>
          simp only [event, step, hc, hpc, go]
          exact .move rfl Pc.noConfusion Pc.noConfusion Pc.noConfusion Bool.noConfusion fun _ => rfl
        | udp =>
          simp only [event, step, hc, hpc, go]
          exact .move rfl Pc.noConfusion Pc.noConfusion Pc.noConfusion (fun _ => rfl) fun _ => rfl
      | readClosed err =>
        simp only [event, step, hc, hpc, go]
        exact .move rfl Pc.noConfusion Pc.noConfusion Pc.noConfusion Bool.noConfusion
          (by cases net <;> exact id)
      | reading | writing | done =>
        simpa [event, step, hc, hpc, go] using Pc.Timing.stay _

theorem Pc.Timing.fits {net : Network} {d : Direction} {pc pc' : Pc}
    {e : Option (Deadline.Event Side Direction)} (h : Timing net d pc pc' e)
    (hpc : pc.fits net = true) : pc'.fits net = true := by
  cases h with
  | stay => exact hpc
  | move _ _ _ _ _ hfits => exact hfits hpc
  | rearm => cases net <;> exact hpc
  | arm | finish => cases net <;> rfl
  | read h | timeout h | forward h => exact h.fits

/-- The packets that the target has taken are the ones that are noted. -/
theorem Stream.step_writes {G : Type} [Add G] [IntCast G] (s : Stream G) (net : Network)
    (dst : String) (d : Direction) (a : Answer) :
    (s.step net dst d a).1.writes.length =
      s.writes.length + if s.event net dst d a = some (.note d) then 1 else 0 := by
  cases hc : s.count with
  | some c =>
    obtain ⟨stage, n⟩ := c
    cases a with
    | read r => simp [event, step, hc, takes]
    | write n ew => simp [event, step, hc, forwards]
    | step =>
      cases stage with
      | temp | total | own => simp [event, step, hc, add]
  | none =>
    cases a with
    | read r =>
      cases hpc : s.pc with
      | reading =>
        simp only [event, step, hc, hpc, takes]
        split
        · simp [read, ite_eq_iff]
        · simp [ite_eq_iff]
      | arm | writing | rearm | copied | readClosed | writeClosed | done =>
        simp [event, step, hc, hpc, takes]
    | write n ew =>
      cases hpc : s.pc with
      | writing data er =>
        cases hacc : accepts data n ew net <;>
          simp [event, step, hc, hpc, forwards, write, hacc]
      | arm | reading | rearm | copied | readClosed | writeClosed | done =>
        simp [event, step, hc, hpc, forwards]
    | step =>
      cases hpc : s.pc with
      | copied err => cases net <;> simp [event, step, hc, hpc, go]
      | arm | rearm | writeClosed | readClosed | reading | writing | done =>
        simp [event, step, hc, hpc, go]

/-! ### Runs -/

/-- The deadlines, and where the two goroutines stand. -/
inductive Timed.Move (net : Network) (wait : Nat) :
    Deadline.State Side Direction → (Direction → Pc) →
      Deadline.State Side Direction → (Direction → Pc) → Prop
  | pass (t : Deadline.State Side Direction) (p : Direction → Pc) (n : Nat) :
      Move net wait t p (t.pass n) p
  | silent (t : Deadline.State Side Direction) {p : Direction → Pc} {d : Direction} {pc : Pc}
      (h : Pc.Timing net d (p d) pc none) : Move net wait t p t (Function.update p d pc)
  | event {t : Deadline.State Side Direction} {p : Direction → Pc} {d : Direction} {pc : Pc}
      {e : Deadline.Event Side Direction} (h : Pc.Timing net d (p d) pc (some e))
      (ha : t.allows e = true) :
      Move net wait t p (t.record wait e) (Function.update p d pc)

/-- Where the two goroutines stand. -/
def Session.pcs {G : Type} (s : Session G) (d : Direction) : Pc := (s.stream d).pc

section Timed

variable {G : Type} [AddCommGroupWithOne G] (timeout : Nat)

/-- What a step can do: time passes and the streams stay as they are, or one of them takes a step,
which the deadlines allow and record if it is an event for them. -/
theorem Timed.step_cases (s : Timed G) (a : Action) :
    (∃ n, (s.step timeout a).timers = s.timers.pass n ∧
      (s.step timeout a).session.stream = s.session.stream) ∨
    ∃ d b, (s.step timeout a).session.stream = Function.update s.session.stream d
        ((s.session.stream d).step s.session.network s.session.dst d b).1 ∧
      ((s.session.stream d).event s.session.network s.session.dst d b = none ∧
          (s.step timeout a).timers = s.timers ∨
        ∃ e, (s.session.stream d).event s.session.network s.session.dst d b = some e ∧
          s.timers.allows e = true ∧
          (s.step timeout a).timers =
            s.timers.record (readTimeout timeout s.session.network) e) := by
  cases a with
  | pass n => exact .inl ⟨n, rfl, rfl⟩
  | session a =>
    cases a with
    | dial err =>
      refine .inl ⟨0, rfl, ?_⟩
      simp only [step, event, Session.next]
      split <;> rfl
    | handler =>
      have hsame : (s.session.next .handler).1.stream = _ :=
        congrArg Session.stream s.session.handle_eq
      exact .inl ⟨0, rfl, hsame⟩
    | stream d b =>
      by_cases hh : s.session.handler = .piping
      · simp only [step, event, hh]
        cases he : (s.session.stream d).event s.session.network s.session.dst d b with
        | none =>
          refine .inr ⟨d, b, ?_, .inl ⟨he, rfl⟩⟩
          simp only [Session.next, hh]
        | some e =>
          dsimp only
          split
          next ha =>
            refine .inr ⟨d, b, ?_, .inr ⟨e, he, ha, rfl⟩⟩
            simp only [Session.next, hh]
          · exact .inl ⟨0, rfl, rfl⟩
      · have hnone : event s.session (.stream d b) = none := by
          simp only [event]
        have hsame : (s.session.next (.stream d b)).1 = s.session := by
          simp only [Session.next]
        rw [step, hnone, hsame]
        exact .inl ⟨0, rfl, rfl⟩

theorem Timed.step_move (s : Timed G) (a : Action) :
    Move s.session.network (readTimeout timeout s.session.network) s.timers s.session.pcs
      (s.step timeout a).timers (s.step timeout a).session.pcs := by
  obtain ⟨n, htimers, hstream⟩ | ⟨d, b, hstream, hevent⟩ := s.step_cases timeout a
  · have hpcs : (s.step timeout a).session.pcs = s.session.pcs := by
      funext d
      rw [Session.pcs, hstream]
      rfl
    rw [htimers, hpcs]
    exact .pass _ _ n
  · have htiming := (s.session.stream d).step_timing s.session.network s.session.dst d b
    have hpcs : (s.step timeout a).session.pcs = Function.update s.session.pcs d
        ((s.session.stream d).step s.session.network s.session.dst d b).1.pc := by
      funext e
      rw [Session.pcs, hstream]
      exact Function.apply_update (fun _ => Stream.pc) ..
    rw [hpcs]
    obtain ⟨he, htimers⟩ | ⟨e, he, ha, htimers⟩ := hevent
    · rw [he] at htiming
      rw [htimers]
      exact .silent s.timers htiming
    · rw [he] at htiming
      rw [htimers]
      exact .event htiming ha

theorem Timed.step_network (s : Timed G) (a : Action) :
    (s.step timeout a).session.network = s.session.network := by
  cases a with
  | pass n => rfl
  | session a =>
    simp only [step]
    split
    · exact s.session.next_network a
    · split
      · exact s.session.next_network a
      · rfl

variable {timeout}

/-- What every move keeps holds after every run. -/
theorem Timed.run_invariant {network : Network}
    {P : Deadline.State Side Direction → (Direction → Pc) → Prop}
    (hstart : P .start fun _ => (Stream.new network : Stream G).pc)
    (hmove : ∀ t p t' p', Move network (readTimeout timeout network) t p t' p' → P t p → P t' p')
    (dst : String) (acts : List Action) :
    P (run timeout network dst acts : Timed G).timers
      (run timeout network dst acts : Timed G).session.pcs := by
  suffices h : ∀ s : Timed G, s.session.network = network → P s.timers s.session.pcs →
      P (acts.foldl (step timeout) s).timers (acts.foldl (step timeout) s).session.pcs from
    h _ rfl hstart
  induction acts with
  | nil => exact fun _ _ h => h
  | cons a acts ih =>
    intro s hnet h
    refine ih _ ((s.step_network timeout a).trans hnet) ?_
    have hstep := s.step_move timeout a
    rw [hnet] at hstep
    exact hmove _ _ _ _ hstep h

end Timed

/-! ### What is noted -/

section Noted

variable {G : Type} [AddCommGroupWithOne G] {timeout : Nat}

/-- One note for each packet that the target of direction `d` has taken. -/
def Timed.Noted (s : Timed G) : Prop :=
  ∀ d, s.timers.log.countP (fun x => x.2 = .note d) = (s.session.stream d).writes.length

/-- A direction notes its own packets only. -/
theorem Pc.Timing.note_eq {net : Network} {d d' : Direction} {pc pc' : Pc}
    (h : Timing net d pc pc' (some (.note d'))) : d' = d := by
  cases h
  rfl

theorem Timed.Noted.step {s : Timed G} (h : s.Noted) (a : Action) : (s.step timeout a).Noted := by
  intro d'
  obtain ⟨n, htimers, hstream⟩ | ⟨d, b, hstream, hevent⟩ := s.step_cases timeout a
  · rw [htimers, hstream]
    exact h d'
  · have hwrites := (s.session.stream d).step_writes s.session.network s.session.dst d b
    have htiming := (s.session.stream d).step_timing s.session.network s.session.dst d b
    rw [hstream]
    obtain ⟨he, htimers⟩ | ⟨e, he, -, htimers⟩ := hevent
    · rw [htimers, h d']
      by_cases hd : d' = d
      · subst hd
        rw [Function.update_self, hwrites, he]
        rfl
      · rw [Function.update_of_ne hd]
    · rw [htimers, Deadline.record_log, List.countP_append, h d', List.countP_singleton]
      rw [he] at hwrites htiming
      by_cases hd : d' = d
      · subst hd
        simp [hwrites]
      · have hne : e ≠ .note d' := by
          rintro rfl
          exact hd htiming.note_eq
        simp [Function.update_of_ne hd, hne]

theorem Timed.noted_run {network : Network} (dst : String) (acts : List Action) :
    (run timeout network dst acts : Timed G).Noted := by
  refine List.foldlRecOn (motive := Noted) acts (Timed.step timeout) ?_ fun _ h a _ => h.step a
  intro d
  cases network <;> rfl

end Noted

/-! ### The half-close of a TCP session -/

namespace Timed

variable {t t' : Deadline.State Side Direction} {p p' : Direction → Pc} {wait : Nat}

/-- What holds in every session. -/
structure Kept (net : Network) (wait : Nat) (t : Deadline.State Side Direction)
    (p : Direction → Pc) : Prop where
  log : Deadline.Kept wait t
  fits : ∀ d, (p d).fits net = true

theorem fits_update {net : Network} (h : ∀ d, (p d).fits net = true) {d : Direction} {pc : Pc}
    {e : Option (Deadline.Event Side Direction)} (hpc : Pc.Timing net d (p d) pc e) :
    ∀ d', (Function.update p d pc d').fits net = true := by
  intro d'
  by_cases hd : d' = d
  · subst hd
    rw [Function.update_self]
    exact hpc.fits (h d')
  · rw [Function.update_of_ne hd]
    exact h d'

theorem Kept.move {net : Network} (h : Kept net wait t p) (hm : Move net wait t p t' p') :
    Kept net wait t' p' := by
  cases hm with
  | pass n => exact ⟨h.log.pass n, h.fits⟩
  | silent hpc => exact ⟨h.log, fits_update h.fits hpc⟩
  | event hpc ha => exact ⟨h.log.record ha, fits_update h.fits hpc⟩

/-- A direction sets the deadline of its target, once, when it is done. -/
structure HalfClosed (t : Deadline.State Side Direction) (p : Direction → Pc) : Prop where
  by_target : ∀ u k d, (u, .set k d) ∈ t.log → k = target d ∧ (p d).isDone = true
  once : ∀ u u' k d d', (u, .set k d) ∈ t.log → (u', .set k d') ∈ t.log → u = u'
  of_done : ∀ d, (p d).isDone = true → ∃ u, (u, .set (target d) d) ∈ t.log

/-- A direction that is done stays where it is. -/
theorem isDone_update {net : Network} {d d' : Direction} {pc : Pc}
    {e : Option (Deadline.Event Side Direction)} (hpc : Pc.Timing net d (p d) pc e)
    (hdone : (p d').isDone = true) : (Function.update p d pc d').isDone = true := by
  by_cases hd : d' = d
  · subst hd
    rw [Function.update_self]
    generalize p d' = q at hpc hdone
    cases hpc with
    | stay => exact hdone
    | move hnot => rw [hdone] at hnot; cases hnot
    | arm | rearm | read | timeout | forward => cases hdone
    | finish => rfl
  · rwa [Function.update_of_ne hd]

/-- And one that is not gets there by setting its deadline only. -/
theorem HalfClosed.of_done_update (h : HalfClosed t p) {d : Direction} {pc : Pc}
    {e : Option (Deadline.Event Side Direction)} (hpc : Pc.Timing .tcp d (p d) pc e)
    (hlog : ∀ q ∈ t.log, q ∈ t'.log) (he : ∀ x, e = some x → (t.clock, x) ∈ t'.log)
    (d' : Direction) (hdone : (Function.update p d pc d').isDone = true) :
    ∃ u, (u, .set (target d') d') ∈ t'.log := by
  have hold : (p d').isDone = true → ∃ u, (u, .set (target d') d') ∈ t'.log := fun hd =>
    (h.of_done d' hd).imp fun u hu => hlog _ hu
  by_cases hd : d' = d
  · subst hd
    rw [Function.update_self] at hdone
    generalize p d' = q at hpc hold
    cases hpc with
    | stay => exact hold hdone
    | move _ _ _ _ hnet => cases hnet hdone
    | arm | rearm => cases hdone
    | finish => exact ⟨t.clock, he _ rfl⟩
    | read hin | timeout hin | forward hin =>
      rw [hin.isDone] at hdone
      cases hdone
  · rw [Function.update_of_ne hd] at hdone
    exact hold hdone

theorem HalfClosed.move (h : HalfClosed t p) (hfits : ∀ d, (p d).fits .tcp = true)
    (hm : Move .tcp wait t p t' p') : HalfClosed t' p' := by
  cases hm with
  | pass n => exact ⟨h.by_target, h.once, h.of_done⟩
  | silent hpc =>
    refine ⟨fun u k d' hset => ?_, h.once, h.of_done_update hpc (fun _ => id) nofun⟩
    obtain ⟨hk, hdone⟩ := h.by_target u k d' hset
    exact ⟨hk, isDone_update hpc hdone⟩
  | event hpc ha =>
    rename_i d pc e
    have hold : ∀ u k d', (u, .set k d') ∈ t.log →
        k = target d' ∧ (Function.update p d pc d').isDone = true := fun u k d' hset =>
      (h.by_target u k d' hset).imp_right (isDone_update hpc)
    have hdone : ∀ d', (Function.update p d pc d').isDone = true →
        ∃ u, (u, .set (target d') d') ∈ (t.record wait e).log := h.of_done_update hpc
      (fun q hq => Deadline.mem_record.mpr (.inl hq))
      (fun x hx => Deadline.mem_record.mpr (.inr (by rw [Option.some.inj hx])))
    generalize hq : p d = q at hpc
    have hfit := hfits d
    rw [hq] at hfit
    cases hpc with
    | arm | rearm => cases hfit
    | read | timeout | forward => exact ⟨by simpa using hold, by simpa using h.once, hdone⟩
    | finish err =>
      -- the direction was not done before, so its target had no deadline
      have hnew : ∀ u d', (u, .set (target d) d') ∉ t.log := by
        intro u d' hset
        obtain ⟨hk, hdone⟩ := h.by_target u _ d' hset
        obtain rfl := target_injective hk
        rw [hq] at hdone
        cases hdone
      refine ⟨fun u k d' hset => ?_, fun u u' k d₁ d₂ hset hset' => ?_, hdone⟩
      · rcases Deadline.mem_record.mp hset with hset | heq
        · exact hold u k d' hset
        · cases heq
          exact ⟨rfl, by rw [Function.update_self]; rfl⟩
      · rcases Deadline.mem_record.mp hset with hset | heq <;>
          rcases Deadline.mem_record.mp hset' with hset' | heq'
        · exact h.once u u' k d₁ d₂ hset hset'
        · cases heq'
          exact absurd hset (hnew u d₁)
        · cases heq
          exact absurd hset' (hnew u' d₂)
        · cases heq
          cases heq'
          rfl

end Timed

section HalfClose

variable {G : Type} [AddCommGroupWithOne G] (timeout : Nat) (dst : String)
  (acts : List Timed.Action)

end HalfClose

namespace Timed

variable {t t' : Deadline.State Side Direction} {p p' : Direction → Pc} {wait : Nat}

theorem target_eq_source {d d' : Direction} (h : d' ≠ d) : target d' = source d := by
  cases d <;> cases d' <;> first | rfl | exact absurd rfl h

/-- `log` is what has happened since direction `d` passed on a packet: it has moved the deadline
of connection `k`, or stands at one of `pcs` and has not passed on another. -/
def Follows (p : Direction → Pc) (d : Direction) (log : List (Nat × Deadline.Event Side Direction))
    (k : Side) (pcs : List Pc) : Prop :=
  (∃ u, (u, .set k d) ∈ log) ∨ p d ∈ pcs ∧ ∀ u, (u, .note d) ∉ log

section Follows

variable {d : Direction} {log : List (Nat × Deadline.Event Side Direction)} {k : Side}
  {pcs : List Pc}

theorem Follows.of_mem (h : Follows p d log k pcs) (hp : p d ∈ pcs → p' d ∈ pcs) :
    Follows p' d log k pcs :=
  h.imp_right fun hpc => ⟨hp hpc.1, hpc.2⟩

theorem Follows.of_not_mem (h : Follows p d log k pcs) (hp : p d ∉ pcs) :
    ∃ u, (u, .set k d) ∈ log :=
  h.resolve_right fun hpc => hp hpc.1

/-- One more event. -/
theorem Follows.append (h : Follows p d log k pcs) (u : Nat) {e : Deadline.Event Side Direction}
    (he : p d ∈ pcs → e = .set k d ∨ p' d ∈ pcs ∧ e ≠ .note d) :
    Follows p' d (log ++ [(u, e)]) k pcs := by
  obtain ⟨u', hset⟩ | ⟨hp, hnote⟩ := h
  · exact .inl ⟨u', List.mem_append_left _ hset⟩
  · obtain rfl | ⟨hp', hne⟩ := he hp
    · exact .inl ⟨u, by simp⟩
    · refine .inr ⟨hp', fun u' hmem => ?_⟩
      rcases List.mem_append.mp hmem with hmem | hmem
      · exact hnote u' hmem
      · exact hne (Prod.mk.inj (List.mem_singleton.mp hmem)).2.symm

end Follows

/-- Both directions move the deadlines with the packets that they pass on. -/
structure Armed (wait : Nat) (t : Deadline.State Side Direction) (p : Direction → Pc) : Prop where
  armed : ∀ d, p d = .reading → ∃ u, (u, .set (source d) d) ∈ t.log
  /-- after a packet, a direction moves the deadline of its target and then that of its source -/
  moved : ∀ d before u after, t.log = before ++ (u, .note d) :: after →
    Follows p d after (target d) [.rearm] ∧ Follows p d after (source d) [.rearm, .arm]
  idle : ∀ d d' before u mid v after,
    t.log = before ++ (u, .note d') :: (mid ++ (v, .timeout (source d)) :: after) →
      u + wait ≤ v ∨ d' ≠ d ∧ ∀ u', (u', .set (target d') d') ∉ mid
  fresh : ∀ d v, (v, .read (source d)) ∈ t.log →
    ∃ u d', (u, .set (source d) d') ∈ t.log ∧ u ≤ v ∧ v < u + wait

theorem Armed.silent (h : Armed wait t p) {d : Direction} {pc : Pc}
    (hpc : Pc.Timing .udp d (p d) pc none) : Armed wait t (Function.update p d pc) := by
  generalize hq : p d = q at hpc
  cases hpc with
  | stay =>
    rw [← hq, Function.update_eq_self]
    exact h
  | move _ harm hrearm hread _ _ =>
    refine ⟨fun d' hd' => ?_, fun d' before u after hlog => ?_, h.idle, h.fresh⟩
    · by_cases hd : d' = d
      · subst hd
        rw [Function.update_self] at hd'
        exact absurd hd' hread
      · rw [Function.update_of_ne hd] at hd'
        exact h.armed d' hd'
    · obtain ⟨htarget, hsource⟩ := h.moved d' before u after hlog
      by_cases hd : d' = d
      · subst hd
        exact ⟨.inl (htarget.of_not_mem (by simp [hq, hrearm])),
          .inl (hsource.of_not_mem (by simp [hq, hrearm, harm]))⟩
      · exact ⟨htarget.of_mem (by rw [Function.update_of_ne hd]; exact id),
          hsource.of_mem (by rw [Function.update_of_ne hd]; exact id)⟩

/-- A direction that is reading has set the deadline of its source since its last packet. If a
read of it times out, `wait` has gone by since then; and since any packet of the other direction
after which that has moved its deadline. -/
theorem Armed.idle_now (h : Armed wait t p) (hk : Deadline.Kept wait t) {d : Direction}
    (hreading : p d = .reading) (hexp : t.expired (source d) = true) {d' : Direction}
    {before mid : List (Nat × Deadline.Event Side Direction)} {u : Nat}
    (hlog : t.log = before ++ (u, .note d') :: mid) :
    u + wait ≤ t.clock ∨ d' ≠ d ∧ ∀ u', (u', .set (target d') d') ∉ mid := by
  -- what was set after the packet was not set before it, and has expired
  have hpassed : ∀ u' a, (u', .set (source d) a) ∈ mid → u + wait ≤ t.clock := by
    intro u' a hset
    have hle : u ≤ u' := hk.later hlog _ hset
    have hmem : (u', .set (source d) a) ∈ t.log := by
      rw [hlog]
      exact List.mem_append_right _ (List.mem_cons_of_mem _ hset)
    have := (hk.of_expired hexp).2 u' a hmem
    omega
  by_cases hd : d' = d
  · subst hd
    obtain ⟨u', hset⟩ := (h.moved d' before u mid hlog).2.of_not_mem (by simp [hreading])
    exact .inl (hpassed u' d' hset)
  · by_cases hset : ∃ u', (u', .set (target d') d') ∈ mid
    · obtain ⟨u', hset⟩ := hset
      rw [target_eq_source hd] at hset
      exact .inl (hpassed u' d' hset)
    · exact .inr ⟨hd, not_exists.mp hset⟩

/-- A packet and the events after it, when there is one event more. -/
theorem Armed.moved_record (h : Armed wait t p) {d : Direction} {pc : Pc}
    {e : Deadline.Event Side Direction} (hpc : Pc.Timing .udp d (p d) pc (some e))
    (hfits : (p d).fits .udp = true) (d' : Direction)
    (before : List (Nat × Deadline.Event Side Direction)) (u : Nat)
    (after : List (Nat × Deadline.Event Side Direction))
    (hlog : (t.record wait e).log = before ++ (u, .note d') :: after) :
    Follows (Function.update p d pc) d' after (target d') [.rearm] ∧
      Follows (Function.update p d pc) d' after (source d') [.rearm, .arm] := by
  obtain ⟨-, heq, rfl⟩ | ⟨rest, rfl, hold⟩ := Deadline.record_split hlog
  · -- the packet has just been passed on
    obtain rfl : e = .note d' := (Prod.mk.inj heq).2.symm
    generalize p d = q at hpc
    cases hpc with
    | forward _ hudp =>
      obtain rfl := hudp rfl
      exact ⟨.inr ⟨by simp, by simp⟩, .inr ⟨by simp, by simp⟩⟩
  · obtain ⟨htarget, hsource⟩ := h.moved d' before u rest hold
    by_cases hd : d' = d
    · subst hd
      generalize hq : p d' = q at hpc hfits
      cases hpc with
      | finish => cases hfits
      | arm => exact ⟨htarget.append _ (by simp [hq]), hsource.append _ fun _ => .inl rfl⟩
      | rearm => exact ⟨htarget.append _ fun _ => .inl rfl, hsource.append _ (by simp)⟩
      | read | timeout | forward =>
        exact ⟨htarget.append _ (by simp [hq]), hsource.append _ (by simp [hq])⟩
    · have hne : e ≠ .note d' := by
        rintro rfl
        exact hd hpc.note_eq
      refine ⟨htarget.append _ ?_, hsource.append _ ?_⟩ <;>
        exact fun hmem => .inr ⟨by rwa [Function.update_of_ne hd], hne⟩

theorem Armed.event (h : Armed wait t p) (hk : Kept .udp wait t p) {d : Direction} {pc : Pc}
    {e : Deadline.Event Side Direction} (hpc : Pc.Timing .udp d (p d) pc (some e))
    (ha : t.allows e = true) : Armed wait (t.record wait e) (Function.update p d pc) := by
  have hold : ∀ q ∈ t.log, q ∈ (t.record wait e).log := fun q hq =>
    Deadline.mem_record.mpr (.inl hq)
  refine ⟨fun d' hd' => ?_, h.moved_record hpc (hk.fits d), ?_, fun d' v hv => ?_⟩
  · by_cases hd : d' = d
    · subst hd
      rw [Function.update_self] at hd'
      subst hd'
      generalize hq : p d' = q at hpc
      cases hpc with
      | arm => exact ⟨t.clock, Deadline.mem_record.mpr (.inr rfl)⟩
      | read | timeout => exact (h.armed d' hq).imp fun u hu => hold _ hu
      | forward _ hudp => cases hudp rfl
    · rw [Function.update_of_ne hd] at hd'
      exact (h.armed d' hd').imp fun u hu => hold _ hu
  · intro d₁ d' before u mid v after hlog
    rw [← List.cons_append, ← List.append_assoc] at hlog
    obtain ⟨hbefore, heq, -⟩ | ⟨rest, -, hlog⟩ := Deadline.record_split hlog
    · obtain ⟨rfl, rfl⟩ := Prod.mk.inj heq
      generalize hq : p d = q at hpc
      generalize hside : source d₁ = side at hpc
      cases hpc with
      | timeout =>
        obtain rfl := source_injective hside
        exact h.idle_now hk.log hq ha hbefore.symm
    · rw [List.append_assoc, List.cons_append] at hlog
      exact h.idle d₁ d' before u mid v rest hlog
  · rcases Deadline.mem_record.mp hv with hv | heq
    · obtain ⟨u, a, hu, hle⟩ := h.fresh d' v hv
      exact ⟨u, a, hold _ hu, hle⟩
    · obtain ⟨rfl, rfl⟩ := Prod.mk.inj heq
      generalize hq : p d = q at hpc
      generalize hside : source d' = side at hpc
      cases hpc with
      | read =>
        obtain rfl := source_injective hside
        obtain ⟨u, hu⟩ := h.armed d' hq
        obtain ⟨u', a', hu', hle⟩ :=
          hk.log.of_not_expired (by simpa [Deadline.State.allows] using ha) hu
        exact ⟨u', a', hold _ hu', hle⟩

theorem Armed.move (h : Armed wait t p) (hk : Kept .udp wait t p)
    (hm : Move .udp wait t p t' p') : Armed wait t' p' := by
  cases hm with
  | pass n => exact ⟨h.armed, h.moved, h.idle, h.fresh⟩
  | silent hpc => exact h.silent hpc
  | event hpc ha => exact h.event hk hpc ha

end Timed

section Idle

variable {G : Type} [AddCommGroupWithOne G] (timeout : Nat) (dst : String)
  (acts : List Timed.Action)

/-- **A UDP session is given up when it is idle.** The log notes each packet that a direction has
passed on. After it the direction moves the deadlines of its target and of its source, unless
those are its very next steps. So a read times out only if `timeout` has gone by since every
packet of the same direction, and since every packet of the other one after which that has got
as far as its `SetReadDeadline`. And nothing is read unless the deadline was moved less than
`timeout` before. -/
theorem idle_session_ends :
    let s : Timed G := .run timeout .udp dst acts
    (∀ d, s.timers.log.countP (fun x => x.2 = .note d) = (s.session.stream d).writes.length) ∧
    (∀ d before u after, s.timers.log = before ++ (u, .note d) :: after →
      Timed.Follows s.session.pcs d after (target d) [.rearm] ∧
        Timed.Follows s.session.pcs d after (source d) [.rearm, .arm]) ∧
    (∀ d d' before u mid v after,
      s.timers.log = before ++ (u, .note d') :: (mid ++ (v, .timeout (source d)) :: after) →
        u + timeout ≤ v ∨ d' ≠ d ∧ ∀ u', (u', .set (target d') d') ∉ mid) ∧
    ∀ d v, (v, .read (source d)) ∈ s.timers.log →
      ∃ u d', (u, .set (source d) d') ∈ s.timers.log ∧ u ≤ v ∧ v < u + timeout := by
  intro s
  obtain ⟨-, harmed⟩ : Timed.Kept .udp timeout s.timers s.session.pcs ∧
      Timed.Armed timeout s.timers s.session.pcs := by
    refine Timed.run_invariant
      (P := fun t p => Timed.Kept .udp timeout t p ∧ Timed.Armed timeout t p) ?_ ?_ dst acts
    · refine ⟨⟨Deadline.kept_start, fun _ => rfl⟩, nofun, ?_, ?_, nofun⟩
      · intro d before u after hlog
        exact absurd hlog.symm (by simp [Deadline.State.start])
      · intro d d' before u mid v after hlog
        exact absurd hlog.symm (by simp [Deadline.State.start])
    · intro t p t' p' hm h
      exact ⟨h.1.move hm, h.2.move h.1 hm⟩
  exact ⟨Timed.noted_run dst acts, harmed.moved, harmed.idle, harmed.fresh⟩

end Idle

/-- One packet at the beginning, a packet from another address later, and no third. -/
theorem idle_session_ends_one :
    let s : Timed (BitVec 64) := .run 30 .udp "192.0.2.1:53"
      [.session (.dial none), .session .handler, .session (.stream .upload .step),
        .session (.stream .download .step), .pass 10,
        .session (.stream .upload (.read ⟨[1], none, none⟩)),
        .session (.stream .upload (.write 1 none)), .session (.stream .upload .step),
        .session (.stream .upload .step), .session (.stream .upload .step),
        .session (.stream .upload .step), .session (.stream .upload .step), .pass 25,
        .session (.stream .download (.read ⟨[6], some "192.0.2.9:53", none⟩)),
        .session (.stream .download .step), .session (.stream .download .step),
        .session (.stream .download .step), .pass 5,
        .session (.stream .download (.read ⟨[], none, some .timeout⟩))]
    (s.session.stream .download).pc = .copied none ∧
      s.timers.log =
        [(0, .set .origin .upload), (0, .set .remote .download), (10, .read .origin)] ++
        (10, .note .upload) :: ([(10, .set .remote .upload), (10, .set .origin .upload),
          (35, .read .remote)] ++ (40, .timeout .remote) :: []) ∧
      (10 + 30 ≤ 40 ∨ Direction.upload ≠ .download ∧
        ∀ u, (u, .set .remote .upload) ∉ [(10, Deadline.Event.set Side.remote Direction.upload),
          (10, .set .origin .upload), (35, .read .remote)]) := by
  intro s
  have hlog : s.timers.log =
      [(0, .set .origin .upload), (0, .set .remote .download), (10, .read .origin)] ++
        (10, .note .upload) :: ([(10, .set .remote .upload), (10, .set .origin .upload),
          (35, .read .remote)] ++ (40, .timeout .remote) :: []) := by
    decide +kernel
  exact ⟨by decide +kernel, hlog,
    (idle_session_ends 30 "192.0.2.1:53" _).2.2.1 .download .upload _ _ _ _ _ hlog⟩

end Tun2socks.Tunnel
