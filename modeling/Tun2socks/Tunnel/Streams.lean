import Tun2socks.Go.Io
import Tun2socks.Tunnel.Session

/-!
# Tun2socks.Tunnel.Streams

What one direction of a session does to the data.

`Relays` is the invariant: the target has taken what the source gave, in the same pieces and
the same order, all but one piece at most, and it holds whatever the two connections answer.
-/

namespace Tun2socks.Tunnel

open Tun2socks.Go Tun2socks.Statistic

/-- What the target may still lack of the data that was read. -/
def Pc.Owes : Pc → List (List Byte) → Prop
  | arm, rest | reading, rest | rearm, rest => rest = []
  | writing data _, rest => rest = [data]
  | copied err, rest | readClosed err, rest | writeClosed err, rest | done err, rest =>
    rest.length ≤ 1 ∧ (err = none → rest = [])

/-- The error that the copy loop has returned, if it has returned. -/
def Pc.result : Pc → Option (Option Error)
  | copied err | readClosed err | writeClosed err | done err => some err
  | arm | reading | writing .. | rearm => none

theorem Pc.Owes.length_le {pc : Pc} {rest : List (List Byte)} (h : pc.Owes rest) :
    rest.length ≤ 1 := by
  cases pc with
  | arm | reading | rearm =>
    obtain rfl := h
    exact Nat.zero_le _
  | writing data er =>
    obtain rfl := h
    exact Nat.le_refl _
  | copied err | readClosed err | writeClosed err | done err => exact h.1

theorem Pc.Owes.eq_nil {pc : Pc} {rest : List (List Byte)} (h : pc.Owes rest)
    (hr : pc.result = some none) : rest = [] := by
  cases pc with
  | arm | reading | writing | rearm => cases hr
  | copied err | readClosed err | writeClosed err | done err => exact h.2 (Option.some.inj hr)

/-! ### The copy loops -/

/-- Where a round of `io.CopyBuffer` can lead: on to the next, or out of the loop. -/
theorem endRound_cases (err : Option Error) :
    endRound err = .reading ∨ err = some .eof ∧ endRound err = .copied none ∨
      ∃ e, endRound err = .copied (some e) := by
  unfold endRound
  split
  · exact .inl rfl
  · exact .inr (.inl ⟨rfl, rfl⟩)
  · rename_i e _
    exact .inr (.inr ⟨e, rfl⟩)

/-- Where a read can lead: to a write of its data, to another read, or out of the loop. -/
theorem afterRead_cases (dst : String) (d : Direction) (r : Reading) (net : Network) :
    afterRead dst d r net = .writing r.data r.err ∨
      afterRead dst d r net = .reading ∨
      (r.err = some .eof ∨ net = .udp ∧ r.err = some .timeout) ∧
        afterRead dst d r net = .copied none ∨
      ∃ err, afterRead dst d r net = .copied (some err) := by
  cases net with
  | tcp =>
    rw [afterRead]
    split
    · obtain h | ⟨herr, h⟩ | h := endRound_cases r.err
      · exact .inr (.inl h)
      · exact .inr (.inr (.inl ⟨.inl herr, h⟩))
      · exact .inr (.inr (.inr h))
    · exact .inl rfl
  | udp =>
    rw [afterRead]
    split
    · exact .inr (.inl rfl)
    · split <;> rename_i herr
      · exact .inl (herr ▸ rfl)
      · exact .inr (.inr (.inl ⟨.inr ⟨rfl, herr⟩, rfl⟩))
      · exact .inr (.inr (.inl ⟨.inl herr, rfl⟩))
      · exact .inr (.inr (.inr ⟨_, rfl⟩))

/-- The loop goes on to write exactly what is owed. -/
theorem afterRead_data (dst : String) (d : Direction) (r : Reading) (net : Network) :
    (afterRead dst d r net).data = r.owed dst d net := by
  cases net with
  | tcp =>
    rw [afterRead, Reading.owed]
    split
    · obtain h | ⟨-, h⟩ | ⟨e, h⟩ := endRound_cases r.err <;> rw [h] <;> rfl
    · rfl
  | udp =>
    rw [afterRead, Reading.owed]
    cases hdrop : dropped dst d r with
    | true => rfl
    | false =>
      rw [if_neg Bool.false_ne_true]
      split <;> rename_i herr <;> simp [herr, Pc.data]

/-- Where a write can lead: out of the loop with an error if not all was taken. -/
theorem afterWrite_cases (data : List Byte) (er : Option Error) (n : Int) (ew : Option Error)
    (net : Network) :
    accepts data n ew net = true ∧
        (net = .tcp ∧ afterWrite data er n ew net = endRound er ∨
          net = .udp ∧ afterWrite data er n ew net = .rearm) ∨
      accepts data n ew net = false ∧ ∃ err, afterWrite data er n ew net = .copied (some err) := by
  cases net with
  | udp =>
    cases ew with
    | none => exact .inl ⟨rfl, .inr ⟨rfl, rfl⟩⟩
    | some err => exact .inr ⟨rfl, err, rfl⟩
  | tcp =>
    cases ew with
    | some err => exact .inr ⟨by simp [accepts], err, by simp [afterWrite]⟩
    | none =>
      by_cases hn : n = data.length
      · subst hn
        have hneg : ¬ (data.length : Int) < 0 := by omega
        exact .inl ⟨by simp [accepts], .inl ⟨rfl, by simp [afterWrite, hneg]⟩⟩
      · refine .inr ⟨by simp [accepts, hn], ?_⟩
        by_cases hinv : n < 0 ∨ (data.length : Int) < n
        · exact ⟨errInvalidWrite, by simp [afterWrite, hinv]⟩
        · exact ⟨errShortWrite, by simp [afterWrite, hinv, Ne.symm hn]⟩

namespace Stream

variable {G : Type}

section Track

variable (s : Stream G) (side : Side) (n : Int)

@[simp] theorem track_pc : (s.track side n).pc = s.pc := by cases side <;> rfl

@[simp] theorem track_reads : (s.track side n).reads = s.reads := by cases side <;> rfl

@[simp] theorem track_writes : (s.track side n).writes = s.writes := by cases side <;> rfl

@[simp] theorem track_answers : (s.track side n).answers = s.answers := by cases side <;> rfl

@[simp] theorem track_last : (s.track side n).last = s.last := by cases side <;> rfl

end Track

@[simp] theorem read_answers (s : Stream G) (net : Network) (dst : String) (d : Direction)
    (r : Reading) : (s.read net dst d r).answers = s.answers ++ [r] := by
  simp [Stream.read]

@[simp] theorem read_reads (s : Stream G) (net : Network) (dst : String) (d : Direction)
    (r : Reading) : (s.read net dst d r).reads = s.reads ++ r.owed dst d net := by
  simp [Stream.read]

@[simp] theorem read_last (s : Stream G) (net : Network) (dst : String) (d : Direction)
    (r : Reading) : (s.read net dst d r).last = r.err := by
  simp [Stream.last]

/-! ### The invariant -/

/-- What the target has taken, against what it is owed. -/
structure Relays (net : Network) (s : Stream G) : Prop where
  /-- the target has taken all but what the loop has in hand -/
  owed : ∃ rest, s.reads = s.writes ++ rest ∧ s.pc.Owes rest
  bounded : ∀ data ∈ s.reads, data.length ≤ bufferSize net
  carried : ∀ data er, s.pc = .writing data er → er = s.last
  /-- the loop returns no error only when the source has reported its end -/
  ended : s.pc.result = some none → s.last = some .eof ∨ net = .udp ∧ s.last = some .timeout

theorem relays_new [Zero G] (net : Network) : (new net : Stream G).Relays net := by
  cases net with
  | tcp | udp =>
    constructor
    · exact ⟨[], rfl, rfl⟩
    · intro data hdata
      cases hdata
    · intro data er hpc
      cases hpc
    · intro hres
      cases hres

variable {net : Network} {s : Stream G}

theorem Relays.read (h : s.Relays net) (hpc : s.pc = .reading) (dst : String) (d : Direction)
    {r : Reading} (hr : r.data.length ≤ bufferSize net) : (s.read net dst d r).Relays net := by
  obtain ⟨⟨rest, hreads, howes⟩, hbounded, -, -⟩ := h
  rw [hpc] at howes
  obtain rfl : rest = [] := howes
  rw [List.append_nil] at hreads
  have hgo := afterRead_cases dst d r net
  constructor
  · refine ⟨(afterRead dst d r net).data, ?_, ?_⟩
    · rw [read_reads, afterRead_data, hreads]
      simp [Stream.read]
    · simp only [Stream.read, track_pc]
      obtain hgo | hgo | ⟨-, hgo⟩ | ⟨err, hgo⟩ := hgo <;> rw [hgo]
      · rfl
      · rfl
      · exact ⟨Nat.zero_le _, fun _ => rfl⟩
      · exact ⟨Nat.zero_le _, fun _ => rfl⟩
  · intro data hdata
    rw [read_reads, ← afterRead_data, List.mem_append] at hdata
    rcases hdata with hdata | hdata
    · exact hbounded data hdata
    · -- the loop writes nothing but what was read
      obtain hgo | hgo | ⟨-, hgo⟩ | ⟨err, hgo⟩ := hgo <;> rw [hgo] at hdata
      · obtain rfl := List.mem_singleton.mp hdata
        exact hr
      · cases hdata
      · cases hdata
      · cases hdata
  · intro data er hw
    rw [read_last]
    simp only [Stream.read, track_pc] at hw
    obtain hgo | hgo | ⟨-, hgo⟩ | ⟨err, hgo⟩ := hgo <;> rw [hgo] at hw <;> cases hw
    rfl
  · intro hres
    rw [read_last]
    simp only [Stream.read, track_pc] at hres
    obtain hgo | hgo | ⟨herr, hgo⟩ | ⟨err, hgo⟩ := hgo <;> rw [hgo] at hres <;> cases hres
    exact herr

/-- A write that took everything, and one that did not. -/
theorem Relays.write (h : s.Relays net) {data : List Byte} {er : Option Error}
    (hpc : s.pc = .writing data er) (d : Direction) (n : Int) (ew : Option Error) :
    (s.write net d data er n ew).Relays net := by
  obtain ⟨⟨rest, hreads, howes⟩, hbounded, hcarried, -⟩ := h
  have her := hcarried data er hpc
  rw [hpc] at howes
  obtain rfl : rest = [data] := howes
  have hkeep : ∀ b ∈ (s.write net d data er n ew).reads, b.length ≤ bufferSize net := by
    simpa [Stream.write] using hbounded
  obtain ⟨hacc, hgo⟩ | ⟨hacc, err, hgo⟩ := afterWrite_cases data er n ew net
  · have hgo : (s.write net d data er n ew).pc = .reading ∨
        (s.write net d data er n ew).pc = .rearm ∨
        er = some .eof ∧ (s.write net d data er n ew).pc = .copied none ∨
        ∃ err, (s.write net d data er n ew).pc = .copied (some err) := by
      simp only [Stream.write, track_pc]
      obtain ⟨-, hgo⟩ | ⟨-, hgo⟩ := hgo
      · rw [hgo]
        obtain h | h | h := endRound_cases er
        · exact .inl h
        · exact .inr (.inr (.inl h))
        · exact .inr (.inr (.inr h))
      · exact .inr (.inl hgo)
    refine ⟨⟨[], ?_, ?_⟩, hkeep, ?_, ?_⟩
    · simpa [Stream.write, hacc] using hreads
    · obtain hgo | hgo | ⟨-, hgo⟩ | ⟨err, hgo⟩ := hgo <;> rw [hgo]
      · rfl
      · rfl
      · exact ⟨Nat.zero_le _, fun _ => rfl⟩
      · exact ⟨Nat.zero_le _, fun _ => rfl⟩
    · intro data' er' hw
      obtain hgo | hgo | ⟨-, hgo⟩ | ⟨err, hgo⟩ := hgo <;> rw [hgo] at hw <;> cases hw
    · intro hres
      obtain hgo | hgo | ⟨heof, hgo⟩ | ⟨err, hgo⟩ := hgo <;> rw [hgo] at hres <;> cases hres
      left
      rw [← heof, her, Stream.write, track_last]
      rfl
  · have hgo : (s.write net d data er n ew).pc = .copied (some err) := by
      simpa [Stream.write] using hgo
    refine ⟨⟨[data], ?_, ?_⟩, hkeep, ?_, ?_⟩
    · simpa [Stream.write, hacc] using hreads
    · rw [hgo]
      exact ⟨Nat.le_refl _, fun h => absurd h (Option.some_ne_none err)⟩
    · intro data' er' hw
      rw [hgo] at hw
      cases hw
    · intro hres
      rw [hgo] at hres
      cases hres

/-- The target is not touched by the other steps of the goroutine. -/
theorem Relays.setPc (h : s.Relays net) {pc : Pc}
    (howes : ∀ rest, s.pc.Owes rest → pc.Owes rest) (hw : ∀ data er, pc ≠ .writing data er)
    (hres : pc.result = some none → s.pc.result = some none) :
    { s with pc := pc }.Relays net := by
  obtain ⟨⟨rest, hreads, hrest⟩, hbounded, -, hended⟩ := h
  refine ⟨⟨rest, hreads, howes rest hrest⟩, hbounded, ?_, fun h => hended (hres h)⟩
  intro data er hpc
  exact absurd hpc (hw data er)

theorem Relays.go (h : s.Relays net) (d : Direction) : (s.go net d).1.Relays net := by
  unfold Stream.go
  split
  · rename_i hpc
    exact h.setPc (by rw [hpc]; exact fun _ => id) (fun _ _ => Pc.noConfusion)
      (by rw [hpc]; exact id)
  · rename_i hpc
    exact h.setPc (by rw [hpc]; exact fun _ => id) (fun _ _ => Pc.noConfusion)
      (by rw [hpc]; exact id)
  · rename_i hpc
    cases net with
    | tcp | udp =>
      exact h.setPc (by rw [hpc]; exact fun _ => id) (fun _ _ => Pc.noConfusion)
        (by rw [hpc]; exact id)
  · rename_i hpc
    exact h.setPc (by rw [hpc]; exact fun _ => id) (fun _ _ => Pc.noConfusion)
      (by rw [hpc]; exact id)
  · rename_i hpc
    exact h.setPc (by rw [hpc]; exact fun _ => id) (fun _ _ => Pc.noConfusion)
      (by rw [hpc]; exact id)
  · exact h
  · exact h
  · exact h

section Step

variable [Add G] [IntCast G]

theorem Relays.add (h : s.Relays net) (d : Direction) (n : Int) (stage : Stage) :
    (s.add d n stage).1.Relays net := by
  cases stage with
  | temp | total | own => exact ⟨h.owed, h.bounded, h.carried, h.ended⟩

/-- One step. -/
theorem Relays.step (h : s.Relays net) (dst : String) (d : Direction) (a : Answer) :
    (s.step net dst d a).1.Relays net := by
  unfold Stream.step
  split
  · exact h.add d _ _
  · exact h
  · exact h.go d
  · split
    · rename_i hpc
      split
      · rename_i hlen
        exact h.read hpc dst d hlen
      · exact h
    · exact h
  · split
    · rename_i hpc
      exact h.write hpc d _ _
    · exact h

end Step

/-! ### The histories -/

/-- The target is owed what the answers of the source say, and nothing else. -/
def Records (net : Network) (dst : String) (d : Direction) (s : Stream G) : Prop :=
  s.reads = s.answers.flatMap (Reading.owed · dst d net)

theorem records_new [Zero G] (net : Network) (dst : String) (d : Direction) :
    (new net : Stream G).Records net dst d := by
  cases net <;> rfl

/-- A step is the answer to a read, or leaves both histories alone. -/
theorem step_answers [Add G] [IntCast G] (s : Stream G) (net : Network) (dst : String)
    (d : Direction) (a : Answer) :
    ((s.step net dst d a).1.answers = s.answers ∧ (s.step net dst d a).1.reads = s.reads) ∨
      ∃ r, (s.step net dst d a).1.answers = s.answers ++ [r] ∧
        (s.step net dst d a).1.reads = s.reads ++ r.owed dst d net := by
  unfold Stream.step
  split
  · rename_i stage n hc
    cases stage <;> exact .inl ⟨rfl, rfl⟩
  · exact .inl ⟨rfl, rfl⟩
  · unfold Stream.go
    split <;> try exact .inl ⟨rfl, rfl⟩
    split <;> exact .inl ⟨rfl, rfl⟩
  · split
    · split
      · rename_i r _ _ _ _
        exact .inr ⟨r, by simp, by simp⟩
      · exact .inl ⟨rfl, rfl⟩
    · exact .inl ⟨rfl, rfl⟩
  · split
    · exact .inl ⟨by simp [Stream.write], by simp [Stream.write]⟩
    · exact .inl ⟨rfl, rfl⟩

theorem Records.step [Add G] [IntCast G] {dst : String} {d : Direction}
    (h : s.Records net dst d) (a : Answer) : (s.step net dst d a).1.Records net dst d := by
  obtain ⟨hans, hreads⟩ | ⟨r, hans, hreads⟩ := step_answers s net dst d a
  · rw [Records, hans, hreads]
    exact h
  · rw [Records, hans, hreads, List.flatMap_append, List.flatMap_singleton]
    exact congrArg (· ++ r.owed dst d net) h

/-- For TCP no piece is empty. -/
theorem Records.ne_nil {dst : String} {d : Direction} (h : s.Records .tcp dst d) :
    ∀ data ∈ s.reads, data ≠ [] := by
  intro data hdata
  rw [h, List.mem_flatMap] at hdata
  obtain ⟨r, -, hr⟩ := hdata
  rw [Reading.owed] at hr
  split at hr
  · cases hr
  · rename_i hne
    obtain rfl := List.mem_singleton.mp hr
    exact hne

/-! ### What the tracker counts -/

/-- What the tracker has added to its own counter, and is still going to add, is what the calls
on its connection returned. -/
def Tallies [Add G] [IntCast G] (s : Stream G) : Prop :=
  s.total + ((s.count.elim 0 Prod.snd : Int) : G) = (s.counted.sum : Int)

section Tallies

variable [AddCommGroupWithOne G]

theorem tallies_new (net : Network) : (new net : Stream G).Tallies := by
  cases net <;> simp [Tallies, new]

theorem Tallies.track (h : s.Tallies) (hc : s.count = none) (side : Side) (n : Int) :
    (s.track side n).Tallies := by
  cases side with
  | origin => exact h
  | remote =>
    simp only [Tallies, hc, Option.elim, Int.cast_zero, add_zero] at h
    simp [Tallies, Stream.track, h]

theorem Tallies.step (h : s.Tallies) (net : Network) (dst : String) (d : Direction) (a : Answer) :
    (s.step net dst d a).1.Tallies := by
  unfold Stream.step
  split
  · -- counting
    rename_i stage n hc
    simp only [Tallies, hc] at h
    cases stage with
    | temp | total => exact h
    | own => simpa [Tallies, Stream.add] using h
  · exact h
  · -- not counting: no counter moves
    rename_i hc
    unfold Stream.go
    split <;> try exact h
    split <;> exact h
  · rename_i r hc
    split
    · split
      · exact Tallies.track (by exact h) (by exact hc) _ _
      · exact h
    · exact h
  · rename_i hc
    split
    · exact Tallies.track (by exact h) (by exact hc) _ _
    · exact h

end Tallies

/-- A tracker has done its counting when the goroutine is done. -/
def Settles (s : Stream G) : Prop := s.pc.isDone = true → s.count = none

theorem settles_new [Zero G] (net : Network) : (new net : Stream G).Settles := by
  cases net with
  | tcp | udp => nofun

theorem Settles.step [Add G] [IntCast G] (h : s.Settles) (net : Network) (dst : String)
    (d : Direction) (a : Answer) : (s.step net dst d a).1.Settles := by
  unfold Stream.step
  split
  · rename_i stage n hc
    cases stage with
    | temp | total =>
      intro hdone
      rw [h hdone] at hc
      cases hc
    | own => exact fun _ => rfl
  · exact h
  · rename_i hc
    unfold Stream.go
    split
    · nofun
    · nofun
    · split
      · nofun
      · exact fun _ => hc
    · nofun
    · exact fun _ => hc
    · exact h
    · exact h
    · exact h
  · split
    · split
      · rename_i r _ _ _ _
        intro hdone
        simp only [Stream.read, track_pc] at hdone
        obtain hgo | hgo | ⟨-, hgo⟩ | ⟨err, hgo⟩ := afterRead_cases dst d r net <;>
          rw [hgo] at hdone <;> cases hdone
      · exact h
    · exact h
  · split
    · rename_i n ew _ _ data er _
      intro hdone
      simp only [Stream.write, track_pc] at hdone
      obtain ⟨-, ⟨-, hgo⟩ | ⟨-, hgo⟩⟩ | ⟨-, err, hgo⟩ := afterWrite_cases data er n ew net
      · rw [hgo] at hdone
        obtain hgo | ⟨-, hgo⟩ | ⟨e, hgo⟩ := endRound_cases er <;> rw [hgo] at hdone <;> cases hdone
      · rw [hgo] at hdone
        cases hdone
      · rw [hgo] at hdone
        cases hdone
    · exact h

/-- For TCP, what the calls returned is the number of bytes that came from the remote
connection, and of those that it took unless a write has failed. -/
structure Measures (d : Direction) (s : Stream G) : Prop where
  download : d = .download → s.counted.sum = s.reads.flatten.length
  upload : d = .upload → s.reads = s.writes ++ s.pc.data → s.counted.sum = s.writes.flatten.length

theorem measures_new [Zero G] (d : Direction) : (new .tcp : Stream G).Measures d :=
  ⟨fun _ => rfl, fun _ _ => rfl⟩

theorem owed_tcp_flatten (dst : String) (d : Direction) (r : Reading) :
    (r.owed dst d .tcp).flatten = r.data := by
  rw [Reading.owed]
  split
  · rename_i hnil
    rw [hnil]
    rfl
  · simp

theorem Measures.read {d : Direction} (h : s.Measures d) (hpc : s.pc = .reading) (dst : String)
    (r : Reading) : (s.read .tcp dst d r).Measures d := by
  obtain ⟨hdown, hup⟩ := h
  cases d with
  | download =>
    refine ⟨fun _ => ?_, nofun⟩
    simp only [Stream.read, source, Stream.track, List.sum_append, List.sum_singleton,
      List.flatten_append, List.length_append, owed_tcp_flatten, hdown rfl]
    omega
  | upload =>
    refine ⟨nofun, fun _ htaken => ?_⟩
    simp only [Stream.read, source, Stream.track, afterRead_data,
      List.append_cancel_right_eq] at htaken ⊢
    refine hup rfl ?_
    rw [htaken, hpc]
    simp [Pc.data]

theorem Measures.write {d : Direction} (h : s.Measures d) (hrel : s.Relays .tcp)
    {data : List Byte} {er : Option Error} (hpc : s.pc = .writing data er) (n : Int)
    (ew : Option Error) : (s.write .tcp d data er n ew).Measures d := by
  obtain ⟨hdown, hup⟩ := h
  obtain ⟨rest, hreads, howes⟩ := hrel.owed
  rw [hpc] at howes
  obtain rfl : rest = [data] := howes
  cases d with
  | download =>
    refine ⟨fun _ => ?_, nofun⟩
    simpa [Stream.write, target, Stream.track] using hdown rfl
  | upload =>
    refine ⟨nofun, fun _ htaken => ?_⟩
    have hsum := hup rfl (by rw [hreads, hpc]; rfl)
    obtain ⟨hacc, -⟩ | ⟨hacc, err, hgo⟩ := afterWrite_cases data er n ew .tcp
    · obtain ⟨rfl, rfl⟩ : ew = none ∧ n = data.length := by simpa [accepts] using hacc
      simp [Stream.write, target, Stream.track, hacc, hsum]
    · -- a failed write leaves its data behind
      simp only [Stream.write, target, Stream.track, hacc, hgo, hreads] at htaken
      simp [Pc.data] at htaken

theorem Measures.go {d : Direction} (h : s.Measures d) : (s.go .tcp d).1.Measures d := by
  unfold Stream.go
  split
  · rename_i hpc
    exact ⟨h.download, fun hd ht => h.upload hd (by rw [hpc]; exact ht)⟩
  · rename_i hpc
    exact ⟨h.download, fun hd ht => h.upload hd (by rw [hpc]; exact ht)⟩
  · rename_i hpc
    exact ⟨h.download, fun hd ht => h.upload hd (by rw [hpc]; exact ht)⟩
  · rename_i hpc
    exact ⟨h.download, fun hd ht => h.upload hd (by rw [hpc]; exact ht)⟩
  · rename_i hpc
    exact ⟨h.download, fun hd ht => h.upload hd (by rw [hpc]; exact ht)⟩
  · exact h
  · exact h
  · exact h

theorem Measures.step [Add G] [IntCast G] {d : Direction} (h : s.Measures d)
    (hrel : s.Relays .tcp) (dst : String) (a : Answer) : (s.step .tcp dst d a).1.Measures d := by
  unfold Stream.step
  split
  · rename_i stage n hc
    cases stage with
    | temp | total | own => exact ⟨h.download, h.upload⟩
  · exact h
  · exact h.go
  · split
    · rename_i hpc
      split
      · exact h.read hpc dst _
      · exact h
    · exact h
  · split
    · rename_i hpc
      exact h.write hrel hpc _ _
    · exact h

end Stream

/-! ### Sessions -/

/-- The handler is past `wg.Wait()`. -/
def Handler.piped : Handler → Bool
  | leaving | closing | returning true | returned true => true
  | dialing | dialed | piping | returning false | returned false => false

namespace Session

variable {G : Type} [AddCommGroupWithOne G]

/-- What holds of a session at any time. -/
structure Sound (s : Session G) : Prop where
  relays : ∀ d, (s.stream d).Relays s.network
  records : ∀ d, (s.stream d).Records s.network s.dst d
  tallies : ∀ d, (s.stream d).Tallies
  settles : ∀ d, (s.stream d).Settles
  measures : s.network = .tcp → ∀ d, (s.stream d).Measures d
  finished : s.handler.piped = true → ∀ d, (s.stream d).pc.isDone = true

theorem sound_new (network : Network) (dst : String) : (new network dst : Session G).Sound := by
  refine ⟨fun _ => Stream.relays_new _, fun _ => Stream.records_new _ _ _,
    fun _ => Stream.tallies_new _, fun _ => Stream.settles_new _, ?_, nofun⟩
  rintro rfl d
  exact Stream.measures_new d

variable {s : Session G}

omit [AddCommGroupWithOne G] in
/-- The handler moves itself and nothing else. -/
theorem handle_eq (s : Session G) : s.handle.1 = { s with handler := s.handle.1.handler } := by
  unfold Session.handle
  split <;> try rfl
  split <;> rfl

/-- The handler passes `wg.Wait()` when both streams are done. -/
theorem Sound.handle (h : s.Sound) : s.handle.1.Sound := by
  rw [s.handle_eq]
  refine ⟨h.relays, h.records, h.tallies, h.settles, h.measures, fun hpiped d => ?_⟩
  dsimp only at hpiped ⊢
  unfold Session.handle at hpiped
  split at hpiped
  · cases hpiped
  · split at hpiped
    next hdone =>
      obtain ⟨hup, hdown⟩ := Bool.and_eq_true_iff.mp hdone
      cases d with
      | upload => exact hup
      | download => exact hdown
    · exact h.finished hpiped d
  next hh => exact h.finished (by rw [hh]; rfl) d
  next hh => exact h.finished (by rw [hh]; rfl) d
  next b hh =>
    cases b with
    | true => exact h.finished (by rw [hh]; rfl) d
    | false => cases hpiped
  · exact h.finished hpiped d
  · exact h.finished hpiped d

theorem Sound.next (h : s.Sound) (a : Act) : (s.next a).1.Sound := by
  cases a with
  | dial err =>
    simp only [Session.next]
    split
    · refine ⟨h.relays, h.records, h.tallies, h.settles, h.measures, ?_⟩
      dsimp only
      split <;> nofun
    · exact h
  | handler => exact h.handle
  | stream d a =>
    simp only [Session.next]
    split
    · rename_i hh
      -- the other stream stays as it is
      have hupdate : ∀ {P : Direction → Stream G → Prop}, (∀ e, P e (s.stream e)) →
          P d ((s.stream d).step s.network s.dst d a).1 →
          ∀ e, P e (Function.update s.stream d ((s.stream d).step s.network s.dst d a).1 e) := by
        intro P hall hd e
        by_cases he : e = d
        · subst he
          rwa [Function.update_self]
        · rw [Function.update_of_ne he]
          exact hall e
      refine ⟨?_, ?_, ?_, ?_, ?_, ?_⟩
      · exact hupdate (P := fun _ t => t.Relays s.network) h.relays ((h.relays d).step _ _ _)
      · exact hupdate (P := fun e t => t.Records s.network s.dst e) h.records
          ((h.records d).step _)
      · exact hupdate (P := fun _ t => t.Tallies) h.tallies ((h.tallies d).step _ _ _ _)
      · exact hupdate (P := fun _ t => t.Settles) h.settles ((h.settles d).step _ _ _ _)
      · intro hnet
        change s.network = .tcp at hnet
        refine hupdate (P := fun e t => t.Measures e) (h.measures hnet) ?_
        rw [hnet]
        exact (h.measures hnet d).step (hnet ▸ h.relays d) _ _
      · rw [hh]
        nofun
    · exact h

end Session

end Tun2socks.Tunnel
