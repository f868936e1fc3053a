import Tun2socks.Go.Io

/-!
# Tun2socks.Go.Failing

Transports that are cut off or fail, and which errors `io.ReadFull` passes on.

`Failing s ps` says that `ps` is one way to deliver the bytes `s` and then no more: the
first error comes with the last bytes or behind them, and every later `Read` fails too.
What `io.ReadFull` makes of that error depends on whether its buffer is full when it
comes. It drops the error of a `Read` that brings the last byte it wants, so the error it
returns is not always the one its last `Read` has reported (`readLoopErr`).
-/

namespace Tun2socks.Go

/-- The error that the last `Read` in the loop of `io.ReadAtLeast` has reported, dropped or
not. No earlier `Read` of the loop reports one. -/
def readLoopErr : Nat → List Piece → Option Error
  | 0, _ => none
  | _ + 1, [] => some .eof
  | k + 1, ⟨d, e⟩ :: ps =>
    if k + 1 < d.length then none
    else if d.length = k + 1 then e
    else match e with
      | some e => some e
      | none => readLoopErr (k + 1 - d.length) ps

/-- It goes through the same `Read` calls as the loop. -/
theorem readLoopErr_eq_read (k : Nat) (ps : List Piece) :
    readLoopErr k ps =
      if k = 0 then none
      else
        let r := read k ps
        if r.1.length = k then r.2.1
        else match r.2.1 with
          | some e => some e
          | none => readLoopErr (k - r.1.length) r.2.2 := by
  cases k with
  | zero => rw [readLoopErr, if_pos rfl]
  | succ k =>
    rw [if_neg (Nat.succ_ne_zero k)]
    cases ps with
    | nil => rfl
    | cons p ps =>
      obtain ⟨d, e⟩ := p
      by_cases hlt : k + 1 < d.length
      · have hle : ¬ d.length ≤ k + 1 := by omega
        have hlen : (d.take (k + 1)).length = k + 1 := by
          rw [List.length_take]
          omega
        simp [readLoopErr, read, hlt, hle, hlen]
      · have hle : d.length ≤ k + 1 := by omega
        simp only [readLoopErr, read, hlt, if_false, hle, if_true]

section Piece

variable {k : Nat} {d : List Byte}

/-- A piece that is enough reports an error only with its last byte. -/
theorem readLoopErr_piece_le {e : Option Error} {ps : List Piece} (h : k ≤ d.length)
    (herr : readLoopErr k (⟨d, e⟩ :: ps) ≠ none) : k = d.length ∧ e ≠ none := by
  cases k with
  | zero => exact absurd rfl herr
  | succ k =>
    rcases Nat.lt_or_eq_of_le h with hlt | heq
    · simp only [readLoopErr, if_pos hlt, ne_eq, not_true] at herr
    · simp only [readLoopErr, if_neg (Nat.not_lt.mpr heq.ge), if_pos heq.symm] at herr
      exact ⟨heq, herr⟩

theorem readLoopErr_piece_gt (h : d.length < k) (ps : List Piece) :
    readLoopErr k (⟨d, none⟩ :: ps) = readLoopErr (k - d.length) ps := by
  cases k with
  | zero => exact absurd h (Nat.not_lt_zero _)
  | succ k => rw [readLoopErr, if_neg (Nat.not_lt.mpr h.le), if_neg h.ne]

end Piece

/-! ### Dead transports -/

/-- Every further `Read` fails, without a byte. -/
def Dead (ps : List Piece) : Prop := ∀ p ∈ ps, p.data = [] ∧ p.err ≠ none

section Dead

variable {p : Piece} {ps : List Piece}

theorem Dead.nil : Dead [] := fun _ h => nomatch h

theorem Dead.tail (h : Dead (p :: ps)) : Dead ps := fun q hq => h q (List.mem_cons_of_mem p hq)

theorem Dead.cons (h : Dead ps) (e : Error) : Dead (⟨[], some e⟩ :: ps) := by
  intro q hq
  rcases List.mem_cons.mp hq with rfl | hq
  · exact ⟨rfl, Option.some_ne_none e⟩
  · exact h q hq

theorem Dead.flatMap_data (h : Dead ps) : ps.flatMap Piece.data = [] :=
  List.flatMap_eq_nil_iff.mpr fun p hp => (h p hp).1

theorem Dead.read (h : Dead ps) (k : Nat) :
    ∃ e, Go.read k ps = ([], some e, ps.tail) ∧ Dead ps.tail := by
  cases ps with
  | nil => exact ⟨.eof, rfl, h⟩
  | cons p ps =>
    obtain ⟨d, e⟩ := p
    obtain ⟨rfl, herr⟩ := h _ List.mem_cons_self
    obtain ⟨e, rfl⟩ := Option.ne_none_iff_exists'.mp herr
    exact ⟨e, rfl, h.tail⟩

end Dead

/-! ### Failing transports -/

/-- `ps` delivers the bytes `s`, and then fails for good. -/
inductive Failing : List Byte → List Piece → Prop
  | nil : Failing [] []
  | last (d : List Byte) (e : Error) {ps : List Piece} : Dead ps → Failing d (⟨d, some e⟩ :: ps)
  | cons (d : List Byte) {s : List Byte} {ps : List Piece} :
      Failing s ps → Failing (d ++ s) (⟨d, none⟩ :: ps)

theorem Dead.failing {ps : List Piece} (h : Dead ps) : Failing [] ps := by
  cases ps with
  | nil => exact .nil
  | cons p ps =>
    obtain ⟨d, e⟩ := p
    obtain ⟨rfl, herr⟩ := h _ List.mem_cons_self
    obtain ⟨e, rfl⟩ := Option.ne_none_iff_exists'.mp herr
    exact .last [] e h.tail

namespace Failing

variable {s : List Byte} {ps : List Piece} {k : Nat}

theorem flatMap_data (h : Failing s ps) : ps.flatMap Piece.data = s := by
  induction h with
  | nil => rfl
  | last d e hdead => rw [List.flatMap_cons, hdead.flatMap_data, List.append_nil]
  | cons d _ ih => rw [List.flatMap_cons, ih]

/-- One `Read` leaves a transport that fails. -/
theorem read (h : Failing s ps) (k : Nat) : ∃ s', Failing s' (Go.read k ps).2.2 := by
  cases h with
  | nil => exact ⟨[], .nil⟩
  | last d e hdead =>
    rw [Go.read]
    split
    · exact ⟨[], hdead.failing⟩
    · exact ⟨_, .last _ e hdead⟩
  | cons d h =>
    rw [Go.read]
    split
    · exact ⟨_, h⟩
    · exact ⟨_, .cons _ h⟩

/-- The loop gets the bytes that are there. A `Read` of it fails only if these are the
last bytes, and then nothing but errors comes after them. -/
theorem readLoop_of_le (h : Failing s ps) (hk : k ≤ s.length) :
    ∃ ps', readLoop k ps = (s.take k, none, ps') ∧ Failing (s.drop k) ps' ∧
      (readLoopErr k ps ≠ none → k = s.length ∧ Dead ps') := by
  induction h generalizing k with
  | nil =>
    obtain rfl : k = 0 := Nat.le_zero.mp hk
    exact ⟨[], rfl, .nil, fun h => absurd rfl h⟩
  | last d e hdead =>
    rename_i ps
    obtain ⟨ps', hread, rfl | ⟨rfl, rfl⟩⟩ := readLoop_piece_le hk (some e) ps
    · refine ⟨_, hread, .last _ e hdead, fun herr => ?_⟩
      obtain ⟨rfl, -⟩ := readLoopErr_piece_le hk herr
      rw [List.drop_length]
      exact ⟨rfl, hdead.cons e⟩
    · rw [List.drop_length]
      exact ⟨_, hread, hdead.failing, fun _ => ⟨rfl, hdead⟩⟩
  | cons d h ih =>
    rename_i s ps
    rcases Nat.lt_or_ge d.length k with hgt | hle
    · -- the head piece is not enough: the rest comes from the pieces behind it
      rw [List.length_append] at hk
      obtain ⟨ps', hps', hfails, herr⟩ := ih (k := k - d.length) (by omega)
      rw [readLoop_piece_gt hgt, readLoopErr_piece_gt hgt, hps', List.take_append,
        List.take_of_length_le hgt.le, List.drop_append, List.drop_eq_nil_of_le hgt.le,
        List.length_append]
      refine ⟨ps', rfl, hfails, fun hne => ?_⟩
      obtain ⟨hlen, hdead⟩ := herr hne
      exact ⟨by omega, hdead⟩
    · have hquiet : readLoopErr k (⟨d, none⟩ :: ps) = none := by
        by_contra herr
        exact (readLoopErr_piece_le hle herr).2 rfl
      rw [List.take_append_of_le_length hle, List.drop_append_of_le_length hle]
      obtain ⟨ps', hread, rfl | ⟨rfl, rfl⟩⟩ := readLoop_piece_le hle none ps
      · exact ⟨_, hread, .cons _ h, fun herr => absurd hquiet herr⟩
      · rw [List.drop_length]
        exact ⟨_, hread, h, fun herr => absurd hquiet herr⟩

/-- With too few bytes the loop fails. -/
theorem readLoop_of_lt (h : Failing s ps) (hk : s.length < k) :
    ∃ e ps', readLoop k ps = (s, some e, ps') ∧ Dead ps' := by
  induction h generalizing k with
  | nil =>
    obtain ⟨k, rfl⟩ := Nat.exists_eq_succ_of_ne_zero (Nat.ne_zero_of_lt hk)
    exact ⟨.eof, [], rfl, .nil⟩
  | last d e hdead => exact ⟨e, _, readLoop_piece_error hk e _, hdead⟩
  | cons d h ih =>
    rw [List.length_append] at hk
    obtain ⟨e, ps', hps', hdead⟩ := ih (k := k - d.length) (by omega)
    exact ⟨e, ps', by rw [readLoop_piece_gt (by omega), hps'], hdead⟩

/-- `io.ReadFull` with enough bytes. -/
theorem readFull_of_le (h : Failing s ps) (hk : k ≤ s.length) :
    ∃ ps', readFull k ps = (s.take k, none, ps') ∧ Failing (s.drop k) ps' ∧
      (readLoopErr k ps ≠ none → k = s.length ∧ Dead ps') := by
  obtain ⟨ps', hread, hfails, herr⟩ := h.readLoop_of_le hk
  exact ⟨ps', by simp [readFull, hread], hfails, herr⟩

/-- `io.ReadFull` with too few. -/
theorem readFull_of_lt (h : Failing s ps) (hk : s.length < k) :
    ∃ e ps', readFull k ps = (s, some e, ps') ∧ Dead ps' := by
  obtain ⟨e, ps', hread, hdead⟩ := h.readLoop_of_lt hk
  rw [readFull, hread]
  dsimp only
  split
  · split
    · exact ⟨_, ps', rfl, hdead⟩
    · exact ⟨_, ps', rfl, hdead⟩
  · exact ⟨e, ps', rfl, hdead⟩

/-- In both cases a transport that fails is left. -/
theorem readFull (h : Failing s ps) (k : Nat) : ∃ s', Failing s' (readFull k ps).2.2 := by
  by_cases hk : k ≤ s.length
  · obtain ⟨ps', hread, hfails, -⟩ := h.readFull_of_le hk
    rw [hread]
    exact ⟨_, hfails⟩
  · obtain ⟨e, ps', hread, hdead⟩ := h.readFull_of_lt (Nat.lt_of_not_le hk)
    rw [hread]
    exact ⟨[], hdead.failing⟩

end Failing

end Tun2socks.Go
