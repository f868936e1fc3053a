import Tun2socks.Go.Basic

/-!
# Tun2socks.Go.Io

Byte streams as Go's `io` package sees them.

An `io.Reader` is the list of `Piece`s it has in store: what its successive
`Read` calls will answer, whatever buffer they are given. A `Read` with a buffer
shorter than the head piece takes part of it. Quantifying over piece lists is
quantifying over everything the `io.Reader` contract allows: short reads, empty
reads, and data that arrives together with an error.

`Fragments s ps` says that `ps` is one way a transport that does not fail cuts
the bytes `s`, ending in `io.EOF` (alone or with the last bytes). The three rules
`Fragments.read`, `Fragments.readFull_ok` and `Fragments.readFull_short` are all a
proof about a reader of such a stream needs: they speak of `s` only.

An `io.Writer` is a `Wire`: the bytes it has accepted and the failures it has in
store.
-/

namespace Tun2socks.Go

/-- One answer of an `io.Reader`: its bytes, and the error that arrives with the
last of them. -/
structure Piece where
  data : List Byte
  err : Option Error
  deriving DecidableEq, Repr

/-- `Read(p)` with `len(p) = k`: the bytes put into `p`, the error, and what the
reader still has in store. A reader with nothing left answers `io.EOF`. -/
def read (k : Nat) : List Piece → List Byte × Option Error × List Piece
  | [] => ([], some .eof, [])
  | ⟨d, e⟩ :: ps =>
    if d.length ≤ k then (d, e, ps) else (d.take k, none, ⟨d.drop k, e⟩ :: ps)

theorem read_length_le (k : Nat) (ps : List Piece) : (read k ps).1.length ≤ k := by
  cases ps with
  | nil => simp [read]
  | cons p ps =>
    simp only [read]
    split
    · assumption
    · exact List.length_take_le _ _

/-- A `Read` neither loses nor invents a byte. -/
theorem read_flatMap_data (k : Nat) (ps : List Piece) :
    (read k ps).1 ++ (read k ps).2.2.flatMap Piece.data = ps.flatMap Piece.data := by
  cases ps with
  | nil => rfl
  | cons p ps =>
    simp only [read]
    split
    · rfl
    · simp [← List.append_assoc]

/-- The loop of `io.ReadAtLeast(r, buf, len(buf))`: read until `k` bytes are in
or a `Read` fails. An error that comes with the last wanted byte is dropped. -/
def readLoop : Nat → List Piece → List Byte × Option Error × List Piece
  | 0, ps => ([], none, ps)
  | _ + 1, [] => ([], some .eof, [])
  | k + 1, ⟨d, e⟩ :: ps =>
    if k + 1 < d.length then (d.take (k + 1), none, ⟨d.drop (k + 1), e⟩ :: ps)
    else if d.length = k + 1 then (d, none, ps)
    else match e with
      | some e => (d, some e, ps)
      | none =>
        let r := readLoop (k + 1 - d.length) ps
        (d ++ r.1, r.2.1, r.2.2)

/-- The loop is a sequence of `Read` calls with what is left of the buffer. -/
theorem readLoop_eq_read (k : Nat) (ps : List Piece) :
    readLoop k ps =
      if k = 0 then ([], none, ps)
      else
        let r := read k ps
        if r.1.length = k then (r.1, none, r.2.2)
        else match r.2.1 with
          | some e => (r.1, some e, r.2.2)
          | none =>
            let t := readLoop (k - r.1.length) r.2.2
            (r.1 ++ t.1, t.2.1, t.2.2) := by
  cases k with
  | zero => simp [readLoop]
  | succ k =>
    cases ps with
    | nil => simp [readLoop, read]
    | cons p ps =>
      obtain ⟨d, e⟩ := p
      simp only [readLoop, read, Nat.add_eq_zero_iff, one_ne_zero, and_false, if_false]
      by_cases hlt : k + 1 < d.length
      · have hle : ¬ d.length ≤ k + 1 := by omega
        have hlen : (d.take (k + 1)).length = k + 1 := by rw [List.length_take]; omega
        simp [hlt, hle, hlen]
      · have hle : d.length ≤ k + 1 := by omega
        simp only [hlt, if_false, hle, if_true]

section Piece

variable {k : Nat} {d : List Byte}

/-- The first piece is enough: what is left of it stays, or nothing is left. -/
theorem readLoop_piece_le (h : k ≤ d.length) (e : Option Error) (ps : List Piece) :
    ∃ ps', readLoop k (⟨d, e⟩ :: ps) = (d.take k, none, ps') ∧
      (ps' = ⟨d.drop k, e⟩ :: ps ∨ k = d.length ∧ ps' = ps) := by
  cases k with
  | zero => exact ⟨_, rfl, .inl rfl⟩
  | succ k =>
    rcases Nat.lt_or_eq_of_le h with hlt | heq
    · exact ⟨_, by simp only [readLoop, if_pos hlt], .inl rfl⟩
    · refine ⟨ps, ?_, .inr ⟨heq, rfl⟩⟩
      simp only [readLoop, if_neg (Nat.not_lt.mpr heq.ge), if_pos heq.symm]
      rw [heq, List.take_length]

/-- It is not enough: the loop goes on behind it. -/
theorem readLoop_piece_gt (h : d.length < k) (ps : List Piece) :
    readLoop k (⟨d, none⟩ :: ps) =
      (d ++ (readLoop (k - d.length) ps).1, (readLoop (k - d.length) ps).2) := by
  cases k with
  | zero => exact absurd h (Nat.not_lt_zero _)
  | succ k => rw [readLoop, if_neg (Nat.not_lt.mpr h.le), if_neg h.ne]

/-- It is not enough and comes with an error. -/
theorem readLoop_piece_error (h : d.length < k) (e : Error) (ps : List Piece) :
    readLoop k (⟨d, some e⟩ :: ps) = (d, some e, ps) := by
  cases k with
  | zero => exact absurd h (Nat.not_lt_zero _)
  | succ k => rw [readLoop, if_neg (Nat.not_lt.mpr h.le), if_neg h.ne]

end Piece

/-- `io.ReadFull(r, buf)` with `len(buf) = k`: the bytes put into `buf`, the
error (`io.EOF` only when nothing was read), and what is left. -/
def readFull (k : Nat) (ps : List Piece) : List Byte × Option Error × List Piece :=
  let r := readLoop k ps
  let err := match r.2.1 with
    | some .eof => if r.1 = [] then some .eof else some .unexpectedEOF
    | e => e
  (r.1, err, r.2.2)

/-- The error a method of the `io.ReaderFrom` or `io.WriterTo` kind reports when
its source failed with `er`: the end of the source is no failure. -/
def ignoreEOF (er : Error) : Option Error := if er = .eof then none else some er

/-- What a reader has in store, counting a piece as one byte more than its data. -/
def readerSize (ps : List Piece) : Nat := (ps.map fun p => p.data.length + 1).sum

/-- A `Read` that does not fail uses up some of it. -/
theorem readerSize_read {k : Nat} (hk : 0 < k) {ps : List Piece}
    (h : (read k ps).2.1 = none) : readerSize (read k ps).2.2 < readerSize ps := by
  cases ps with
  | nil => simp [read] at h
  | cons p ps =>
    obtain ⟨d, e⟩ := p
    simp only [read, readerSize] at h ⊢
    split
    · simp
    · simp only [List.map_cons, List.sum_cons, List.length_drop]
      omega

/-- A `Read` uses up at least the bytes it returns. -/
theorem readerSize_read_add (k : Nat) (ps : List Piece) :
    (read k ps).1.length + readerSize (read k ps).2.2 ≤ readerSize ps := by
  cases ps with
  | nil => exact le_rfl
  | cons p ps =>
    obtain ⟨d, e⟩ := p
    simp only [read, readerSize]
    split
    · simp only [List.map_cons, List.sum_cons]
      omega
    · simp only [List.map_cons, List.sum_cons, List.length_take, List.length_drop]
      omega

theorem readerSize_read_le (k : Nat) (ps : List Piece) :
    readerSize (read k ps).2.2 ≤ readerSize ps :=
  le_trans (Nat.le_add_left ..) (readerSize_read_add k ps)

/-- The loop uses up something, if it has anything to do and there is anything. -/
theorem readerSize_readLoop_lt {k : Nat} (hk : 0 < k) {ps : List Piece} (h : ps ≠ []) :
    readerSize (readLoop k ps).2.2 < readerSize ps := by
  induction ps generalizing k with
  | nil => exact absurd rfl h
  | cons p ps ih =>
    obtain ⟨d, e⟩ := p
    have hcons : readerSize (⟨d, e⟩ :: ps) = d.length + 1 + readerSize ps := rfl
    rcases Nat.lt_or_ge d.length k with hgt | hle
    · cases e with
      | none =>
        rw [readLoop_piece_gt hgt, hcons]
        by_cases hps : ps = []
        · subst hps
          rw [show k - d.length = k - d.length - 1 + 1 by omega]
          exact Nat.succ_pos _
        · have := ih (k := k - d.length) (by omega) hps
          dsimp only
          omega
      | some e =>
        rw [readLoop_piece_error hgt, hcons]
        dsimp only
        omega
    · obtain ⟨ps', hread, rfl | ⟨-, rfl⟩⟩ := readLoop_piece_le hle e ps <;> rw [hread, hcons]
      · have hrest : readerSize (⟨d.drop k, e⟩ :: ps) = (d.drop k).length + 1 + readerSize ps := rfl
        rw [hrest, List.length_drop]
        omega
      · dsimp only
        omega

theorem readerSize_readLoop_le (k : Nat) (ps : List Piece) :
    readerSize (readLoop k ps).2.2 ≤ readerSize ps := by
  cases k with
  | zero => rw [readLoop]
  | succ k =>
    cases ps with
    | nil => exact le_rfl
    | cons p ps => exact (readerSize_readLoop_lt k.succ_pos (List.cons_ne_nil p ps)).le

/-- Without an error the whole buffer has been filled. -/
theorem readLoop_length {k : Nat} {ps : List Piece} (h : (readLoop k ps).2.1 = none) :
    (readLoop k ps).1.length = k := by
  induction ps generalizing k with
  | nil => cases k <;> simp [readLoop] at h ⊢
  | cons p ps ih =>
    cases k with
    | zero => simp [readLoop]
    | succ k =>
      obtain ⟨d, e⟩ := p
      simp only [readLoop] at h ⊢
      split
      · rw [List.length_take]; omega
      · split
        · assumption
        · rename_i hlt hne
          simp only [hlt, if_false, hne] at h
          cases e with
          | some e => simp at h
          | none =>
            have := ih h
            simp only [List.length_append, this]
            omega

theorem readFull_length {k : Nat} {ps : List Piece} (h : (readFull k ps).2.1 = none) :
    (readFull k ps).1.length = k := by
  apply readLoop_length
  unfold readFull at h
  dsimp only at h
  split at h
  · split at h <;> simp at h
  · exact h

/-! ### Reading to the first error -/

/-- Everything a reader returns up to its first error, and that error. -/
def drain : List Piece → List Byte × Error
  | [] => ([], .eof)
  | ⟨d, some e⟩ :: _ => (d, e)
  | ⟨d, none⟩ :: ps => (d ++ (drain ps).1, (drain ps).2)

/-- The bytes that arrive together with the first error. -/
def drainLast : List Piece → List Byte
  | [] => []
  | ⟨d, some _⟩ :: _ => d
  | ⟨_, none⟩ :: ps => drainLast ps

/-- A `Read` that fails is the last one. -/
theorem drain_of_error {k : Nat} {ps : List Piece} {e : Error} (h : (read k ps).2.1 = some e) :
    drain ps = ((read k ps).1, e) ∧ drainLast ps = (read k ps).1 := by
  cases ps with
  | nil =>
    cases h
    exact ⟨rfl, rfl⟩
  | cons p ps =>
    obtain ⟨d, e'⟩ := p
    simp only [read] at h ⊢
    split at h
    next hk =>
      obtain rfl : e' = some e := h
      rw [if_pos hk]
      exact ⟨rfl, rfl⟩
    · cases h

/-- What a `Read` that succeeds returns comes first; if it has cut a piece, some of that
piece is still to come. -/
theorem drain_of_success {k : Nat} {ps : List Piece} (h : (read k ps).2.1 = none) :
    drain ps = ((read k ps).1 ++ (drain (read k ps).2.2).1, (drain (read k ps).2.2).2) ∧
      (drainLast (read k ps).2.2 = [] ↔ drainLast ps = []) := by
  cases ps with
  | nil => cases h
  | cons p ps =>
    obtain ⟨d, e⟩ := p
    simp only [read] at h ⊢
    split at h
    next hk =>
      obtain rfl : e = none := h
      rw [if_pos hk]
      exact ⟨rfl, Iff.rfl⟩
    next hk =>
      rw [if_neg hk]
      cases e with
      | none =>
        refine ⟨?_, Iff.rfl⟩
        simp only [drain, ← List.append_assoc, List.take_append_drop]
      | some e =>
        refine ⟨?_, ?_⟩
        · simp only [drain, List.take_append_drop]
        · simp only [drainLast, List.drop_eq_nil_iff]
          constructor
          · intro hle
            omega
          · rintro rfl
            exact Nat.zero_le _

/-- `io.ReadFull` does not put bytes in front of the first error. -/
theorem drainLast_readLoop {k : Nat} {ps : List Piece} (h : (readLoop k ps).2.1 = none)
    (hlast : drainLast ps = []) : drainLast (readLoop k ps).2.2 = [] := by
  induction ps generalizing k with
  | nil =>
    cases k with
    | zero => rfl
    | succ k => cases h
  | cons p ps ih =>
    obtain ⟨d, e⟩ := p
    by_cases hk : k = 0
    · rw [hk, readLoop]
      exact hlast
    rcases Nat.lt_or_ge d.length k with hgt | hle
    · cases e with
      | none =>
        rw [readLoop_piece_gt hgt] at h ⊢
        exact ih h hlast
      | some e =>
        rw [readLoop_piece_error hgt] at h
        cases h
    · cases e with
      | none =>
        obtain ⟨ps', hread, rfl | ⟨-, rfl⟩⟩ := readLoop_piece_le hle none ps
        · rw [hread]
          exact hlast
        · rw [hread]
          exact hlast
      | some e =>
        obtain rfl : d = [] := hlast
        exact absurd (Nat.le_zero.mp hle) hk

/-! ### Transports that do not fail -/

/-- `ps` is one way to cut the bytes `s` into the answers of successive reads:
no read fails, and `io.EOF` comes after the last byte or together with it. -/
inductive Fragments : List Byte → List Piece → Prop
  | nil : Fragments [] []
  | eof (d : List Byte) : Fragments d [⟨d, some .eof⟩]
  | cons (d : List Byte) {s : List Byte} {ps : List Piece} :
      Fragments s ps → Fragments (d ++ s) (⟨d, none⟩ :: ps)

namespace Fragments

/-- The pieces hold the bytes of the stream, in order. -/
theorem flatMap_data {s : List Byte} {ps : List Piece} (h : Fragments s ps) :
    ps.flatMap Piece.data = s := by
  induction h with
  | nil => rfl
  | eof d => simp
  | cons d _ ih => rw [List.flatMap_cons, ih]

/-- One `Read` takes some first `n ≤ k` bytes of the stream; an error is `io.EOF`
and means that the stream is at its end. -/
theorem read {s : List Byte} {ps : List Piece} (h : Fragments s ps) (k : Nat) :
    ∃ n e ps', read k ps = (s.take n, e, ps') ∧ n ≤ k ∧ n ≤ s.length ∧
      Fragments (s.drop n) ps' ∧ (e = none ∨ e = some .eof ∧ n = s.length) := by
  cases h with
  | nil => exact ⟨0, some .eof, [], rfl, by simp, by simp, .nil, .inr ⟨rfl, rfl⟩⟩
  | eof =>
    by_cases hk : s.length ≤ k
    · refine ⟨s.length, some .eof, [], by simp [Go.read, hk], hk, le_rfl, ?_, .inr ⟨rfl, rfl⟩⟩
      rw [List.drop_length]
      exact .nil
    · exact ⟨k, none, _, by simp [Go.read, hk], le_rfl, by omega, .eof _, .inl rfl⟩
  | cons d h =>
    rename_i s ps
    by_cases hk : d.length ≤ k
    · exact ⟨d.length, none, ps, by simp [Go.read, hk], hk, by simp, by simpa using h, .inl rfl⟩
    · have hle : k ≤ d.length := by omega
      refine ⟨k, none, ⟨d.drop k, none⟩ :: ps, ?_, le_rfl, ?_, ?_, .inl rfl⟩
      · simp [Go.read, hk, List.take_append_of_le_length hle]
      · rw [List.length_append]; omega
      · rw [List.drop_append_of_le_length hle]
        exact .cons _ h

/-- Nothing comes after an error. -/
theorem read_error {s : List Byte} {ps : List Piece} (h : Fragments s ps) {k : Nat}
    (herr : (Go.read k ps).2.1 ≠ none) : (Go.read k ps).2.2 = [] := by
  cases h with
  | nil => rfl
  | eof =>
    rw [Go.read] at herr ⊢
    split at herr
    next hk => rw [if_pos hk]
    · exact absurd rfl herr
  | cons d h =>
    rw [Go.read] at herr
    split at herr
    · exact absurd rfl herr
    · exact absurd rfl herr

theorem drain {s : List Byte} {ps : List Piece} (h : Fragments s ps) :
    Go.drain ps = (s, .eof) := by
  induction h with
  | nil => rfl
  | eof d => rfl
  | cons d _ ih => rw [Go.drain, ih]

theorem readLoop_ok {s : List Byte} {ps : List Piece} (h : Fragments s ps) :
    ∀ {k : Nat}, k ≤ s.length →
      ∃ ps', readLoop k ps = (s.take k, none, ps') ∧ Fragments (s.drop k) ps' := by
  induction h with
  | nil =>
    intro k hk
    obtain rfl : k = 0 := Nat.le_zero.mp hk
    exact ⟨[], rfl, .nil⟩
  | eof d =>
    intro k hk
    obtain ⟨ps', hread, rfl | ⟨rfl, rfl⟩⟩ := readLoop_piece_le hk (some .eof) []
    · exact ⟨_, hread, .eof _⟩
    · rw [List.drop_length]
      exact ⟨[], hread, .nil⟩
  | cons d h ih =>
    rename_i s ps
    intro k hk
    rcases Nat.lt_or_ge d.length k with hgt | hle
    · -- the head piece is not enough: the rest comes from the pieces behind it
      rw [List.length_append] at hk
      obtain ⟨ps', hps', hfr⟩ := ih (k := k - d.length) (by omega)
      rw [readLoop_piece_gt hgt, hps', List.take_append, List.take_of_length_le hgt.le,
        List.drop_append, List.drop_eq_nil_of_le hgt.le]
      exact ⟨ps', rfl, hfr⟩
    · rw [List.take_append_of_le_length hle, List.drop_append_of_le_length hle]
      obtain ⟨ps', hread, rfl | ⟨rfl, rfl⟩⟩ := readLoop_piece_le hle none ps
      · exact ⟨_, hread, .cons _ h⟩
      · rw [List.drop_length]
        exact ⟨_, hread, h⟩

/-- `io.ReadFull` gets the next `k` bytes when the stream has them, and not one
byte more. -/
theorem readFull_ok {s : List Byte} {ps : List Piece} (h : Fragments s ps) {k : Nat}
    (hk : k ≤ s.length) :
    ∃ ps', readFull k ps = (s.take k, none, ps') ∧ Fragments (s.drop k) ps' := by
  obtain ⟨ps', hps', hfr⟩ := h.readLoop_ok hk
  exact ⟨ps', by simp [readFull, hps'], hfr⟩

/-- The same for a stream known to begin with `s`. -/
theorem readFull_append {s t : List Byte} {ps : List Piece} (h : Fragments (s ++ t) ps) :
    ∃ ps', readFull s.length ps = (s, none, ps') ∧ Fragments t ps' := by
  obtain ⟨ps', hread, hfr⟩ := h.readFull_ok (k := s.length) (by simp)
  rw [List.take_left' rfl] at hread
  rw [List.drop_left' rfl] at hfr
  exact ⟨ps', hread, hfr⟩

theorem readLoop_short {s : List Byte} {ps : List Piece} (h : Fragments s ps) :
    ∀ {k : Nat}, s.length < k → readLoop k ps = (s, some .eof, []) := by
  induction h with
  | nil =>
    intro k hk
    cases k with
    | zero => exact absurd hk (Nat.not_lt_zero _)
    | succ k => rfl
  | eof d =>
    intro k hk
    exact readLoop_piece_error hk .eof []
  | cons d h ih =>
    intro k hk
    rw [List.length_append] at hk
    rw [readLoop_piece_gt (by omega), ih (k := k - d.length) (by omega)]

/-- `io.ReadFull` on a stream that ends too early takes all of it and reports
`io.EOF` if there was nothing, `io.ErrUnexpectedEOF` otherwise. -/
theorem readFull_short {s : List Byte} {ps : List Piece} (h : Fragments s ps) {k : Nat}
    (hk : s.length < k) :
    readFull k ps = (s, some (if s = [] then .eof else .unexpectedEOF), []) := by
  rw [readFull, h.readLoop_short hk]
  by_cases hs : s = [] <;> simp [hs]

end Fragments

/-! ### Where the end comes -/

/-- `ps` cuts the bytes `s`; if `alone` holds, `io.EOF` comes without a byte. -/
structure Ends (alone : Prop) (s : List Byte) (ps : List Piece) : Prop where
  fragments : Fragments s ps
  last : alone → drainLast ps = []

namespace Ends

variable {alone : Prop} {s t : List Byte} {ps : List Piece}

theorem nil : Ends alone [] [] := ⟨.nil, fun _ => rfl⟩

/-- One `Read`. If it fails, all that was left has come with the error. -/
theorem read (h : Ends alone s ps) (k : Nat) :
    ∃ n e ps', Go.read k ps = (s.take n, e, ps') ∧ n ≤ s.length ∧ Ends alone (s.drop n) ps' ∧
      (e = none ∨ e = some .eof ∧ n = s.length ∧ (alone → s = [])) := by
  obtain ⟨n, e, ps', hread, -, hn, hfr, rfl | ⟨rfl, rfl⟩⟩ := h.fragments.read k
  · have hsuccess : (Go.read k ps).2.1 = none := by rw [hread]
    have hlast := (drain_of_success hsuccess).2
    rw [hread] at hlast
    exact ⟨n, none, ps', hread, hn, ⟨hfr, fun ha => hlast.mpr (h.last ha)⟩, .inl rfl⟩
  · have herror : (Go.read k ps).2.1 = some .eof := by rw [hread]
    have hlast := (drain_of_error herror).2
    have hrest := h.fragments.read_error (herror ▸ Option.some_ne_none _)
    rw [hread, List.take_length] at hlast
    rw [hread] at hrest
    obtain rfl : ps' = [] := hrest
    refine ⟨s.length, some .eof, [], hread, le_rfl, ?_,
      .inr ⟨rfl, rfl, fun ha => hlast.symm.trans (h.last ha)⟩⟩
    rw [List.drop_length]
    exact nil

/-- `io.ReadFull` on a stream that begins with `s`. -/
theorem readFull_append (h : Ends alone (s ++ t) ps) :
    ∃ ps', readFull s.length ps = (s, none, ps') ∧ Ends alone t ps' := by
  obtain ⟨ps', hread, hfr⟩ := h.fragments.readLoop_ok (k := s.length) (by simp)
  rw [List.take_left' rfl] at hread
  rw [List.drop_left' rfl] at hfr
  have hsuccess : (readLoop s.length ps).2.1 = none := by rw [hread]
  have hlast := drainLast_readLoop hsuccess
  rw [hread] at hlast
  exact ⟨ps', by simp [readFull, hread], hfr, fun ha => hlast (h.last ha)⟩

end Ends

/-! ### Transports that end with a read of their own -/

/-- `ps` cuts the bytes `s` into reads that all succeed; `io.EOF` comes after them. -/
structure Successful (s : List Byte) (ps : List Piece) : Prop where
  data : ps.flatMap Piece.data = s
  err : ∀ p ∈ ps, p.err = none

/-- One `Read`: the stream is at its end, or the read succeeds. -/
theorem Successful.read {s : List Byte} {ps : List Piece} (h : Successful s ps) (k : Nat) :
    (ps = [] ∧ s = []) ∨
      ∃ n ps', Go.read k ps = (s.take n, none, ps') ∧ n ≤ s.length ∧ Successful (s.drop n) ps' := by
  obtain ⟨hdata, herr⟩ := h
  cases ps with
  | nil => exact .inl ⟨rfl, hdata.symm⟩
  | cons p ps =>
    obtain ⟨d, e⟩ := p
    obtain rfl : e = none := herr _ List.mem_cons_self
    have herr' : ∀ p ∈ ps, p.err = none := fun p hp => herr p (List.mem_cons_of_mem _ hp)
    obtain rfl : d ++ ps.flatMap Piece.data = s := hdata
    right
    by_cases hk : d.length ≤ k
    · refine ⟨d.length, ps, ?_, ?_, ?_, herr'⟩
      · simp [Go.read, hk]
      · simp
      · simp
    · refine ⟨k, ⟨d.drop k, none⟩ :: ps, ?_, ?_, ?_, ?_⟩
      · simp [Go.read, hk, List.take_append_of_le_length (Nat.le_of_not_le hk)]
      · rw [List.length_append]
        omega
      · simp [List.drop_append_of_le_length (Nat.le_of_not_le hk)]
      · intro p hp
        rcases List.mem_cons.mp hp with rfl | hp
        · rfl
        · exact herr' p hp

theorem Successful.fragments {s : List Byte} {ps : List Piece} (h : Successful s ps) :
    Fragments s ps := by
  obtain ⟨rfl, herr⟩ := h
  induction ps with
  | nil => exact .nil
  | cons p ps ih =>
    obtain ⟨d, e⟩ := p
    obtain rfl : e = none := herr _ List.mem_cons_self
    exact .cons d (ih fun p hp => herr p (List.mem_cons_of_mem _ hp))

theorem readLoop_err {ps : List Piece} (h : ∀ p ∈ ps, p.err = none) (k : Nat) :
    ∀ p ∈ (readLoop k ps).2.2, p.err = none := by
  induction ps generalizing k with
  | nil => cases k <;> simp [readLoop]
  | cons p ps ih =>
    have hps : ∀ p ∈ ps, p.err = none := fun p hp => h p (List.mem_cons_of_mem _ hp)
    obtain ⟨d, e⟩ := p
    obtain rfl : e = none := h _ List.mem_cons_self
    cases k with
    | zero => exact h
    | succ k =>
      simp only [readLoop]
      split
      · intro p hp
        rcases List.mem_cons.mp hp with rfl | hp
        · rfl
        · exact hps p hp
      · split
        · exact hps
        · exact ih hps _

/-- `io.ReadFull` takes the first `k` bytes, or all. -/
theorem Successful.readFull {s : List Byte} {ps : List Piece} (h : Successful s ps) (k : Nat) :
    Successful (s.drop k) (readFull k ps).2.2 := by
  refine ⟨?_, readLoop_err h.err k⟩
  by_cases hk : k ≤ s.length
  · obtain ⟨ps', hread, hfr⟩ := h.fragments.readFull_ok hk
    rw [hread]
    exact hfr.flatMap_data
  · rw [h.fragments.readFull_short (Nat.lt_of_not_le hk), List.drop_of_length_le (by omega)]
    rfl

/-! ### Runs of calls -/

/-- Calls of a method on an object, one for each argument: what they return, and the object
afterwards. -/
def calls {σ α β : Type} (f : σ → α → β × σ) : σ → List α → List β × σ
  | s, [] => ([], s)
  | s, a :: as => ((f s a).1 :: (calls f (f s a).2 as).1, (calls f (f s a).2 as).2)

/-- What one more call preserves holds after a run; `P` sees the arguments, the results and
the object. -/
theorem calls_induction {σ α β : Type} {f : σ → α → β × σ} {P : List α → List β → σ → Prop}
    (step : ∀ as bs s a, P as bs s → P (as ++ [a]) (bs ++ [(f s a).1]) (f s a).2) {s : σ}
    (start : P [] [] s) (as : List α) : P as (calls f s as).1 (calls f s as).2 := by
  suffices h : ∀ as₀ bs₀ s, P as₀ bs₀ s →
      P (as₀ ++ as) (bs₀ ++ (calls f s as).1) (calls f s as).2 from h [] [] s start
  induction as with
  | nil =>
    intro as₀ bs₀ s h
    simpa [calls] using h
  | cons a as ih =>
    intro as₀ bs₀ s h
    have := ih _ _ _ (step as₀ bs₀ s a h)
    simpa [calls] using this

/-- Calls that each return what they have to and add to what has been collected. -/
theorem calls_collect {σ α β γ : Type} {f : σ → α → β × σ} {P : List γ → σ → Prop}
    {ret : α → β} {add : α → List γ}
    (step : ∀ xs s a, P xs s → (f s a).1 = ret a ∧ P (xs ++ add a) (f s a).2) {xs : List γ}
    {s : σ} (start : P xs s) (as : List α) :
    (calls f s as).1 = as.map ret ∧ P (xs ++ as.flatMap add) (calls f s as).2 := by
  refine calls_induction (P := fun as bs s => bs = as.map ret ∧ P (xs ++ as.flatMap add) s)
    ?_ ⟨rfl, by simpa using start⟩ as
  rintro as bs s a ⟨rfl, h⟩
  obtain ⟨hret, hnext⟩ := step _ s a h
  simp only [List.map_append, List.map_singleton, List.flatMap_append, List.flatMap_singleton,
    ← List.append_assoc]
  exact ⟨by rw [hret], hnext⟩

/-- Calls of a method on an object, one for each argument, up to the first that fails: the
arguments of those that succeeded, the error, and the object afterwards. -/
def attempts {σ α : Type} (f : σ → α → Option Error × σ) :
    σ → List α → (List α × Option Error) × σ
  | s, [] => (([], none), s)
  | s, a :: as =>
    match (f s a).1 with
    | some err => (([], some err), (f s a).2)
    | none =>
      let r := attempts f (f s a).2 as
      ((a :: r.1.1, r.1.2), r.2)

section Attempts

variable {σ α : Type} {f : σ → α → Option Error × σ} {s : σ} {a : α}

theorem attempts_failed {err : Error} (h : (f s a).1 = some err) (as : List α) :
    attempts f s (a :: as) = (([], some err), (f s a).2) := by
  rw [attempts, h]

theorem attempts_succeeded (h : (f s a).1 = none) (as : List α) :
    attempts f s (a :: as) =
      ((a :: (attempts f (f s a).2 as).1.1, (attempts f (f s a).2 as).1.2),
        (attempts f (f s a).2 as).2) := by
  rw [attempts, h]

/-- The calls fail exactly if not every one of them has succeeded. -/
theorem attempts_eq_none_iff (s : σ) (as : List α) :
    (attempts f s as).1.2 = none ↔ as.length ≤ (attempts f s as).1.1.length := by
  induction as generalizing s with
  | nil => exact iff_of_true rfl le_rfl
  | cons a as ih =>
    cases h : (f s a).1 with
    | some err =>
      rw [attempts_failed h]
      exact iff_of_false (Option.some_ne_none err) (Nat.not_succ_le_zero _)
    | none =>
      rw [attempts_succeeded h, List.length_cons, List.length_cons, Nat.add_le_add_iff_right]
      exact ih _

end Attempts

/-! ### Writers -/

/-- What a call that writes `b` owes its caller, if it returns `n` and `err` and the writer
below has accepted the parts `accepted` of `b`, each in one piece. -/
structure Reports (b : List Byte) (accepted : List (List Byte)) (n : Nat) (err : Option Error) :
    Prop where
  le : n ≤ b.length
  ok : err = none → n = b.length
  failed : err ≠ none → n = accepted.flatten.length

/-- An `io.Writer`: the bytes it has accepted so far, and its answers to the
next `Write` calls, `none` for success and `some (n, err)` for a failure after
`n` bytes. Once the answers are used up every `Write` succeeds. -/
structure Wire where
  sent : List Byte
  answers : List (Option (Nat × Error))
  deriving DecidableEq, Repr

namespace Wire

/-- A writer that has accepted nothing yet and never fails. -/
def fresh : Wire := ⟨[], []⟩

/-- `Write(b)`: the error and the writer afterwards. -/
def write (w : Wire) (b : List Byte) : Option Error × Wire :=
  match w.answers with
  | [] => (none, ⟨w.sent ++ b, []⟩)
  | none :: as => (none, ⟨w.sent ++ b, as⟩)
  | some (n, e) :: as => (some e, ⟨w.sent ++ b.take n, as⟩)

/-- The number of bytes `Write(b)` returns. -/
def count (w : Wire) (b : List Byte) : Nat := (w.write b).2.sent.length - w.sent.length

theorem count_of_ok {w : Wire} {b : List Byte} (h : (w.write b).1 = none) :
    w.count b = b.length := by
  obtain ⟨sent, answers⟩ := w
  rcases answers with _ | ⟨_ | a, as⟩
  · simp [count, write]
  · simp [count, write]
  · cases h

theorem write_reliable {w : Wire} (h : w.answers = []) (b : List Byte) :
    w.write b = (none, ⟨w.sent ++ b, []⟩) := by
  simp [write, h]

/-- The next `k` calls of `Write` succeed. -/
def Takes (w : Wire) (k : Nat) : Prop := ∀ a ∈ w.answers.take k, a = none

theorem takes_zero (w : Wire) : w.Takes 0 := by simp [Takes]

/-- The next `k + 1` calls succeed if the next one does, and then `k` more. -/
theorem takes_succ (w : Wire) (b : List Byte) (k : Nat) :
    w.Takes (k + 1) ↔ (w.write b).1 = none ∧ (w.write b).2.Takes k := by
  obtain ⟨sent, answers⟩ := w
  rcases answers with _ | ⟨_ | ⟨n, err⟩, as⟩
  · simp [Takes, write]
  · simp [Takes, write]
  · simp [Takes, write]

end Wire

/-- Calls that each end in one `Write` on a writer below: the first `k` succeed exactly if
that writer takes `k` writes. -/
theorem attempts_takes {σ α : Type} {f : σ → α → Option Error × σ} (wire : σ → Wire)
    (hf : ∀ s a, ∃ b, ((f s a).1, wire (f s a).2) = (wire s).write b) (s : σ) {as : List α}
    {k : Nat} (hk : k ≤ as.length) :
    k ≤ (attempts f s as).1.1.length ↔ (wire s).Takes k := by
  induction as generalizing s k with
  | nil =>
    obtain rfl : k = 0 := Nat.le_zero.mp hk
    exact iff_of_true (Nat.zero_le _) (Wire.takes_zero _)
  | cons a as ih =>
    cases k with
    | zero => exact iff_of_true (Nat.zero_le _) (Wire.takes_zero _)
    | succ k =>
      obtain ⟨b, hb⟩ := hf s a
      rw [Wire.takes_succ _ b, ← hb]
      cases h : (f s a).1 with
      | some err =>
        rw [attempts_failed h]
        exact iff_of_false (Nat.not_succ_le_zero k) (fun h => nomatch h.1)
      | none =>
        rw [attempts_succeeded h, List.length_cons, Nat.add_le_add_iff_right,
          ih _ (Nat.le_of_succ_le_succ hk)]
        exact (and_iff_right rfl).symm

/-- A connection: what it will deliver and what it accepts. -/
structure Conn where
  src : List Piece
  wire : Wire
  deriving DecidableEq, Repr

end Tun2socks.Go
