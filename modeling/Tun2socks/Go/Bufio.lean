import Mathlib.Order.Iterate
import Tun2socks.Go.Io

/-!
# Tun2socks.Go.Bufio

Reading lines through a `bufio.Reader`.

The reader fills its buffer with single reads of the source, each as long as the free
part of the buffer, and so takes bytes from the source that nobody has asked for yet. It
gives up on a source that answers nothing too many times in a row (`Steady`).

What the lines are does not depend on how the source cuts its bytes; how far the source
has been read does. A read ends where a piece does or where the buffer is full. `Follows`
is what this says of any reader. If the source does not stall, what is in the buffer when a
read is made depends on the bytes taken so far and on nothing else (`unread`). So the
positions where reads can end are the ends of the pieces and, inside a piece, the iterates
of `refill`. `Reads` follows such a reader, and `Stops` says that its reads are going to stop
at a given position.
-/

namespace Tun2socks.Go

/-- `defaultBufSize`. -/
def bufioSize : Nat := 4096

/-- `maxConsecutiveEmptyReads`. -/
def maxConsecutiveEmptyReads : Nat := 100

/-- `io.ErrNoProgress`. -/
def errNoProgress : Error := .new "multiple Read calls return no data or error"

/-- A `bufio.Reader`: its source, the unread part of its buffer, and the error of the
last read, if it has not been reported yet. -/
structure BufReader where
  src : List Piece
  buf : List Byte
  err : Option Error

/-- The line that `b` begins with, with its newline, and what follows it. -/
def cutLine : List Byte → Option (List Byte × List Byte)
  | [] => none
  | x :: xs =>
    if x = 10 then some ([x], xs)
    else match cutLine xs with
      | some (l, r) => some (x :: l, r)
      | none => none

/-- A line: the newline is its last byte and its only one. -/
def IsLine (l : List Byte) : Prop := ∃ body, l = body ++ [10] ∧ 10 ∉ body

theorem IsLine.ne_nil {l : List Byte} (h : IsLine l) : l ≠ [] := by
  obtain ⟨body, rfl, -⟩ := h
  simp

theorem cutLine_eq_some {b l r : List Byte} (h : cutLine b = some (l, r)) :
    b = l ++ r ∧ IsLine l := by
  induction b generalizing l with
  | nil => simp [cutLine] at h
  | cons x xs ih =>
    simp only [cutLine] at h
    split at h
    · rename_i hx
      obtain ⟨rfl, rfl⟩ := Prod.mk.inj (Option.some.inj h)
      exact ⟨rfl, [], by rw [hx]; rfl, by simp⟩
    · rename_i hx
      split at h
      · rename_i l' r' hcut
        obtain ⟨rfl, rfl⟩ := Prod.mk.inj (Option.some.inj h)
        obtain ⟨rfl, body, rfl, hbody⟩ := ih hcut
        exact ⟨rfl, x :: body, rfl, by simp [hbody, Ne.symm hx]⟩
      · cases h

theorem cutLine_eq_none {b : List Byte} (h : cutLine b = none) : 10 ∉ b := by
  induction b with
  | nil => simp
  | cons x xs ih =>
    simp only [cutLine] at h
    split at h
    · cases h
    · rename_i hx
      split at h
      · cases h
      · rename_i hcut
        simp [ih hcut, Ne.symm hx]

/-- Two lines that begin one text are the same. -/
theorem IsLine.unique {l m r s : List Byte} (hl : IsLine l) (hm : IsLine m) (h : l ++ r = m ++ s) :
    l = m ∧ r = s := by
  obtain ⟨x, rfl, hx⟩ := hl
  obtain ⟨y, rfl, hy⟩ := hm
  rw [List.append_assoc, List.append_assoc] at h
  obtain ⟨rfl, hrs⟩ := append_cons_inj_first hx hy h
  exact ⟨rfl, hrs⟩

/-- A text without newline in front of a line is a proper part of it; the rest of the
line is a line. -/
theorem IsLine.split {l b t s : List Byte} (hl : IsLine l) (hb : 10 ∉ b) (h : b ++ t = l ++ s) :
    ∃ m, l = b ++ m ∧ IsLine m := by
  obtain ⟨x, rfl, hx⟩ := hl
  rw [List.append_assoc] at h
  rcases List.append_eq_append_iff.mp h with ⟨u, rfl, -⟩ | ⟨u, rfl, hu⟩
  · exact ⟨u ++ [10], List.append_assoc .., u, rfl, fun hc => hx (List.mem_append_right _ hc)⟩
  · cases u with
    | nil => exact ⟨[10], by rw [List.append_nil], [], rfl, by simp⟩
    | cons y u =>
      obtain ⟨rfl, -⟩ := List.cons.inj hu
      exact absurd (List.mem_append_right _ (List.mem_cons_self ..)) hb

namespace BufReader

/-- `bufio.NewReader`. -/
def new (src : List Piece) : BufReader := ⟨src, [], none⟩

/-- One read of the source, into the free part of the buffer. -/
def readOnce (b : BufReader) : BufReader :=
  let r := read (bufioSize - b.buf.length) b.src
  ⟨r.2.2, b.buf ++ r.1, r.2.1⟩

/-- The loop of `fill`, for `n` more reads: until one brings a byte or an error. -/
def fillLoop : Nat → BufReader → BufReader
  | 0, b => { b with err := some errNoProgress }
  | n + 1, b =>
    if b.readOnce.err ≠ none ∨ b.buf.length < b.readOnce.buf.length then b.readOnce
    else fillLoop n b.readOnce

/-- `fill`. -/
def fill (b : BufReader) : BufReader := fillLoop maxConsecutiveEmptyReads b

/-- What a full buffer without newline gives up: `ReadLine` puts a last `'\r'` back. -/
def giveUp (buf : List Byte) : List Byte := if buf.getLast? = some 13 then buf.dropLast else buf

theorem giveUp_append (buf : List Byte) :
    ∃ kept, buf = giveUp buf ++ kept ∧ kept.length ≤ 1 := by
  unfold giveUp
  split
  · rename_i h
    obtain ⟨ys, rfl⟩ := List.getLast?_eq_some_iff.mp h
    exact ⟨[13], by simp, le_rfl⟩
  · exact ⟨[], by simp, by simp⟩

theorem drop_giveUp {buf kept : List Byte} (h : buf = giveUp buf ++ kept) :
    buf.drop (giveUp buf).length = kept := by
  have hdrop := congrArg (List.drop (giveUp buf).length) h
  rwa [List.drop_left' rfl] at hdrop

/-- What bounds the work of `readLine`: the source, and whether its end is known. -/
def remaining (b : BufReader) : Nat :=
  readerSize b.src + match b.err with
    | none => 1
    | some _ => 0

theorem remaining_readOnce {b : BufReader} (herr : b.err = none)
    (hb : b.buf.length < bufioSize) : b.readOnce.remaining < b.remaining := by
  have hpos : 0 < bufioSize - b.buf.length := by omega
  simp only [remaining, herr, readOnce]
  split
  · rename_i hread
    exact Nat.add_lt_add_right (readerSize_read hpos hread) 1
  · exact Nat.lt_succ_of_le (readerSize_read_le _ _)

/-- A read that does not fill the buffer any further has brought nothing. -/
theorem read_eq_nil {b : BufReader} (h : b.readOnce.buf.length ≤ b.buf.length) :
    (read (bufioSize - b.buf.length) b.src).1 = [] := by
  simp only [readOnce, List.length_append] at h
  exact List.eq_nil_of_length_eq_zero (by omega)

theorem prefix_fillLoop (n : Nat) (b : BufReader) : b.buf <+: (fillLoop n b).buf := by
  induction n generalizing b with
  | zero => exact List.prefix_rfl
  | succ n ih =>
    rw [fillLoop]
    split
    · exact List.prefix_append ..
    · exact (List.prefix_append b.buf _).trans (ih b.readOnce)

theorem remaining_fillLoop (n : Nat) {b : BufReader} (herr : b.err = none)
    (hb : b.buf.length < bufioSize) : (fillLoop n b).remaining < b.remaining := by
  induction n generalizing b with
  | zero =>
    simp only [fillLoop, remaining, herr]
    omega
  | succ n ih =>
    have hread := remaining_readOnce herr hb
    rw [fillLoop]
    split
    · exact hread
    next hempty =>
      push Not at hempty
      exact (ih hempty.1 (hempty.2.trans_lt hb)).trans hread

/-- Read a line, as `textproto.Reader.ReadLine` does: the line with its newline. A line
longer than the buffer is collected in `acc`. If the source ends or fails, what is
buffered counts as a line. -/
def readLine (acc : List Byte) (b : BufReader) : Except Error (List Byte) × BufReader :=
  match cutLine b.buf with
  | some (l, r) => (.ok (acc ++ l), { b with buf := r })
  | none =>
    match _herr : b.err with
    | some e =>
      (if b.buf = [] then .error e else .ok (acc ++ b.buf), { b with buf := [], err := none })
    | none =>
      if bufioSize ≤ b.buf.length then
        readLine (acc ++ giveUp b.buf) { b with buf := b.buf.drop (giveUp b.buf).length }
      else readLine acc b.fill
termination_by (b.remaining, b.buf.length)
decreasing_by
  · rename_i hfull
    obtain ⟨kept, hbuf, hkept⟩ := giveUp_append b.buf
    have hlen : b.buf.length = (giveUp b.buf).length + kept.length := by
      rw [← List.length_append, ← hbuf]
    refine Prod.Lex.right _ ?_
    rw [List.length_drop]
    unfold bufioSize at hfull
    omega
  · rename_i hfull
    exact Prod.Lex.left _ _ (remaining_fillLoop _ _herr (by omega))

/-- The bytes that the reader can still deliver. -/
def total (b : BufReader) : Nat := b.buf.length + (b.src.flatMap Piece.data).length

theorem total_readOnce (b : BufReader) : b.readOnce.total = b.total := by
  have hread := congrArg List.length (read_flatMap_data (bufioSize - b.buf.length) b.src)
  rw [List.length_append] at hread
  simp only [total, readOnce, List.length_append]
  omega

theorem total_fillLoop (n : Nat) (b : BufReader) : (fillLoop n b).total = b.total := by
  induction n generalizing b with
  | zero => rfl
  | succ n ih =>
    rw [fillLoop]
    split
    · exact total_readOnce b
    · rw [ih, total_readOnce]

/-- A line is taken off what the reader can deliver, and it is not empty. -/
theorem total_readLine {acc l : List Byte} {b b' : BufReader} (h : readLine acc b = (.ok l, b')) :
    acc.length < l.length ∧ l.length + b'.total = acc.length + b.total := by
  fun_induction readLine acc b with
  | case1 acc b m r hcut =>
    obtain ⟨hm, rfl⟩ := Prod.mk.inj h
    obtain rfl := Except.ok.inj hm
    obtain ⟨hbuf, hline⟩ := cutLine_eq_some hcut
    have hpos := List.length_pos_of_ne_nil hline.ne_nil
    simp only [total, hbuf, List.length_append]
    omega
  | case2 acc b hcut e herr =>
    obtain ⟨hm, rfl⟩ := Prod.mk.inj h
    split at hm
    · cases hm
    · rename_i hne
      obtain rfl := Except.ok.inj hm
      have hpos := List.length_pos_of_ne_nil hne
      simp only [total, List.length_append, List.length_nil]
      omega
  | case3 acc b hcut herr hfull ih =>
    obtain ⟨hlt, hsum⟩ := ih h
    obtain ⟨kept, hbuf, -⟩ := giveUp_append b.buf
    have hlen := congrArg List.length hbuf
    rw [List.length_append] at hlen hlt
    simp only [total, List.length_append, List.length_drop] at hsum ⊢
    omega
  | case4 acc b hcut herr hfull ih =>
    rw [fill, total_fillLoop] at ih
    exact ih h

/-- A line with nothing on it. -/
def blank (l : List Byte) : Bool := l = [10] ∨ l = [13, 10]

/-- Read lines up to a blank one: all their bytes, the blank line included. -/
def readBlock (acc : List Byte) (b : BufReader) : Except Error (List Byte) × BufReader :=
  match _hline : readLine [] b with
  | (.error e, b') => (.error e, b')
  | (.ok l, b') => if blank l then (.ok (acc ++ l), b') else readBlock (acc ++ l) b'
termination_by b.total
decreasing_by
  have hsize := total_readLine _hline
  simp only [List.length_nil] at hsize
  omega

theorem readBlock_of_readLine {acc l : List Byte} {b b' : BufReader}
    (h : readLine [] b = (.ok l, b')) :
    readBlock acc b = if blank l then (.ok (acc ++ l), b') else readBlock (acc ++ l) b' := by
  rw [readBlock]
  split
  · rename_i hline
    rw [h] at hline
    cases hline
  · rename_i hline
    rw [h] at hline
    obtain ⟨hl, rfl⟩ := Prod.mk.inj hline
    obtain rfl := Except.ok.inj hl
    rfl

/-- Lines that are not blank, and then a blank one. -/
inductive Block : List Byte → Prop
  | blank {l : List Byte} : IsLine l → blank l → Block l
  | line {l B : List Byte} : IsLine l → ¬ blank l → Block B → Block (l ++ B)

/-! ### What stays in the buffer -/

/-- What of the bytes taken from the source is in the buffer when the next read is made:
lines have been consumed, and of a line longer than the buffer every full buffer. -/
def unread (taken : List Byte) : List Byte :=
  match _hcut : cutLine taken with
  | some (_, r) => unread r
  | none =>
    if bufioSize ≤ taken.length then
      unread (taken.drop (giveUp (taken.take bufioSize)).length)
    else taken
termination_by taken.length
decreasing_by
  · obtain ⟨rfl, hline⟩ := cutLine_eq_some _hcut
    have := List.length_pos_of_ne_nil hline.ne_nil
    rw [List.length_append]
    omega
  · rename_i hfull
    obtain ⟨kept, hbuf, hkept⟩ := giveUp_append (taken.take bufioSize)
    have hlen := congrArg List.length hbuf
    have hsize : bufioSize = 4096 := rfl
    rw [List.length_append, List.length_take] at hlen
    rw [List.length_drop]
    omega

/-- The position up to which the source is read, if a read is made at position `t` and
the source has enough in one piece. -/
def refill (S : List Byte) (t : Nat) : Nat := t + (bufioSize - (unread (S.take t)).length)

section Unread

variable {l r x kept buf : List Byte}

theorem unread_line (hl : IsLine l) : unread (l ++ r) = unread r := by
  rw [unread]
  split
  next m s hcut =>
    obtain ⟨hbuf, hm⟩ := cutLine_eq_some hcut
    rw [(hl.unique hm hbuf).2]
  next hcut =>
    obtain ⟨body, rfl, -⟩ := hl
    exact absurd (by simp) (cutLine_eq_none hcut)

theorem unread_of_lt (hcut : cutLine buf = none) (hlt : buf.length < bufioSize) :
    unread buf = buf := by
  rw [unread]
  split
  next h => cases hcut.symm.trans h
  · rw [if_neg (Nat.not_le_of_lt hlt)]

/-- A full buffer is given up, whatever follows it. -/
theorem unread_giveUp (hcut : cutLine buf = none) (hfull : buf.length = bufioSize)
    (hbuf : buf = giveUp buf ++ kept) (hx : kept <+: x) : unread (giveUp buf ++ x) = unread x := by
  have hno : 10 ∉ giveUp buf := fun h =>
    cutLine_eq_none hcut (by rw [hbuf]; exact List.mem_append_left _ h)
  obtain ⟨y, rfl⟩ := hx
  cases hrest : cutLine (kept ++ y) with
  | some p =>
    -- the line goes on and ends: it is consumed as a whole
    obtain ⟨l, r⟩ := p
    obtain ⟨hl, body, rfl, hbody⟩ := cutLine_eq_some hrest
    have hline : IsLine (giveUp buf ++ (body ++ [10])) :=
      ⟨giveUp buf ++ body, (List.append_assoc ..).symm, by simp [hno, hbody]⟩
    rw [hl, ← List.append_assoc, unread_line hline, unread_line ⟨body, rfl, hbody⟩]
  | none =>
    have htake : (giveUp buf ++ (kept ++ y)).take bufioSize = buf := by
      rw [← List.append_assoc, ← hbuf, List.take_left' hfull]
    have hlen : bufioSize ≤ (giveUp buf ++ (kept ++ y)).length := by
      rw [← List.append_assoc, ← hbuf, List.length_append]
      omega
    rw [unread]
    split
    next h =>
      obtain ⟨hl, body, rfl, -⟩ := cutLine_eq_some h
      have hmem : 10 ∈ giveUp buf ++ (kept ++ y) := by rw [hl]; simp
      exact absurd (List.mem_append.mp hmem) (not_or.mpr ⟨hno, cutLine_eq_none hrest⟩)
    · rw [if_pos hlen, htake, List.drop_left' rfl]

theorem le_refill (S : List Byte) (j t : Nat) : t ≤ (refill S)^[j] t :=
  Function.id_le_iterate_of_id_le (fun t => Nat.le_add_right t _) j t

/-- Up to a position, only the bytes before it matter. -/
theorem refill_append_iff (H rest : List Byte) (j t : Nat) :
    (refill (H ++ rest))^[j] t = H.length ↔ (refill H)^[j] t = H.length := by
  induction j generalizing t with
  | zero => exact Iff.rfl
  | succ j ih =>
    by_cases ht : t ≤ H.length
    · have hsame : refill (H ++ rest) t = refill H t := by
        rw [refill, refill, List.take_append_of_le_length ht]
      rw [Function.iterate_succ_apply, Function.iterate_succ_apply, hsame]
      exact ih _
    · have hfirst := le_refill (H ++ rest) (j + 1) t
      have hsecond := le_refill H (j + 1) t
      exact iff_of_false (by omega) (by omega)

end Unread

/-! ### What has been taken from the source -/

/-- `src` is what is left of `pieces` behind the bytes `taken`. Whole pieces have been
taken, and of the next one whole buffers. -/
def Position (pieces : List Piece) (S taken : List Byte) (src : List Piece) : Prop :=
  (∃ ps, pieces = ps ++ src ∧ ps.flatMap Piece.data = taken) ∨
    ∃ ps d e qs k j, pieces = ps ++ ⟨d, e⟩ :: qs ∧ src = ⟨d.drop k, e⟩ :: qs ∧ k < d.length ∧
      taken = ps.flatMap Piece.data ++ d.take k ∧
      (refill S)^[j] (ps.flatMap Piece.data).length = taken.length

/-- A piece ends at position `n`, which has not been passed. -/
def EndsAhead (n : Nat) (taken : List Byte) (src : List Piece) : Prop :=
  ∃ us qs, src = us ++ qs ∧ (taken ++ us.flatMap Piece.data).length = n

/-- The reads to come stop at position `n`: a piece ends there, or the piece that goes past
it is cut there by the buffer. -/
def Stops (S : List Byte) (n : Nat) (taken : List Byte) (src : List Piece) : Prop :=
  EndsAhead n taken src ∨
    ∃ us d e qs j, src = us ++ ⟨d, e⟩ :: qs ∧
      n ≤ (taken ++ us.flatMap Piece.data ++ d).length ∧
      (refill S)^[j] (taken ++ us.flatMap Piece.data).length = n

section Read

variable {pieces src : List Piece} {S taken : List Byte} {k n : Nat}

/-- One read, of as many bytes as the buffer has room for. -/
theorem Position.read (h : Position pieces S taken src)
    (hk : refill S taken.length = taken.length + k) :
    Position pieces S (taken ++ (read k src).1) (read k src).2.2 := by
  rcases h with ⟨ps, rfl, rfl⟩ | ⟨ps, d, e, qs, m, j, rfl, rfl, hm, rfl, hj⟩
  · cases src with
    | nil => exact .inl ⟨ps, rfl, (List.append_nil _).symm⟩
    | cons p qs =>
      obtain ⟨d, e⟩ := p
      rw [Go.read]
      split
      · exact .inl ⟨ps ++ [⟨d, e⟩], by simp, by simp⟩
      next hd =>
        refine .inr ⟨ps, d, e, qs, k, 1, rfl, rfl, Nat.lt_of_not_le hd, rfl, ?_⟩
        rw [Function.iterate_one, hk, List.length_append, List.length_take]
        omega
  · rw [Go.read]
    split
    · exact .inl ⟨ps ++ [⟨d, e⟩], by simp, by simp⟩
    next hd =>
      rw [List.length_drop] at hd
      refine .inr ⟨ps, d, e, qs, m + k, j + 1, rfl, ?_, by omega, ?_, ?_⟩
      · rw [List.drop_drop]
      · rw [List.append_assoc, ← List.take_add]
      · have htake : ((d.drop m).take k).length = k := by
          rw [List.length_take, List.length_drop]
          omega
        rw [Function.iterate_succ_apply', hj, hk]
        simp only [List.length_append, htake]

/-- A read that cuts a piece leaves what follows it where it is. -/
theorem cut_flatMap (taken d : List Byte) (e : Option Error) (us : List Piece) (k : Nat) :
    taken ++ d.take k ++ (⟨d.drop k, e⟩ :: us).flatMap Piece.data =
      taken ++ (⟨d, e⟩ :: us).flatMap Piece.data := by
  rw [List.flatMap_cons, List.flatMap_cons, List.append_assoc, ← List.append_assoc (d.take k),
    List.take_append_drop]

/-- A read does not go past the end of a piece. -/
theorem EndsAhead.read (h : EndsAhead n taken src) (hlt : taken.length < n) :
    EndsAhead n (taken ++ (read k src).1) (read k src).2.2 := by
  obtain ⟨us, qs, rfl, hn⟩ := h
  cases us with
  | nil => exact absurd (by simpa using hn) hlt.ne
  | cons p us =>
    obtain ⟨d, e⟩ := p
    rw [List.cons_append, Go.read]
    split
    · exact ⟨us, qs, rfl, by simpa using hn⟩
    · exact ⟨⟨d.drop k, e⟩ :: us, qs, rfl, by rwa [cut_flatMap]⟩

/-- A read that is made before position `n`. -/
theorem Stops.read (h : Stops S n taken src) (hk : refill S taken.length = taken.length + k)
    (hlt : taken.length < n) : Stops S n (taken ++ (read k src).1) (read k src).2.2 := by
  rcases h with h | ⟨us, d, e, qs, j, rfl, hle, hj⟩
  · exact .inl (h.read hlt)
  · cases us with
    | cons p us =>
      obtain ⟨d', e'⟩ := p
      rw [List.cons_append, Go.read]
      split
      · exact .inr ⟨us, d, e, qs, j, rfl, by simpa using hle, by simpa using hj⟩
      · exact .inr ⟨⟨d'.drop k, e'⟩ :: us, d, e, qs, j, rfl, by rwa [cut_flatMap],
          by rwa [cut_flatMap]⟩
    | nil =>
      simp only [List.flatMap_nil, List.append_nil, List.length_append] at hle hj
      cases j with
      | zero => exact absurd hj hlt.ne
      | succ j =>
        rw [Function.iterate_succ_apply, hk] at hj
        have hstop := (le_refill S j (taken.length + k)).trans hj.le
        rw [List.nil_append, Go.read]
        split
        · -- the piece and the buffer end at the same place
          refine .inl ⟨[], qs, rfl, ?_⟩
          simp only [List.flatMap_nil, List.append_nil, List.length_append]
          omega
        · have htake : (taken ++ d.take k).length = taken.length + k := by
            rw [List.length_append, List.length_take]
            omega
          refine .inr ⟨[], d.drop k, e, qs, j, rfl, ?_, ?_⟩
          · rw [List.flatMap_nil, List.append_nil, List.length_append, htake, List.length_drop]
            omega
          · rw [List.flatMap_nil, List.append_nil, htake, hj]

end Read

/-! ### Sources that do not stall -/

/-- There are never so many empty reads in a row that `fill` gives up. -/
def Steady (ps : List Piece) : Prop :=
  ¬ List.replicate maxConsecutiveEmptyReads ⟨[], none⟩ <:+: ps

theorem steady_of_length_lt {ps : List Piece} (h : ps.length < maxConsecutiveEmptyReads) :
    Steady ps := by
  intro hinfix
  have := hinfix.length_le
  rw [List.length_replicate] at this
  omega

theorem Steady.read {ps : List Piece} (h : Steady ps) (k : Nat) : Steady (read k ps).2.2 := by
  cases ps with
  | nil => exact h
  | cons p ps =>
    obtain ⟨d, e⟩ := p
    have htail : Steady ps := fun hps => h (hps.trans (List.suffix_cons _ ps).isInfix)
    rw [Go.read]
    split
    · exact htail
    next hd =>
      intro hinfix
      rcases List.infix_cons_iff.mp hinfix with hprefix | hps
      · -- what is left of the piece is not empty
        rw [show maxConsecutiveEmptyReads = 99 + 1 from rfl, List.replicate_succ,
          List.cons_prefix_cons] at hprefix
        have := congrArg (fun p : Piece => p.data.length) hprefix.1
        simp only [List.length_nil, List.length_drop] at this
        omega
      · exact htail hps

/-- An empty read. -/
theorem read_empty {k : Nat} {ps : List Piece} (hk : 0 < k) (hdata : (read k ps).1 = [])
    (herr : (read k ps).2.1 = none) : ps = ⟨[], none⟩ :: (read k ps).2.2 := by
  cases ps with
  | nil => cases herr
  | cons p ps =>
    obtain ⟨d, e⟩ := p
    rw [Go.read] at hdata herr ⊢
    split at hdata
    next hd =>
      rw [if_pos hd] at herr ⊢
      rw [show d = [] from hdata, show e = none from herr]
    next hd =>
      have := congrArg List.length hdata
      simp only [List.length_take, List.length_nil] at this
      omega

/-! ### Readers of any source -/

/-- A reader started on `pieces`, which deliver `S`, of which `c` has been consumed. Beyond
`c` only the buffer has been taken from the source, up to the end of a piece or at least as
much as the buffer can hold. -/
structure Follows (pieces : List Piece) (S c : List Byte) (b : BufReader) : Prop where
  stream : ∃ t, c ++ b.buf ++ t = S ∧ Fragments t b.src
  le : b.buf.length ≤ bufioSize
  position : (∃ ps, pieces = ps ++ b.src ∧ ps.flatMap Piece.data = c ++ b.buf) ∨
    bufioSize ≤ (c ++ b.buf).length

section Follows

variable {pieces : List Piece} {S c x y : List Byte} {b : BufReader}

theorem follows_new (h : Fragments S pieces) : Follows pieces S [] (new pieces) where
  stream := ⟨S, rfl, h⟩
  le := Nat.zero_le _
  position := .inl ⟨[], rfl, rfl⟩

/-- Consuming takes nothing from the source. -/
theorem Follows.consume (h : Follows pieces S c b) (hbuf : b.buf = x ++ y) (e : Option Error) :
    Follows pieces S (c ++ x) ⟨b.src, y, e⟩ := by
  have hcx : c ++ x ++ y = c ++ b.buf := by rw [hbuf, List.append_assoc]
  obtain ⟨hstream, hle, hposition⟩ := h
  rw [← hcx] at hstream hposition
  refine ⟨hstream, ?_, hposition⟩
  rw [hbuf, List.length_append] at hle
  exact (Nat.le_add_left ..).trans hle

theorem Follows.readOnce (h : Follows pieces S c b) : Follows pieces S c b.readOnce := by
  obtain ⟨t, hS, hfr⟩ := h.stream
  have hle := h.le
  refine ⟨?_, ?_, ?_⟩
  · obtain ⟨n, e, ps', hread, -, -, hfr', -⟩ := hfr.read (bufioSize - b.buf.length)
    refine ⟨t.drop n, ?_, ?_⟩
    · rw [← hS]
      simp [BufReader.readOnce, hread]
    · simpa only [BufReader.readOnce, hread] using hfr'
  · have := read_length_le (bufioSize - b.buf.length) b.src
    simp only [BufReader.readOnce, List.length_append]
    omega
  · rcases h.position with ⟨ps, hps, hdata⟩ | hlong
    · cases hsrc : b.src with
      | nil =>
        refine .inl ⟨ps, ?_, ?_⟩
        · rw [hps, hsrc]
          simp [BufReader.readOnce, hsrc, Go.read]
        · simp [BufReader.readOnce, hsrc, Go.read, hdata]
      | cons p qs =>
        obtain ⟨d, e⟩ := p
        simp only [BufReader.readOnce, hsrc, Go.read]
        split
        · exact .inl ⟨ps ++ [⟨d, e⟩], by simp [hps, hsrc], by simp [hdata]⟩
        next hd =>
          -- the piece is longer than the rest of the buffer
          right
          simp only [List.length_append, List.length_take]
          omega
    · right
      simp only [BufReader.readOnce, List.length_append] at hlong ⊢
      omega

theorem Follows.fillLoop (m : Nat) (h : Follows pieces S c b) :
    Follows pieces S c (fillLoop m b) := by
  induction m generalizing b with
  | zero => exact ⟨h.stream, h.le, h.position⟩
  | succ m ih =>
    rw [BufReader.fillLoop]
    split
    · exact h.readOnce
    · exact ih h.readOnce

/-- A read goes past the end of a piece only if it is made there. -/
theorem endsAhead_readOnce {n : Nat} (h : EndsAhead n (c ++ b.buf) b.src) :
    EndsAhead n (c ++ b.readOnce.buf) b.readOnce.src ∨
      (c ++ b.buf).length = n ∧ ∃ q ≠ [], b.readOnce.buf = b.buf ++ q := by
  by_cases hlt : (c ++ b.buf).length < n
  · have hread := h.read (k := bufioSize - b.buf.length) hlt
    rw [List.append_assoc] at hread
    exact .inl hread
  · obtain ⟨us, qs, -, hn⟩ := h
    rw [List.length_append] at hn
    by_cases hq : (read (bufioSize - b.buf.length) b.src).1 = []
    · refine .inl ⟨[], b.readOnce.src, rfl, ?_⟩
      simp only [BufReader.readOnce, hq, List.append_nil, List.flatMap_nil]
      omega
    · exact .inr ⟨by omega, _, hq, rfl⟩

theorem endsAhead_fillLoop {n : Nat} (m : Nat) (h : EndsAhead n (c ++ b.buf) b.src) :
    EndsAhead n (c ++ (fillLoop m b).buf) (fillLoop m b).src ∨
      (c ++ b.buf).length = n ∧ ∃ q ≠ [], (fillLoop m b).buf = b.buf ++ q := by
  induction m generalizing b with
  | zero => exact .inl h
  | succ m ih =>
    rw [BufReader.fillLoop]
    split
    · exact endsAhead_readOnce h
    next hempty =>
      push Not at hempty
      have hbuf : b.readOnce.buf = b.buf := by
        rw [BufReader.readOnce, read_eq_nil hempty.2, List.append_nil]
      rcases endsAhead_readOnce h with hends | ⟨-, q, hq, hpast⟩
      · have hrest := ih hends
        rwa [hbuf] at hrest
      · exact absurd (List.append_right_eq_self.mp (hpast.symm.trans hbuf)) hq

/-- A line goes past the part of the buffer that has no newline, if there is more in the
buffer. -/
theorem length_lt_readLine {acc l p q : List Byte} {b' : BufReader}
    (h : readLine acc b = (.ok l, b')) (hbuf : b.buf = p ++ q) (hp : 10 ∉ p) (hq : q ≠ []) :
    acc.length + p.length < l.length := by
  have hpos := List.length_pos_of_ne_nil hq
  fun_induction readLine acc b generalizing q with
  | case1 acc b m r hcut =>
    obtain rfl := Except.ok.inj (Prod.mk.inj h).1
    obtain ⟨hm, hline⟩ := cutLine_eq_some hcut
    obtain ⟨m', rfl, hm'⟩ := hline.split hp (hbuf.symm.trans hm)
    have := List.length_pos_of_ne_nil hm'.ne_nil
    simp only [List.length_append]
    omega
  | case2 acc b hcut e herr =>
    have hl := (Prod.mk.inj h).1
    split at hl
    · cases hl
    · obtain rfl := Except.ok.inj hl
      simp only [hbuf, List.length_append]
      omega
  | case3 acc b hcut herr hfull ih =>
    -- a full buffer gives up all but a byte
    obtain ⟨hlt, -⟩ := total_readLine h
    obtain ⟨kept, hkept, hone⟩ := giveUp_append b.buf
    have hlen := congrArg List.length (hkept.symm.trans hbuf)
    simp only [List.length_append] at hlen hlt
    omega
  | case4 acc b hcut herr hfull ih =>
    obtain ⟨q', hq'⟩ := prefix_fillLoop maxConsecutiveEmptyReads b
    rw [hbuf, List.append_assoc] at hq'
    refine ih h hq'.symm (List.append_ne_nil_of_left_ne_nil hq q') ?_
    rw [List.length_append]
    omega

/-- What `readLine` returns has been consumed. If a piece ends at position `n`, the source is
not read past it before a line has gone past it. -/
theorem readLine_follows {acc l : List Byte} {b' : BufReader} (h : readLine acc b = (.ok l, b'))
    (hb : Follows pieces S c b) :
    ∃ x, l = acc ++ x ∧ Follows pieces S (c ++ x) b' ∧ ∀ n, EndsAhead n (c ++ b.buf) b.src →
      EndsAhead n (c ++ x ++ b'.buf) b'.src ∨ n < (c ++ x).length := by
  fun_induction readLine acc b generalizing c with
  | case1 acc b m r hcut =>
    obtain ⟨hl, rfl⟩ := Prod.mk.inj h
    obtain ⟨hbuf, -⟩ := cutLine_eq_some hcut
    refine ⟨m, (Except.ok.inj hl).symm, hb.consume hbuf b.err, fun n hends => .inl ?_⟩
    rwa [hbuf, ← List.append_assoc] at hends
  | case2 acc b hcut e herr =>
    obtain ⟨hl, rfl⟩ := Prod.mk.inj h
    split at hl
    · cases hl
    · refine ⟨b.buf, (Except.ok.inj hl).symm, hb.consume (List.append_nil _).symm none,
        fun n hends => .inl ?_⟩
      rwa [List.append_nil]
  | case3 acc b hcut herr hfull ih =>
    obtain ⟨kept, hbuf, -⟩ := giveUp_append b.buf
    rw [drop_giveUp hbuf] at h ih
    obtain ⟨x, rfl, hfollows, hends⟩ := ih h (hb.consume hbuf b.err)
    rw [List.append_assoc c (giveUp b.buf) x] at hfollows hends
    refine ⟨giveUp b.buf ++ x, List.append_assoc .., hfollows, fun n hn => hends n ?_⟩
    dsimp only
    rwa [List.append_assoc, ← hbuf]
  | case4 acc b hcut herr hfull ih =>
    obtain ⟨x, rfl, hfollows, hends⟩ := ih h (hb.fillLoop maxConsecutiveEmptyReads)
    refine ⟨x, rfl, hfollows, fun n hn => ?_⟩
    rcases endsAhead_fillLoop maxConsecutiveEmptyReads hn with hahead | ⟨hpos, q, hq, hpast⟩
    · exact hends n hahead
    · -- the buffer has no newline, so the line goes on
      have := length_lt_readLine h hpast (cutLine_eq_none hcut) hq
      simp only [List.length_append] at this hpos ⊢
      omega

theorem readBlock_follows {acc B : List Byte} {b' : BufReader} (h : readBlock acc b = (.ok B, b'))
    (hb : Follows pieces S c b) :
    ∃ x, B = acc ++ x ∧ Follows pieces S (c ++ x) b' ∧ ∀ n, EndsAhead n (c ++ b.buf) b.src →
      EndsAhead n (c ++ x ++ b'.buf) b'.src ∨ n < (c ++ x).length := by
  fun_induction readBlock acc b generalizing c with
  | case1 acc b e b₁ hline => cases (Prod.mk.inj h).1
  | case2 acc b l b₁ hline hblank =>
    obtain ⟨hB, rfl⟩ := Prod.mk.inj h
    obtain ⟨l, rfl, hfollows, hends⟩ := readLine_follows hline hb
    exact ⟨_, (Except.ok.inj hB).symm, hfollows, hends⟩
  | case3 acc b l b₁ hline hblank ih =>
    obtain ⟨l, rfl, hfollows, hends⟩ := readLine_follows hline hb
    obtain ⟨y, rfl, hfollows', hends'⟩ := ih h hfollows
    refine ⟨_, List.append_assoc .., by rwa [← List.append_assoc], fun n hn => ?_⟩
    rw [← List.append_assoc]
    rcases hends n hn with hahead | hpast
    · exact hends' n hahead
    · right
      simp only [List.length_append] at hpast ⊢
      omega

end Follows

/-! ### Readers of a source that does not stall -/

/-- Such a reader, if the source does not stall: what it has taken depends only on how the
pieces cut the stream. -/
structure Reads (pieces : List Piece) (S c : List Byte) (b : BufReader) : Prop extends
    Follows pieces S c b where
  ended : b.err = none ∨ b.err = some .eof ∧ c ++ b.buf = S
  steady : Steady b.src
  -- whatever follows the buffer, what has been consumed does not matter any more
  unread : ∀ x, b.buf <+: x → BufReader.unread (c ++ x) = BufReader.unread x
  reached : Position pieces S (c ++ b.buf) b.src

section Steps

variable {pieces : List Piece} {S c x y : List Byte} {b : BufReader}

theorem reads_new (h : Fragments S pieces) (hsteady : Steady pieces) :
    Reads pieces S [] (new pieces) where
  toFollows := follows_new h
  ended := .inl rfl
  steady := hsteady
  unread _ _ := rfl
  reached := .inl ⟨[], rfl, rfl⟩

theorem Reads.consume (h : Reads pieces S c b) (hbuf : b.buf = x ++ y)
    (hunread : ∀ z, y <+: z → BufReader.unread (x ++ z) = BufReader.unread z) :
    Reads pieces S (c ++ x) { b with buf := y } := by
  have hcx : c ++ x ++ y = c ++ b.buf := by rw [hbuf, List.append_assoc]
  obtain ⟨hfollows, hended, hsteady, hold, hreached⟩ := h
  rw [← hcx] at hended hreached
  refine ⟨hfollows.consume hbuf b.err, hended, hsteady, fun z hz => ?_, hreached⟩
  rw [List.append_assoc, hold, hunread z hz]
  rw [hbuf]
  exact List.prefix_append_right_inj x |>.mpr hz

/-- Where the next read ends at the latest. -/
theorem Reads.refill_eq (h : Reads pieces S c b) (hcut : cutLine b.buf = none)
    (hlt : b.buf.length < bufioSize) :
    refill S (c ++ b.buf).length = (c ++ b.buf).length + (bufioSize - b.buf.length) := by
  obtain ⟨t, ht, -⟩ := h.stream
  rw [refill, ← ht, List.take_left' rfl, h.unread b.buf List.prefix_rfl, unread_of_lt hcut hlt]

theorem Reads.readOnce (h : Reads pieces S c b) (hcut : cutLine b.buf = none)
    (hlt : b.buf.length < bufioSize) : Reads pieces S c b.readOnce := by
  have hreached := h.reached.read (h.refill_eq hcut hlt)
  obtain ⟨t, hS, hfr⟩ := h.stream
  refine ⟨h.toFollows.readOnce, ?_, h.steady.read _, fun x hx => ?_, ?_⟩
  · obtain ⟨n, e, ps', hread, -, -, -, he⟩ := hfr.read (bufioSize - b.buf.length)
    simp only [BufReader.readOnce, hread]
    refine he.imp_right fun hend => ⟨hend.1, ?_⟩
    rw [hend.2, List.take_length, ← List.append_assoc, hS]
  · exact h.unread x ((List.prefix_append b.buf _).trans hx)
  · rwa [List.append_assoc] at hreached

/-- The loop of `fill` on a source that does not stall. -/
theorem Reads.fillLoop (m : Nat) (h : Reads pieces S c b) (hcut : cutLine b.buf = none)
    (hlt : b.buf.length < bufioSize) (hm : ¬ List.replicate m ⟨[], none⟩ <+: b.src) :
    Reads pieces S c (fillLoop m b) ∧ ∀ n, (c ++ b.buf).length < n →
      Stops S n (c ++ b.buf) b.src →
      Stops S n (c ++ (fillLoop m b).buf) (fillLoop m b).src := by
  induction m generalizing b with
  | zero => exact absurd List.nil_prefix hm
  | succ m ih =>
    have hread := h.readOnce hcut hlt
    have hstops : ∀ n, (c ++ b.buf).length < n → Stops S n (c ++ b.buf) b.src →
        Stops S n (c ++ b.readOnce.buf) b.readOnce.src := by
      intro n hn hstops
      have := hstops.read (h.refill_eq hcut hlt) hn
      rwa [List.append_assoc] at this
    rw [BufReader.fillLoop]
    split
    · exact ⟨hread, hstops⟩
    next hempty =>
      push Not at hempty
      have hnil := read_eq_nil hempty.2
      have hbuf : b.readOnce.buf = b.buf := by rw [BufReader.readOnce, hnil, List.append_nil]
      have hsrc : b.src = ⟨[], none⟩ :: b.readOnce.src := read_empty (by omega) hnil hempty.1
      rw [hsrc, List.replicate_succ, List.cons_prefix_cons] at hm
      obtain ⟨hreads, hstops'⟩ := ih hread (by rwa [hbuf]) (by rwa [hbuf]) (fun hp => hm ⟨rfl, hp⟩)
      exact ⟨hreads, fun n hn hs => hstops' n (by rwa [hbuf]) (hstops n hn hs)⟩

/-- The buffer is the beginning of what follows the consumed bytes, and all of it once
the source has ended. -/
theorem Reads.buffered (h : Reads pieces S c b) (hS : S = c ++ x) :
    ∃ t, b.buf ++ t = x ∧ (b.err = none ∨ t = []) := by
  obtain ⟨t, ht, -⟩ := h.stream
  refine ⟨t, ?_, h.ended.imp_right fun hend => ?_⟩
  · rw [hS, List.append_assoc] at ht
    exact List.append_cancel_left ht
  · rw [hend.2] at ht
    exact List.append_right_eq_self.mp ht

/-- Of a stream that begins with a line, `readLine` reads that line. -/
theorem readLine_spec (acc : List Byte) {l rest : List Byte} (hl : IsLine l)
    (h : Reads pieces S c b) (hS : S = c ++ (l ++ rest)) :
    ∃ b', readLine acc b = (.ok (acc ++ l), b') ∧ Reads pieces S (c ++ l) b' ∧
      ∀ n, (c ++ l).length ≤ n → Stops S n (c ++ b.buf) b.src →
        Stops S n (c ++ l ++ b'.buf) b'.src := by
  fun_induction readLine acc b generalizing c l with
  | case1 acc b m r hcut =>
    obtain ⟨hbuf, hm⟩ := cutLine_eq_some hcut
    obtain ⟨t, ht, -⟩ := h.buffered hS
    rw [hbuf, List.append_assoc] at ht
    obtain ⟨rfl, -⟩ := hm.unique hl ht
    refine ⟨_, rfl, h.consume hbuf fun z _ => unread_line hl, fun n _ hs => ?_⟩
    rwa [hbuf, ← List.append_assoc] at hs
  | case2 acc b hcut e herr =>
    -- the source has ended, with the line still ahead
    obtain ⟨t, ht, hend⟩ := h.buffered hS
    obtain ⟨m, rfl, hm⟩ := hl.split (cutLine_eq_none hcut) ht
    obtain rfl : t = [] := hend.resolve_left (by simp [herr])
    have hnil : m ++ rest = [] := by simpa using ht
    exact absurd (List.append_eq_nil_iff.mp hnil).1 hm.ne_nil
  | case3 acc b hcut herr hfull ih =>
    -- a full buffer is a part of the line
    obtain ⟨t, ht, -⟩ := h.buffered hS
    obtain ⟨m, rfl, hm⟩ := hl.split (cutLine_eq_none hcut) ht
    obtain ⟨kept, hbuf, -⟩ := giveUp_append b.buf
    have hkept : 10 ∉ kept := fun hc =>
      cutLine_eq_none hcut (by rw [hbuf]; exact List.mem_append_right _ hc)
    have hline : IsLine (kept ++ m) := by
      obtain ⟨body, rfl, hbody⟩ := hm
      exact ⟨kept ++ body, by rw [List.append_assoc], by simp [hkept, hbody]⟩
    have hassoc : giveUp b.buf ++ (kept ++ m) = b.buf ++ m := by
      rw [← List.append_assoc, ← hbuf]
    have hconsume := h.consume hbuf fun z hz => unread_giveUp hcut (h.le.antisymm hfull) hbuf hz
    rw [drop_giveUp hbuf] at ih ⊢
    obtain ⟨b', hread, hreads, hstops⟩ := ih hline hconsume
      (by rw [hS, List.append_assoc c, ← List.append_assoc (giveUp b.buf), hassoc])
    rw [List.append_assoc, hassoc] at hread hreads hstops
    refine ⟨b', hread, hreads, fun n hn hs => hstops n hn ?_⟩
    dsimp only
    rwa [List.append_assoc, ← hbuf]
  | case4 acc b hcut herr hfull ih =>
    obtain ⟨t, ht, -⟩ := h.buffered hS
    obtain ⟨m, rfl, hm⟩ := hl.split (cutLine_eq_none hcut) ht
    obtain ⟨hfill, hstops⟩ := h.fillLoop maxConsecutiveEmptyReads hcut (by omega)
      fun hp => h.steady hp.isInfix
    obtain ⟨b', hread, hreads, hstops'⟩ := ih hl hfill hS
    refine ⟨b', hread, hreads, fun n hn hs => hstops' n hn (hstops n ?_ hs)⟩
    have hpos := List.length_pos_of_ne_nil hm.ne_nil
    simp only [List.length_append] at hn ⊢
    omega

/-- Of a stream that begins with a block, `readBlock` reads that block. -/
theorem readBlock_spec (acc : List Byte) {B rest : List Byte} (hB : Block B)
    (h : Reads pieces S c b) (hS : S = c ++ (B ++ rest)) :
    ∃ b', readBlock acc b = (.ok (acc ++ B), b') ∧ Reads pieces S (c ++ B) b' ∧
      ∀ n, (c ++ B).length ≤ n → Stops S n (c ++ b.buf) b.src →
        Stops S n (c ++ B ++ b'.buf) b'.src := by
  induction hB generalizing c b acc with
  | @blank l hl hblank =>
    obtain ⟨b', hread, hreads, hstops⟩ := readLine_spec [] hl h hS
    refine ⟨b', ?_, hreads, hstops⟩
    rw [List.nil_append] at hread
    rw [readBlock_of_readLine hread, if_pos hblank]
  | @line l B hl hblank hB ih =>
    rw [List.append_assoc] at hS
    obtain ⟨b₁, hread, hreads, hstops⟩ := readLine_spec [] hl h hS
    obtain ⟨b', hblock, hreads', hstops'⟩ := ih (acc ++ l) hreads (by rw [hS, List.append_assoc])
    rw [List.append_assoc] at hblock hreads' hstops'
    refine ⟨b', ?_, hreads', fun n hn hs => hstops' n hn (hstops n ?_ hs)⟩
    · rw [List.nil_append] at hread
      rw [readBlock_of_readLine hread, if_neg hblank, hblock]
    · simp only [List.length_append] at hn ⊢
      omega

end Steps

end BufReader

end Tun2socks.Go
