import Tun2socks.Go.Failing
import Tun2socks.SimpleObfs.TlsRead

/-!
# Tun2socks.SimpleObfs.TlsFailure

What `TLSObfs.Read` makes of a transport that fails.

A `Read` calls the connection at up to five places: for the 105 or 3 bytes before a
length, for the length, for a payload that does not fit the buffer, for one that fits, and
for the rest of one begun earlier. `connErrs` lists the errors that the connection reports
on the way, whether they are returned or not.

Two of them are lost. The error in front of a whole length is answered with `0, nil`
(tls.go, line 38), and `io.ReadFull` drops an error that comes together with the last byte
of the buffer it fills. `Lost` is the two cases, in terms of what is left of the stream;
in all others the call that meets the failure returns an error.
-/

namespace Tun2socks.SimpleObfs

open Tun2socks.Go

namespace TLSObfs

/-! ### What the connection reports -/

/-- The errors that the connection reports during `read(b, discardN)`. -/
def readErrs (o : TLSObfs) (k discardN : Nat) : List Error :=
  let skipped := readFull discardN o.conn.src
  (readLoopErr discardN o.conn.src).toList ++
    match skipped.2.1 with
    | some _ => []
    | none =>
      let sizeBuf := readFull 2 skipped.2.2
      (readLoopErr 2 skipped.2.2).toList ++
        match sizeBuf.2.1 with
        | some _ => []
        | none =>
          let length := uint16 (sizeBuf.1.getD 0 0) (sizeBuf.1.getD 1 0)
          if k < length then (Go.read k sizeBuf.2.2).2.1.toList
          else (readLoopErr length sizeBuf.2.2).toList

/-- The errors that the connection reports during `Read(b)` with `len(b) = k`. -/
def connErrs (o : TLSObfs) (k : Nat) : List Error :=
  if 0 < o.remain then
    (readLoopErr (if k < o.remain then k else o.remain) o.conn.src).toList
  else if o.firstResponse then
    { o with firstResponse := false }.readErrs k 105
  else o.readErrs k 3

/-- What the connection has still to deliver. -/
def left (o : TLSObfs) : List Byte := o.conn.src.flatMap Piece.data

/-- The length of a record on the bytes `s`, behind the `skip` bytes in front of it. -/
def lengthAt (s : List Byte) (skip : Nat) : Nat := uint16 (s.getD skip 0) (s.getD (skip + 1) 0)

/-- A record begun on the bytes `s`, with `skip` of them before its length: the stream ends
inside the length, or with a payload that fills the buffer given to `io.ReadFull`. -/
def LostRecord (s : List Byte) (skip k : Nat) : Prop :=
  skip ≤ s.length ∧
    (s.length < skip + 2 ∨ s.length = skip + 2 + lengthAt s skip ∧ lengthAt s skip ≤ k)

/-- Where `Read(b)` loses an error: inside a length, or at the end of what `io.ReadFull` is
to read. -/
def Lost (o : TLSObfs) (k : Nat) : Prop :=
  if 0 < o.remain then o.left.length = min k o.remain
  else LostRecord o.left (if o.firstResponse then 105 else 3) k

/-! ### One read -/

section Read

variable {o : TLSObfs} {s : List Byte} {k skip : Nat}

theorem left_eq (h : Failing s o.conn.src) : o.left = s := h.flatMap_data

/-- The stream ends before a length: the error is returned. -/
theorem read_of_short (h : Failing s o.conn.src) (hlen : s.length < skip) :
    (o.read k skip).1.2 ≠ none := by
  obtain ⟨e, src, hread, -⟩ := h.readFull_of_lt hlen
  simp only [read, hread]
  exact Option.some_ne_none e

/-- It ends inside the length: the error is not returned. -/
theorem read_of_cut (h : Failing s o.conn.src) (hskip : skip ≤ s.length)
    (hlen : s.length < skip + 2) : (o.read k skip).1.2 = none := by
  obtain ⟨src₁, hread₁, h₁, -⟩ := h.readFull_of_le hskip
  have hcut : (s.drop skip).length < 2 := by
    rw [List.length_drop]
    omega
  obtain ⟨e, src₂, hread₂, -⟩ := h₁.readFull_of_lt hcut
  simp only [read, hread₁, hread₂]

/-- The length is there. The payload comes from what is left behind it, and if the error has
come with its last byte there is nothing left but errors. -/
theorem read_of_length (h : Failing s o.conn.src) (hlen : skip + 2 ≤ s.length) :
    ∃ src, Failing (s.drop (skip + 2)) src ∧
      (o.read k skip).1.2 = (if k < lengthAt s skip then (Go.read k src).2.1
        else (readFull (lengthAt s skip) src).2.1) ∧
      (o.readErrs k skip ≠ [] → s.length = skip + 2 ∧ Dead src ∨
        (if k < lengthAt s skip then (Go.read k src).2.1
          else readLoopErr (lengthAt s skip) src) ≠ none) := by
  have hdrop : (s.drop skip).length = s.length - skip := List.length_drop
  obtain ⟨src₁, hread₁, h₁, herr₁⟩ := h.readFull_of_le (show skip ≤ s.length by omega)
  obtain ⟨src₂, hread₂, h₂, herr₂⟩ := h₁.readFull_of_le (show 2 ≤ (s.drop skip).length by omega)
  have hbytes : uint16 (((s.drop skip).take 2).getD 0 0) (((s.drop skip).take 2).getD 1 0) =
      lengthAt s skip := by
    simp [lengthAt, List.getD_eq_getElem?_getD, List.getElem?_drop]
  refine ⟨src₂, by rwa [List.drop_drop] at h₂, ?_, fun herrs => ?_⟩
  · simp only [read, hread₁, hread₂, hbytes]
    split
    · cases (Go.read k src₂).2.1 with
      | none => rfl
      | some e => rfl
    · rfl
  · by_cases hquiet₂ : readLoopErr 2 src₁ = none
    · have hquiet₁ : readLoopErr skip o.conn.src = none := by
        by_contra hne
        have := (herr₁ hne).1
        omega
      refine .inr fun hquiet => herrs ?_
      simp only [readErrs, hread₁, hread₂, hbytes, hquiet₁, hquiet₂, Option.toList_none,
        List.nil_append]
      split
      · next hk => rw [← Option.toList_none, ← hquiet, if_pos hk]
      · next hk => rw [← Option.toList_none, ← hquiet, if_neg hk]
    · obtain ⟨hend, hdead⟩ := herr₂ hquiet₂
      exact .inl ⟨by omega, hdead⟩

/-- Where in a record the stream ends decides whether its error is returned. -/
theorem read_err_iff (h : Failing s o.conn.src) (herrs : o.readErrs k skip ≠ []) :
    (o.read k skip).1.2 ≠ none ↔ ¬ LostRecord s skip k := by
  rcases Nat.lt_or_ge s.length skip with hshort | hskip
  · exact iff_of_true (read_of_short h hshort) (fun hlost => Nat.not_le.mpr hshort hlost.1)
  rcases Nat.lt_or_ge s.length (skip + 2) with hcut | hlen
  · exact iff_of_false (fun hne => hne (read_of_cut h hskip hcut))
      (fun hlost => hlost ⟨hskip, .inl hcut⟩)
  obtain ⟨src, hsrc, hresult, herr⟩ := read_of_length (k := k) h hlen
  have herr := herr herrs
  have hdrop : (s.drop (skip + 2)).length = s.length - (skip + 2) := List.length_drop
  rw [hresult]
  by_cases hk : k < lengthAt s skip
  · -- one `Read` of the connection, whose error is returned
    rw [if_pos hk] at herr ⊢
    refine iff_of_true ?_ (fun hlost => ?_)
    · rcases herr with ⟨-, hdead⟩ | herr
      · obtain ⟨e, hread, -⟩ := hdead.read k
        rw [hread]
        exact Option.some_ne_none e
      · exact herr
    · rcases hlost.2 with hlt | ⟨-, hle⟩
      · omega
      · omega
  · rw [if_neg hk] at herr ⊢
    rcases Nat.lt_or_ge (s.drop (skip + 2)).length (lengthAt s skip) with hlt | hpayload
    · obtain ⟨e, src', hread, -⟩ := hsrc.readFull_of_lt hlt
      rw [hread]
      refine iff_of_true (Option.some_ne_none e) (fun hlost => ?_)
      rcases hlost.2 with hlt | ⟨heq, -⟩
      · omega
      · omega
    · -- the payload is there, so the error came with its last byte or with the length's
      obtain ⟨src', hread, -, herr'⟩ := hsrc.readFull_of_le hpayload
      rw [hread]
      refine iff_of_false (fun hne => hne rfl) (fun hlost => hlost ⟨hskip, .inr ⟨?_, ?_⟩⟩)
      · rcases herr with ⟨hend, -⟩ | herr
        · omega
        · have := (herr' herr).1
          omega
      · exact Nat.le_of_not_lt hk

/-- The same inside a payload begun earlier. -/
theorem Read_err_iff (h : Failing s o.conn.src) (herrs : o.connErrs k ≠ []) :
    (o.Read k).1.2 ≠ none ↔ ¬ o.Lost k := by
  by_cases hremain : 0 < o.remain
  · set length := if k < o.remain then k else o.remain with hlength
    have hmin : length = min k o.remain := by
      rw [hlength]
      split <;> omega
    have hresult : (o.Read k).1.2 = (readFull length o.conn.src).2.1 := by
      simp only [Read, hremain, if_true, ← hlength]
    rw [hresult, Lost, if_pos hremain, left_eq h, ← hmin]
    rw [connErrs, if_pos hremain, ← hlength, ne_eq, Option.toList_eq_nil_iff] at herrs
    by_cases hle : length ≤ s.length
    · obtain ⟨src, hread, -, herr⟩ := h.readFull_of_le hle
      rw [hread]
      exact iff_of_false (fun h => h rfl) (fun hlost => hlost (herr herrs).1.symm)
    · obtain ⟨e, src, hread, -⟩ := h.readFull_of_lt (Nat.lt_of_not_le hle)
      rw [hread]
      exact iff_of_true (Option.some_ne_none e) (by omega)
  · rw [Lost, if_neg hremain, left_eq h]
    rw [connErrs, if_neg hremain] at herrs
    rw [Read, if_neg hremain]
    cases hfirst : o.firstResponse with
    | true =>
      rw [hfirst] at herrs
      exact read_err_iff (o := { o with firstResponse := false }) h herrs
    | false =>
      rw [hfirst] at herrs
      exact read_err_iff h herrs

end Read

/-! ### Runs -/

section Runs

variable {o : TLSObfs}

theorem failing_read {s : List Byte} (h : Failing s o.conn.src) (k skip : Nat) :
    ∃ s', Failing s' (o.read k skip).2.conn.src := by
  obtain ⟨s₁, h₁⟩ := h.readFull skip
  obtain ⟨s₂, h₂⟩ := h₁.readFull 2
  unfold read
  dsimp only
  split
  · exact ⟨s₁, h₁⟩
  split
  · exact ⟨s₂, h₂⟩
  split
  · obtain ⟨s₃, h₃⟩ := h₂.read k
    split
    · exact ⟨s₃, h₃⟩
    · exact ⟨s₃, h₃⟩
  · exact h₂.readFull _

/-- A transport that fails stays one. -/
theorem failing_Read {s : List Byte} (h : Failing s o.conn.src) (k : Nat) :
    ∃ s', Failing s' (o.Read k).2.conn.src := by
  unfold Read
  split
  · exact h.readFull _
  split
  · exact failing_read (o := { o with firstResponse := false }) h k 105
  · exact failing_read h k 3

theorem failing_reads {s : List Byte} (h : Failing s o.conn.src) (ks : List Nat) :
    ∃ s', Failing s' (o.reads ks).2.conn.src := by
  induction ks generalizing o s with
  | nil => exact ⟨s, h⟩
  | cons k ks ih =>
    obtain ⟨s', h'⟩ := failing_Read h k
    exact ih h'

end Runs

end TLSObfs

/-- **When `Read` passes a failure on.** For every stream of the server that is cut off or
fails after any number of bytes, in every way to deliver it, and for every run of `Read`
calls: a call during which the connection reports an error returns one, exactly if the
error is not lost. It is lost where the stream ends behind the bytes to skip and before a
whole length; and, if it comes together with the last byte, where this byte is also the
last that `io.ReadFull` asks for. -/
theorem reads_err_iff {s : List Byte} {pieces : List Piece} (h : Failing s pieces)
    (server : List Byte) (wire : Wire) (ks : List Nat) (k : Nat) :
    let o := ((TLSObfs.new ⟨pieces, wire⟩ server).reads ks).2
    o.connErrs k ≠ [] → ((o.Read k).1.2 ≠ none ↔ ¬ o.Lost k) := by
  intro o herrs
  obtain ⟨s', h'⟩ := TLSObfs.failing_reads (o := .new ⟨pieces, wire⟩ server) h ks
  exact TLSObfs.Read_err_iff h' herrs

/-- A payload of five bytes, cut off after the second. -/
theorem reads_err_in_payload :
    let s : List Byte := List.replicate 105 0 ++ [0, 5, 1, 2]
    let o := TLSObfs.new ⟨[⟨s, none⟩], .fresh⟩ []
    Failing s [⟨s, none⟩] ∧ o.connErrs 10 = [.eof] ∧ ¬ o.Lost 10 ∧
      (o.Read 10).1 = ([1, 2], some .unexpectedEOF) := by
  intro s o
  have hfails : Failing s [⟨s, none⟩] := by
    have h := Failing.cons s .nil
    rwa [List.append_nil] at h
  have herrs : o.connErrs 10 = [.eof] := by decide +kernel
  have hread : (o.Read 10).1 = ([1, 2], some .unexpectedEOF) := by decide +kernel
  have hiff := reads_err_iff hfails [] .fresh [] 10
  simp only [TLSObfs.reads] at hiff
  refine ⟨hfails, herrs, (hiff ?_).mp ?_, hread⟩
  · rw [herrs]
    exact List.cons_ne_nil _ _
  · rw [hread]
    exact Option.some_ne_none _

/-- The stream ends after the first byte of a length, and the call that meets the end
answers that nothing was read and nothing went wrong. -/
theorem read_hides_eof :
    let s : List Byte := List.replicate 106 0
    let o := TLSObfs.new ⟨[⟨s, none⟩], .fresh⟩ []
    Failing s [⟨s, none⟩] ∧ o.connErrs 10 = [.eof] ∧ (o.Read 10).1 = ([], none) := by
  intro s o
  refine ⟨?_, by decide +kernel, by decide +kernel⟩
  have h := Failing.cons s .nil
  rwa [List.append_nil] at h

end Tun2socks.SimpleObfs
