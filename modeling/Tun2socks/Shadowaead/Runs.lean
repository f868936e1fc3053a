import Tun2socks.Shadowaead.Stream

/-!
# Tun2socks.Shadowaead.Runs

Runs of calls on one `Writer` and on one `Reader`.

`Writer.run_induction` and `Reader.run_induction` say once what a run can do to
the two sides, whatever the transport, the source and the sinks answer and
however often the caller goes on after an error. A property that one `Seal` with
its increment and one write to the transport keep holds along every run of a
writer; a property that one `Open` with its increment keeps, and that does not
look at the buffer, holds along every run of a reader.
-/

namespace Tun2socks.Shadowaead

open Tun2socks.Go

/-! ### Writer -/

/-- A call on a `Writer`. -/
inductive WriterCall
  | write (p : List Byte)
  | readFrom (src : List Piece)
  deriving DecidableEq, Repr

namespace Writer

/-- The writer after a call, whatever the call returned. -/
def call (w : Writer) : WriterCall → Writer
  | .write p => (w.write p).2.2
  | .readFrom src => (w.readFrom src 0).2.2

/-- The number of bytes a call reports. -/
def consumed (w : Writer) : WriterCall → Nat
  | .write p => (w.write p).1
  | .readFrom src => (w.readFrom src 0).1

/-- A run of calls. -/
def run (w : Writer) (cs : List WriterCall) : Writer := cs.foldl call w

@[simp] theorem run_nil (w : Writer) : w.run [] = w := rfl
@[simp] theorem run_cons (w : Writer) (c : WriterCall) (cs : List WriterCall) :
    w.run (c :: cs) = (w.call c).run cs := rfl
section Induction

variable {P : Writer → Prop} (hseal : ∀ w m, P w → P (w.seal m).2.increment)
  (hsend : ∀ w b, P w → P (w.send b).2)

include hseal hsend

theorem writeRecord_induction {w : Writer} (payload : List Byte) (h : P w) :
    P (w.writeRecord payload).2 :=
  hsend _ _ (hseal _ _ (hseal _ _ h))

theorem writeLoop_induction (p : List Byte) (n : Nat) (w : Writer) (h : P w) :
    P (writeLoop p n w).2.2 := by
  induction n, w using writeLoop.induct (p := p) with
  | case1 n w hn nr r err herr =>
    rw [writeLoop, if_pos hn]
    simp only [r, nr] at herr
    simp only [herr]
    exact writeRecord_induction hseal hsend _ h
  | case2 n w hn nr r herr ih =>
    rw [writeLoop, if_pos hn]
    simp only [r, nr] at herr ih
    simp only [herr]
    exact ih (writeRecord_induction hseal hsend _ h)
  | case3 n w hn => rwa [writeLoop, if_neg hn]

theorem write_induction (p : List Byte) {w : Writer} (h : P w) : P (w.write p).2.2 := by
  rw [write]
  split
  · exact hsend _ _ (hseal _ _ h)
  · exact writeLoop_induction hseal hsend p 0 w h

theorem readFrom_induction (w : Writer) (src : List Piece) (n : Nat) (h : P w) :
    P (w.readFrom src n).2.2 := by
  induction w, src, n using readFrom.induct with
  | case1 w src n x r err herr =>
    rw [readFrom_of_failed herr]
    exact writeRecord_induction hseal hsend _ h
  | case2 w src n x r herr er her =>
    rw [readFrom_of_end herr her]
    exact writeRecord_induction hseal hsend _ h
  | case3 w src n x r herr her ih =>
    rw [readFrom_of_more herr her]
    exact ih (writeRecord_induction hseal hsend _ h)

/-- A property that one `Seal` with its increment and one write to the transport
keep holds after every run of calls. -/
theorem run_induction (cs : List WriterCall) {w : Writer} (h : P w) : P (w.run cs) := by
  induction cs generalizing w with
  | nil => exact h
  | cons c cs ih =>
    cases c with
    | write p => exact ih (write_induction hseal hsend p h)
    | readFrom src => exact ih (readFrom_induction hseal hsend w src 0 h)

end Induction

end Writer

/-! ### Reader -/

/-- A call on a `Reader`: `Read` with a buffer of `len` bytes, or `WriteTo` into a
sink, observed after `fuel` steps of its loops. -/
inductive ReaderCall
  | read (len : Nat)
  | writeTo (s : Sink) (fuel : Nat)
  deriving DecidableEq, Repr

/-- What a call has delivered, and what it returned: `none` while a `WriteTo` is
still running. -/
structure Outcome where
  data : List Byte
  ret : Option (Option Error)
  deriving DecidableEq, Repr

namespace Reader

/-- One call on the reader. -/
def call (r : Reader) : ReaderCall → Outcome × Reader
  | .read len =>
    let x := r.Read len
    (⟨x.1.1, some x.1.2⟩, x.2)
  | .writeTo s fuel =>
    let x := r.writeTo s fuel
    (⟨x.taken, x.ret⟩, x.reader)

/-- The outcomes of a run of calls, in order, and the reader after it. -/
def run (r : Reader) : List ReaderCall → List Outcome × Reader
  | [] => ([], r)
  | c :: cs =>
    let x := r.call c
    let y := run x.2 cs
    (x.1 :: y.1, y.2)

theorem run_eq_calls (r : Reader) (cs : List ReaderCall) : r.run cs = calls call r cs := by
  induction cs generalizing r with
  | nil => rfl
  | cons c cs ih => rw [run, calls, ih]

section Induction

variable {P : Reader → Prop} (hopen : ∀ r k, P r → P (r.openFull k).2)
  (hbuf : ∀ (r : Reader) b off, P r → P { r with buf := b, off := off })

include hopen

theorem read_induction {r : Reader} (cap : Nat) (h : P r) : P (r.read cap).2 := by
  have h1 := hopen r (2 + r.aead.overhead) h
  rw [read]
  split
  · exact h
  · rcases hx : r.openFull (2 + r.aead.overhead) with ⟨_ | p, r'⟩
    · rw [hx] at h1
      exact h1
    · rw [hx] at h1
      have h2 := hopen r' (payloadSize p + r.aead.overhead) h1
      dsimp only
      split
      · exact h1
      · split
        · exact h1
        · rcases hy : r'.openFull (payloadSize p + r.aead.overhead) with ⟨_ | q, r''⟩ <;>
            · rw [hy] at h2
              exact h2

include hbuf

theorem Read_induction {r : Reader} (len : Nat) (h : P r) : P (r.Read len).2 := by
  have hconsume : ∀ r : Reader, P r → P (r.consume len).2 := by
    intro r h
    rw [consume]
    dsimp only
    split
    · exact h
    · exact hbuf r _ _ h
  rw [Read]
  split
  · split
    · have h1 := read_induction hopen len h
      rcases hx : r.read len with ⟨_ | d, r'⟩ <;>
        · rw [hx] at h1
          exact h1
    · have h1 := read_induction hopen bufCap h
      rcases hx : r.read bufCap with ⟨_ | d, r'⟩
      · rw [hx] at h1
        exact h1
      · rw [hx] at h1
        exact hconsume _ (hbuf r' _ _ h1)
  · exact hconsume r h

theorem writeToLoop_induction (fuel : Nat) (s : Sink) (taken : List Byte) {r : Reader} (h : P r) :
    P (writeToLoop fuel s taken r).reader := by
  induction fuel generalizing s taken r with
  | zero => exact h
  | succ fuel ih =>
    rw [writeToLoop]
    dsimp only
    split
    · split
      · exact hbuf r _ _ h
      · exact ih _ _ (hbuf r r.buf _ h)
    · have h1 := read_induction hopen bufCap h
      rcases hx : r.read bufCap with ⟨_ | d, r'⟩
      · rw [hx] at h1
        exact h1
      · rw [hx] at h1
        exact ih _ _ (hbuf r' _ _ h1)

/-- A property that one `Open` with its increment keeps, and that does not look at
the buffer, holds after every run of calls. -/
theorem run_induction (cs : List ReaderCall) {r : Reader} (h : P r) : P (r.run cs).2 := by
  induction cs generalizing r with
  | nil => exact h
  | cons c cs ih =>
    rw [run]
    apply ih
    cases c with
    | read len => exact Read_induction hopen hbuf len h
    | writeTo s fuel =>
      rw [call, writeTo]
      dsimp only
      split
      · exact writeToLoop_induction hopen hbuf fuel s [] (hbuf r _ _ h)
      · exact writeToLoop_induction hopen hbuf fuel s [] h

end Induction

end Reader

/-! ### Conn -/

namespace Conn

/-- The connection after a sequence of `Write` calls. -/
def writes (rand : Nat → Byte) (c : Conn) (ps : List (List Byte)) : Conn :=
  ps.foldl (fun c p => (c.write rand p).2.2) c

/-- One call on the receiving side of the connection. -/
def call (c : Conn) : ReaderCall → Outcome × Conn
  | .read len =>
    let x := c.read len
    (⟨x.1.1, some x.1.2⟩, x.2)
  | .writeTo s fuel =>
    let x := c.writeTo s fuel
    (⟨x.1.1, x.1.2⟩, x.2)

/-- The outcomes of a run of `Read` and `WriteTo` calls, in order, and the connection
after it. -/
def run (c : Conn) : List ReaderCall → List Outcome × Conn
  | [] => ([], c)
  | rc :: cs =>
    let x := c.call rc
    let y := run x.2 cs
    (x.1 :: y.1, y.2)

theorem run_eq_calls (c : Conn) (cs : List ReaderCall) : c.run cs = calls call c cs := by
  induction cs generalizing c with
  | nil => rfl
  | cons rc cs ih => rw [run, calls, ih]

end Conn

/-- Everything a run has delivered. -/
def delivered (os : List Outcome) : List Byte := os.flatMap Outcome.data

end Tun2socks.Shadowaead
