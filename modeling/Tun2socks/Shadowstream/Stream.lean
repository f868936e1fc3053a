import Tun2socks.Go.Cipher
import Tun2socks.Go.Io

/-!
# Tun2socks.Shadowstream.Stream

Model of `transport/shadowsocks/shadowstream/stream.go`: the `Writer`, the `Reader` and the
`Conn` of Shadowsocks with a stream cipher.

The scratch array `buf` of a `Writer` or `Reader` is written before it is read in every
round of a loop, so only its length is kept (`bufSize`).
-/

namespace Tun2socks.Shadowstream

open Tun2socks.Go

/-- `bufSize`, the length of the scratch array. -/
def bufSize : Nat := 2048

/-! ### Writer -/

/-- `Writer`. -/
structure Writer where
  /-- the embedded `io.Writer` -/
  wire : Wire
  stream : Stream

namespace Writer

/-- `NewWriter`. -/
def new (wire : Wire) (cipher : StreamCipher) : Writer := ⟨wire, cipher.stream⟩

/-- `w.XORKeyStream(buf, src)` and `w.Writer.Write(buf[:len(src)])`: the number and the error
of the `Write`. -/
def encrypt (w : Writer) (src : List Byte) : (Nat × Option Error) × Writer :=
  let x := w.stream.xorKeyStream src
  ((w.wire.count x.1, (w.wire.write x.1).1), ⟨(w.wire.write x.1).2, x.2⟩)

theorem encrypt_count {w : Writer} {src : List Byte} (h : (w.encrypt src).1.2 = none) :
    (w.encrypt src).1.1 = src.length :=
  (Wire.count_of_ok h).trans (w.stream.cipher.length_xor _ _)

/-- The loop of `Writer.Write(p)` at offset `n`. -/
def writeLoop (p : List Byte) (n : Nat) (w : Writer) : (Nat × Option Error) × Writer :=
  if n < p.length then
    let r := w.encrypt ((p.drop n).take bufSize)
    match _h : r.1.2 with
    | some err => ((n + r.1.1, some err), r.2)
    | none => writeLoop p (n + r.1.1) r.2
  else ((n, none), w)
  termination_by p.length - n
  decreasing_by
    have hcount := encrypt_count _h
    have hpos : 0 < bufSize := by decide
    rw [List.length_take, List.length_drop] at hcount
    omega

/-- `Writer.Write(p)`. -/
def write (w : Writer) (p : List Byte) : (Nat × Option Error) × Writer := w.writeLoop p 0

/-- The loop of `Writer.ReadFrom(r)` after `n` bytes. What came with the last read is
written before its error is looked at. -/
def readFromLoop (w : Writer) (src : List Piece) (n : Nat) : (Nat × Option Error) × Writer :=
  let x := Go.read bufSize src
  let r := w.encrypt x.1
  match r.1.2 with
  | some err => ((n + x.1.length, some err), r.2)
  | none =>
    match _h : x.2.1 with
    | some er => ((n + x.1.length, ignoreEOF er), r.2)
    | none => readFromLoop r.2 x.2.2 (n + x.1.length)
  termination_by readerSize src
  decreasing_by exact readerSize_read (by decide) _h

/-- `Writer.ReadFrom(r)`. -/
def readFrom (w : Writer) (src : List Piece) : (Nat × Option Error) × Writer :=
  w.readFromLoop src 0

end Writer

/-! ### Reader -/

/-- `Reader`. -/
structure Reader where
  /-- the embedded `io.Reader` -/
  src : List Piece
  stream : Stream

namespace Reader

/-- `NewReader`. -/
def new (src : List Piece) (cipher : StreamCipher) : Reader := ⟨src, cipher.stream⟩

/-- `Reader.Read(p)` with `len(p) = k`. Bytes that arrive with an error are not returned,
nor is the keystream moved past them. -/
def read (r : Reader) (k : Nat) : (List Byte × Option Error) × Reader :=
  let x := Go.read k r.src
  match x.2.1 with
  | some err => (([], some err), { r with src := x.2.2 })
  | none =>
    let y := r.stream.xorKeyStream x.1
    ((y.1, none), ⟨x.2.2, y.2⟩)

/-- The `if nr > 0` block of `Reader.WriteTo(w)`: the number and the error of the `Write`,
and the stream and `w` afterwards. -/
def pass (s : Stream) (sink : Wire) (data : List Byte) : (Nat × Option Error) × Stream × Wire :=
  if 0 < data.length then
    let y := s.xorKeyStream data
    ((sink.count y.1, (sink.write y.1).1), y.2, (sink.write y.1).2)
  else ((0, none), s, sink)

/-- The loop of `Reader.WriteTo(w)` after `n` bytes. -/
def writeToLoop (r : Reader) (sink : Wire) (n : Nat) : (Nat × Option Error) × Reader × Wire :=
  let x := Go.read bufSize r.src
  let y := pass r.stream sink x.1
  match y.1.2 with
  | some ew => ((n + y.1.1, some ew), ⟨x.2.2, y.2.1⟩, y.2.2)
  | none =>
    match _h : x.2.1 with
    | some er => ((n + y.1.1, ignoreEOF er), ⟨x.2.2, y.2.1⟩, y.2.2)
    | none => writeToLoop ⟨x.2.2, y.2.1⟩ y.2.2 (n + y.1.1)
  termination_by readerSize r.src
  decreasing_by exact readerSize_read (by decide) _h

/-- `Reader.WriteTo(w)`. -/
def writeTo (r : Reader) (sink : Wire) : (Nat × Option Error) × Reader × Wire :=
  r.writeToLoop sink 0

end Reader

/-! ### Cipher and Conn -/

/-- The `Cipher` interface. -/
structure Cipher where
  ivSize : Nat
  encrypter : List Byte → StreamCipher
  decrypter : List Byte → StreamCipher

/-- The two ends of a cipher fit together, whatever the IV. -/
def Cipher.Correct (s : Cipher) : Prop :=
  ∀ iv m : List Byte, iv.length = s.ivSize →
    (s.decrypter iv).xor [] ((s.encrypter iv).xor [] m) = m

/-- `Conn`. The `net.Conn` it wraps is `conn` until a `Reader` or a `Writer` has been put on
it; a nil IV is empty. -/
structure Conn where
  ciph : Cipher
  conn : Go.Conn
  r : Option Reader
  w : Option Writer
  readIV : List Byte
  writeIV : List Byte

namespace Conn

/-- `NewConn`. -/
def new (conn : Go.Conn) (ciph : Cipher) : Conn := ⟨ciph, conn, none, none, [], []⟩

/-- `rand.Read(iv)`, with `rand i` the `i`-th byte it gives. -/
def newIV (rand : Nat → Byte) (ciph : Cipher) : List Byte := (List.range ciph.ivSize).map rand

/-- `ObtainWriteIV`. -/
def obtainWriteIV (rand : Nat → Byte) (c : Conn) : List Byte × Conn :=
  if c.writeIV.length = c.ciph.ivSize then (c.writeIV, c)
  else
    let iv := newIV rand c.ciph
    (iv, { c with writeIV := iv })

/-- `initWriter`, with the error it returns. -/
def initWriter (rand : Nat → Byte) (c : Conn) : Except Error Writer × Conn :=
  let x := c.obtainWriteIV rand
  let sent := x.2.conn.wire.write x.1
  let c := { x.2 with conn.wire := sent.2 }
  match sent.1 with
  | some err => (.error err, c)
  | none =>
    let w := Writer.new c.conn.wire (c.ciph.encrypter x.1)
    (.ok w, { c with w := some w })

/-- The `if c.w == nil { initWriter }` that `Write` and `ReadFrom` begin with. -/
def writer (rand : Nat → Byte) (c : Conn) : Except Error Writer × Conn :=
  match c.w with
  | some w => (.ok w, c)
  | none => c.initWriter rand

/-- `Conn.Write(b)`. -/
def write (rand : Nat → Byte) (c : Conn) (b : List Byte) : (Nat × Option Error) × Conn :=
  match c.writer rand with
  | (.error err, c) => ((0, some err), c)
  | (.ok w, c) => ((w.write b).1, { c with w := some (w.write b).2 })

/-- `Conn.ReadFrom(r)`. -/
def readFrom (rand : Nat → Byte) (c : Conn) (src : List Piece) : (Nat × Option Error) × Conn :=
  match c.writer rand with
  | (.error err, c) => ((0, some err), c)
  | (.ok w, c) => ((w.readFrom src).1, { c with w := some (w.readFrom src).2 })

/-- The bytes the connection has handed to the transport. -/
def sent (c : Conn) : List Byte :=
  match c.w with
  | some w => w.wire.sent
  | none => c.conn.wire.sent

/-- `ObtainReadIV`. -/
def obtainReadIV (c : Conn) : Except Error (List Byte) × Conn :=
  if c.readIV.length = c.ciph.ivSize then (.ok c.readIV, c)
  else
    let x := readFull c.ciph.ivSize c.conn.src
    let c := { c with conn.src := x.2.2 }
    match x.2.1 with
    | some err => (.error err, c)
    | none => (.ok x.1, { c with readIV := x.1 })

/-- `initReader`, with the error it returns. -/
def initReader (c : Conn) : Except Error Reader × Conn :=
  match c.obtainReadIV with
  | (.error err, c) => (.error err, c)
  | (.ok iv, c) =>
    let r := Reader.new c.conn.src (c.ciph.decrypter iv)
    (.ok r, { c with r := some r })

/-- The `if c.r == nil { initReader }` that `Read` and `WriteTo` begin with. -/
def reader (c : Conn) : Except Error Reader × Conn :=
  match c.r with
  | some r => (.ok r, c)
  | none => c.initReader

/-- `Conn.Read(b)` with `len(b) = k`. -/
def read (c : Conn) (k : Nat) : (List Byte × Option Error) × Conn :=
  match c.reader with
  | (.error err, c) => (([], some err), c)
  | (.ok r, c) => ((r.read k).1, { c with r := some (r.read k).2 })

/-- `Conn.WriteTo(w)`: what it returns, and the connection and `w` afterwards. -/
def writeTo (c : Conn) (sink : Wire) : (Nat × Option Error) × Conn × Wire :=
  match c.reader with
  | (.error err, c) => ((0, some err), c, sink)
  | (.ok r, c) =>
    ((r.writeTo sink).1, { c with r := some (r.writeTo sink).2.1 }, (r.writeTo sink).2.2)

end Conn

theorem newIV_length (rand : Nat → Byte) (s : Cipher) : (Conn.newIV rand s).length = s.ivSize := by
  simp [Conn.newIV]

end Tun2socks.Shadowstream
