import Tun2socks.Go.Io

/-!
# Tun2socks.Shadowaead.Stream

The Shadowsocks AEAD stream (`transport/shadowsocks/shadowaead/stream.go` and
`cipher.go`).

The AEAD itself is code outside the repository and a parameter here (`AEAD`,
`Cipher`): the structure carries the length contract of Go's `cipher.AEAD` and the
two bounds the package's fixed buffers rely on. `Writer` and `Reader` carry one
history field each (`seals`, `opens`) that records the `Seal` and `Open` calls
made so far; no modelled function reads it.

`Read` is the exported method and `read` the unexported one, as in the source.
Buffers are modelled by the bytes that are live in them. Capacities are kept,
because `read` re-slices its argument past its length: a slice expression beyond
the capacity is `Error.panic`.
-/

namespace Tun2socks.Shadowaead

open Tun2socks.Go

/-- The maximum size of payload in bytes, `16*1024 - 1`. -/
def payloadSizeMask : Nat := 0x3FFF

/-- `bufSize`, at least `2 + overhead + payloadSizeMask + overhead`. -/
def bufSize : Nat := 17 * 1024

/-- The capacity of the slice `buffer.Get(bufSize)` returns: the allocator hands
out powers of two. -/
def bufCap : Nat := 32 * 1024

/-- `ErrZeroChunk`. -/
def errZeroChunk : Error := .new "zero chunk"

/-- A `cipher.AEAD` under one key, with no additional data. -/
structure AEAD where
  nonceSize : Nat
  overhead : Nat
  /-- `Seal(nil, nonce, plaintext, nil)` -/
  «seal» : List Byte → List Byte → List Byte
  /-- `Open(nil, nonce, ciphertext, nil)` -/
  «open» : List Byte → List Byte → Except Error (List Byte)
  seal_length : ∀ n m, («seal» n m).length = m.length + overhead
  open_length : ∀ n c m, «open» n c = .ok m → m.length + overhead = c.length
  /-- the nonce is a slice of a `[32]byte` -/
  nonceSize_le : nonceSize ≤ 32
  overhead_le : 2 + overhead + payloadSizeMask + overhead ≤ bufSize

/-- What is sealed under a nonce opens under it. -/
def AEAD.Correct (A : AEAD) : Prop := ∀ n m, A.open n (A.seal n m) = .ok m

/-- The text of the error a failed `Open` of AES-GCM reports. -/
def errOpen : Error := .new "cipher: message authentication failed"

/-- The sixteen bytes `AEAD.tagged` authenticates with. -/
def nonceTag (n : List Byte) : List Byte := (n ++ List.replicate 16 0).take 16

theorem nonceTag_length (n : List Byte) : (nonceTag n).length = 16 := by
  simp [nonceTag]

/-- The contract can be met: nothing is hidden, and the tag repeats the nonce. -/
def AEAD.tagged : AEAD where
  nonceSize := 12
  overhead := 16
  «seal» n m := m ++ nonceTag n
  «open» n c :=
    if 16 ≤ c.length ∧ c.drop (c.length - 16) = nonceTag n then .ok (c.take (c.length - 16))
    else .error errOpen
  seal_length n m := by rw [List.length_append, nonceTag_length]
  open_length n c m h := by
    split at h
    · rename_i hc
      obtain rfl := Except.ok.inj h
      rw [List.length_take]
      omega
    · cases h
  nonceSize_le := by decide
  overhead_le := by decide

theorem AEAD.tagged_correct : AEAD.tagged.Correct := by
  intro n m
  simp [AEAD.tagged, nonceTag_length]

/-- Increment the little-endian encoded unsigned integer `b`, wrapping around on
overflow. -/
def increment : List Byte → List Byte
  | [] => []
  | b :: bs => if b + 1 ≠ 0 then (b + 1) :: bs else (b + 1) :: increment bs

/-- `increment(nonce)` for `nonce := x.nonce[:x.NonceSize()]`, seen on the whole
array. -/
def incrementNonce (A : AEAD) (nonce : List Byte) : List Byte :=
  increment (nonce.take A.nonceSize) ++ nonce.drop A.nonceSize

/-- The `[32]byte` of a new `Writer` or `Reader`. -/
def zeroNonce : List Byte := List.replicate 32 0

/-! ### Writer -/

/-- `Writer`, with a history of its `Seal` calls. -/
structure Writer where
  /-- the embedded `io.Writer` -/
  wire : Wire
  aead : AEAD
  nonce : List Byte
  /-- history: nonce and plaintext of every `Seal` call, oldest first -/
  seals : List (List Byte × List Byte)

namespace Writer

/-- `NewWriter`. -/
def new (wire : Wire) (aead : AEAD) : Writer := ⟨wire, aead, zeroNonce, []⟩

/-- `w.Seal(_, nonce, m, nil)`. -/
def «seal» (w : Writer) (m : List Byte) : List Byte × Writer :=
  let nonce := w.nonce.take w.aead.nonceSize
  (w.aead.seal nonce m, { w with seals := w.seals ++ [(nonce, m)] })

/-- `increment(nonce)`. -/
def increment (w : Writer) : Writer := { w with nonce := incrementNonce w.aead w.nonce }

/-- `_, err = w.Writer.Write(buf)`. -/
def send (w : Writer) (buf : List Byte) : Option Error × Writer :=
  let r := w.wire.write buf
  (r.1, { w with wire := r.2 })

/-- The body that the loops of `Write` and `ReadFrom` share: seal the big-endian
payload size, seal the payload, and write both with one call. -/
def writeRecord (w : Writer) (payload : List Byte) : Option Error × Writer :=
  let hdr := w.seal (putUint16 payload.length)
  let w := hdr.2.increment
  let body := w.seal payload
  let w := body.2.increment
  w.send (hdr.1 ++ body.1)

/-- The `nr` the loop of `Write` chooses at offset `n` of `len` bytes. -/
def nextSize (len n : Nat) : Nat :=
  if n + payloadSizeMask > len then len - n else payloadSizeMask

theorem nextSize_pos {len n : Nat} (h : n < len) : 0 < nextSize len n := by
  have : 0 < payloadSizeMask := by decide
  unfold nextSize
  split <;> omega

/-- The loop of `Write`, at offset `n` of `p`. Its post statement `n += nr` also
runs after a failed write. -/
def writeLoop (p : List Byte) (n : Nat) (w : Writer) : Nat × Option Error × Writer :=
  if n < p.length then
    let nr := nextSize p.length n
    let r := w.writeRecord ((p.drop n).take nr)
    match r.1 with
    | some err => (n + nr, some err, r.2)
    | none => writeLoop p (n + nr) r.2
  else (n, none, w)
  termination_by p.length - n
  decreasing_by
    have := nextSize_pos ‹n < p.length›
    omega

/-- `Writer.Write(p)`: encrypts `p` and writes to the embedded `io.Writer`. -/
def write (w : Writer) (p : List Byte) : Nat × Option Error × Writer :=
  if p = [] then
    -- compatible with snell: a size record without a payload record
    let hdr := w.seal [0, 0]
    let w := hdr.2.increment
    let r := w.send hdr.1
    (0, r.1, r.2)
  else writeLoop p 0 w

/-- `Writer.ReadFrom(r)` after `n` bytes: reads from the source until EOF or
error, and seals whatever each read gave, an empty answer too. -/
def readFrom (w : Writer) (src : List Piece) (n : Nat) : Nat × Option Error × Writer :=
  let x := Go.read payloadSizeMask src
  let r := w.writeRecord x.1
  match r.1 with
  | some ew => (n + x.1.length, some ew, r.2)
  | none =>
    match _h : x.2.1 with
    | some er => (n + x.1.length, ignoreEOF er, r.2)
    | none => readFrom r.2 x.2.2 (n + x.1.length)
  termination_by readerSize src
  decreasing_by exact readerSize_read (by decide) _h

section ReadFromEquations

variable {w : Writer} {src : List Piece} {n : Nat}

theorem readFrom_of_failed {ew : Error}
    (hw : (w.writeRecord (Go.read payloadSizeMask src).1).1 = some ew) :
    w.readFrom src n = (n + (Go.read payloadSizeMask src).1.length, some ew,
      (w.writeRecord (Go.read payloadSizeMask src).1).2) := by
  rw [readFrom]
  simp only [hw]

theorem readFrom_of_end {er : Error}
    (hw : (w.writeRecord (Go.read payloadSizeMask src).1).1 = none)
    (her : (Go.read payloadSizeMask src).2.1 = some er) :
    w.readFrom src n = (n + (Go.read payloadSizeMask src).1.length, ignoreEOF er,
      (w.writeRecord (Go.read payloadSizeMask src).1).2) := by
  rw [readFrom]
  simp only [hw]
  split <;> simp_all

theorem readFrom_of_more (hw : (w.writeRecord (Go.read payloadSizeMask src).1).1 = none)
    (her : (Go.read payloadSizeMask src).2.1 = none) :
    w.readFrom src n = (w.writeRecord (Go.read payloadSizeMask src).1).2.readFrom
      (Go.read payloadSizeMask src).2.2 (n + (Go.read payloadSizeMask src).1.length) := by
  rw [readFrom]
  simp only [hw]
  split <;> simp_all

end ReadFromEquations

end Writer

/-! ### Reader -/

/-- `Reader`, with a history of its `Open` calls. -/
structure Reader where
  /-- the embedded `io.Reader` -/
  src : List Piece
  aead : AEAD
  nonce : List Byte
  /-- `r.buf`, `none` for `nil` -/
  buf : Option (List Byte)
  /-- offset to the unconsumed part of `buf` -/
  off : Nat
  /-- history: nonce and ciphertext of every `Open` call, oldest first -/
  opens : List (List Byte × List Byte)

namespace Reader

/-- `NewReader`. -/
def new (src : List Piece) (aead : AEAD) : Reader := ⟨src, aead, zeroNonce, none, 0, []⟩

/-- The body that the size and the payload part of `read` share: `io.ReadFull` of
`k` bytes, `Open` in place, `increment(nonce)`. The result is the buffer after the
plaintext has been written over its beginning. -/
def openFull (r : Reader) (k : Nat) : Except Error (List Byte) × Reader :=
  let p := readFull k r.src
  match p.2.1 with
  | some err => (.error err, { r with src := p.2.2 })
  | none =>
    let nonce := r.nonce.take r.aead.nonceSize
    let r' := { r with
      src := p.2.2
      nonce := incrementNonce r.aead r.nonce
      opens := r.opens ++ [(nonce, p.1)] }
    match r.aead.open nonce p.1 with
    | .error err => (.error err, r')
    | .ok m => (.ok (copy p.1 m), r')

/-- `size := (int(p[0])<<8 + int(p[1])) & payloadSizeMask`. -/
def payloadSize (p : List Byte) : Nat := uint16 (p.getD 0 0) (p.getD 1 0) &&& payloadSizeMask

/-- `Reader.read(p)` with `cap(p) = cap`: read and decrypt a record; the bytes are
`p[:size]`. -/
def read (r : Reader) (cap : Nat) : Except Error (List Byte) × Reader :=
  let tag := r.aead.overhead
  if cap < 2 + tag then (.error .panic, r)
  else
    match r.openFull (2 + tag) with
    | (.error err, r) => (.error err, r)
    | (.ok p, r) =>
      let size := payloadSize p
      if size = 0 then (.error errZeroChunk, r)
      else if cap < size + tag then (.error .panic, r)
      else
        match r.openFull (size + tag) with
        | (.error err, r) => (.error err, r)
        | (.ok p, r) => (.ok (p.take size), r)

/-- `if r.off == len(r.buf)`, the buffer goes back to the pool and `r.buf` is `nil`. -/
def release (r : Reader) : Reader :=
  { r with buf := if r.off = (r.buf.getD []).length then none else r.buf }

/-- The end of `Read`: `n := copy(p, r.buf[r.off:])` with `len(p) = len`. -/
def consume (r : Reader) (len : Nat) : (List Byte × Option Error) × Reader :=
  let b := r.buf.getD []
  if b.length < r.off then (([], some .panic), r)
  else
    let d := (b.drop r.off).take len
    ((d, none), release { r with off := r.off + d.length })

/-- `Reader.Read(p)` with `len(p) = cap(p) = len`: the bytes put into `p` and the
error. -/
def Read (r : Reader) (len : Nat) : (List Byte × Option Error) × Reader :=
  if r.buf = none then
    if payloadSizeMask + r.aead.overhead ≤ len then
      match r.read len with
      | (.error err, r) => (([], some err), r)
      | (.ok d, r) => ((d, none), r)
    else
      match r.read bufCap with
      | (.error err, r) => (([], some err), r)
      | (.ok d, r) => consume { r with buf := some d, off := 0 } len
  else r.consume len

end Reader

/-- A sink for `WriteTo`: for each of its next `Write` calls how many of the bytes
it takes at most, and the error it reports. Once these are used up it takes
everything. -/
abbrev Sink := List (Nat × Option Error)

/-- `w.Write(d)` on a sink: the number of bytes taken, the error, the sink after. -/
def Sink.write (d : List Byte) : Sink → Nat × Option Error × Sink
  | [] => (d.length, none, [])
  | (n, e) :: s => (min n d.length, e, s)

/-- How a `WriteTo` call stands: the bytes its sink has taken, and what it
returned, `none` while it is still running. -/
structure WriteToState where
  taken : List Byte
  ret : Option (Option Error)
  reader : Reader

namespace Reader

/-- The two nested loops of `WriteTo`, for `fuel` steps: a step is one `Write` to
the sink or one record read. -/
def writeToLoop : Nat → Sink → List Byte → Reader → WriteToState
  | 0, _, taken, r => ⟨taken, none, r⟩
  | fuel + 1, s, taken, r =>
    let b := r.buf.getD []
    if r.off < b.length then
      let w := s.write (b.drop r.off)
      let taken := taken ++ (b.drop r.off).take w.1
      let r := { r with off := r.off + w.1 }
      match w.2.1 with
      | some ew => ⟨taken, some (some ew), r.release⟩
      | none => writeToLoop fuel w.2.2 taken r
    else
      match r.read bufCap with
      | (.error er, r) => ⟨taken, some (ignoreEOF er), r⟩
      | (.ok d, r) => writeToLoop fuel s taken { r with buf := some d, off := 0 }

/-- `Reader.WriteTo(w)`, after `fuel` steps of its loops. A new buffer starts with
all of its `bufSize` bytes counted as consumed. -/
def writeTo (r : Reader) (s : Sink) (fuel : Nat) : WriteToState :=
  if r.buf = none then
    writeToLoop fuel s [] { r with buf := some (List.replicate bufSize 0), off := bufSize }
  else writeToLoop fuel s [] r

end Reader

/-! ### Cipher and Conn -/

/-- The `Cipher` interface, as far as a stream uses it. -/
structure Cipher where
  saltSize : Nat
  encrypter : List Byte → Except Error AEAD
  decrypter : List Byte → Except Error AEAD

/-- `metaCipher`: `hkdf secret salt info n` is `hkdfSHA1` into an `n`-byte key. -/
def metaCipher (hkdf : List Byte → List Byte → String → Nat → List Byte)
    (makeAEAD : List Byte → Except Error AEAD) (psk : List Byte) : Cipher where
  saltSize := if psk.length > 16 then psk.length else 16
  encrypter salt := makeAEAD (hkdf psk salt "ss-subkey" psk.length)
  decrypter salt := makeAEAD (hkdf psk salt "ss-subkey" psk.length)

/-- `Conn`. The `net.Conn` it wraps is `src` and `wire` until a `Reader` or a
`Writer` has been put on it. -/
structure Conn where
  ciph : Cipher
  src : List Piece
  wire : Wire
  r : Option Reader
  w : Option Writer

namespace Conn

/-- `NewConn`. -/
def new (c : Go.Conn) (ciph : Cipher) : Conn := ⟨ciph, c.src, c.wire, none, none⟩

/-- `initReader`, with the error it returns. -/
def initReader (c : Conn) : Except Error Reader × Conn :=
  let salt := readFull c.ciph.saltSize c.src
  let c := { c with src := salt.2.2 }
  match salt.2.1 with
  | some err => (.error err, c)
  | none =>
    match c.ciph.decrypter salt.1 with
    | .error err => (.error err, c)
    | .ok aead =>
      let r := Reader.new c.src aead
      (.ok r, { c with r := some r })

/-- The `if c.r == nil { initReader }` that `Read` and `WriteTo` begin with. -/
def reader (c : Conn) : Except Error Reader × Conn :=
  match c.r with
  | some r => (.ok r, c)
  | none => c.initReader

/-- `Conn.Read(b)` with `len(b) = len`. -/
def read (c : Conn) (len : Nat) : (List Byte × Option Error) × Conn :=
  match c.reader with
  | (.error err, c) => (([], some err), c)
  | (.ok r, c) =>
    let x := r.Read len
    (x.1, { c with r := some x.2 })

/-- How a `Conn.WriteTo(w)` stands after `fuel` steps: the bytes taken, what it
returned if it has, and the connection. -/
def writeTo (c : Conn) (s : Sink) (fuel : Nat) :
    (List Byte × Option (Option Error)) × Conn :=
  match c.reader with
  | (.error err, c) => (([], some (some err)), c)
  | (.ok r, c) =>
    let x := r.writeTo s fuel
    ((x.taken, x.ret), { c with r := some x.reader })

/-- `rand.Read(salt)`, with `rand i` the `i`-th byte it gives. -/
def newSalt (rand : Nat → Byte) (ciph : Cipher) : List Byte := (List.range ciph.saltSize).map rand

/-- `initWriter`, with the error it returns. -/
def initWriter (rand : Nat → Byte) (c : Conn) : Except Error Writer × Conn :=
  let salt := newSalt rand c.ciph
  match c.ciph.encrypter salt with
  | .error err => (.error err, c)
  | .ok aead =>
    let sent := c.wire.write salt
    let c := { c with wire := sent.2 }
    match sent.1 with
    | some err => (.error err, c)
    | none =>
      let w := Writer.new c.wire aead
      (.ok w, { c with w := some w })

/-- The `if c.w == nil { initWriter }` that `Write` and `ReadFrom` begin with. -/
def writer (rand : Nat → Byte) (c : Conn) : Except Error Writer × Conn :=
  match c.w with
  | some w => (.ok w, c)
  | none => c.initWriter rand

/-- `Conn.Write(b)`. -/
def write (rand : Nat → Byte) (c : Conn) (b : List Byte) : Nat × Option Error × Conn :=
  match c.writer rand with
  | (.error err, c) => (0, some err, c)
  | (.ok w, c) =>
    let x := w.write b
    (x.1, x.2.1, { c with w := some x.2.2 })

/-- `Conn.ReadFrom(r)`. -/
def readFrom (rand : Nat → Byte) (c : Conn) (src : List Piece) :
    Nat × Option Error × Conn :=
  match c.writer rand with
  | (.error err, c) => (0, some err, c)
  | (.ok w, c) =>
    let x := w.readFrom src 0
    (x.1, x.2.1, { c with w := some x.2.2 })

/-- The bytes the connection has handed to the transport. -/
def sent (c : Conn) : List Byte :=
  match c.w with
  | some w => w.wire.sent
  | none => c.wire.sent

end Conn

end Tun2socks.Shadowaead
