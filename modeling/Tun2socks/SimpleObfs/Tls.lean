import Mathlib.Data.Vector.Basic
import Tun2socks.Go.Io

/-!
# Tun2socks.SimpleObfs.Tls

`TLSObfs`, the connection of simple-obfs that dresses its traffic as TLS.

The first chunk written travels as the session ticket of a `ClientHello`, every other
as an application data record. In the other direction the server's first record comes
behind 105 bytes of its handshake, the others behind the three bytes of a record header.

The clock and the random generator are inputs (`Entropy`); the pooled buffers are
values.
-/

namespace Tun2socks.SimpleObfs

open Tun2socks.Go

/-- `chunkSize`. -/
def chunkSize : Nat := 2 ^ 14

/-- What the clock and the random generator give to a `ClientHello`. -/
structure Entropy where
  unixTime : UInt32
  random : List.Vector Byte 28
  sessionID : List.Vector Byte 32

/-- `TLSObfs`. -/
structure TLSObfs where
  conn : Conn
  server : List Byte
  remain : Nat
  firstRequest : Bool
  firstResponse : Bool

/-- `binary.Write(buf, binary.BigEndian, n)` for a `uint32`. -/
def putUint32 (n : UInt32) : List Byte := putUint16 (n.toNat / 65536) ++ putUint16 n.toNat

/-- The cipher suites of the hello message. -/
def cipherSuites : List Byte := [
  0xc0, 0x2c, 0xc0, 0x30, 0x00, 0x9f, 0xcc, 0xa9, 0xcc, 0xa8, 0xcc, 0xaa, 0xc0, 0x2b, 0xc0, 0x2f,
  0x00, 0x9e, 0xc0, 0x24, 0xc0, 0x28, 0x00, 0x6b, 0xc0, 0x23, 0xc0, 0x27, 0x00, 0x67, 0xc0, 0x0a,
  0xc0, 0x14, 0x00, 0x39, 0xc0, 0x09, 0xc0, 0x13, 0x00, 0x33, 0x00, 0x9d, 0x00, 0x9c, 0x00, 0x3d,
  0x00, 0x3c, 0x00, 0x35, 0x00, 0x2f, 0x00, 0xff]

/-- The extension `ec_point`. -/
def ecPoint : List Byte := [0x00, 0x0b, 0x00, 0x04, 0x03, 0x01, 0x00, 0x02]

/-- The extension `groups`. -/
def groups : List Byte := [
  0x00, 0x0a, 0x00, 0x0a, 0x00, 0x08, 0x00, 0x1d, 0x00, 0x17, 0x00, 0x19, 0x00, 0x18]

/-- The extension `signature`. -/
def signature : List Byte := [
  0x00, 0x0d, 0x00, 0x20, 0x00, 0x1e, 0x06, 0x01, 0x06, 0x02, 0x06, 0x03, 0x05,
  0x01, 0x05, 0x02, 0x05, 0x03, 0x04, 0x01, 0x04, 0x02, 0x04, 0x03, 0x03, 0x01,
  0x03, 0x02, 0x03, 0x03, 0x02, 0x01, 0x02, 0x02, 0x02, 0x03]

/-- The extension `encrypt then mac`. -/
def encryptThenMac : List Byte := [0x00, 0x16, 0x00, 0x00]

/-- The extension `extended master secret`. -/
def extendedMasterSecret : List Byte := [0x00, 0x17, 0x00, 0x00]

/-- `makeClientHelloMsg`. Every length is a sum with a constant, cut to 16 bits. -/
def makeClientHelloMsg (e : Entropy) (data server : List Byte) : List Byte :=
  -- handshake, TLS 1.0 version, length
  [22] ++ [0x03, 0x01] ++ putUint16 (212 + data.length + server.length) ++
  -- clientHello, length, TLS 1.2 version
  [1] ++ [0] ++ putUint16 (208 + data.length + server.length) ++ [0x03, 0x03] ++
  -- random with timestamp, sid len, sid
  putUint32 e.unixTime ++ e.random.toList ++ [32] ++ e.sessionID.toList ++
  -- cipher suites
  [0x00, 0x38] ++ cipherSuites ++
  -- compression
  [0x01, 0x00] ++
  -- extension length
  putUint16 (79 + data.length + server.length) ++
  -- session ticket
  [0x00, 0x23] ++ putUint16 data.length ++ data ++
  -- server name
  [0x00, 0x00] ++ putUint16 (server.length + 5) ++ putUint16 (server.length + 3) ++ [0] ++
  putUint16 server.length ++ server ++
  ecPoint ++ groups ++ signature ++ encryptThenMac ++ extendedMasterSecret

/-- The record that carries a chunk after the first. -/
def applicationData (b : List Byte) : List Byte := [0x17, 0x03, 0x03] ++ putUint16 b.length ++ b

namespace TLSObfs

/-- `NewTLSObfs`. -/
def new (conn : Conn) (server : List Byte) : TLSObfs := ⟨conn, server, 0, true, true⟩

/-! ### Writing -/

/-- `to.Conn.Write(msg)`. -/
def send (o : TLSObfs) (msg : List Byte) : Option Error × TLSObfs :=
  let r := o.conn.wire.write msg
  (r.1, { o with conn.wire := r.2 })

/-- `TLSObfs.write`: the number and the error it returns. -/
def write (e : Entropy) (o : TLSObfs) (b : List Byte) : (Nat × Option Error) × TLSObfs :=
  if o.firstRequest then
    let r := o.send (makeClientHelloMsg e b o.server)
    ((b.length, r.1), { r.2 with firstRequest := false })
  else
    let r := o.send (applicationData b)
    ((b.length, r.1), r.2)

/-- The loop of `TLSObfs.Write` over its chunks; `length` is what it returns at the end. -/
def writeLoop (e : Entropy) (length : Nat) :
    List (List Byte) → TLSObfs → (Nat × Option Error) × TLSObfs
  | [], o => ((length, none), o)
  | c :: cs, o =>
    match o.write e c with
    | ((n, some err), o) => ((n, some err), o)
    | ((_, none), o) => writeLoop e length cs o

/-- `TLSObfs.Write`. -/
def Write (e : Entropy) (o : TLSObfs) (b : List Byte) : (Nat × Option Error) × TLSObfs :=
  writeLoop e b.length (chunks chunkSize b) o

/-! ### Reading -/

/-- The connection after reads that have left `src`. -/
def leaving (o : TLSObfs) (src : List Piece) : TLSObfs := { o with conn.src := src }

/-- `TLSObfs.read(b, discardN)` with `len(b) = k`: the bytes put into `b`, the error. -/
def read (o : TLSObfs) (k discardN : Nat) : (List Byte × Option Error) × TLSObfs :=
  let skipped := readFull discardN o.conn.src
  match skipped.2.1 with
  | some err => (([], some err), o.leaving skipped.2.2)
  | none =>
    let sizeBuf := readFull 2 skipped.2.2
    match sizeBuf.2.1 with
    | some _ => (([], none), o.leaving sizeBuf.2.2)
    | none =>
      let length := uint16 (sizeBuf.1.getD 0 0) (sizeBuf.1.getD 1 0)
      if k < length then
        let r := Go.read k sizeBuf.2.2
        match r.2.1 with
        | some err => ((r.1, some err), o.leaving r.2.2)
        | none => ((r.1, none), { o.leaving r.2.2 with remain := length - r.1.length })
      else
        let r := readFull length sizeBuf.2.2
        ((r.1, r.2.1), o.leaving r.2.2)

/-- `TLSObfs.Read(b)` with `len(b) = k`: the bytes put into `b`, the error. -/
def Read (o : TLSObfs) (k : Nat) : (List Byte × Option Error) × TLSObfs :=
  if 0 < o.remain then
    let length := if k < o.remain then k else o.remain
    let r := readFull length o.conn.src
    ((r.1, r.2.1), { o.leaving r.2.2 with remain := o.remain - r.1.length })
  else if o.firstResponse then
    { o with firstResponse := false }.read k 105
  else o.read k 3

end TLSObfs

end Tun2socks.SimpleObfs
