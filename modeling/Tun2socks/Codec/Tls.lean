import Tun2socks.Codec.Decoder

/-!
# Tun2socks.Codec.Tls

The TLS wire format as far as a client's first flight goes: records, and the
`ClientHello` with its extensions. Each decoder follows the length fields and nothing
else, and a part with a length of its own is used up exactly.
-/

namespace Tun2socks.Codec.Tls

open Tun2socks.Go Tun2socks.Codec.Decoder

/-- A record of the record layer. -/
structure Record where
  contentType : Nat
  version : List Byte
  fragment : List Byte
  deriving DecidableEq, Repr

/-- An extension of a hello message. -/
structure Extension where
  type : Nat
  data : List Byte
  deriving DecidableEq, Repr

/-- A `ClientHello`. -/
structure ClientHello where
  version : List Byte
  random : List Byte
  sessionID : List Byte
  cipherSuites : List Byte
  compressionMethods : List Byte
  extensions : List Extension
  deriving DecidableEq, Repr

/-- Decodes a record. -/
def record : Decoder Record := do
  let contentType ← uint 1
  let version ← bytes 2
  let fragment ← vector 2
  return ⟨contentType, version, fragment⟩

/-- Decodes an extension. -/
def extension : Decoder Extension := do
  let type ← uint 2
  let data ← vector 2
  return ⟨type, data⟩

/-- Decodes the body of a `ClientHello`. -/
def clientHello : Decoder ClientHello := do
  let version ← bytes 2
  let random ← bytes 32
  let sessionID ← vector 1
  let cipherSuites ← vector 2
  let compressionMethods ← vector 1
  let extensions ← nested 2 (repeated extension)
  return ⟨version, random, sessionID, cipherSuites, compressionMethods, extensions⟩

/-- A handshake message of type `client_hello`. -/
def handshake : Decoder ClientHello := do
  literal [1]
  nested 3 clientHello

/-- The content of a `server_name` extension: a list with one entry, of type `host_name`. -/
def serverName : Decoder (List Byte) :=
  nested 2 do
    literal [0]
    vector 2

/-- The content of the first extension of a type. -/
def ClientHello.find (h : ClientHello) (type : Nat) : Option (List Byte) :=
  (h.extensions.find? fun e => e.type = type).map Extension.data

section Rules

variable {d : List Byte}

theorem decodes_record (contentType : Byte) {version : List Byte} (hv : version.length = 2)
    (hd : d.length < 65536) :
    Decodes record ([contentType] ++ (version ++ (putUint16 d.length ++ d)))
      ⟨contentType.toNat, version, d⟩ := by
  refine (decodes_uint [contentType] rfl).bind ?_
  rw [show beNat [contentType] = contentType.toNat from Nat.zero_add _]
  refine (decodes_bytes version hv).bind ?_
  exact (decodes_vector (decodes_uint16 hd)).bind_nil .pure

theorem decodes_extension {type : Nat} (ht : type < 65536) (hd : d.length < 65536) :
    Decodes extension (putUint16 type ++ (putUint16 d.length ++ d)) ⟨type, d⟩ := by
  refine (decodes_uint16 ht).bind ?_
  exact (decodes_vector (decodes_uint16 hd)).bind_nil .pure

theorem all_serverName (hd : d.length + 3 < 65536) :
    all serverName (putUint16 (d.length + 3) ++ ([0] ++ (putUint16 d.length ++ d))) = some d := by
  have hinner : Decodes (do literal [0]; vector 2) ([0] ++ (putUint16 d.length ++ d)) d :=
    (decodes_literal [0]).bind (decodes_vector (decodes_uint16 (by omega)))
  refine (decodes_nested ?_ hinner.all).all
  have hlen : ([0] ++ (putUint16 d.length ++ d)).length = d.length + 3 := by
    simp [putUint16]
  rw [hlen]
  exact decodes_uint16 hd

end Rules

end Tun2socks.Codec.Tls
