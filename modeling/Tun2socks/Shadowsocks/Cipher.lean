import Tun2socks.Go.Url
import Tun2socks.Shadowsocks.Kdf

/-!
# Tun2socks.Shadowsocks.Cipher

`PickCipher` of `core/cipher.go`: the cipher with a name, and its key from a password.

A choice of the tables has the size of its key and a constructor that checks the size once
more; `Choice` says with it that the two agree. With a key from the password, the name alone
decides (`pickCipher_of_mem`, `pickCipher_of_not_mem`).
-/

namespace Tun2socks.Shadowsocks

open Tun2socks.Go

/-! ### The ciphers -/

/-- The `makeAEAD` of a `metaCipher`. -/
inductive MakeAEAD
  | aesGCM
  | chacha20Poly1305
  | xChacha20Poly1305
  deriving DecidableEq

/-- `shadowaead.metaCipher`. -/
structure MetaCipher where
  psk : List Byte
  makeAEAD : MakeAEAD
  deriving DecidableEq

/-- The ciphers of package `shadowstream`. -/
inductive StreamKind
  | rc4MD5
  | aesCTR
  | aesCFB
  | chacha20IETF
  | xchacha20
  deriving DecidableEq

/-- A stream cipher of `shadowstream/cipher.go` with its key. -/
structure KeyedStream where
  key : List Byte
  kind : StreamKind
  deriving DecidableEq

/-- `core.Cipher`: a `dummy`, an `AeadCipher` or a `StreamCipher`. -/
inductive Cipher
  | dummy
  | aead (cipher : MetaCipher) (key : List Byte)
  | stream (cipher : KeyedStream) (key : List Byte)
  deriving DecidableEq

/-- `KeySizeError(n)`, the same in both packages. -/
def keySizeError (n : Nat) : Error := .new ("key size error: need " ++ itoa n ++ " bytes")

/-- `aes.KeySizeError(n)`. -/
def aesKeySizeError (n : Nat) : Error := .new ("crypto/aes: invalid key size " ++ itoa n)

/-- A constructor for keys of 16, 24 or 32 bytes, as AES has them. -/
def newAES {γ : Type} (make : List Byte → γ) (key : List Byte) : Except Error γ :=
  if key.length = 16 ∨ key.length = 24 ∨ key.length = 32 then .ok (make key)
  else .error (aesKeySizeError key.length)

/-- A constructor for keys of 32 bytes, as ChaCha20 has them. -/
def newChacha20 {γ : Type} (make : List Byte → γ) (key : List Byte) : Except Error γ :=
  if key.length ≠ 32 then .error (keySizeError 32) else .ok (make key)

/-- `AESGCM` of package `shadowaead`. -/
def aesGCM : List Byte → Except Error MetaCipher := newAES (⟨·, .aesGCM⟩)
/-- `shadowaead.Chacha20Poly1305`. -/
def chacha20Poly1305 : List Byte → Except Error MetaCipher := newChacha20 (⟨·, .chacha20Poly1305⟩)
/-- `shadowaead.XChacha20Poly1305`. -/
def xChacha20Poly1305 : List Byte → Except Error MetaCipher :=
  newChacha20 (⟨·, .xChacha20Poly1305⟩)

/-- `shadowstream.AESCTR`. -/
def aesCTR : List Byte → Except Error KeyedStream := newAES (⟨·, .aesCTR⟩)
/-- `shadowstream.AESCFB`. -/
def aesCFB : List Byte → Except Error KeyedStream := newAES (⟨·, .aesCFB⟩)
/-- `shadowstream.Chacha20IETF`. -/
def chacha20IETF : List Byte → Except Error KeyedStream := newChacha20 (⟨·, .chacha20IETF⟩)
/-- `shadowstream.Xchacha20`. -/
def xchacha20 : List Byte → Except Error KeyedStream := newChacha20 (⟨·, .xchacha20⟩)

/-- `RC4MD5`, which takes any key. -/
def rc4MD5 (key : List Byte) : Except Error KeyedStream := .ok ⟨key, .rc4MD5⟩

theorem newAES_ok {γ : Type} (make : List Byte → γ) {n : Nat} (hn : n = 16 ∨ n = 24 ∨ n = 32)
    (key : List Byte) (h : key.length = n) : ∃ c, newAES make key = .ok c :=
  ⟨make key, if_pos (h ▸ hn)⟩

theorem newChacha20_ok {γ : Type} (make : List Byte → γ) (key : List Byte)
    (h : key.length = 32) : ∃ c, newChacha20 make key = .ok c :=
  ⟨make key, if_neg (not_not.mpr h)⟩

/-! ### The tables -/

/-- An entry of the tables: the size of the key, and the constructor, which takes keys of
this size. -/
structure Choice (γ : Type) where
  keySize : Nat
  new : List Byte → Except Error γ
  accepts : ∀ key : List Byte, key.length = keySize → ∃ c, new key = .ok c

/-- `aeadAes128Gcm`. -/
def aeadAes128Gcm : List Byte := ascii "AEAD_AES_128_GCM"
/-- `aeadAes192Gcm`. -/
def aeadAes192Gcm : List Byte := ascii "AEAD_AES_192_GCM"
/-- `aeadAes256Gcm`. -/
def aeadAes256Gcm : List Byte := ascii "AEAD_AES_256_GCM"
/-- `aeadChacha20Poly1305`. -/
def aeadChacha20Poly1305 : List Byte := ascii "AEAD_CHACHA20_POLY1305"
/-- `aeadXChacha20Poly1305`. -/
def aeadXChacha20Poly1305 : List Byte := ascii "AEAD_XCHACHA20_POLY1305"

/-- The AEAD ciphers: key size in bytes and constructor. -/
def aeadList : List (List Byte × Choice MetaCipher) :=
  [(aeadAes128Gcm, ⟨16, aesGCM, newAES_ok _ (.inl rfl)⟩),
   (aeadAes192Gcm, ⟨24, aesGCM, newAES_ok _ (.inr (.inl rfl))⟩),
   (aeadAes256Gcm, ⟨32, aesGCM, newAES_ok _ (.inr (.inr rfl))⟩),
   (aeadChacha20Poly1305, ⟨32, chacha20Poly1305, newChacha20_ok _⟩),
   (aeadXChacha20Poly1305, ⟨32, xChacha20Poly1305, newChacha20_ok _⟩)]

/-- The stream ciphers: key size in bytes and constructor. -/
def streamList : List (List Byte × Choice KeyedStream) :=
  [(ascii "RC4-MD5", ⟨16, rc4MD5, fun _ _ => ⟨_, rfl⟩⟩),
   (ascii "AES-128-CTR", ⟨16, aesCTR, newAES_ok _ (.inl rfl)⟩),
   (ascii "AES-192-CTR", ⟨24, aesCTR, newAES_ok _ (.inr (.inl rfl))⟩),
   (ascii "AES-256-CTR", ⟨32, aesCTR, newAES_ok _ (.inr (.inr rfl))⟩),
   (ascii "AES-128-CFB", ⟨16, aesCFB, newAES_ok _ (.inl rfl)⟩),
   (ascii "AES-192-CFB", ⟨24, aesCFB, newAES_ok _ (.inr (.inl rfl))⟩),
   (ascii "AES-256-CFB", ⟨32, aesCFB, newAES_ok _ (.inr (.inr rfl))⟩),
   (ascii "CHACHA20-IETF", ⟨32, chacha20IETF, newChacha20_ok _⟩),
   (ascii "XCHACHA20", ⟨32, xchacha20, newChacha20_ok _⟩)]

/-- The other names of the AEAD ciphers. -/
def aliases : List (List Byte × List Byte) :=
  [(ascii "CHACHA20-IETF-POLY1305", aeadChacha20Poly1305),
   (ascii "XCHACHA20-IETF-POLY1305", aeadXChacha20Poly1305),
   (ascii "AES-128-GCM", aeadAes128Gcm),
   (ascii "AES-192-GCM", aeadAes192Gcm),
   (ascii "AES-256-GCM", aeadAes256Gcm)]

/-! ### PickCipher -/

/-- `ErrCipherNotSupported`. -/
def errCipherNotSupported : Error := .new "cipher not supported"

variable (T : ToUpper) (md5 : List Byte → List.Vector Byte 16)

/-- The body of the two lookups in `PickCipher`. -/
def choose {γ : Type} (choice : Choice γ) (wrap : γ → List Byte → Cipher)
    (key password : List Byte) : Except Error Cipher := do
  let key ← if key.length = 0 then kdf md5 password choice.keySize else pure key
  if key.length ≠ choice.keySize then throw (keySizeError choice.keySize)
  let cipher ← choice.new key
  return wrap cipher key

/-- `PickCipher`. -/
def pickCipher (name key password : List Byte) : Except Error Cipher :=
  let name := T.toUpper name
  if name = ascii "DUMMY" then .ok .dummy
  else
    let name := (aliases.lookup name).getD name
    match aeadList.lookup name with
    | some choice => choose md5 choice .aead key password
    | none =>
      match streamList.lookup name with
      | some choice => choose md5 choice .stream key password
      | none => .error errCipherNotSupported

/-! ### With a key from the password -/

/-- The names that `PickCipher` knows, in upper case. -/
def cipherNames : List (List Byte) :=
  ascii "DUMMY" :: aliases.map Prod.fst ++ aeadList.map Prod.fst ++ streamList.map Prod.fst

section Lookup

variable {β : Type} {l : List (List Byte × β)} {name : List Byte}

theorem lookup_of_mem (h : name ∈ l.map Prod.fst) : ∃ v, l.lookup name = some v := by
  obtain ⟨p, hp, rfl⟩ := List.mem_map.mp h
  exact Option.isSome_iff_exists.mp (List.lookup_isSome_iff.mpr ⟨p, hp, beq_self_eq_true _⟩)

theorem lookup_of_not_mem (h : name ∉ l.map Prod.fst) : l.lookup name = none := by
  refine List.lookup_eq_none_iff.mpr fun p hp => ?_
  rw [bne_iff_ne]
  intro heq
  exact h (List.mem_map.mpr ⟨p, hp, heq.symm⟩)

theorem mem_of_lookup {v : β} (h : l.lookup name = some v) : (name, v) ∈ l := by
  obtain ⟨l₁, l₂, rfl, -⟩ := List.lookup_eq_some_iff.mp h
  exact List.mem_append_right l₁ List.mem_cons_self

end Lookup

section Pick

variable {name : List Byte} (password : List Byte)

theorem choose_ok {γ : Type} (choice : Choice γ) (wrap : γ → List Byte → Cipher) :
    ∃ c, choose md5 choice wrap [] password = .ok c := by
  obtain ⟨key, hkey, hlen⟩ := kdf_ok md5 password choice.keySize
  obtain ⟨c, hc⟩ := choice.accepts key hlen
  refine ⟨wrap c key, ?_⟩
  rw [choose]
  simp only [List.length_nil, if_true, hkey, ok_bind, hlen, ne_eq, not_true, if_false, hc]
  rfl

/-- Every other name of a cipher stands for one of the table. -/
theorem alias_mem (h : name ∈ cipherNames) (hdummy : name ≠ ascii "DUMMY") :
    (aliases.lookup name).getD name ∈ aeadList.map Prod.fst ∨
      (aliases.lookup name).getD name ∈ streamList.map Prod.fst := by
  have htarget : ∀ p ∈ aliases, p.2 ∈ aeadList.map Prod.fst := by decide
  cases halias : aliases.lookup name with
  | some target => exact .inl (htarget (name, target) (mem_of_lookup halias))
  | none =>
    have hnot : name ∉ aliases.map Prod.fst := by
      intro hmem
      obtain ⟨target, htarget⟩ := lookup_of_mem hmem
      rw [halias] at htarget
      cases htarget
    simp only [cipherNames, List.cons_append, List.mem_cons, List.mem_append, hdummy, hnot,
      false_or] at h
    exact h

/-- A cipher that is known is made, with every password. -/
theorem pickCipher_of_mem (h : T.toUpper name ∈ cipherNames) :
    ∃ c, pickCipher T md5 name [] password = .ok c := by
  rw [pickCipher]
  by_cases hdummy : T.toUpper name = ascii "DUMMY"
  · exact ⟨.dummy, if_pos hdummy⟩
  · simp only [if_neg hdummy]
    have hname := alias_mem h hdummy
    cases haead : aeadList.lookup ((aliases.lookup (T.toUpper name)).getD (T.toUpper name)) with
    | some choice => exact choose_ok md5 password choice .aead
    | none =>
      rcases hname with hmem | hmem
      · obtain ⟨choice, hchoice⟩ := lookup_of_mem hmem
        rw [haead] at hchoice
        cases hchoice
      · obtain ⟨choice, hchoice⟩ := lookup_of_mem hmem
        simp only [hchoice]
        exact choose_ok md5 password choice .stream

/-- One that is not known is refused. -/
theorem pickCipher_of_not_mem (h : T.toUpper name ∉ cipherNames) :
    pickCipher T md5 name [] password = .error errCipherNotSupported := by
  simp only [cipherNames, List.cons_append, List.mem_cons, List.mem_append, not_or] at h
  obtain ⟨hdummy, ⟨halias, haead⟩, hstream⟩ := h
  simp only [pickCipher, if_neg hdummy, lookup_of_not_mem halias, Option.getD_none,
    lookup_of_not_mem haead, lookup_of_not_mem hstream]

end Pick

end Tun2socks.Shadowsocks
