import Tun2socks.Codec.Base64
import Tun2socks.Shadowsocks.Cipher

/-!
# Tun2socks.Shadowsocks.Parse

`Parse` and `New` of package `proxy/shadowsocks`: from a URL to a proxy.

A userinfo without a password is base64 text of `method:password`. `Parse` drops the error
of the decoder and goes on with the bytes that came with it. A text that cannot be decoded
is therefore not refused as such, but only if the part in front of the bad quantum has no
`:`, or no cipher in front of it. Otherwise the proxy is built with what is left of the
password (`HalfDecoded`).
-/

-- `Shadowsocks` is also the name of the type
set_option linter.dupNamespace false

namespace Tun2socks.Shadowsocks

open Tun2socks.Go Tun2socks.Codec

/-! ### Model -/

/-- `Shadowsocks`. -/
structure Shadowsocks where
  addr : List Byte
  cipher : Cipher
  obfsMode : List Byte
  obfsHost : List Byte
  deriving DecidableEq

variable (T : ToUpper) (md5 : List Byte → List.Vector Byte 16)

/-- `New` of package `shadowsocks`. -/
def new (addr method password obfsMode obfsHost : List Byte) : Except Error Shadowsocks :=
  match pickCipher T md5 method [] password with
  | .ok cipher => .ok { addr, cipher, obfsMode, obfsHost }
  | .error .panic => .error .panic
  | .error err => .error (.new ("ss initialize: " ++ err.text))

/-- The method and the password in the userinfo of a URL; `ss` is `u.User.String()`. -/
def credentials (u : URL) (ss : List Byte) : List Byte × List Byte :=
  if ss = [] then (ascii "dummy", [])
  else
    match Userinfo.getPassword u.user with
    | some pass => (Userinfo.getUsername u.user, pass)
    | none => (cut 0x3a (Base64.decodeString ss).1).getD ([], [])

/-- The mode and the host of the obfuscation after one part of the query. -/
def obfsPart (obfs : List Byte × List Byte) (s : List Byte) : List Byte × List Byte :=
  match cut 0x3d s with
  | none => obfs
  | some (key, value) =>
    if key = ascii "obfs" then (value, obfs.2)
    else if key = ascii "obfs-host" then (obfs.1, value)
    else obfs

/-- The loop over the query, which is empty if it cannot be unescaped. -/
def obfs (u : URL) : List Byte × List Byte :=
  (((queryUnescape u.rawQuery).getD []).splitOn 0x3b).foldl obfsPart ([], [])

/-- `Parse` of package `shadowsocks`. -/
def parse (u : URL) : Except Error Shadowsocks := do
  let ss ← Userinfo.string u.user
  let (method, password) := credentials u ss
  let (obfsMode, obfsHost) := obfs u
  new T md5 u.host method password obfsMode obfsHost

/-! ### New -/

section New

variable {method : List Byte} (addr password obfsMode obfsHost : List Byte)

theorem new_of_mem (h : T.toUpper method ∈ cipherNames) :
    ∃ p, new T md5 addr method password obfsMode obfsHost = .ok p := by
  obtain ⟨cipher, hcipher⟩ := pickCipher_of_mem T md5 password h
  rw [new, hcipher]
  exact ⟨_, rfl⟩

theorem new_of_not_mem (h : T.toUpper method ∉ cipherNames) :
    new T md5 addr method password obfsMode obfsHost =
      .error (.new "ss initialize: cipher not supported") := by
  rw [new, pickCipher_of_not_mem T md5 password h]
  rfl

/-- No cipher has an empty name. -/
theorem toUpper_nil_not_mem : T.toUpper [] ∉ cipherNames := by
  rw [T.of_ascii [] (fun c hc => absurd hc List.not_mem_nil)]
  decide +kernel

end New

/-! ### Userinfos without a password -/

/-- `data` is `method:password`, cut at the first colon. -/
def IsUserInfo (data method password : List Byte) : Prop :=
  data = method ++ 0x3a :: password ∧ 0x3a ∉ method

/-- What the userinfo `ss` means for the proxy: it is the base64 text of a method and a
password, and the proxy is built with these; or an error is returned. -/
def DecodedWhole (u : URL) (ss : List Byte) : Prop :=
  (∃ data method password, Base64.Decodes ss data ∧ IsUserInfo data method password ∧
    parse T md5 u = new T md5 u.host method password (obfs u).1 (obfs u).2) ∨
  ∃ text, parse T md5 u = .error (.new text)

/-- `ss` has a bad quantum, and the quanta in front of it are the base64 text of a cipher, a
colon and something else. -/
def HalfDecoded (ss : List Byte) : Prop :=
  ∃ data method password, Base64.DecodesPart ss data ∧ IsUserInfo data method password ∧
    T.toUpper method ∈ cipherNames

section Parse

variable {u : URL} {ss : List Byte}

theorem no_break_of_string (hss : Userinfo.string u.user = .ok ss)
    (hpass : Userinfo.getPassword u.user = none) : ∀ c ∈ ss, c ≠ 0x0a ∧ c ≠ 0x0d := by
  cases huser : u.user with
  | none =>
    rw [huser] at hss
    cases hss
  | some user =>
    rw [huser] at hss hpass
    have hnone : user.password = none := hpass
    simp only [Userinfo.string, hnone] at hss
    split at hss
    · cases hss
      intro c hc
      exact no_break_of_mem_escape hc
    · cases hss
      intro c hc
      exact absurd hc List.not_mem_nil

/-- `Parse` goes on with whatever the decoder has returned. -/
theorem parse_eq (hss : Userinfo.string u.user = .ok ss) (hne : ss ≠ [])
    (hpass : Userinfo.getPassword u.user = none) :
    parse T md5 u =
      let userInfo := (cut 0x3a (Base64.decodeQuanta ss).1).getD ([], [])
      new T md5 u.host userInfo.1 userInfo.2 (obfs u).1 (obfs u).2 := by
  rw [← Base64.decodeString_of_no_break (no_break_of_string hss hpass), parse, hss]
  simp only [ok_bind, credentials, if_neg hne, hpass]

/-- With a method and a password in the bytes returned, it is these that it uses. -/
theorem parse_of_userInfo (hss : Userinfo.string u.user = .ok ss) (hne : ss ≠ [])
    (hpass : Userinfo.getPassword u.user = none) {data method password : List Byte}
    (hdata : (Base64.decodeQuanta ss).1 = data) (h : IsUserInfo data method password) :
    parse T md5 u = new T md5 u.host method password (obfs u).1 (obfs u).2 := by
  rw [parse_eq T md5 hss hne hpass, hdata, cut_eq_some.mpr h]
  rfl

/-- Without, the method is empty, and so refused. -/
theorem parse_of_no_colon (hss : Userinfo.string u.user = .ok ss) (hne : ss ≠ [])
    (hpass : Userinfo.getPassword u.user = none)
    (h : cut 0x3a (Base64.decodeQuanta ss).1 = none) :
    parse T md5 u = .error (.new "ss initialize: cipher not supported") := by
  rw [parse_eq T md5 hss hne hpass, h]
  exact new_of_not_mem T md5 _ _ _ _ (toUpper_nil_not_mem T)

end Parse

/-- **When a URL is half-decoded.** For every URL with a userinfo and no password in it,
`Parse` builds a proxy only from the whole of the userinfo, exactly if this is not the
base64 text of a known cipher, a colon and any more bytes in whole quanta, followed by a
quantum that cannot be decoded. -/
theorem parse_whole_iff (u : URL) (ss : List Byte) (hss : Userinfo.string u.user = .ok ss)
    (hne : ss ≠ []) (hpass : Userinfo.getPassword u.user = none) :
    DecodedWhole T md5 u ss ↔ ¬ HalfDecoded T ss := by
  constructor
  · intro hwhole hhalf
    obtain ⟨data, method, password, hpart, hinfo, hmem⟩ := hhalf
    rcases hwhole with ⟨data', _, _, hdecodes, -, -⟩ | ⟨text, herror⟩
    · exact hpart.not_decodes hdecodes
    · have hdata := congrArg Prod.fst (Base64.decodeQuanta_eq_false.mpr hpart)
      obtain ⟨p, hp⟩ := new_of_mem T md5 u.host password (obfs u).1 (obfs u).2 hmem
      rw [parse_of_userInfo T md5 hss hne hpass hdata hinfo, hp] at herror
      cases herror
  · intro hhalf
    cases hcut : cut 0x3a (Base64.decodeQuanta ss).1 with
    | none => exact .inr ⟨_, parse_of_no_colon T md5 hss hne hpass hcut⟩
    | some userInfo =>
      obtain ⟨method, password⟩ := userInfo
      have hinfo : IsUserInfo _ method password := cut_eq_some.mp hcut
      have hparse := parse_of_userInfo T md5 hss hne hpass rfl hinfo
      rcases Base64.outcome ss with ⟨-, hdecodes⟩ | ⟨-, hpart⟩
      · exact .inl ⟨_, method, password, hdecodes, hinfo, hparse⟩
      · -- the bytes of the quanta before are refused only for their method
        have hnot : T.toUpper method ∉ cipherNames := fun hmem =>
          hhalf ⟨_, method, password, hpart, hinfo, hmem⟩
        exact .inr ⟨_, hparse.trans (new_of_not_mem T md5 _ _ _ _ hnot)⟩

/-- A URL with this userinfo. -/
def urlOf (userinfo : String) : URL :=
  ⟨some ⟨ascii userinfo, none⟩, ascii "127.0.0.1:8388", [], []⟩

/-- The text of `aes-128-gcm:password`. -/
theorem parse_whole_password :
    let ss := ascii "YWVzLTEyOC1nY206cGFzc3dvcmQ"
    let md5 : List Byte → List.Vector Byte 16 := fun _ => ⟨List.replicate 16 0, rfl⟩
    DecodedWhole .asciiOnly md5 (urlOf "YWVzLTEyOC1nY206cGFzc3dvcmQ") ss ∧
      Base64.Decodes ss (ascii "aes-128-gcm:password") := by
  intro ss md5
  have hdecodes : Base64.Decodes ss (ascii "aes-128-gcm:password") :=
    Base64.decodeQuanta_eq_true.mp (by decide +kernel)
  refine ⟨?_, hdecodes⟩
  refine (parse_whole_iff .asciiOnly md5 _ ss (by decide +kernel) (by decide) rfl).mpr ?_
  intro ⟨data, _, _, hpart, _⟩
  exact hpart.not_decodes hdecodes

/-- The same with the padding that this encoding does not have: no text of the alphabet, but
a proxy with the password `passwo`. -/
theorem parse_half_password :
    let ss := ascii "YWVzLTEyOC1nY206cGFzc3dvcmQ="
    let u := urlOf "YWVzLTEyOC1nY206cGFzc3dvcmQ="
    let md5 : List Byte → List.Vector Byte 16 := fun _ => ⟨List.replicate 16 0, rfl⟩
    Userinfo.string u.user = .ok ss ∧ (∀ data, ¬ Base64.Decodes ss data) ∧
      ∃ p, parse .asciiOnly md5 u = .ok p ∧
        new .asciiOnly md5 u.host (ascii "aes-128-gcm") (ascii "passwo") [] [] = .ok p := by
  intro ss u md5
  have hss : Userinfo.string u.user = .ok ss := by decide +kernel
  have hdecode : Base64.decodeQuanta ss = (ascii "aes-128-gcm:passwo", false) := by decide +kernel
  have hinfo : IsUserInfo (ascii "aes-128-gcm:passwo") (ascii "aes-128-gcm") (ascii "passwo") :=
    ⟨by decide +kernel, by decide +kernel⟩
  have hmem : ToUpper.asciiOnly.toUpper (ascii "aes-128-gcm") ∈ cipherNames := by decide +kernel
  obtain ⟨p, hp⟩ := new_of_mem .asciiOnly md5 u.host (ascii "passwo") [] [] hmem
  refine ⟨hss, fun data => (Base64.decodeQuanta_eq_false.mp hdecode).not_decodes, p, ?_, hp⟩
  rw [parse_of_userInfo .asciiOnly md5 hss (by decide) rfl (congrArg Prod.fst hdecode) hinfo]
  exact hp

end Tun2socks.Shadowsocks
