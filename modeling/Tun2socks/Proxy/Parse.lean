import Tun2socks.Go.Url
import Tun2socks.Proxy.Dial

/-!
# Tun2socks.Proxy.Parse

`Parse` and `New` of package `proxy/socks5`: from a URL to the proxy that is dialed.

The address is the host, or the path of a Unix socket. A socket of the abstract namespace
is written `/@name`, and the slash is to go. The guard in `New`,
`len(addr) > 2 && addr[1] == '@' || addr[1] == 0x00`, groups as `(… && …) || …`, so its
last operand is evaluated also on an address that is too short for it, and no operand asks
for the slash.
-/

set_option linter.dupNamespace false

namespace Tun2socks.Proxy

open Tun2socks.Go

namespace Socks5

/-! ### Model -/

/-- The guard of `New`; each operand is evaluated only where Go does. -/
def abstractNamespace (addr : List Byte) : Except Error Bool := do
  let isAt ← if 2 < addr.length then (· == 0x40) <$> index addr 1 else pure false
  if isAt then return true
  return (← index addr 1) == 0x00

/-- `New` of package `socks5`. -/
def new (addr user pass : List Byte) : Except Error Socks5 := do
  let unix := decide (0 < addr.length) && addr.getD 0 0 == 0x2f
  let addr ← if ← abstractNamespace addr then sliceFrom addr 1 else pure addr
  return { addr := Socks5.goString addr, user, pass, unix }

/-- The address in a URL: the host, or else the path. -/
def address (u : URL) : List Byte := if u.host = [] then u.path else u.host

/-- `Parse` of package `socks5`. -/
def parse (u : URL) : Except Error Socks5 :=
  new (address u) (Userinfo.getUsername u.user) ((Userinfo.getPassword u.user).getD [])

/-! ### The address that is kept -/

/-- The address meant by `addr`: without the slash, if this is in front of an abstract
name. -/
def kept : List Byte → List Byte
  | c :: d :: rest =>
    if c = 0x2f ∧ (d = 0x40 ∨ d = 0x00) then d :: rest else c :: d :: rest
  | addr => addr

section New

variable (c d : Byte) (rest user pass : List Byte)

theorem abstractNamespace_cons :
    abstractNamespace (c :: d :: rest) = .ok (decide (d = 0x40 ∧ rest ≠ [] ∨ d = 0x00)) := by
  have hindex : index (c :: d :: rest) 1 = .ok d := by simp [index]
  rw [abstractNamespace, hindex]
  cases rest with
  | nil =>
    have hlen : ¬ 2 < [c, d].length := by simp
    simp only [hlen, if_false]
    simp [pure, Except.pure, bind, Except.bind, beq_eq_decide]
  | cons x rest =>
    have hlen : 2 < (c :: d :: x :: rest).length := by simp
    simp only [hlen, if_true]
    by_cases hd : d = 0x40
    · simp [pure, Except.pure, bind, Except.bind, Functor.map, Except.map, hd]
    · simp [pure, Except.pure, bind, Except.bind, Functor.map, Except.map, hd, beq_eq_decide]

/-- On two bytes and more `New` returns, and it looks at the second one only. -/
theorem new_cons :
    new (c :: d :: rest) user pass = .ok
      { addr := Socks5.goString
          (if d = 0x40 ∧ rest ≠ [] ∨ d = 0x00 then d :: rest else c :: d :: rest)
        user, pass, unix := c == 0x2f } := by
  have hslice : sliceFrom (c :: d :: rest) 1 = .ok (d :: rest) := by simp [sliceFrom]
  rw [new, abstractNamespace_cons, hslice]
  by_cases h : d = 0x40 ∧ rest ≠ [] ∨ d = 0x00
  · simp [h, pure, Except.pure, bind, Except.bind]
  · simp [h, pure, Except.pure, bind, Except.bind]

/-- On less it panics. -/
theorem new_short {addr : List Byte} (h : addr.length < 2) :
    new addr user pass = .error .panic := by
  have hindex : index addr 1 = .error .panic := if_neg (by omega)
  have hlen : ¬ 2 < addr.length := by omega
  rw [new, abstractNamespace, hindex]
  simp only [hlen, if_false]
  rfl

end New

theorem goString_injective : Function.Injective Socks5.goString := by
  have hnat (x : Byte) : (Char.ofNat x.toNat).toNat = x.toNat := by
    have hvalid : x.toNat.isValidChar := by
      have := x.toNat_lt
      exact .inl (by omega)
    rw [Char.ofNat, dif_pos hvalid]
    rfl
  have hchar : Function.Injective fun x : Byte => Char.ofNat x.toNat := by
    intro x y hxy
    have h := congrArg Char.toNat hxy
    rw [hnat, hnat] at h
    exact UInt8.toNat_inj.mp h
  intro a b h
  exact List.map_injective_iff.mpr hchar (String.ofList_injective h)

/-- The byte in front is cut off where it is to be. -/
theorem kept_eq_iff (c d : Byte) (rest : List Byte) :
    (if d = 0x40 ∧ rest ≠ [] ∨ d = 0x00 then d :: rest else c :: d :: rest) =
        kept (c :: d :: rest) ↔
      (d = 0x40 ∧ rest ≠ [] ∨ d = 0x00 ↔ c = 0x2f ∧ (d = 0x40 ∨ d = 0x00)) := by
  have hne : d :: rest ≠ c :: d :: rest := by
    intro h
    simpa using congrArg List.length h
  rw [kept]
  by_cases hcut : d = 0x40 ∧ rest ≠ [] ∨ d = 0x00
  · rw [if_pos hcut]
    by_cases hkept : c = 0x2f ∧ (d = 0x40 ∨ d = 0x00)
    · rw [if_pos hkept]
      exact iff_of_true rfl (iff_of_true hcut hkept)
    · rw [if_neg hkept]
      exact iff_of_false hne (fun h => hkept (h.mp hcut))
  · rw [if_neg hcut]
    by_cases hkept : c = 0x2f ∧ (d = 0x40 ∨ d = 0x00)
    · rw [if_pos hkept]
      exact iff_of_false hne.symm (fun h => hcut (h.mpr hkept))
    · rw [if_neg hkept]
      exact iff_of_true rfl (iff_of_false hcut hkept)

/-- **What the parser makes of an address.** For every URL, `Parse` returns a proxy with the
address that is meant exactly if this has at least two bytes, and

* behind a slash, it is not `/@`, of which the slash stays;
* without one, its second byte is not NUL, nor `@` in front of something, where the first
  byte is cut off.

In all other cases the address is altered, or the parser panics. -/
theorem parse_keeps_iff (u : URL) :
    (∃ ss, parse u = .ok ss ∧ ss.addr = Socks5.goString (kept (address u))) ↔
      ∃ c d rest, address u = c :: d :: rest ∧
        if c = 0x2f then ¬ (d = 0x40 ∧ rest = [])
        else ¬ (d = 0x00 ∨ d = 0x40 ∧ rest ≠ []) := by
  rw [parse]
  match address u with
  | [] | [_] =>
    rw [new_short _ _ (by simp)]
    simp
  | c :: d :: rest =>
    have hcases : (d = 0x40 ∧ rest ≠ [] ∨ d = 0x00 ↔ c = 0x2f ∧ (d = 0x40 ∨ d = 0x00)) ↔
        if c = 0x2f then ¬ (d = 0x40 ∧ rest = []) else ¬ (d = 0x00 ∨ d = 0x40 ∧ rest ≠ []) := by
      by_cases hc : c = 0x2f
      · by_cases hd : d = 0x40
        · simp [hc, hd]
        · simp [hc, hd]
      · simp [hc]
        tauto
    rw [new_cons]
    simp only [Except.ok.injEq, exists_eq_left', goString_injective.eq_iff, kept_eq_iff, hcases]
    constructor
    · intro h
      exact ⟨c, d, rest, rfl, h⟩
    · intro ⟨c', d', rest', heq, h⟩
      obtain ⟨rfl, htail⟩ := List.cons.inj heq
      obtain ⟨rfl, rfl⟩ := List.cons.inj htail
      exact h

/-- `socks5://` and `socks5://h`, where the parser panics; `socks5:///@`, whose slash stays;
and a TCP host of which the first byte is cut off. -/
theorem parse_address_fails :
    let url (host path : String) : URL := ⟨none, ascii host, ascii path, []⟩
    parse (url "" "") = .error .panic ∧
    parse (url "h" "") = .error .panic ∧
    (∃ ss, parse (url "" "/@") = .ok ss ∧ ss.addr = "/@" ∧ kept (ascii "/@") = ascii "@") ∧
    (∃ ss, parse (url "a@b:1080" "") = .ok ss ∧ ss.addr = "@b:1080" ∧
      kept (ascii "a@b:1080") = ascii "a@b:1080") := by
  intro url
  exact ⟨rfl, rfl, ⟨_, rfl, by decide, by decide⟩, ⟨_, rfl, by decide, by decide⟩⟩

end Socks5

end Tun2socks.Proxy
