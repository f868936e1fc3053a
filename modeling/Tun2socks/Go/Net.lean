import Mathlib.Data.Vector.Basic
import Tun2socks.Go.Basic

/-!
# Tun2socks.Go.Net

IP addresses and their texts, and packet connections.

Packages `net` and `net/netip` print an address that is IPv4-mapped differently, and
agree on all others. That is proved here of dotted quads and host-port pairs
(`UDPAddr.string_eq_addrPortString`); the canonical text of the other 16-byte
addresses is a parameter with the properties it has (`IPv6Text`).
-/

namespace Tun2socks.Go

/-! ### Addresses -/

/-- An IP address as a `net.IP` or a `netip.Addr` without zone holds it: none, 4
bytes, or 16 bytes. -/
inductive IP
  | none
  | v4 (b : List.Vector Byte 4)
  | v6 (b : List.Vector Byte 16)
  deriving DecidableEq

namespace IP

/-- `netip.AddrFromSlice`. -/
def ofSlice (b : List Byte) : IP :=
  if h : b.length = 4 then .v4 ⟨b, h⟩
  else if h : b.length = 16 then .v6 ⟨b, h⟩
  else .none

/-- `Addr.AsSlice`. -/
def asSlice : IP → List Byte
  | none => []
  | v4 b => b.1
  | v6 b => b.1

/-- The first twelve bytes of an IPv4-mapped address. -/
def mappedHead : List Byte := [0, 0, 0, 0, 0, 0, 0, 0, 0, 0, 255, 255]

/-- A 16-byte address is IPv4-mapped. -/
def Mapped (b : List.Vector Byte 16) : Prop := b.1.take 12 = mappedHead

instance (b : List.Vector Byte 16) : Decidable (Mapped b) :=
  inferInstanceAs (Decidable (b.1.take 12 = mappedHead))

/-- The last four bytes. -/
def last4 (b : List.Vector Byte 16) : List.Vector Byte 4 :=
  ⟨b.1.drop 12, by rw [List.length_drop, b.2]⟩

/-- `Addr.Is4In6`. -/
def is4In6 : IP → Bool
  | v6 b => decide (Mapped b)
  | _ => false

/-- `Addr.Unmap`: the IPv4 address of a mapped one, the address itself otherwise. -/
def unmap : IP → IP
  | v6 b => if Mapped b then .v4 (last4 b) else .v6 b
  | ip => ip

@[simp] theorem unmap_v4 (b : List.Vector Byte 4) : unmap (.v4 b) = .v4 b := rfl

theorem unmap_of_mapped {b : List.Vector Byte 16} (h : Mapped b) :
    unmap (.v6 b) = .v4 (last4 b) := by
  rw [unmap, if_pos h]

theorem unmap_of_not_mapped {b : List.Vector Byte 16} (h : ¬ Mapped b) :
    unmap (.v6 b) = .v6 b := by
  rw [unmap, if_neg h]

/-- An address that is set has an IPv4 form or is a 16-byte one without. -/
theorem unmap_cases {ip : IP} (h : ip ≠ .none) :
    (∃ b, ip.unmap = .v4 b) ∨ ∃ b, ip.unmap = .v6 b ∧ ¬ Mapped b := by
  cases ip with
  | none => exact absurd rfl h
  | v4 b => exact .inl ⟨b, rfl⟩
  | v6 b =>
    by_cases hm : Mapped b
    · exact .inl ⟨_, unmap_of_mapped hm⟩
    · exact .inr ⟨b, unmap_of_not_mapped hm, hm⟩

end IP

/-- `net.UDPAddr` without zone. -/
structure UDPAddr where
  ip : IP
  port : Nat
  deriving DecidableEq

/-! ### Decimal numbers and dotted quads -/

/-- `strconv.Itoa` of a natural number. -/
def itoa (n : Nat) : String := toString n

theorem isDigit_of_mem_itoa {n : Nat} {c : Char} (h : c ∈ (itoa n).toList) : c.isDigit := by
  have hmem : c ∈ Nat.toDigits 10 n := by
    simpa [itoa, Nat.toString_eq_repr, Nat.toList_repr] using h
  exact Nat.isDigit_of_mem_toDigits (by decide) le_rfl hmem

theorem not_mem_itoa {n : Nat} {c : Char} (hc : c.isDigit = false) : c ∉ (itoa n).toList := by
  intro h
  rw [isDigit_of_mem_itoa h] at hc
  cases hc

theorem itoa_inj {m n : Nat} (h : (itoa m).toList = (itoa n).toList) : m = n := by
  have hvalue := congrArg (fun ds => Nat.ofDigitChars 10 ds 0) h
  simpa [itoa, Nat.toString_eq_repr, Nat.toList_repr] using hvalue

/-- The dotted quad of four bytes. -/
def quad (b : List.Vector Byte 4) : String :=
  match b with
  | ⟨[b₀, b₁, b₂, b₃], _⟩ =>
    itoa b₀.toNat ++ "." ++ itoa b₁.toNat ++ "." ++ itoa b₂.toNat ++ "." ++ itoa b₃.toNat

theorem quad_injective {a b : List.Vector Byte 4} (h : quad a = quad b) : a = b := by
  match a, b with
  | ⟨[a₀, a₁, a₂, a₃], _⟩, ⟨[b₀, b₁, b₂, b₃], _⟩ =>
    have hdot : ∀ n, '.' ∉ (itoa n).toList := fun n => not_mem_itoa rfl
    have hlist := congrArg String.toList h
    simp only [quad, String.toList_append, List.append_assoc] at hlist
    obtain ⟨h₀, hlist⟩ := append_cons_inj_first (hdot _) (hdot _) hlist
    obtain ⟨h₁, hlist⟩ := append_cons_inj_first (hdot _) (hdot _) hlist
    obtain ⟨h₂, h₃⟩ := append_cons_inj_first (hdot _) (hdot _) hlist
    have hbyte : ∀ {x y : Byte}, (itoa x.toNat).toList = (itoa y.toNat).toList → x = y :=
      fun h => UInt8.toNat_inj.mp (itoa_inj h)
    apply List.Vector.eq
    rw [List.Vector.toList_mk, List.Vector.toList_mk, hbyte h₀, hbyte h₁, hbyte h₂, hbyte h₃]

/-- A dotted quad has digits and dots only. -/
theorem not_mem_quad {c : Char} (hdigit : c.isDigit = false) (hdot : c ≠ '.')
    (b : List.Vector Byte 4) : c ∉ (quad b).toList := by
  match b with
  | ⟨[b₀, b₁, b₂, b₃], _⟩ =>
    have h : ∀ n, c ∉ (itoa n).toList := fun n => not_mem_itoa hdigit
    simp [quad, h, hdot]

/-! ### Texts of addresses -/

/-- What is used of the canonical text of a 16-byte address that is not
IPv4-mapped, the same in both packages. -/
structure IPv6Text where
  text : List.Vector Byte 16 → String
  injective : ∀ {a b}, ¬ IP.Mapped a → ¬ IP.Mapped b → text a = text b → a = b
  colon : ∀ a, ':' ∈ (text a).toList
  ne_mapped : ∀ a q, ¬ IP.Mapped a → text a ≠ "::ffff:" ++ quad q

/-- Every byte in decimal, followed by a colon. -/
def decimalText : List Byte → String
  | [] => ""
  | x :: xs => itoa x.toNat ++ ":" ++ decimalText xs

theorem decimalText_injective {xs ys : List Byte} (h : decimalText xs = decimalText ys) :
    xs = ys := by
  have hcolon : ∀ n, ':' ∉ (itoa n).toList := fun n => not_mem_itoa rfl
  induction xs generalizing ys with
  | nil =>
    cases ys with
    | nil => rfl
    | cons y ys =>
      have := congrArg String.toList h
      simp [decimalText] at this
  | cons x xs ih =>
    cases ys with
    | nil =>
      have := congrArg String.toList h
      simp [decimalText] at this
    | cons y ys =>
      have hlist := congrArg String.toList h
      simp only [decimalText, String.toList_append, List.append_assoc] at hlist
      obtain ⟨hx, hxs⟩ := append_cons_inj_first (hcolon _) (hcolon _) hlist
      rw [UInt8.toNat_inj.mp (itoa_inj hx), ih (String.toList_inj.mp hxs)]

/-- The properties can be met, and by a text that can be computed. -/
def IPv6Text.decimal : IPv6Text where
  text b := decimalText b.1
  injective _ _ h := List.Vector.eq _ _ (decimalText_injective h)
  colon b := by
    match b with
    | ⟨x :: xs, _⟩ => simp [decimalText]
  ne_mapped b q _ h := by
    match b with
    | ⟨x :: xs, _⟩ =>
      -- one text begins with a digit, the other with a colon
      have hhead : ':' ∈ (itoa x.toNat).toList := by
        have hlist := congrArg List.head? (congrArg String.toList h)
        have hne : (itoa x.toNat).toList ≠ [] := by
          simp [itoa, Nat.toString_eq_repr]
        obtain ⟨c, cs, hc⟩ := List.exists_cons_of_ne_nil hne
        simp [decimalText, hc] at hlist
        simp [hc, hlist]
      exact not_mem_itoa rfl hhead

/-- `net.IP.String`, and the empty text of no address (`ipEmptyString`). -/
def IP.string (T : IPv6Text) : IP → String
  | .none => ""
  | .v4 b => quad b
  | .v6 b => if Mapped b then quad (last4 b) else T.text b

/-- `netip.Addr.String`. -/
def IP.addrString (T : IPv6Text) : IP → String
  | .none => "invalid IP"
  | .v4 b => quad b
  | .v6 b => if Mapped b then "::ffff:" ++ quad (last4 b) else T.text b

/-- `net.JoinHostPort`. -/
def joinHostPort (host port : String) : String :=
  if ':' ∈ host.toList then "[" ++ host ++ "]:" ++ port else host ++ ":" ++ port

/-- `net.UDPAddr.String`. -/
def UDPAddr.string (T : IPv6Text) (a : UDPAddr) : String :=
  joinHostPort (a.ip.string T) (itoa a.port)

/-- `netip.AddrPort.String`. -/
def addrPortString (T : IPv6Text) (ip : IP) (port : Nat) : String :=
  match ip with
  | .none => "invalid AddrPort"
  | .v4 b => quad b ++ ":" ++ itoa port
  | .v6 b =>
    let text := if IP.Mapped b then "::ffff:" ++ quad (IP.last4 b) else T.text b
    "[" ++ text ++ "]:" ++ itoa port

section Texts

variable {T : IPv6Text} {p q : Nat}

theorem hostPort_inj {s t : String} (h : s ++ ":" ++ itoa p = t ++ ":" ++ itoa q) :
    s = t ∧ p = q := by
  have hcolon : ∀ n, ':' ∉ (itoa n).toList := fun n => not_mem_itoa rfl
  have hlist := congrArg String.toList h
  simp only [String.toList_append, List.append_assoc] at hlist
  obtain ⟨hst, hpq⟩ := append_cons_inj_last (hcolon p) (hcolon q) hlist
  exact ⟨String.toList_inj.mp hst, itoa_inj hpq⟩

theorem bracketed_inj {s t : String}
    (h : "[" ++ s ++ "]:" ++ itoa p = "[" ++ t ++ "]:" ++ itoa q) : s = t ∧ p = q := by
  have hsplit : ∀ u : String, "[" ++ u ++ "]:" = "[" ++ u ++ "]" ++ ":" := by
    intro u
    rw [String.append_assoc, String.append_assoc, String.append_assoc]
    rfl
  rw [hsplit, hsplit] at h
  obtain ⟨hst, hpq⟩ := hostPort_inj h
  have hlist := congrArg String.toList hst
  simp only [String.toList_append] at hlist
  have hmid := List.append_cancel_right hlist
  exact ⟨String.toList_inj.mp (List.append_cancel_left hmid), hpq⟩

theorem quad_ne_bracket (b : List.Vector Byte 4) (s : String) :
    quad b ++ ":" ++ itoa p ≠ "[" ++ s ++ "]:" ++ itoa q := by
  intro h
  have hmem : '[' ∉ (quad b ++ ":" ++ itoa p).toList := by
    have hq := not_mem_quad (c := '[') rfl (by decide) b
    have hp : '[' ∉ (itoa p).toList := not_mem_itoa rfl
    simp [hq, hp]
  rw [h] at hmem
  simp at hmem

theorem joinHostPort_quad (b : List.Vector Byte 4) (port : String) :
    joinHostPort (quad b) port = quad b ++ ":" ++ port := by
  rw [joinHostPort, if_neg (not_mem_quad rfl (by decide) b)]

/-- The text of a `net.UDPAddr` whose IP has an IPv4 form. -/
theorem UDPAddr.string_of_v4 {a : UDPAddr} {b : List.Vector Byte 4} (h : a.ip.unmap = .v4 b) :
    a.string T = quad b ++ ":" ++ itoa a.port := by
  obtain ⟨ip, port⟩ := a
  rw [UDPAddr.string]
  cases ip with
  | none => cases h
  | v4 b =>
    cases h
    exact joinHostPort_quad b _
  | v6 b =>
    by_cases hm : IP.Mapped b
    · rw [IP.unmap_of_mapped hm] at h
      cases h
      rw [IP.string, if_pos hm, joinHostPort_quad]
    · rw [IP.unmap_of_not_mapped hm] at h
      cases h

/-- And of one whose IP has none. -/
theorem UDPAddr.string_of_v6 {a : UDPAddr} {b : List.Vector Byte 16} (h : a.ip.unmap = .v6 b) :
    a.string T = "[" ++ T.text b ++ "]:" ++ itoa a.port := by
  obtain ⟨ip, port⟩ := a
  rw [UDPAddr.string]
  cases ip with
  | none => cases h
  | v4 b => cases h
  | v6 b =>
    by_cases hm : IP.Mapped b
    · rw [IP.unmap_of_mapped hm] at h
      cases h
    · rw [IP.unmap_of_not_mapped hm] at h
      cases h
      rw [IP.string, if_neg hm, joinHostPort, if_pos (T.colon b)]

/-- **When the two packages print the same text.** For two addresses that are set,
the `net` text of one is the `netip` text of the other exactly when they denote the
same host and port and the `netip` one is not IPv4-mapped. -/
theorem UDPAddr.string_eq_addrPortString {a : UDPAddr} {ip : IP} (ha : a.ip ≠ .none)
    (hip : ip ≠ .none) :
    a.string T = addrPortString T ip p ↔
      ip.is4In6 = false ∧ a.ip.unmap = ip.unmap ∧ a.port = p := by
  cases ip with
  | none => exact absurd rfl hip
  | v4 d =>
    simp only [addrPortString, IP.is4In6, IP.unmap_v4, true_and]
    rcases IP.unmap_cases ha with ⟨b, hb⟩ | ⟨b, hb, -⟩
    · rw [UDPAddr.string_of_v4 hb, hb]
      constructor
      · intro h
        obtain ⟨hq, hp⟩ := hostPort_inj h
        exact ⟨by rw [quad_injective hq], hp⟩
      · rintro ⟨hq, hp⟩
        cases hq
        rw [hp]
    · rw [UDPAddr.string_of_v6 hb, hb]
      exact ⟨fun h => absurd h.symm (quad_ne_bracket d _), fun h => nomatch h.1⟩
  | v6 d =>
    by_cases hm : IP.Mapped d
    · -- a bracketed quad is the text of no `net.UDPAddr`
      simp only [addrPortString, IP.is4In6, hm, if_true, decide_true, Bool.true_eq_false,
        false_and, iff_false]
      rcases IP.unmap_cases ha with ⟨b, hb⟩ | ⟨b, hb, hnm⟩
      · rw [UDPAddr.string_of_v4 hb]
        exact quad_ne_bracket b _
      · rw [UDPAddr.string_of_v6 hb]
        exact fun h => T.ne_mapped b _ hnm (bracketed_inj h).1
    · rw [IP.unmap_of_not_mapped hm]
      simp only [addrPortString, IP.is4In6, hm, if_false, decide_false, true_and]
      rcases IP.unmap_cases ha with ⟨b, hb⟩ | ⟨b, hb, hnm⟩
      · rw [UDPAddr.string_of_v4 hb, hb]
        exact ⟨fun h => absurd h (quad_ne_bracket b _), fun h => nomatch h.1⟩
      · rw [UDPAddr.string_of_v6 hb, hb]
        constructor
        · intro h
          obtain ⟨ht, hp⟩ := bracketed_inj h
          exact ⟨by rw [T.injective hnm hm ht], hp⟩
        · rintro ⟨ht, hp⟩
          cases ht
          rw [hp]

end Texts

end Tun2socks.Go
