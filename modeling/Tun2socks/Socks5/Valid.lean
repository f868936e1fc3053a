import Tun2socks.Socks5.Addr

/-!
# Tun2socks.Socks5.Valid

`Addr.Valid`, the third recogniser of addresses, and the two decoders it guards.

`Valid` looks at the length that the type of an address asks for, as `SplitAddr` does, but
its `switch` has no default: an address of no known type passes if it has four bytes
(`Unknown`). For all others the two agree, and `UDPAddr` and `String` decode exactly the
addresses that are complete.
-/

namespace Tun2socks.Socks5

open Tun2socks.Go

/-- Bytes of no known type, long enough for `Valid`. -/
def Unknown (a : Addr) : Prop :=
  ∃ atyp body, a = atyp :: body ∧ 3 ≤ body.length ∧
    atyp ≠ atypIPv4 ∧ atyp ≠ atypDomainName ∧ atyp ≠ atypIPv6

/-- A complete address with an IP, and the `net.UDPAddr` it stands for. -/
inductive HasIP : Addr → UDPAddr → Prop
  | ipv4 (ip : List.Vector Byte 4) (hi lo : Byte) :
      HasIP (atypIPv4 :: (ip.1 ++ [hi, lo])) ⟨.v4 ip, uint16 hi lo⟩
  | ipv6 (ip : List.Vector Byte 16) (hi lo : Byte) :
      HasIP (atypIPv6 :: (ip.1 ++ [hi, lo])) ⟨.v6 ip, uint16 hi lo⟩

/-- `a` is decoded as the grammar of addresses wants it. -/
structure Recognised (T : IPv6Text) (a : Addr) : Prop where
  valid : a.valid = true ↔ splitAddr a ≠ none
  udpAddr : ∀ u, a.udpAddr = some u ↔ ∃ c rest, a = c ++ rest ∧ HasIP c u
  string : a.string T = "" ↔ ¬ ∃ c rest, a = c ++ rest ∧ Complete c

theorem HasIP.complete {a : Addr} {u : UDPAddr} (h : HasIP a u) : Complete a := by
  cases h with
  | ipv4 ip hi lo => exact .ipv4 ip hi lo
  | ipv6 ip hi lo => exact .ipv6 ip hi lo

/-- `Valid` wants four bytes, and the length that the type asks for if it is known. -/
theorem valid_iff (a : Addr) :
    a.valid = true ↔ 4 ≤ a.length ∧ ∀ len, addrLen a = some len → len ≤ a.length := by
  cases a with
  | nil => decide
  | cons atyp body =>
    by_cases hd : atyp = atypDomainName
    · subst hd
      cases body with
      | nil => exact iff_of_false (by decide) (fun h => absurd h.1 (by simp))
      | cons len body => simp [Addr.valid]
    by_cases h4 : atyp = atypIPv4
    · subst h4
      simp [Addr.valid, hd]
    by_cases h6 : atyp = atypIPv6
    · subst h6
      simp [Addr.valid, hd, h4]
    · simp [Addr.valid, addrLen, hd, h4, h6]

theorem unknown_iff (a : Addr) : Unknown a ↔ 4 ≤ a.length ∧ addrLen a = none := by
  constructor
  · intro h
    obtain ⟨atyp, body, rfl, hlen, h4, hd, h6⟩ := h
    exact ⟨Nat.succ_le_succ hlen, by simp [addrLen, h4, hd, h6]⟩
  · intro h
    obtain ⟨hlen, hnone⟩ := h
    cases a with
    | nil => simp at hlen
    | cons atyp body =>
      refine ⟨atyp, body, rfl, Nat.le_of_succ_le_succ hlen, ?_, ?_, ?_⟩
      · intro h4
        rw [h4, addrLen_ipv4] at hnone
        cases hnone
      · intro hd
        cases body with
        | nil => simp at hlen
        | cons l body =>
          rw [hd, addrLen_domainName] at hnone
          cases hnone
      · intro h6
        rw [h6, addrLen_ipv6] at hnone
        cases hnone

/-! ### Addresses that `SplitAddr` finds -/

section Complete

variable {c : Addr} {rest : List Byte}

/-- Bytes begin with at most one complete address. -/
theorem Complete.eq_of_append {c' : Addr} {rest' : List Byte} (h : Complete c) (h' : Complete c')
    (heq : c ++ rest = c' ++ rest') : c = c' := by
  have hsplit := splitAddr_eq_some.mpr ⟨h, rest, rfl⟩
  have hsplit' := splitAddr_eq_some.mpr ⟨h', rest', rfl⟩
  rw [heq, hsplit'] at hsplit
  exact (Option.some.inj hsplit).symm

theorem Complete.valid_append (h : Complete c) (rest : List Byte) :
    Addr.valid (c ++ rest) = true := by
  have hle : c.length ≤ (c ++ rest).length := by simp
  refine (valid_iff _).mpr ⟨le_trans h.four_le hle, fun len hlen => ?_⟩
  rw [h.addrLen_append] at hlen
  exact Option.some.inj hlen ▸ hle

theorem udpAddr_ipv4_append (ip : List.Vector Byte 4) (hi lo : Byte) :
    Addr.udpAddr (atypIPv4 :: (ip.1 ++ [hi, lo]) ++ rest) = some ⟨.v4 ip, uint16 hi lo⟩ := by
  have hvalid := (Complete.ipv4 ip hi lo).valid_append rest
  rw [Addr.udpAddr, hvalid]
  obtain ⟨ip, hip⟩ := ip
  match ip, hip with
  | [b₀, b₁, b₂, b₃], _ => rfl

theorem udpAddr_ipv6_append (ip : List.Vector Byte 16) (hi lo : Byte) :
    Addr.udpAddr (atypIPv6 :: (ip.1 ++ [hi, lo]) ++ rest) = some ⟨.v6 ip, uint16 hi lo⟩ := by
  have hvalid := (Complete.ipv6 ip hi lo).valid_append rest
  rw [Addr.udpAddr, hvalid]
  obtain ⟨ip, hip⟩ := ip
  match ip, hip with
  | [b₀, b₁, b₂, b₃, b₄, b₅, b₆, b₇, b₈, b₉, b₁₀, b₁₁, b₁₂, b₁₃, b₁₄, b₁₅], _ => rfl

theorem udpAddr_domainName_append (len : Byte) (name : List.Vector Byte len.toNat) (hi lo : Byte) :
    Addr.udpAddr (atypDomainName :: len :: (name.1 ++ [hi, lo]) ++ rest) = none := by
  have hvalid := (Complete.domainName len name hi lo).valid_append rest
  rw [Addr.udpAddr, hvalid]
  rfl

/-- `UDPAddr` decodes the complete addresses with an IP, whatever follows. -/
theorem Complete.udpAddr_append (h : Complete c) (u : UDPAddr) :
    Addr.udpAddr (c ++ rest) = some u ↔ HasIP c u := by
  cases h with
  | ipv4 ip hi lo =>
    rw [udpAddr_ipv4_append]
    constructor
    · intro hu
      obtain rfl := Option.some.inj hu
      exact .ipv4 ip hi lo
    · intro hu
      have hself := udpAddr_ipv4 ip hi lo
      generalize atypIPv4 :: (ip.1 ++ [hi, lo]) = a at hu hself
      cases hu with
      | ipv4 ip' hi' lo' => rw [← hself, udpAddr_ipv4]
      | ipv6 ip' hi' lo' => rw [← hself, udpAddr_ipv6]
  | domainName len name hi lo =>
    rw [udpAddr_domainName_append]
    refine iff_of_false (Option.some_ne_none u).symm ?_
    intro hu
    generalize ha : atypDomainName :: len :: (name.1 ++ [hi, lo]) = a at hu
    cases hu with
    | ipv4 ip' hi' lo' => exact absurd (List.cons.inj ha).1 (by decide)
    | ipv6 ip' hi' lo' => exact absurd (List.cons.inj ha).1 (by decide)
  | ipv6 ip hi lo =>
    rw [udpAddr_ipv6_append]
    constructor
    · intro hu
      obtain rfl := Option.some.inj hu
      exact .ipv6 ip hi lo
    · intro hu
      have hself := udpAddr_ipv6 ip hi lo
      generalize atypIPv6 :: (ip.1 ++ [hi, lo]) = a at hu hself
      cases hu with
      | ipv4 ip' hi' lo' => rw [← hself, udpAddr_ipv4]
      | ipv6 ip' hi' lo' => rw [← hself, udpAddr_ipv6]

end Complete

theorem joinHostPort_ne_empty (host port : String) : joinHostPort host port ≠ "" := by
  intro h
  have hlist := congrArg String.toList h
  unfold joinHostPort at hlist
  split at hlist <;> simp at hlist

/-- What `String` prints is never empty. -/
theorem string_ne_empty {T : IPv6Text} {a : Addr} (h : a.valid = true) : a.string T ≠ "" := by
  unfold Addr.string
  rw [h]
  simp only [Bool.true_eq_false, if_false]
  split
  · exact joinHostPort_ne_empty _ _
  split
  · exact joinHostPort_ne_empty _ _
  split
  · exact joinHostPort_ne_empty _ _
  · exact joinHostPort_ne_empty _ _

/-! ### The others -/

theorem Unknown.splitAddr_eq_none {a : Addr} (h : Unknown a) : splitAddr a = none := by
  rw [splitAddr, ((unknown_iff a).mp h).2]

/-- Where `SplitAddr` finds nothing, `Valid` is wrong about the unknown types only. -/
theorem valid_iff_unknown {a : Addr} (h : splitAddr a = none) : a.valid = true ↔ Unknown a := by
  rw [valid_iff, unknown_iff]
  refine and_congr_right fun _ => ?_
  cases hlen : addrLen a with
  | none => exact iff_of_true (fun len hsome => nomatch hsome) rfl
  | some len =>
    refine iff_of_false (fun hle => ?_) (Option.some_ne_none len)
    rw [splitAddr, hlen] at h
    dsimp only at h
    rw [if_neg (Nat.not_lt.mpr (hle len rfl))] at h
    cases h

/-- Bytes that begin with a complete address are recognised. -/
theorem Complete.recognised (T : IPv6Text) {c : Addr} (hc : Complete c) (rest : List Byte) :
    Recognised T (c ++ rest) where
  valid := by
    rw [splitAddr_eq_some.mpr ⟨hc, rest, rfl⟩]
    exact iff_of_true (hc.valid_append rest) (Option.some_ne_none c)
  udpAddr u := by
    rw [hc.udpAddr_append]
    constructor
    · intro hu
      exact ⟨c, rest, rfl, hu⟩
    · intro h
      obtain ⟨c', rest', heq, hu⟩ := h
      rwa [hc.eq_of_append hu.complete heq]
  string := iff_of_false (string_ne_empty (hc.valid_append rest)) (fun h => h ⟨c, rest, rfl, hc⟩)

/-- And so are bytes that are rejected by `SplitAddr` and by `Valid`. -/
theorem recognised_of_not_valid (T : IPv6Text) {a : Addr} (hsplit : splitAddr a = none)
    (hvalid : a.valid = false) : Recognised T a := by
  have hnone : ¬ ∃ c rest, a = c ++ rest ∧ Complete c := by
    intro h
    obtain ⟨c, rest, ha, hc⟩ := h
    rw [splitAddr_eq_some.mpr ⟨hc, rest, ha⟩] at hsplit
    cases hsplit
  refine ⟨?_, ?_, ?_⟩
  · rw [hvalid]
    exact iff_of_false Bool.false_ne_true (fun h => h hsplit)
  · intro u
    rw [Addr.udpAddr, if_pos hvalid]
    refine iff_of_false (Option.some_ne_none u).symm ?_
    intro h
    obtain ⟨c, rest, ha, hc⟩ := h
    exact hnone ⟨c, rest, ha, hc.complete⟩
  · rw [Addr.string, if_pos hvalid]
    exact iff_of_true rfl hnone

/-- **When `Valid` recognises addresses.** For every byte string: `Valid` agrees with
`SplitAddr`, `UDPAddr` gives the IP and port of a complete address that the bytes begin
with and `nil` if there is none, and `String` is empty if they begin with no complete
address, exactly if the bytes are not of an unknown type with a length of at least four. -/
theorem recognised_iff (T : IPv6Text) (a : Addr) : Recognised T a ↔ ¬ Unknown a := by
  cases hsplit : splitAddr a with
  | some c =>
    obtain ⟨hc, rest, rfl⟩ := splitAddr_eq_some.mp hsplit
    refine iff_of_true (hc.recognised T rest) ?_
    intro hu
    rw [hu.splitAddr_eq_none] at hsplit
    cases hsplit
  | none =>
    constructor
    · intro h hu
      exact h.valid.mp ((valid_iff_unknown hsplit).mpr hu) hsplit
    · intro hu
      have hvalid : a.valid = false := by
        rw [← Bool.not_eq_true, valid_iff_unknown hsplit]
        exact hu
      exact recognised_of_not_valid T hsplit hvalid

/-- Four bytes of type 2: `Valid` accepts them, and they are decoded as an address without
IP and as a lone colon. -/
theorem recognised_fails :
    let a : Addr := [2, 0, 0, 0]
    a.valid = true ∧ splitAddr a = none ∧ a.udpAddr = some ⟨.none, 0⟩ ∧
      a.string .decimal = ":" ∧ ¬ Recognised .decimal a := by
  refine ⟨rfl, rfl, rfl, by decide, ?_⟩
  intro h
  exact (h.valid.mp rfl) rfl

end Tun2socks.Socks5
