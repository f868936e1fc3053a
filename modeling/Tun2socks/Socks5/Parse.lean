import Tun2socks.Go.Netip
import Tun2socks.Socks5.Packet

/-!
# Tun2socks.Socks5.Parse

Model of `ParseAddr` and `ParseAddrString` of `transport/socks5/socks5.go`.

The two read the same address from different representations: the bytes that a
`net.Addr` holds, and the text that it prints. `parseAddr_eq_iff` says on which
addresses they agree, and `parseAddrString_wellFormed_iff` for which texts the result
is an address at all.
-/

namespace Tun2socks.Socks5

open Tun2socks.Go Tun2socks.Go.HostPort

/-- The largest value of `strconv.ParseUint(port, 10, 16)`. -/
def maxPort : Nat := 65535

variable {T : IPv6Text}

/-- `ParseAddrString(s)`, with `none` for `nil`. -/
def parseAddrString (P : IPv6Literals T) (s : List Byte) : Option Addr :=
  match split s with
  | .error _ => none
  | .ok (host, port) =>
    match parseUint maxPort port with
    | .error _ => none
    | .ok dstPort =>
      match Go.parseAddr P host with
      | .none => some (serializeAddr host .none (UInt16.ofNat dstPort))
      | ip => some (serializeAddr [] ip (UInt16.ofNat dstPort))

/-- A `net.Addr`: one with an `AddrPort` method, or any other with its text. -/
inductive AnyAddr
  | udp (a : NetAddr)
  | tcp (a : NetAddr)
  | other (text : List Byte)

/-- `addr.String()`. -/
def AnyAddr.string (T : IPv6Text) : AnyAddr → List Byte
  | udp a => a.string T
  | tcp a => a.string T
  | other text => text

/-- `ParseAddr(addr)`. `AddrPort` converts the IP as it is, and a zone does not show in
the bytes of an address. -/
def parseAddr (P : IPv6Literals T) : AnyAddr → Option Addr
  | .udp a => some (serializeAddr [] a.ip a.port)
  | .tcp a => some (serializeAddr [] a.ip a.port)
  | .other text => parseAddrString P text

section ParseAddrString

variable {P : IPv6Literals T} {s host port : List Byte} {dstPort : Nat}

theorem parseAddrString_of_ip (hs : split s = .ok (host, port))
    (hport : parseUint maxPort port = .ok dstPort) (hip : Go.parseAddr P host ≠ .none) :
    parseAddrString P s = some (serializeAddr [] (Go.parseAddr P host) (UInt16.ofNat dstPort)) := by
  simp only [parseAddrString, hs, hport]

theorem parseAddrString_of_name (hs : split s = .ok (host, port))
    (hport : parseUint maxPort port = .ok dstPort) (hip : Go.parseAddr P host = .none) :
    parseAddrString P s = some (serializeAddr host .none (UInt16.ofNat dstPort)) := by
  simp only [parseAddrString, hs, hport, hip]

end ParseAddrString

/-! ### No address is empty -/

theorem serializeAddr_ne_nil (name : List Byte) (ip : IP) (port : UInt16) :
    serializeAddr name ip port ≠ [] := by
  unfold serializeAddr
  dsimp only
  split
  · exact List.cons_ne_nil _ _
  · cases ip <;> exact List.cons_ne_nil _ _

theorem parseAddr_ne_nil {P : IPv6Literals T} {addr : AnyAddr} {a : Addr}
    (h : parseAddr P addr = some a) : a ≠ [] := by
  cases addr with
  | udp x =>
    obtain rfl := Option.some.inj h
    exact serializeAddr_ne_nil _ _ _
  | tcp x =>
    obtain rfl := Option.some.inj h
    exact serializeAddr_ne_nil _ _ _
  | other text =>
    rw [Socks5.parseAddr, parseAddrString] at h
    split at h
    · cases h
    · split at h
      · cases h
      · split at h
        · obtain rfl := Option.some.inj h
          exact serializeAddr_ne_nil _ _ _
        · obtain rfl := Option.some.inj h
          exact serializeAddr_ne_nil _ _ _

/-! ### Well-formed results -/

/-- The address with this host and port: the bytes of an IP literal, or the name behind
its length. -/
inductive Denotes (P : IPv6Literals T) (host : List Byte) (dstPort : Nat) : Addr → Prop
  | ipv4 (ip : List.Vector Byte 4) (h : Go.parseAddr P host = .v4 ip) :
      Denotes P host dstPort (atypIPv4 :: (ip.1 ++ putUint16 dstPort))
  | ipv6 (ip : List.Vector Byte 16) (h : Go.parseAddr P host = .v6 ip) :
      Denotes P host dstPort (atypIPv6 :: (ip.1 ++ putUint16 dstPort))
  | domainName (len : Byte) (h : Go.parseAddr P host = .none) (hlen : len.toNat = host.length) :
      Denotes P host dstPort (atypDomainName :: len :: (host ++ putUint16 dstPort))

/-- `ParseAddrString(s)` is `nil`, or a whole address with the host and the port of `s`. -/
def WellFormed (P : IPv6Literals T) (s : List Byte) : Prop :=
  parseAddrString P s = none ∨
    ∃ a host port dstPort, parseAddrString P s = some a ∧ splitAddr a = some a ∧
      split s = .ok (host, port) ∧ parseUint maxPort port = .ok dstPort ∧ Denotes P host dstPort a

section WellFormed

variable {P : IPv6Literals T} {s host port : List Byte} {dstPort : Nat}

/-- A port that has been parsed fits its field. -/
theorem toNat_ofNat_port (h : parseUint maxPort port = .ok dstPort) :
    (UInt16.ofNat dstPort).toNat = dstPort := by
  obtain ⟨-, -, -, hle⟩ := parseUint_eq_ok.mp h
  exact UInt16.toNat_ofNat_of_lt' (Nat.lt_succ_of_le hle)

theorem splitAddr_self {a : Addr} (h : Complete a) : splitAddr a = some a :=
  splitAddr_eq_some.mpr ⟨h, [], (List.append_nil a).symm⟩

/-- An IP literal is serialized as it is. -/
theorem denotes_ip (hport : parseUint maxPort port = .ok dstPort)
    (hip : Go.parseAddr P host ≠ .none) :
    Denotes P host dstPort (serializeAddr [] (Go.parseAddr P host) (UInt16.ofNat dstPort)) := by
  cases h : Go.parseAddr P host with
  | none => exact absurd h hip
  | v4 ip =>
    have haddr : Denotes P host dstPort _ := .ipv4 ip h
    simpa [serializeAddr, toNat_ofNat_port hport] using haddr
  | v6 ip =>
    have haddr : Denotes P host dstPort _ := .ipv6 ip h
    simpa [serializeAddr, IP.asSlice, toNat_ofNat_port hport] using haddr

/-- A name is, if it has 1 to 255 bytes. -/
theorem denotes_name_iff (hport : parseUint maxPort port = .ok dstPort)
    (hip : Go.parseAddr P host = .none) :
    Denotes P host dstPort (serializeAddr host .none (UInt16.ofNat dstPort)) ↔
      1 ≤ host.length ∧ host.length ≤ 255 := by
  have hvalue := toNat_ofNat_port hport
  constructor
  · intro h
    generalize ha : serializeAddr host .none (UInt16.ofNat dstPort) = a at h
    cases h with
    | ipv4 ip h => rw [hip] at h; cases h
    | ipv6 ip h => rw [hip] at h; cases h
    | domainName len h hlen =>
      have hlt := len.toNat_lt
      refine ⟨Nat.one_le_iff_ne_zero.mpr fun hzero => ?_, by omega⟩
      -- an empty name is serialized as an IPv6 address without its bytes
      obtain rfl := List.length_eq_zero_iff.mp hzero
      simp [serializeAddr, atypIPv6, atypDomainName] at ha
  · rintro ⟨hpos, hle⟩
    have hcount : (UInt8.ofNat host.length).toNat = host.length :=
      UInt8.toNat_ofNat_of_lt' (Nat.lt_succ_of_le hle)
    have haddr : Denotes P host dstPort _ := .domainName _ hip hcount
    simpa [serializeAddr, List.length_pos_iff.mp hpos, hvalue] using haddr

end WellFormed

/-- **When `ParseAddrString` returns a well-formed address.** For every string, the
result is `nil` or the whole address of its host and port exactly if the host, where it
is no IP literal, has 1 to 255 bytes. -/
theorem parseAddrString_wellFormed_iff (P : IPv6Literals T) (s : List Byte) :
    WellFormed P s ↔ ∀ host port dstPort, split s = .ok (host, port) →
      parseUint maxPort port = .ok dstPort → Go.parseAddr P host = .none →
        1 ≤ host.length ∧ host.length ≤ 255 := by
  constructor
  · rintro hwell host port dstPort hs hport hip
    have hres := parseAddrString_of_name hs hport hip
    rcases hwell with hnone | ⟨a, host', port', dstPort', hsome, -, hs', hport', hden⟩
    · rw [hres] at hnone
      cases hnone
    · rw [hs] at hs'
      cases hs'
      rw [hport] at hport'
      cases hport'
      rw [hres] at hsome
      cases hsome
      exact (denotes_name_iff hport hip).mp hden
  · intro hhost
    cases hs : split s with
    | error err => exact .inl (by simp only [parseAddrString, hs])
    | ok r =>
      obtain ⟨host, port⟩ := r
      cases hport : parseUint maxPort port with
      | error err => exact .inl (by simp only [parseAddrString, hs, hport])
      | ok dstPort =>
        by_cases hip : Go.parseAddr P host = .none
        · obtain ⟨hpos, hle⟩ := hhost host port dstPort hs hport hip
          exact .inr ⟨_, host, port, dstPort, parseAddrString_of_name hs hport hip,
            splitAddr_self (serializeAddr_domainName hpos hle _ _), hs, hport,
            (denotes_name_iff hport hip).mpr ⟨hpos, hle⟩⟩
        · exact .inr ⟨_, host, port, dstPort, parseAddrString_of_ip hs hport hip,
            splitAddr_self (serializeAddr_ip hip _).1, hs, hport, denotes_ip hport hip⟩

/-- A text without host gives an IPv6 address that has no IP, and the length of a name of
256 bytes is counted as 0. -/
theorem parseAddrString_malformed :
    parseAddrString .decimal (ascii ":53") = some [4, 0, 53] ∧ splitAddr [4, 0, 53] = none ∧
    parseAddrString .decimal (List.replicate 256 0x61 ++ ascii ":53") =
      some ([3, 0] ++ List.replicate 256 0x61 ++ [0, 53]) ∧
    splitAddr ([3, 0] ++ List.replicate 256 0x61 ++ [0, 53]) = some [3, 0, 0x61, 0x61] := by
  decide +kernel

/-! ### The fast path -/

section Join

variable {P : IPv6Literals T} {host : List Byte} {port : UInt16}

theorem parseAddrString_join_ip (hleft : leftBracket ∉ host) (hright : rightBracket ∉ host)
    {ip : IP} (hparse : Go.parseAddr P host = ip) (hip : ip ≠ .none) :
    parseAddrString P (join host (ascii (itoa port.toNat))) = some (serializeAddr [] ip port) := by
  subst hparse
  rw [parseAddrString_of_ip (split_join hleft hright (bare_itoa _))
    (parseUint_itoa (Nat.le_of_lt_succ port.toNat_lt)) hip, UInt16.ofNat_toNat]

theorem parseAddrString_join_name (hleft : leftBracket ∉ host) (hright : rightBracket ∉ host)
    (hparse : Go.parseAddr P host = .none) :
    parseAddrString P (join host (ascii (itoa port.toNat))) =
      some (serializeAddr host .none port) := by
  rw [parseAddrString_of_name (split_join hleft hright (bare_itoa _))
    (parseUint_itoa (Nat.le_of_lt_succ port.toNat_lt)) hparse, UInt16.ofNat_toNat]

theorem parseAddrString_join_error (hhead : host.head? ≠ some leftBracket)
    (hbracket : leftBracket ∈ host ∨ rightBracket ∈ host) :
    parseAddrString P (join host (ascii (itoa port.toNat))) = none := by
  rw [parseAddrString]
  cases h : split (join host (ascii (itoa port.toNat))) with
  | error err => rfl
  | ok r => exact absurd h (split_join_error hhead hbracket r)

/-- A text whose host is no literal does not give the address of an IP. -/
theorem parseAddrString_join_ne (hne : host ≠ []) (hhead : host.head? ≠ some leftBracket)
    (hparse : Go.parseAddr P host = .none) (ip : IP) :
    parseAddrString P (join host (ascii (itoa port.toNat))) ≠ some (serializeAddr [] ip port) := by
  by_cases hbracket : leftBracket ∈ host ∨ rightBracket ∈ host
  · rw [parseAddrString_join_error hhead hbracket]
    exact (Option.some_ne_none _).symm
  · rw [not_or] at hbracket
    rw [parseAddrString_join_name hbracket.1 hbracket.2 hparse]
    intro h
    have htype := congrArg List.head? (Option.some.inj h)
    cases ip with
    | none => simp [serializeAddr, hne, atypDomainName, atypIPv6] at htype
    | v4 b => simp [serializeAddr, hne, atypDomainName, atypIPv4] at htype
    | v6 b => simp [serializeAddr, hne, atypDomainName, atypIPv6] at htype

end Join

/-- The bytes of a `net.UDPAddr` or `net.TCPAddr` can be had from its text: there is no
zone and the IP is not IPv4-mapped, or the IP has no IPv4 form and the zone no
brackets. -/
def Textual (a : NetAddr) : Prop :=
  (a.zone = [] ∧ a.ip.is4In6 = false) ∨
    ∃ b, a.ip = .v6 b ∧ ¬ IP.Mapped b ∧ leftBracket ∉ a.zone ∧ rightBracket ∉ a.zone

/-- The same for any `net.Addr`; for others `ParseAddr` takes the text. -/
def AnyAddr.Textual : AnyAddr → Prop
  | udp a => Socks5.Textual a
  | tcp a => Socks5.Textual a
  | other _ => True

section FastPath

variable {P : IPv6Literals T}

/-- A dotted quad has no zone, so with one it is a name. -/
theorem quad_zone_ne (b : List.Vector Byte 4) (zone : List Byte) (ip : IP) (port : UInt16) :
    parseAddrString P (join (ascii (quad b) ++ percent :: zone) (ascii (itoa port.toNat))) ≠
      some (serializeAddr [] ip port) := by
  have hhead : (ascii (quad b) ++ percent :: zone).head? ≠ some leftBracket := by
    rw [List.head?_append_of_ne_nil _ (ascii_quad_ne_nil b)]
    exact fun h => not_mem_ascii_quad rfl (by decide) b (List.mem_of_mem_head? h)
  exact parseAddrString_join_ne (by simp) hhead (parseAddr_quad_zone b zone) ip

theorem parseAddrString_quad (b : List.Vector Byte 4) (port : UInt16) :
    parseAddrString P (join (ascii (quad b)) (ascii (itoa port.toNat))) =
      some (serializeAddr [] (.v4 b) port) :=
  parseAddrString_join_ip (not_mem_ascii_quad rfl (by decide) b)
    (not_mem_ascii_quad rfl (by decide) b) (parseAddr_quad b) (by simp)

theorem brackets_not_mem_text (P : IPv6Literals T) (b : List.Vector Byte 16) :
    leftBracket ∉ ascii (T.text b) ∧ rightBracket ∉ ascii (T.text b) :=
  ⟨fun h => (P.plain h).2.2.1 rfl, fun h => (P.plain h).2.2.2 rfl⟩

/-- The brackets of a text with a zone are those of the zone. -/
theorem mem_text_zone {b : List.Vector Byte 16} {c : Byte} (hc : c ∉ ascii (T.text b))
    (hpercent : c ≠ percent) (zone : List Byte) :
    c ∈ ascii (T.text b) ++ percent :: zone ↔ c ∈ zone := by
  rw [List.mem_append, List.mem_cons, or_iff_right hc, or_iff_right hpercent]

/-- Without a zone the text of an address gives its bytes, unless the IP is
IPv4-mapped. -/
theorem parseAddrString_string (ip : IP) (port : UInt16) :
    some (serializeAddr [] ip port) = parseAddrString P (NetAddr.string T ⟨ip, port, []⟩) ↔
      ip.is4In6 = false := by
  simp only [NetAddr.string, NetAddr.host, ne_eq, not_true_eq_false, if_false]
  cases ip with
  | none =>
    refine iff_of_true ?_ rfl
    exact (parseAddrString_join_name (by decide) (by decide) rfl).symm
  | v4 b => exact iff_of_true (parseAddrString_quad b port).symm rfl
  | v6 b =>
    by_cases hm : IP.Mapped b
    · -- the text is a dotted quad
      refine iff_of_false ?_ (by simp [IP.is4In6, hm])
      rw [IP.string, if_pos hm, parseAddrString_quad]
      simp [serializeAddr, atypIPv4, atypIPv6]
    · refine iff_of_true ?_ (by simp [IP.is4In6, hm])
      obtain ⟨hleft, hright⟩ := brackets_not_mem_text P b
      rw [IP.string, if_neg hm, parseAddrString_join_ip hleft hright (parseAddr_text hm) (by simp)]

/-- With a zone it does if the IP has no IPv4 form and the zone has no brackets. -/
theorem parseAddrString_string_zone (ip : IP) (port : UInt16) {zone : List Byte}
    (hzone : zone ≠ []) :
    some (serializeAddr [] ip port) = parseAddrString P (NetAddr.string T ⟨ip, port, zone⟩) ↔
      ∃ b, ip = .v6 b ∧ ¬ IP.Mapped b ∧ leftBracket ∉ zone ∧ rightBracket ∉ zone := by
  simp only [NetAddr.string, NetAddr.host, if_pos hzone]
  cases ip with
  | none =>
    refine iff_of_false (Ne.symm ?_) (by simp)
    have hhead : (percent :: zone).head? ≠ some leftBracket := by
      rw [List.head?_cons]
      decide
    exact parseAddrString_join_ne (by simp) hhead (parseAddr_zone zone) _
  | v4 b => exact iff_of_false (quad_zone_ne b zone _ port).symm (by simp)
  | v6 b =>
    by_cases hm : IP.Mapped b
    · rw [IP.string, if_pos hm]
      refine iff_of_false (quad_zone_ne (IP.last4 b) zone _ port).symm ?_
      rintro ⟨b', h, hnm, -⟩
      cases h
      exact hnm hm
    · obtain ⟨htextLeft, htextRight⟩ := brackets_not_mem_text P b
      have hleft := mem_text_zone htextLeft (by decide) zone
      have hright := mem_text_zone htextRight (by decide) zone
      rw [IP.string, if_neg hm]
      by_cases hbracket : leftBracket ∈ zone ∨ rightBracket ∈ zone
      · have hhead : (ascii (T.text b) ++ percent :: zone).head? ≠ some leftBracket := by
          rw [List.head?_append_of_ne_nil _ (List.ne_nil_of_mem (colon_mem_text b))]
          exact fun h => htextLeft (List.mem_of_mem_head? h)
        refine iff_of_false ?_ ?_
        · rw [parseAddrString_join_error hhead (by rwa [hleft, hright])]
          exact Option.some_ne_none _
        · rintro ⟨-, -, -, hl, hr⟩
          exact hbracket.elim hl hr
      · rw [not_or] at hbracket
        refine iff_of_true ?_ ⟨b, rfl, hm, hbracket⟩
        exact (parseAddrString_join_ip (hleft.not.mpr hbracket.1) (hright.not.mpr hbracket.2)
          (parseAddr_text_zone hm hzone) (by simp)).symm

theorem textual_iff (a : NetAddr) :
    some (serializeAddr [] a.ip a.port) = parseAddrString P (a.string T) ↔ Textual a := by
  obtain ⟨ip, port, zone⟩ := a
  dsimp only
  by_cases hzone : zone = []
  · subst hzone
    rw [parseAddrString_string, Textual]
    constructor
    · exact fun h => .inl ⟨rfl, h⟩
    · rintro (⟨-, h⟩ | ⟨b, rfl, hm, -⟩)
      · exact h
      · simp [IP.is4In6, hm]
  · rw [parseAddrString_string_zone ip port hzone, Textual]
    exact ⟨.inr, fun h => h.resolve_left fun h => hzone h.1⟩

end FastPath

/-- **When `ParseAddr` is a fast path of `ParseAddrString`.** For every `net.UDPAddr` and
`net.TCPAddr`, with no IP, 4 or 16 bytes, with any zone and port, the two give the same
result exactly if the bytes can be had from the text. -/
theorem parseAddr_eq_iff (P : IPv6Literals T) (addr : AnyAddr) :
    parseAddr P addr = parseAddrString P (addr.string T) ↔ addr.Textual := by
  cases addr with
  | udp a => exact textual_iff a
  | tcp a => exact textual_iff a
  | other text => exact iff_of_true rfl trivial

/-- `::ffff:1.2.3.4` is an IPv6 address by its bytes and an IPv4 address by its text;
`1.2.3.4` with a zone is an IPv4 address by its bytes and a name by its text. -/
theorem parseAddr_mapped_differs :
    let mapped : IP := .v6 ⟨IP.mappedHead ++ [1, 2, 3, 4], rfl⟩
    let quad : IP := .v4 ⟨[1, 2, 3, 4], rfl⟩
    parseAddr .decimal (.udp ⟨mapped, 53, []⟩) =
      some ([4] ++ IP.mappedHead ++ [1, 2, 3, 4, 0, 53]) ∧
    parseAddrString .decimal (NetAddr.string .decimal ⟨mapped, 53, []⟩) =
      some [1, 1, 2, 3, 4, 0, 53] ∧
    parseAddr .decimal (.tcp ⟨quad, 53, ascii "lo"⟩) = some [1, 1, 2, 3, 4, 0, 53] ∧
    parseAddrString .decimal (NetAddr.string .decimal ⟨quad, 53, ascii "lo"⟩) =
      some ([3, 10] ++ ascii "1.2.3.4%lo" ++ [0, 53]) := by
  decide +kernel

end Tun2socks.Socks5
