import Tun2socks.Go.Net

/-!
# Tun2socks.Socks5.Addr

Model of the address and datagram codec of `transport/socks5/socks5.go`.

An address is the byte slice the source works on (`Addr`). `Complete` is the grammar of
RFC 1928, section 5, which the slice parser `splitAddr` is shown to recognise
(`splitAddr_eq_some`).
-/

namespace Tun2socks.Socks5

open Tun2socks.Go

/-- `Version`. -/
def version : Byte := 0x05

/-- `MethodNoAuth`. -/
def methodNoAuth : Byte := 0x00
/-- `MethodUserPass`. -/
def methodUserPass : Byte := 0x02

/-- `AtypIPv4`. -/
def atypIPv4 : Byte := 0x01
/-- `AtypDomainName`. -/
def atypDomainName : Byte := 0x03
/-- `AtypIPv6`. -/
def atypIPv6 : Byte := 0x04

/-- `net.IPv4len` and `net.IPv6len`. -/
def ipv4len : Nat := 4
/-- `net.IPv6len`. -/
def ipv6len : Nat := 16

/-- `MaxAddrLen`. -/
def maxAddrLen : Nat := 1 + 1 + 255 + 2

/-- A SOCKS address as defined in RFC 1928 section 5. -/
abbrev Addr := List Byte

/-- A Go string of these bytes. -/
def goString (b : List Byte) : String := String.ofList (b.map fun x => Char.ofNat x.toNat)

/-- `binary.BigEndian.Uint16(a[i:])`. -/
def uint16At (a : List Byte) (i : Nat) : Nat := uint16 (a.getD i 0) (a.getD (i + 1) 0)

namespace Addr

/-- `Addr.Valid`. -/
def valid (a : Addr) : Bool :=
  if a.length < 1 + 1 + 2 then false
  else if a.getD 0 0 = atypDomainName then !(a.length < 1 + 1 + (a.getD 1 0).toNat + 2)
  else if a.getD 0 0 = atypIPv4 then !(a.length < 1 + ipv4len + 2)
  else if a.getD 0 0 = atypIPv6 then !(a.length < 1 + ipv6len + 2)
  else true

/-- `Addr.String`. -/
def string (T : IPv6Text) (a : Addr) : String :=
  if a.valid = false then ""
  else if a.getD 0 0 = atypDomainName then
    let hostLen := (a.getD 1 0).toNat
    joinHostPort (goString ((a.drop 2).take hostLen)) (itoa (uint16At a (2 + hostLen)))
  else if a.getD 0 0 = atypIPv4 then
    joinHostPort ((IP.ofSlice ((a.drop 1).take ipv4len)).string T) (itoa (uint16At a (1 + ipv4len)))
  else if a.getD 0 0 = atypIPv6 then
    joinHostPort ((IP.ofSlice ((a.drop 1).take ipv6len)).string T) (itoa (uint16At a (1 + ipv6len)))
  else joinHostPort "" ""

/-- `Addr.UDPAddr`, with `none` for `nil`. -/
def udpAddr (a : Addr) : Option UDPAddr :=
  if a.valid = false then none
  else if a.getD 0 0 = atypDomainName then none
  else if a.getD 0 0 = atypIPv4 then
    some ⟨IP.ofSlice ((a.drop 1).take ipv4len), uint16At a (1 + ipv4len)⟩
  else if a.getD 0 0 = atypIPv6 then
    some ⟨IP.ofSlice ((a.drop 1).take ipv6len), uint16At a (1 + ipv6len)⟩
  else some ⟨.none, 0⟩

end Addr

/-- `SplitAddr`: the length of the address that `b` begins with. -/
def addrLen (b : List Byte) : Option Nat :=
  match b with
  | [] => none
  | atyp :: body =>
    if atyp = atypDomainName then
      match body with
      | [] => none
      | len :: _ => some (1 + 1 + len.toNat + 2)
    else if atyp = atypIPv4 then some (1 + ipv4len + 2)
    else if atyp = atypIPv6 then some (1 + ipv6len + 2)
    else none

/-- `SplitAddr(b)`, with `none` for `nil`. -/
def splitAddr (b : List Byte) : Option Addr :=
  match addrLen b with
  | none => none
  | some len => if b.length < len then none else some (b.take len)

/-- `SerializeAddr(domainName, dstIP, dstPort)`. -/
def serializeAddr (domainName : List Byte) (dstIP : IP) (dstPort : UInt16) : Addr :=
  let port := putUint16 dstPort.toNat
  if domainName ≠ [] then
    atypDomainName :: UInt8.ofNat domainName.length :: (domainName ++ port)
  else
    match dstIP with
    | .v4 ip => atypIPv4 :: (ip.1 ++ port)
    | ip => atypIPv6 :: (ip.asSlice ++ port)

/-- `DecodeUDPPacket(packet)`: the address and the payload. -/
def decodeUDPPacket (packet : List Byte) : Except Error (Addr × List Byte) :=
  if packet.length < 5 then .error (.new "insufficient length of packet")
  else if packet.take 2 ≠ [0x00, 0x00] then .error (.new "reserved fields should be zero")
  else if packet.getD 2 0 ≠ 0x00 then .error (.new "discarding fragmented payload")
  else
    match splitAddr (packet.drop 3) with
    | none => .error (.new "socks5 UDP addr is nil")
    | some addr => .ok (addr, packet.drop (3 + addr.length))

/-- `EncodeUDPPacket(addr, payload)`, with `none` for a `nil` address. -/
def encodeUDPPacket (addr : Option Addr) (payload : List Byte) : Except Error (List Byte) :=
  match addr with
  | none => .error (.new "address is invalid")
  | some addr => .ok ([0x00, 0x00, 0x00] ++ addr ++ payload)

/-! ### The grammar of addresses -/

/-- A complete address: its type, its full body and a port. -/
inductive Complete : Addr → Prop
  | ipv4 (ip : List.Vector Byte 4) (hi lo : Byte) : Complete (atypIPv4 :: (ip.1 ++ [hi, lo]))
  | domainName (len : Byte) (name : List.Vector Byte len.toNat) (hi lo : Byte) :
      Complete (atypDomainName :: len :: (name.1 ++ [hi, lo]))
  | ipv6 (ip : List.Vector Byte 16) (hi lo : Byte) : Complete (atypIPv6 :: (ip.1 ++ [hi, lo]))

/-- The three types of addresses, by their first bytes. -/
theorem addrLen_cases {b : List Byte} {len : Nat} (h : addrLen b = some len) :
    (∃ body, b = atypIPv4 :: body ∧ len = 1 + ipv4len + 2) ∨
    (∃ l body, b = atypDomainName :: l :: body ∧ len = 1 + 1 + l.toNat + 2) ∨
    (∃ body, b = atypIPv6 :: body ∧ len = 1 + ipv6len + 2) := by
  unfold addrLen at h
  split at h
  · cases h
  · rename_i atyp body
    by_cases hd : atyp = atypDomainName
    · rw [if_pos hd] at h
      split at h
      · cases h
      · rename_i l body
        exact .inr (.inl ⟨l, body, by rw [hd], (Option.some.inj h).symm⟩)
    · rw [if_neg hd] at h
      by_cases h4 : atyp = atypIPv4
      · rw [if_pos h4] at h
        exact .inl ⟨body, by rw [h4], (Option.some.inj h).symm⟩
      · rw [if_neg h4] at h
        by_cases h6 : atyp = atypIPv6
        · rw [if_pos h6] at h
          exact .inr (.inr ⟨body, by rw [h6], (Option.some.inj h).symm⟩)
        · rw [if_neg h6] at h
          cases h

@[simp] theorem addrLen_ipv4 (body : List Byte) :
    addrLen (atypIPv4 :: body) = some (1 + ipv4len + 2) := rfl

@[simp] theorem addrLen_domainName (l : Byte) (body : List Byte) :
    addrLen (atypDomainName :: l :: body) = some (1 + 1 + l.toNat + 2) := rfl

@[simp] theorem addrLen_ipv6 (body : List Byte) :
    addrLen (atypIPv6 :: body) = some (1 + ipv6len + 2) := rfl

/-- A complete address is found whatever follows it. -/
theorem Complete.addrLen_append {a : Addr} (h : Complete a) (rest : List Byte) :
    addrLen (a ++ rest) = some a.length := by
  cases h with
  | ipv4 ip hi lo => simp [ip.2, ipv4len]
  | domainName l name hi lo =>
    simp only [List.cons_append, addrLen_domainName, List.length_cons, List.length_append, name.2,
      List.length_nil]
    congr 1
    omega
  | ipv6 ip hi lo => simp [ip.2, ipv6len]

/-- Cutting the last two bytes off a list that is long enough. -/
theorem exists_body_port {b : List Byte} {k : Nat} (h : b.length = k + 2) :
    ∃ (v : List.Vector Byte k) (hi lo : Byte), b = v.1 ++ [hi, lo] := by
  have hlen : (b.drop k).length = 2 := by rw [List.length_drop, h, Nat.add_sub_cancel_left]
  obtain ⟨hi, lo, hport⟩ := List.length_eq_two.mp hlen
  refine ⟨⟨b.take k, ?_⟩, hi, lo, ?_⟩
  · rw [List.length_take, h]
    exact Nat.min_eq_left (Nat.le_add_right k 2)
  · rw [← hport, List.take_append_drop]

theorem complete_take {b : List Byte} {len : Nat} (h : addrLen b = some len)
    (hle : len ≤ b.length) : Complete (b.take len) := by
  rcases addrLen_cases h with ⟨body, rfl, rfl⟩ | ⟨l, body, rfl, rfl⟩ | ⟨body, rfl, rfl⟩
  · have hbody : (body.take (ipv4len + 2)).length = ipv4len + 2 := by
      rw [List.length_cons] at hle
      rw [List.length_take]
      omega
    obtain ⟨ip, hi, lo, hip⟩ := exists_body_port hbody
    rw [show 1 + ipv4len + 2 = ipv4len + 2 + 1 by omega, List.take_succ_cons, hip]
    exact .ipv4 ip hi lo
  · have hbody : (body.take (l.toNat + 2)).length = l.toNat + 2 := by
      rw [List.length_cons, List.length_cons] at hle
      rw [List.length_take]
      omega
    obtain ⟨name, hi, lo, hname⟩ := exists_body_port hbody
    rw [show 1 + 1 + l.toNat + 2 = l.toNat + 2 + 1 + 1 by omega, List.take_succ_cons,
      List.take_succ_cons, hname]
    exact .domainName l name hi lo
  · have hbody : (body.take (ipv6len + 2)).length = ipv6len + 2 := by
      rw [List.length_cons] at hle
      rw [List.length_take]
      omega
    obtain ⟨ip, hi, lo, hip⟩ := exists_body_port hbody
    rw [show 1 + ipv6len + 2 = ipv6len + 2 + 1 by omega, List.take_succ_cons, hip]
    exact .ipv6 ip hi lo

/-- **`SplitAddr` finds exactly the complete addresses.** -/
theorem splitAddr_eq_some {b : List Byte} {a : Addr} :
    splitAddr b = some a ↔ Complete a ∧ ∃ rest, b = a ++ rest := by
  constructor
  · intro h
    rw [splitAddr] at h
    split at h
    · cases h
    · rename_i len hlen
      split at h
      · cases h
      · rename_i hle
        obtain rfl := Option.some.inj h
        exact ⟨complete_take hlen (Nat.le_of_not_lt hle), b.drop len,
          (List.take_append_drop len b).symm⟩
  · rintro ⟨ha, rest, rfl⟩
    rw [splitAddr, ha.addrLen_append rest]
    dsimp only
    rw [if_neg (by simp), List.take_left' rfl]

/-- A complete address is longer than the shortest one that `DecodeUDPPacket` looks
at. -/
theorem Complete.four_le {a : Addr} (h : Complete a) : 4 ≤ a.length := by
  cases h <;> simp

theorem Complete.length_le {a : Addr} (h : Complete a) : a.length ≤ maxAddrLen := by
  cases h with
  | ipv4 ip hi lo => simp [ip.2, maxAddrLen]
  | domainName len name hi lo =>
    have hlen := len.toNat_lt
    simp only [List.length_cons, List.length_append, name.2, List.length_nil, maxAddrLen]
    omega
  | ipv6 ip hi lo => simp [ip.2, maxAddrLen]

/-- **`DecodeUDPPacket` accepts exactly the unfragmented packets with a complete
address.** -/
theorem decodeUDPPacket_eq_ok {packet payload : List Byte} {a : Addr} :
    decodeUDPPacket packet = .ok (a, payload) ↔
      Complete a ∧ packet = [0x00, 0x00, 0x00] ++ a ++ payload := by
  constructor
  · intro h
    unfold decodeUDPPacket at h
    split at h
    · cases h
    split at h
    · cases h
    split at h
    · cases h
    rename_i hlen hrsv hfrag
    split at h
    · cases h
    · rename_i a' hsplit
      obtain ⟨rfl, rfl⟩ := Prod.mk.inj (Except.ok.inj h)
      obtain ⟨ha, rest, hrest⟩ := splitAddr_eq_some.mp hsplit
      refine ⟨ha, ?_⟩
      match packet with
      | x₀ :: x₁ :: x₂ :: body =>
        simp only [List.take_succ_cons, List.take_zero, ne_eq, not_not, List.cons.injEq,
          and_true] at hrsv
        simp only [List.getD_cons_succ, List.getD_cons_zero, ne_eq, not_not] at hfrag
        obtain ⟨rfl, rfl⟩ := hrsv
        subst hfrag
        simp only [List.drop_succ_cons, List.drop_zero] at hrest
        subst hrest
        simp [Nat.add_comm 3]
  · rintro ⟨ha, rfl⟩
    have hlen := ha.four_le
    have hsplit : splitAddr (a ++ payload) = some a := splitAddr_eq_some.mpr ⟨ha, payload, rfl⟩
    have hdrop : ([0x00, 0x00, 0x00] ++ a ++ payload).drop (3 + a.length) = payload := by
      rw [List.drop_left']
      rw [List.length_append]
      rfl
    rw [decodeUDPPacket, if_neg (by simp; omega), if_neg (by simp), if_neg (by simp)]
    simp only [List.append_assoc,
      List.drop_left' (show [(0x00 : Byte), 0x00, 0x00].length = 3 from rfl), hsplit]
    rw [← List.append_assoc, hdrop]

/-- The errors of `DecodeUDPPacket` are its own. -/
theorem decodeUDPPacket_error {packet : List Byte} {err : Error}
    (h : decodeUDPPacket packet = .error err) : ∃ text, err = .new text := by
  unfold decodeUDPPacket at h
  split at h
  · exact ⟨_, (Except.error.inj h).symm⟩
  split at h
  · exact ⟨_, (Except.error.inj h).symm⟩
  split at h
  · exact ⟨_, (Except.error.inj h).symm⟩
  split at h
  · exact ⟨_, (Except.error.inj h).symm⟩
  · cases h

/-! ### Addresses with an IP -/

/-- The `net.UDPAddr` of a complete address, by its type. -/
theorem udpAddr_ipv4 (ip : List.Vector Byte 4) (hi lo : Byte) :
    Addr.udpAddr (atypIPv4 :: (ip.1 ++ [hi, lo])) = some ⟨.v4 ip, uint16 hi lo⟩ := by
  obtain ⟨ip, hip⟩ := ip
  match ip, hip with
  | [b₀, b₁, b₂, b₃], _ => rfl

theorem udpAddr_ipv6 (ip : List.Vector Byte 16) (hi lo : Byte) :
    Addr.udpAddr (atypIPv6 :: (ip.1 ++ [hi, lo])) = some ⟨.v6 ip, uint16 hi lo⟩ := by
  obtain ⟨ip, hip⟩ := ip
  match ip, hip with
  | [b₀, b₁, b₂, b₃, b₄, b₅, b₆, b₇, b₈, b₉, b₁₀, b₁₁, b₁₂, b₁₃, b₁₄, b₁₅], _ => rfl

end Tun2socks.Socks5
