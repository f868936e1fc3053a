import Tun2socks.Socks5.Addr

/-!
# Tun2socks.Socks5.Packet

The datagram codec of `transport/socks5/socks5.go` as a whole: `EncodeUDPPacket` and
`DecodeUDPPacket` are inverse to each other, and decoding stays inside the packet.

`Socks5.Addr` models the decoder with total list operations, on which an index out of
range has no effect. Here the decoder is written once more with every index and slice
expression checked (`decodeUDPPacketChecked`), a failed check being a run-time panic. The
two agree (`decodeUDPPacketChecked_eq`), so that what is proved of the one holds of the
other.
-/

namespace Tun2socks.Socks5

open Tun2socks.Go

/-! ### The decoder with its run-time checks -/

/-- The length that `SplitAddr(b)` computes, with `none` where it returns `nil`. -/
def addrLenChecked (b : List Byte) : Except Error (Option Nat) := do
  if b.length < 1 then return none
  let atyp ← index b 0
  if atyp = atypDomainName then
    if b.length < 2 then return none
    let len ← index b 1
    return some (1 + 1 + len.toNat + 2)
  else if atyp = atypIPv4 then return some (1 + ipv4len + 2)
  else if atyp = atypIPv6 then return some (1 + ipv6len + 2)
  else return none

/-- `SplitAddr(b)`. -/
def splitAddrChecked (b : List Byte) : Except Error (Option Addr) := do
  match ← addrLenChecked b with
  | none => return none
  | some len =>
    if b.length < len then return none
    let addr ← sliceTo b len
    return some addr

/-- `DecodeUDPPacket(packet)`. The payload is cut off also after a failed `SplitAddr`,
where `len(addr)` is zero. -/
def decodeUDPPacketChecked (packet : List Byte) : Except Error (Addr × List Byte) := do
  if packet.length < 5 then throw (.new "insufficient length of packet")
  let rsv ← sliceTo packet 2
  if rsv ≠ [0x00, 0x00] then throw (.new "reserved fields should be zero")
  let frag ← index packet 2
  if frag ≠ 0x00 then throw (.new "discarding fragmented payload")
  let b ← sliceFrom packet 3
  let addr ← splitAddrChecked b
  let payload ← sliceFrom packet (3 + (addr.getD []).length)
  match addr with
  | none => throw (.new "socks5 UDP addr is nil")
  | some addr => return (addr, payload)

theorem addrLenChecked_eq (b : List Byte) : addrLenChecked b = .ok (addrLen b) := by
  match b with
  | [] => rfl
  | atyp :: body =>
    rw [addrLenChecked, if_neg (by simp), index_ok (by simp), ok_bind, List.getD_cons_zero,
      addrLen.eq_def]
    dsimp only
    by_cases hd : atyp = atypDomainName
    · rw [if_pos hd, if_pos hd]
      match body with
      | [] => rfl
      | len :: body => rfl
    rw [if_neg hd, if_neg hd]
    by_cases h4 : atyp = atypIPv4
    · rw [if_pos h4, if_pos h4]
      rfl
    rw [if_neg h4, if_neg h4]
    by_cases h6 : atyp = atypIPv6
    · rw [if_pos h6, if_pos h6]
      rfl
    · rw [if_neg h6, if_neg h6]
      rfl

theorem splitAddrChecked_eq (b : List Byte) : splitAddrChecked b = .ok (splitAddr b) := by
  rw [splitAddrChecked, addrLenChecked_eq, ok_bind, splitAddr]
  cases addrLen b with
  | none => rfl
  | some len =>
    dsimp only
    by_cases hlen : b.length < len
    · rw [if_pos hlen, if_pos hlen]
      rfl
    · rw [if_neg hlen, if_neg hlen, sliceTo_ok (Nat.le_of_not_lt hlen)]
      rfl

/-- An address that `SplitAddr` finds lies inside its slice. -/
theorem splitAddr_length_le {b : List Byte} {a : Addr} (h : splitAddr b = some a) :
    a.length ≤ b.length := by
  obtain ⟨-, rest, rfl⟩ := splitAddr_eq_some.mp h
  simp

/-- **No check of `DecodeUDPPacket` ever fails**: with them it computes what it computes
without. -/
theorem decodeUDPPacketChecked_eq (packet : List Byte) :
    decodeUDPPacketChecked packet = decodeUDPPacket packet := by
  rw [decodeUDPPacketChecked, decodeUDPPacket]
  by_cases hlen : packet.length < 5
  · rw [if_pos hlen, if_pos hlen]
    rfl
  rw [if_neg hlen, if_neg hlen, show (2 : Int) = (2 : Nat) from rfl,
    sliceTo_ok (show 2 ≤ packet.length by omega), ok_bind]
  by_cases hrsv : packet.take 2 ≠ [0x00, 0x00]
  · rw [if_pos hrsv, if_pos hrsv]
    rfl
  rw [if_neg hrsv, if_neg hrsv, index_ok (show 2 < packet.length by omega), ok_bind]
  by_cases hfrag : packet.getD 2 0 ≠ 0x00
  · rw [if_pos hfrag, if_pos hfrag]
    rfl
  rw [if_neg hfrag, if_neg hfrag, sliceFrom_ok (show 3 ≤ packet.length by omega), ok_bind,
    splitAddrChecked_eq, ok_bind]
  cases hsplit : splitAddr (packet.drop 3) with
  | none =>
    -- `packet[3+len(addr):]` is `packet[3:]` here
    have hle : 3 + ((none : Option Addr).getD []).length ≤ packet.length := by
      simp only [Option.getD_none, List.length_nil]
      omega
    rw [sliceFrom_ok hle]
    rfl
  | some a =>
    have hsplit_le := splitAddr_length_le hsplit
    have hle : 3 + ((some a).getD []).length ≤ packet.length := by
      rw [List.length_drop] at hsplit_le
      rw [Option.getD_some]
      omega
    rw [sliceFrom_ok hle]
    rfl

/-! ### Addresses that `SerializeAddr` builds -/

/-- A port is its two bytes. -/
theorem exists_port (port : UInt16) :
    ∃ hi lo, putUint16 port.toNat = [hi, lo] ∧ uint16 hi lo = port.toNat :=
  ⟨_, _, rfl, uint16_putUint16 port.toNat_lt⟩

/-- `SerializeAddr("", ip, port)` of a valid address is complete, and `UDPAddr` reads it
back. -/
theorem serializeAddr_ip {ip : IP} (hip : ip ≠ .none) (port : UInt16) :
    Complete (serializeAddr [] ip port) ∧
      Addr.udpAddr (serializeAddr [] ip port) = some ⟨ip, port.toNat⟩ := by
  obtain ⟨hi, lo, hbytes, hport⟩ := exists_port port
  cases ip with
  | none => exact absurd rfl hip
  | v4 ip =>
    have ha : serializeAddr [] (.v4 ip) port = atypIPv4 :: (ip.1 ++ [hi, lo]) := by
      simp [serializeAddr, hbytes]
    rw [ha, udpAddr_ipv4, hport]
    exact ⟨.ipv4 ip hi lo, rfl⟩
  | v6 ip =>
    have ha : serializeAddr [] (.v6 ip) port = atypIPv6 :: (ip.1 ++ [hi, lo]) := by
      simp [serializeAddr, IP.asSlice, hbytes]
    rw [ha, udpAddr_ipv6, hport]
    exact ⟨.ipv6 ip hi lo, rfl⟩

/-- `SerializeAddr` of a name that its length byte can count is complete. -/
theorem serializeAddr_domainName {name : List Byte} (hpos : 1 ≤ name.length)
    (hlen : name.length ≤ 255) (ip : IP) (port : UInt16) :
    Complete (serializeAddr name ip port) := by
  obtain ⟨hi, lo, hbytes, -⟩ := exists_port port
  have hne : name ≠ [] := List.length_pos_iff.mp hpos
  have hcount : (UInt8.ofNat name.length).toNat = name.length := by
    rw [UInt8.toNat_ofNat']
    omega
  unfold serializeAddr
  rw [if_pos hne, hbytes]
  exact .domainName (UInt8.ofNat name.length) ⟨name, hcount.symm⟩ hi lo

/-- A complete address and any payload survive the way through a packet. -/
theorem Complete.decode_encode {a : Addr} (ha : Complete a) (payload : List Byte) :
    ∃ packet, encodeUDPPacket (some a) payload = .ok packet ∧
      decodeUDPPacket packet = .ok (a, payload) :=
  ⟨_, rfl, decodeUDPPacket_eq_ok.mpr ⟨ha, rfl⟩⟩

/-- **The datagram codec is a bijection** between the complete addresses with a payload
and the packets that `DecodeUDPPacket` accepts. Every valid IP and every name of 1 to 255
bytes has such an address, `UDPAddr` gives an IP and its port back, and no packet, of
whatever length and contents, takes the decoder out of the packet's range. -/
theorem udpPacket_bijective :
    (∀ (ip : IP) (port : UInt16) (payload : List Byte), ip ≠ .none →
      ∃ packet, encodeUDPPacket (some (serializeAddr [] ip port)) payload = .ok packet ∧
        decodeUDPPacketChecked packet = .ok (serializeAddr [] ip port, payload) ∧
        Addr.udpAddr (serializeAddr [] ip port) = some ⟨ip, port.toNat⟩) ∧
    (∀ (name : List Byte) (ip : IP) (port : UInt16) (payload : List Byte),
      1 ≤ name.length → name.length ≤ 255 →
      ∃ packet, encodeUDPPacket (some (serializeAddr name ip port)) payload = .ok packet ∧
        decodeUDPPacketChecked packet = .ok (serializeAddr name ip port, payload)) ∧
    (∀ (packet : List Byte) (a : Addr) (p : List Byte),
      decodeUDPPacketChecked packet = .ok (a, p) → encodeUDPPacket (some a) p = .ok packet) ∧
    ∀ packet : List Byte, decodeUDPPacketChecked packet ≠ .error .panic := by
  simp only [decodeUDPPacketChecked_eq]
  refine ⟨?_, ?_, ?_, ?_⟩
  · intro ip port payload hip
    obtain ⟨ha, hudp⟩ := serializeAddr_ip hip port
    obtain ⟨packet, henc, hdec⟩ := ha.decode_encode payload
    exact ⟨packet, henc, hdec, hudp⟩
  · intro name ip port payload hpos hlen
    exact (serializeAddr_domainName hpos hlen ip port).decode_encode payload
  · intro packet a p h
    rw [(decodeUDPPacket_eq_ok.mp h).2]
    rfl
  · intro packet h
    obtain ⟨text, htext⟩ := decodeUDPPacket_error h
    cases htext

end Tun2socks.Socks5
