import Tun2socks.Go.Netip
import Tun2socks.Go.Published

/-!
# Tun2socks.Dialer.Options

Model of `dialer/dialer.go`: the socket options that are applied to every connection that the
proxies open.

`RegisterSockOpt` and `Reset` store the options under a lock, and `applySockOpts` loads them
without it (`Go.Published`). An option is its effect on the socket, which may fail.
-/

namespace Tun2socks.Dialer

open Tun2socks.Go

/-! ### Addresses -/

/-- `net.ParseIP`. An address with a zone is none. -/
def parseIP {T : IPv6Text} (P : IPv6Literals T) (s : List Byte) : IP :=
  if HostPort.percent ∈ s then .none else parseAddr P s

/-- `ip.IsGlobalUnicast()`. -/
def isGlobalUnicast (ip : IP) : Bool :=
  match ip.unmap.asSlice with
  | [a, b, c, d] =>
    [a, b, c, d] ≠ [255, 255, 255, 255] ∧ [a, b, c, d] ≠ [0, 0, 0, 0] ∧ a ≠ 127 ∧
      a &&& 0xf0 ≠ 0xe0 ∧ ¬ (a = 169 ∧ b = 254)
  | a :: b :: bs =>
    a :: b :: bs ≠ List.replicate 16 0 ∧ a :: b :: bs ≠ List.replicate 15 0 ++ [1] ∧ a ≠ 0xff ∧
      ¬ (a = 0xfe ∧ b &&& 0xc0 = 0x80)
  | _ => false

/-- The addresses that no option is applied for. -/
def skipped {T : IPv6Text} (P : IPv6Literals T) (address : List Byte) : Bool :=
  match HostPort.split address with
  | .error _ => false
  | .ok (host, _) => parseIP P host ≠ .none ∧ isGlobalUnicast (parseIP P host) = false

/-! ### Options -/

section Apply

variable {T : IPv6Text} {P : IPv6Literals T} {α : Type} {address : List Byte} {seen : List α}
  {visited : List (α × Option Error)}

end Apply

end Tun2socks.Dialer
