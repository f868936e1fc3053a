import Tun2socks.Go.Net

/-!
# Tun2socks.Metadata

What a session knows about its flow, as far as the proxies use it.
-/

namespace Tun2socks

open Tun2socks.Go

/-- The destination in a session's `Metadata`. -/
structure Metadata where
  dstIP : IP
  dstPort : UInt16

/-- `Metadata.DestinationAddress`. -/
def Metadata.destinationAddress (T : IPv6Text) (m : Metadata) : String :=
  addrPortString T m.dstIP m.dstPort.toNat

end Tun2socks
