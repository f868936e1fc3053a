import Tun2socks.Go.Basic
import Tun2socks.Go.Io
import Tun2socks.Go.Bufio
import Tun2socks.Go.Failing
import Tun2socks.Shadowaead.Stream
import Tun2socks.Shadowaead.Runs
import Tun2socks.Shadowaead.Nonce
import Tun2socks.Shadowaead.Records
import Tun2socks.Shadowaead.Delivery
import Tun2socks.Shadowaead.Integrity
import Tun2socks.Shadowaead.Bulk
import Tun2socks.Go.Net
import Tun2socks.Go.Decimal
import Tun2socks.Go.HostPort
import Tun2socks.Go.Netip
import Tun2socks.Go.Url
import Tun2socks.Go.Packet
import Tun2socks.Go.Pool
import Tun2socks.Go.Cipher
import Tun2socks.Go.Region
import Tun2socks.Socks5.Addr
import Tun2socks.Socks5.Packet
import Tun2socks.Udp.PacketConn
import Tun2socks.Udp.Receive
import Tun2socks.Metadata
import Tun2socks.Udp.Session
import Tun2socks.Go.Session
import Tun2socks.Socks5.Handshake
import Tun2socks.Http.Connect
import Tun2socks.Codec.Decoder
import Tun2socks.Codec.Tls
import Tun2socks.SimpleObfs.Tls
import Tun2socks.SimpleObfs.TlsWrite
import Tun2socks.SimpleObfs.TlsRead
import Tun2socks.SimpleObfs.TlsFailure
import Tun2socks.SimpleObfs.Pool
import Tun2socks.SimpleObfs.Http
import Tun2socks.Shadowstream.Stream
import Tun2socks.Shadowstream.Writes
import Tun2socks.Shadowstream.Reads
import Tun2socks.Relay.Conn
import Tun2socks.Relay.Framing
import Tun2socks.Relay.Response
import Tun2socks.Shadowsocks.PacketConn
import Tun2socks.Shadowaead.Packet
import Tun2socks.Shadowstream.Packet
import Tun2socks.Shadowsocks.Datagrams
import Tun2socks.Shadowsocks.Kdf
import Tun2socks.Shadowsocks.Cipher
import Tun2socks.Shadowsocks.Parse
import Tun2socks.Statistic.Manager
import Tun2socks.Iobased.Endpoint
import Tun2socks.Socks5.Parse
import Tun2socks.Socks5.Valid
import Tun2socks.Socks4.Handshake
import Tun2socks.Buffer.Allocator
import Tun2socks.Codec.Checksum
import Tun2socks.Core.Icmp
import Tun2socks.Codec.Json
import Tun2socks.Codec.Base64
import Tun2socks.Restapi.Netstats
import Tun2socks.Udp.Send
import Tun2socks.Statistic.Writes
import Tun2socks.Engine.Engine
import Tun2socks.Engine.Lifecycle
import Tun2socks.Go.Dial
import Tun2socks.Proxy.Dial
import Tun2socks.Proxy.Parse
import Tun2socks.Go.Goroutines
import Tun2socks.Tunnel.Session
import Tun2socks.Tunnel.Streams
import Tun2socks.Tunnel.Pipe
import Tun2socks.Tunnel.System
import Tun2socks.Tunnel.Registry
import Tun2socks.Tunnel.Calls
import Tun2socks.Tunnel.Totals
import Tun2socks.Go.Deadline
import Tun2socks.Tunnel.Deadline
import Tun2socks.Tunnel.Queue
import Tun2socks.Shadowsocks.Session
import Tun2socks.Shadowstream.Delivery
import Tun2socks.Iobased.Loops
import Tun2socks.Go.Append
import Tun2socks.Go.Published
import Tun2socks.Dialer.Options
import Tun2socks.Proxy.Protocol
import Tun2socks.Udp.Upload
import Tun2socks.Socks5.Association
import Tun2socks.Restapi.Server
import Tun2socks.Relay.Session
