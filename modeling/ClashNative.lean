import ClashNative.MpscFifo
import ClashNative.Socks4Reads
import ClashNative.DnsQueryOnce
import ClashNative.V2rayFrames
import ClashNative.HttpResponseFraming
import ClashNative.Http1Interims
import ClashNative.FakeIpLifetime
import ClashNative.DnsCacheTtl
import ClashNative.Socks5UdpRoutes
import ClashNative.Http3Output
import ClashNative.DnsServerResponses
import ClashNative.KcptunMuxHalfClose
import ClashNative.GunReads
import ClashNative.GunRequestBody
import ClashNative.UdpBursts
import ClashNative.UdpOverTcpFrames
import ClashNative.MuxReceives
import ClashNative.WebSocketMuxEnds
import ClashNative.WebSocketMuxTable
import ClashNative.OutboundRegistry
import ClashNative.WatchChannel
import ClashNative.BroadcastChannel
import ClashNative.HttpTunnelSends
import ClashNative.ExchangeBodyStream
import ClashNative.AsyncPipelines
import ClashNative.CallbackSender
import ClashNative.StreamMap
import ClashNative.JlsFakeRandom
import ClashNative.ShadowsocksDatagram
import ClashNative.ObfsWrites
import ClashNative.HttpUpgrade
import ClashNative.ClassicCancels
import ClashNative.ClassicRecords
import ClashNative.Ss2022Records
import ClashNative.DnsEcho
import ClashNative.TunnelAccepted
import ClashNative.Http1Trailers
import ClashNative.AddressResolver
import ClashNative.ShadowTlsCancels
import ClashNative.CamouflageWakes
import ClashNative.CamouflageEnds
import ClashNative.RestlsWrites
import ClashNative.CamouflageHandovers
import ClashNative.KcpReads
import ClashNative.KcptunCiphers
import ClashNative.TrojanShortBuffers
import ClashNative.Http2PeerSettings
import ClashNative.KcptunFecRejections
import ClashNative.KcptunSnappyRoundTrip
import ClashNative.HttpForwardedFields
import ClashNative.ExchangeResponses
import ClashNative.OneshotChannel
import ClashNative.MergeConcurrentRuns
import ClashNative.ResolverGraph
import ClashNative.DnsUpstreamHealth
import ClashNative.BootstrapResolver
import ClashNative.Http1Tunnel
import ClashNative.WebSocketEarlyData
import ClashNative.WebSocketStream
import ClashNative.DnsTcpSession
import ClashNative.RuleMatching
import ClashNative.LegacyCfb
import ClashNative.AesCcm
import ClashNative.RestlsScript
import ClashNative.KcpRateLimiter
import ClashNative.RestlsSizes
import ClashNative.ObfsHello
import ClashNative.RequestBodyReads
import ClashNative.GrpcClientCall
import ClashNative.Socks5Handshake
import ClashNative.SmuxFlow
