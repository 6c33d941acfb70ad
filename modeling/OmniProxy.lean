import OmniProxy.ByteStrings
import OmniProxy.Utf8Text
import OmniProxy.Connections
import OmniProxy.BufferedReads
import OmniProxy.FramedStreams
import OmniProxy.CarryCounters
import OmniProxy.SealedBoxes
import OmniProxy.BlockCiphers
import OmniProxy.AuthenticatedCiphers
import OmniProxy.StreamingDigests
import OmniProxy.Digests
import OmniProxy.Shake
import OmniProxy.ProxyTargets
import OmniProxy.VmessCommand
import OmniProxy.CryptoPrimitives
import OmniProxy.VmessChunks
import OmniProxy.VmessHeader
import OmniProxy.VmessHandshake
import OmniProxy.ShadowsocksStream
import OmniProxy.ShadowsocksDuplex
import OmniProxy.AddressText
import OmniProxy.AddressDisplay
import OmniProxy.WrittenAddresses
import OmniProxy.CheckedLoops
import OmniProxy.RouteRules
import OmniProxy.JsonValues
import OmniProxy.RuntimeConfig
import OmniProxy.NodePlans
import OmniProxy.Outbounds
import OmniProxy.Routing
import OmniProxy.LoggedRuns
import OmniProxy.UdpFrames
import OmniProxy.IncrementalDecoding
import OmniProxy.UdpFrameStreams
import OmniProxy.UdpPumps
import OmniProxy.Hysteria2Auth
import OmniProxy.Hysteria2Wire
import OmniProxy.Hysteria2Targets
import OmniProxy.GuardedRuns
import OmniProxy.ListUpdates
import OmniProxy.Hysteria2Udp
import OmniProxy.MieruSegments
import OmniProxy.MieruRelay
import OmniProxy.Interleavings
import OmniProxy.AnytlsFrames
import OmniProxy.AnytlsStreams
import OmniProxy.AnytlsSession
import OmniProxy.AnytlsTasks
import OmniProxy.AnytlsProgress
import OmniProxy.AnytlsDelivery
import OmniProxy.AnytlsWriter
import OmniProxy.AnytlsRegistry
import OmniProxy.AnytlsEndings
import OmniProxy.AnytlsIsolation
import OmniProxy.AnytlsLifecycle
import OmniProxy.MuxPools
import OmniProxy.MuxCounters
import OmniProxy.YamuxDriver
import OmniProxy.PooledSessions
import OmniProxy.Sniffing
import OmniProxy.TcpRoutes
import OmniProxy.NodeTags
import OmniProxy.DialableOutbounds
import OmniProxy.AddressReads
import OmniProxy.SocksHandshake
import OmniProxy.TrojanHeads
import OmniProxy.TrafficCounters
import OmniProxy.SocksAssociations
import OmniProxy.VmessDuplex
import OmniProxy.ProtobufWire
import OmniProxy.PbReaders
import OmniProxy.GeoFiles
import OmniProxy.GeoLists
import OmniProxy.ServerNames
import OmniProxy.HostLines
import OmniProxy.SniffedHosts
import OmniProxy.OnlineTrackers
import OmniProxy.RouteDecisions
import OmniProxy.SocksClient
import OmniProxy.VmessHeaderOpening
import OmniProxy.VmessWindow
import OmniProxy.VmessCommandForms
import OmniProxy.VmessNonces
import OmniProxy.ShadowsocksTargets
import OmniProxy.MieruReadPump
import OmniProxy.MieruSegmentReads
import OmniProxy.RetriedDecoders
import OmniProxy.Hysteria2Requests
import OmniProxy.Hysteria2Responses
import OmniProxy.CountedFields
import OmniProxy.ClientHellos
import OmniProxy.HostSlices
import OmniProxy.ProxyProtocol
import OmniProxy.BlockReads
import OmniProxy.ProxyHeaderReads
import OmniProxy.UpgradeHandshakes
import OmniProxy.LossyText
import OmniProxy.RequestLines
import OmniProxy.HttpConnect
import OmniProxy.PolledReaders
import OmniProxy.WsStreams
import OmniProxy.H2Streams
import OmniProxy.FrontCodecs
import OmniProxy.AddressCodec
import OmniProxy.AddressParsers
import OmniProxy.SocksCredentials
import OmniProxy.TrojanInbound
import OmniProxy.VlessHeads
import OmniProxy.SocksReplies
import OmniProxy.UdpOutbounds
import OmniProxy.PortCriteria
import OmniProxy.CidrPrefixes
import OmniProxy.GeoLoading
import OmniProxy.PbOperations
import OmniProxy.GeoParsing
import OmniProxy.PathMatching
import OmniProxy.BlockStreams
import OmniProxy.PaddedDigests
import OmniProxy.DigestStandards
import OmniProxy.ShakeStreams
import OmniProxy.CipherModes
import OmniProxy.UdpOverStream
import OmniProxy.UuidTexts
import OmniProxy.MieruNonces
import OmniProxy.Hysteria2Varints
import OmniProxy.VmessRelay
import OmniProxy.ShadowsocksRelay
import OmniProxy.TrojanUdpRelay
import OmniProxy.AnytlsRelay
import OmniProxy.Hysteria2Relay
import OmniProxy.WsRelay
import OmniProxy.H2Relay
import OmniProxy.NaiveAuthorities
import OmniProxy.GeoRuns
