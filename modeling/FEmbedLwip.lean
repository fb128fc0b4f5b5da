import FEmbedLwip.Prog
import FEmbedLwip.Halting
import FEmbedLwip.Arduino
import FEmbedLwip.Lwip
import FEmbedLwip.TCPClient
import FEmbedLwip.TCPClientFacts
import FEmbedLwip.SslClient
import FEmbedLwip.TCPClientSecure
import FEmbedLwip.SslClientFacts
import FEmbedLwip.FTPClient
import FEmbedLwip.FTPReply
import FEmbedLwip.FTPLockstep
import FEmbedLwip.FTPTransfer
import FEmbedLwip.FTPTruthful
import FEmbedLwip.HTTPClient
import FEmbedLwip.HTTPBody
import FEmbedLwip.ChunkedBody
import FEmbedLwip.ChunkedHonesty
import FEmbedLwip.PPPAdapter
import FEmbedLwip.MQTTPacket
import FEmbedLwip.MQTTPacketFacts
import FEmbedLwip.MQTTClient
import FEmbedLwip.MQTTCycle
import FEmbedLwip.MQTTHandlers
import FEmbedLwip.MQTTKeepAlive
import FEmbedLwip.HTTPHeads
import FEmbedLwip.HTTPCredentials
import FEmbedLwip.FTPReconnect
import FEmbedLwip.Lives
import FEmbedLwip.Records
import FEmbedLwip.Servers
import FEmbedLwip.UDPClient
import FEmbedLwip.SocketLives
import FEmbedLwip.SocketOwnership
import FEmbedLwip.ConnectContract
import FEmbedLwip.SecureFacts
import FEmbedLwip.SecureStream
import FEmbedLwip.SecureRuns
import FEmbedLwip.MQTTSession
import FEmbedLwip.MQTTTurns
import FEmbedLwip.MQTTRequests
import FEmbedLwip.MQTTSends
import FEmbedLwip.MQTTSteps
import FEmbedLwip.MQTTOutcomes
import FEmbedLwip.MQTTSubscriptions
import FEmbedLwip.MQTTDispatch
import FEmbedLwip.MQTTEndings
import FEmbedLwip.MQTTConnects
import FEmbedLwip.MQTTCleanSessions
import FEmbedLwip.MQTTExactlyOnce
import FEmbedLwip.MQTTReleases
import FEmbedLwip.MQTTFreeRTOS
import FEmbedLwip.MQTTFraming
import FEmbedLwip.MQTTSslFraming
import FEmbedLwip.FTPLines
import FEmbedLwip.FTPAnswers
import FEmbedLwip.FTPText
import FEmbedLwip.FTPPasv
import FEmbedLwip.FTPDirectory
import FEmbedLwip.HTTPCopy
import FEmbedLwip.HTTPPaths
import FEmbedLwip.HTTPResponse
import FEmbedLwip.FTPBounds
import FEmbedLwip.SslVerify
import FEmbedLwip.MQTTTopics
import FEmbedLwip.HTTPUrls
import FEmbedLwip.HTTPHeaderBlock
import FEmbedLwip.HTTPCollected
import FEmbedLwip.HTTPRefusals
import FEmbedLwip.TlsContexts
import FEmbedLwip.HTTPCloseDelimited
import FEmbedLwip.MQTTServerPackets
import FEmbedLwip.Segments
import FEmbedLwip.MQTTCodec
import FEmbedLwip.MQTTTransport
import FEmbedLwip.HTTPKeepAlive
import FEmbedLwip.MQTTClientC
import FEmbedLwip.MQTTTalk
import FEmbedLwip.MQTTRegistrations
import FEmbedLwip.MQTTNetwork
import FEmbedLwip.MQTTNetworkSessions
import FEmbedLwip.Blocks
import FEmbedLwip.CredentialLoads
import FEmbedLwip.MQTTOverNetwork
import FEmbedLwip.MQTTStream
