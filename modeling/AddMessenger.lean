import AddMessenger.Mealy
import AddMessenger.Slices
import AddMessenger.ByteStrings
import AddMessenger.Tables
import AddMessenger.Windows
import AddMessenger.SqlTables
import AddMessenger.Doubles
import AddMessenger.Handlers
import AddMessenger.Braid
import AddMessenger.Ratchet
import AddMessenger.RatchetConversation
import AddMessenger.RatchetRejection
import AddMessenger.RatchetLinear
import AddMessenger.RelayMailbox
import AddMessenger.RelayTracking
import AddMessenger.RelayDelivery
import AddMessenger.RelayAgreement
import AddMessenger.RelayAck
import AddMessenger.RelayReceipts
import AddMessenger.RelayStatus
import AddMessenger.Protocol
import AddMessenger.Signatures
import AddMessenger.DhtNode
import AddMessenger.PeerHandshake
import AddMessenger.Forgery
import AddMessenger.RelayServer
import AddMessenger.RecipientTags
import AddMessenger.RelayAuthorization
import AddMessenger.RelayReplay
import AddMessenger.SigningTexts
import AddMessenger.Federation
import AddMessenger.Gossip
import AddMessenger.MessageStore
import AddMessenger.ClientSessions
import AddMessenger.DirectDelivery
import AddMessenger.SessionPersistence
import AddMessenger.PeerConnection
import AddMessenger.PeerIdentity
import AddMessenger.SealedIdentity
import AddMessenger.P2pReceipts
import AddMessenger.Contacts
import AddMessenger.Presence
import AddMessenger.BlobStore
import AddMessenger.ReadCommand
import AddMessenger.KeyPinning
import AddMessenger.NullIds
import AddMessenger.DhtStore
import AddMessenger.StoreBounds
import AddMessenger.RecordOwners
import AddMessenger.CertPublish
import AddMessenger.PinCache
import AddMessenger.KemRatchet
import AddMessenger.StoreMigration
import AddMessenger.SenderAttribution
import AddMessenger.Outcomes
import AddMessenger.HybridKem
import AddMessenger.KemWire
import AddMessenger.KemPingPong
import AddMessenger.KemReplay
import AddMessenger.Pqxdh
import AddMessenger.ByteXor
import AddMessenger.LineSharing
import AddMessenger.KeySharing
import AddMessenger.KeyCustody
import AddMessenger.Pir
import AddMessenger.FailedAttempts
import AddMessenger.P2pHandshake
import AddMessenger.BraidTransport
import AddMessenger.ChatStore
import AddMessenger.ChatPersistence
import AddMessenger.Patterns
import AddMessenger.CliOutput
import AddMessenger.ListenerLines
import AddMessenger.ReadJson
import AddMessenger.Turns
import AddMessenger.CommandQueue
import AddMessenger.CallSignaling
import AddMessenger.CallAgreement
import AddMessenger.CappedQueue
import AddMessenger.MailboxEviction
import AddMessenger.MailboxPurge
import AddMessenger.KeyTeaching
import AddMessenger.RatchetBounds
import AddMessenger.RatchetFirst
import AddMessenger.RatchetReplay
import AddMessenger.RatchetSelf
import AddMessenger.OnionRouting
import AddMessenger.Reflector
import AddMessenger.CallStore
import AddMessenger.HybridAgreement
import AddMessenger.RelayHmac
import AddMessenger.KemReceiver
import AddMessenger.KemFailure
import AddMessenger.KemEphemeral
import AddMessenger.Utf8Lossy
import AddMessenger.Padding
import AddMessenger.DhtExpiry
import AddMessenger.RelayRefusal
import AddMessenger.MailboxExpiry
import AddMessenger.RateLimiter
import AddMessenger.StunQuery
import AddMessenger.KeyReconstruction
import AddMessenger.KeySerialization
import AddMessenger.KeyFiles
import AddMessenger.BraidCodec
import AddMessenger.Delimited
import AddMessenger.JsonText
import AddMessenger.EnvelopeSigning
import AddMessenger.Base64
import AddMessenger.Trimming
import AddMessenger.AttachmentEnvelope
import AddMessenger.UnreadCounters
import AddMessenger.SendStatus
import AddMessenger.ProofOfWork
import AddMessenger.PeerQueues
import AddMessenger.BootstrapVerify
import AddMessenger.VersionCheck
import AddMessenger.StaleProcesses
import AddMessenger.ShellWords
import AddMessenger.TpmCommand
import AddMessenger.FileTrees
import AddMessenger.BackupRestore
import AddMessenger.Microphone
import AddMessenger.Simulations
import AddMessenger.VaultUnlock
import AddMessenger.Numerals
import AddMessenger.LockFiles
import AddMessenger.CommandLock
import AddMessenger.ListenerSupervision
import AddMessenger.VoiceRecorder
import AddMessenger.ConnectionGate
import AddMessenger.BotLog
import AddMessenger.Streams
import AddMessenger.Socks5
import AddMessenger.TlsPins
import AddMessenger.KeysAtRest
import AddMessenger.Exchange
import AddMessenger.BraidExchange
import AddMessenger.Streaks
import AddMessenger.DhtConnection
import AddMessenger.CoverTraffic
import AddMessenger.PqDoubleRatchet
import AddMessenger.Registers
import AddMessenger.ListenAddress
