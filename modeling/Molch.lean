import Molch.Bytes
import Molch.Sodium
import Molch.KeyDerivation
import Molch.KeyStore
import Molch.Foundation.Result
import Molch.Packet
import Molch.Conversation
import Molch.ConversationSteps
import Molch.Symbolic
import Molch.Rollback
import Molch.RatchetBackup
import Molch.WellFormed
import Molch.BackupBehaviour
import Molch.Exchange
import Molch.KeySchedule
import Molch.Session
import Molch.SessionInvariant
import Molch.Delivery
import Molch.ExactlyOnce
import Molch.Foundation.Closure
import Molch.Recoverable
import Molch.ForwardSecrecy
import Molch.Foundation.Wire
import Molch.PacketMetadata
import Molch.PacketLength
import Molch.SendingKeys
import Molch.MessageNumbers
import Molch.PrekeyStore
import Molch.Foundation.Pool
import Molch.PrekeyLifecycle
import Molch.ConversationSetup
import Molch.Foundation.Keyed
import Molch.MasterKeys
import Molch.PrekeyCaches
import Molch.User
import Molch.Library
import Molch.LibraryImports
import Molch.BackupKeys
import Molch.UserBackup
import Molch.UserLife
import Molch.FirstContact
import Molch.Readings
import Molch.LibraryLife
import Molch.Foundation.Retained
import Molch.KeyStoreOrder
import Molch.KeyAge
import Molch.PrekeyRotation
import Molch.ListLifetime
import Molch.PrekeyLists
import Molch.SkippedConsumption
import Molch.FullBackup
import Molch.PacketRoundTrip
import Molch.ConversationIds
import Molch.HeldKeys
import Molch.PrekeyReplay
import Molch.Buffer
import Molch.BufferErasure
import Molch.Reexport
import Molch.StagedKeys
import Molch.MessageCounters
import Molch.Foundation.Guarded
import Molch.KeyAccess
import Molch.Foundation.Varint
import Molch.Foundation.WireScan
import Molch.Foundation.RangeLookup
import Molch.Foundation.WireTypes
import Molch.Foundation.WireMessage
import Molch.ProtobufWire
import Molch.BackupsOnWire
import Molch.PacketsOnWire
import Molch.Foundation.Projection
import Molch.Isolation
import Molch.Network
import Molch.NetworkStart
import Molch.Foundation.Lineage
import Molch.KeyGenerations
import Molch.SealedKeys
import Molch.Healing
import Molch.SpentKeys
import Molch.Attacker
import Molch.Traffic
