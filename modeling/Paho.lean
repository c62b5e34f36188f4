import Paho.Library.Run
import Paho.Protocol.OutboundSafety
import Paho.Protocol.DurableSession
import Paho.Protocol.ExactlyOnce
import Paho.Protocol.Resend
import Paho.Protocol.Keepalive
import Paho.Protocol.Acknowledgements
import Paho.Protocol.VersionUpgrade
import Paho.Async.CrashDurability
import Paho.Async.Completion
import Paho.Async.FinalFailures
import Paho.Transport.Factory
import Paho.Transport.Queues
import Paho.Transport.Chunking
import Paho.Transport.PartialWrites
import Paho.Transport.FrameCodec
import Paho.Transport.ReadySockets
import Paho.Transport.SyncCycle
import Paho.Library.Splitter
import Paho.Async.SequenceNumbers
import Paho.Async.BufferedSends
import Paho.Codec.CommandRoundTrip
import Paho.Connect.Attempts
import Paho.Connect.Transport
import Paho.Persistence.FileStore
import Paho.Async.MessageIds
import Paho.Async.DeliveryOrder
import Paho.Async.RequestIds
import Paho.Persistence.SeparateStores
import Paho.Codec.PublishPackets
import Paho.Protocol.PutFailures
import Paho.Protocol.PublicationOwners
import Paho.Protocol.FlowRuns
import Paho.Transport.FramedPackets
import Paho.Codec.PropertyLengths
import Paho.Codec.LengthDecoders
import Paho.Async.QueueRoundTrip
import Paho.Codec.ServerPacketLayouts
import Paho.Codec.StoredEntries
import Paho.Codec.StoredCommands
import Paho.Codec.ClientPacketLayouts
import Paho.Codec.Utf8
import Paho.Codec.Sha1
import Paho.Connect.HttpProxy
import Paho.Pointers.RestoredOrder
import Paho.Pointers.BalancedTrees
import Paho.Transport.ServedWrites
import Paho.Pointers.HeapAccounts
import Paho.Transport.Upgrade
import Paho.Transport.PollRounds
import Paho.Connect.Reconnecting
import Paho.Connect.Establishing
import Paho.Persistence.StoredSession
import Paho.Transport.MaskedSends
import Paho.Transport.Delivery
import Paho.Transport.OrderlyFrames
import Paho.Protocol.ExactlyOnceDelivery
