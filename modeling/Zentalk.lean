import Zentalk.Protocol.SkipStore
import Zentalk.Exchange.Provenance
import Zentalk.Codec.Padding
import Zentalk.Relay.Attribution
import Zentalk.Relay.Duplicates
import Zentalk.Relay.QueueOrder
import Zentalk.Relay.Acknowledge
import Zentalk.Exchange.Failures
import Zentalk.Exchange.PreKeyLife
import Zentalk.Exchange.Saved
import Zentalk.Exchange.Saves
import Zentalk.Exchange.Isolation
import Zentalk.Exchange.Crash
import Zentalk.Exchange.EndToEnd
import Zentalk.Dht.PrefixLen
import Zentalk.Dht.Rpc
import Zentalk.Dht.Replication
import Zentalk.Network.Bundles
import Zentalk.Network.Groups
import Zentalk.Network.Pool
import Zentalk.Mesh.ShardRpc
import Zentalk.Mesh.Isolation
import Zentalk.Mesh.Lifecycle
import Zentalk.Mesh.Schema
import Zentalk.Mesh.Restore
import Zentalk.Mesh.Api
import Zentalk.Mesh.RateLimit
import Zentalk.Mesh.Version
import Zentalk.Storage.Confidentiality
import Zentalk.Storage.Recording
import Zentalk.Storage.Receipts
import Zentalk.Storage.Unread
import Zentalk.Storage.Search
import Zentalk.Mesh.Health
import Zentalk.Mesh.Ranking
import Zentalk.Dht.Expiry
import Zentalk.Network.SecurePath
import Zentalk.Network.Blacklist
import Zentalk.Network.GuardRuns
