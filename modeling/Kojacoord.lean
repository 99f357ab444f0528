import Kojacoord.Proxy.Capacity
import Kojacoord.Proxy.Underflow
import Kojacoord.Net.ChatVeto
import Kojacoord.Proxy.Ownership
import Kojacoord.Auth.Login
import Kojacoord.Net.StreamHandover
import Kojacoord.Net.Kick
import Kojacoord.Net.Withheld
import Kojacoord.Net.Shutdown
import Kojacoord.Net.OptionalHeader
import Kojacoord.Net.ClientFraming
import Kojacoord.Net.HookEnforcement
import Kojacoord.Failover
import Kojacoord.Proxy.Reload
import Kojacoord.Proxy.StatusCache
import Kojacoord.Protocol.SnbtRoundTrip
import Kojacoord.Plugin.Activity
import Kojacoord.Proxy.Lifetime
import Kojacoord.Security.Nonces
import Kojacoord.Services.Authentication
import Kojacoord.Cluster.Leadership
import Kojacoord.Plugin.GuestCalls
import Kojacoord.Net.HeaderCommands
import Kojacoord.Netty.Cipher
import Kojacoord.Netty.Pipeline
import Kojacoord.Realms.EncryptedStream
import Kojacoord.Realms.Wire
import Kojacoord.Net.PreNettyPackets
import Kojacoord.Net.BackendHandshake
import Kojacoord.Net.LoginRequests
import Kojacoord.Net.OfflineIdentity
import Kojacoord.Protocol.RegistryFallback
import Kojacoord.Net.ChatSigning
import Kojacoord.Net.CommandDispatch
import Kojacoord.Net.PacketBuilders
import Kojacoord.Protocol.NbtDepth
import Kojacoord.Protocol.NbtSize
import Kojacoord.Protocol.SkipOverrun
import Kojacoord.Net.CidrMatch
import Kojacoord.Proxy.RouteChoice
import Kojacoord.Net.ThrottleEviction
import Kojacoord.Net.Query
import Kojacoord.Net.LegacyMotd
import Kojacoord.Proxy.CrashReport
import Kojacoord.Net.BiomeMusic
import Kojacoord.Protocol.VarIntValue
import Kojacoord.Protocol.Combinators
import Kojacoord.Protocol.Slot
import Kojacoord.Protocol.Position
import Kojacoord.Proxy.HealthProbe
import Kojacoord.Net.BufferPool
import Kojacoord.Auth.HexDigest
import Kojacoord.Plugin.CustomSection
import Kojacoord.Plugin.HotReload
import Kojacoord.Net.KickMessage
