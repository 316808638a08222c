import Lasterm.Shared.DataKeys
import Lasterm.Wire.FrameStream
import Lasterm.Wire.TrustAnswers
import Lasterm.Wire.ChannelExit
import Lasterm.Wire.Leaks
import Lasterm.Agent.BatchRuns
import Lasterm.Agent.StripDsr
import Lasterm.Agent.Teardown
import Lasterm.Agent.Router
import Lasterm.Agent.Displacement
import Lasterm.Agent.AuthToken
import Lasterm.Agent.LiveRecord
import Lasterm.Hub.PairRateLimits
import Lasterm.Hub.SnapshotScheduler
import Lasterm.Hub.CachedReplay
import Lasterm.Hub.Reads
import Lasterm.Hub.Attaches
import Lasterm.Hub.HostKeys
import Lasterm.Hub.HostSpawns
import Lasterm.Hub.ManifestCache
import Lasterm.Hub.FetchQueue
import Lasterm.Hub.Tokens
import Lasterm.Hub.PairingCodes
import Lasterm.Hub.SpawnCalls
import Lasterm.Hub.Respawns
import Lasterm.Hub.SecretReplay
import Lasterm.Web.AgentManager
import Lasterm.Web.SpawnChannel
import Lasterm.Web.Terminal
import Lasterm.Web.ActiveTab
import Lasterm.Web.LayoutRuns
import Lasterm.Hub.OneAgent
import Lasterm.Hub.Reconnects
import Lasterm.Hub.QuitFence
import Lasterm.Hub.Shutdown
import Lasterm.Hub.WriteLock
import Lasterm.Hub.StatusViews
import Lasterm.Hub.OpenSession
import Lasterm.Hub.WarmRestart
import Lasterm.Hub.LateClose
import Lasterm.Desktop.Quit
import Lasterm.Desktop.WindowClose
import Lasterm.Web.CommandPalette
import Lasterm.Hub.HostOrder
import Lasterm.Hub.AgentPlacement
import Lasterm.Web.SettingsSaves
import Lasterm.Hub.SshConfig
import Lasterm.Hub.ConfigWrites
import Lasterm.Web.SessionStore
import Lasterm.Web.ChannelEdits
import Lasterm.Hub.EventRates
import Lasterm.Shared.Validation
import Lasterm.Hub.CorsOrigins
import Lasterm.Agent.CivilDate
import Lasterm.Hub.Eviction
import Lasterm.Shared.Sanitize
import Lasterm.Shared.LayerMerge
import Lasterm.Hub.SshQuoting
import Lasterm.Agent.ExpandBytes
import Lasterm.Web.PaneSearch
import Lasterm.Agent.Headless
