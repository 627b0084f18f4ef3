import Beskar7Inspector.DiskSelection
import Beskar7Inspector.SelfClobber
import Beskar7Inspector.WriteImage
import Beskar7Inspector.BootPlacement
import Beskar7Inspector.BootSafety
import Beskar7Inspector.BootRuns
import Beskar7Inspector.BootGrowth
import Beskar7Inspector.PipelineGates
import Beskar7Inspector.EspAllOrNothing
import Beskar7Inspector.BootReuse
import Beskar7Inspector.CmdlineRendering
import Beskar7Inspector.DiskPolicy
import Beskar7Inspector.PartitionLookup
import Beskar7Inspector.DhcpLease
import Beskar7Inspector.BootstrapPolls
import Beskar7Inspector.OemSecrecy
import Beskar7Inspector.EspMarkers
import Beskar7Inspector.EspOutcome
import Beskar7Inspector.ImageDigest
import Beskar7Inspector.DeviceNumbers
import Beskar7Inspector.DiskReport
import Beskar7Inspector.StaticIpGrammar
import Beskar7Inspector.SmbiosTable
import Beskar7Inspector.MemoryReport
import Beskar7Inspector.DhcpOptions
import Beskar7Inspector.BootEntryRoundTrip
import Beskar7Inspector.GptEntries
import Beskar7Inspector.EspFrame
import Beskar7Inspector.DevicePathWalk
import Beskar7Inspector.SettleWait
import Beskar7Inspector.RaceWinner
import Beskar7Inspector.BootstrapBudget
import Beskar7Inspector.Lib.Interp
import Beskar7Inspector.Lib.Json
import Beskar7Inspector.ReportJson
import Beskar7Inspector.Callbacks
import Beskar7Inspector.Conversation
import Beskar7Inspector.Lib.Simulation
import Beskar7Inspector.Efivarfs
import Beskar7Inspector.Lib.EfiShell
import Beskar7Inspector.StartupNsh
import Beskar7Inspector.Lib.Rtnetlink
import Beskar7Inspector.Netlink
import Beskar7Inspector.BringUp
import Beskar7Inspector.ResolvConf
import Beskar7Inspector.Lib.ProcTable
import Beskar7Inspector.SystemDisks
import Beskar7Inspector.Lib.LoadOrder
import Beskar7Inspector.LoadDrivers
import Beskar7Inspector.Probe
import Beskar7Inspector.Inventory
import Beskar7Inspector.Lib.Reader
import Beskar7Inspector.DiskNodes
import Beskar7Inspector.OemLookup
import Beskar7Inspector.EspLookup
