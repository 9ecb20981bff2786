import Vdsm.Rpc.Lines
import Vdsm.Rpc.Routing
import Vdsm.Rpc.WireTrace
import Vdsm.Rpc.StompReencode
import Vdsm.Rpc.StompTotal
import Vdsm.Rpc.LineServer
import Vdsm.Rpc.Connections
import Vdsm.Supervdsm.MountPolicy
import Vdsm.Supervdsm.Socket
import Vdsm.Supervdsm.Accounts
import Vdsm.Storage.ImageDelete
import Vdsm.Storage.Deletion
import Vdsm.Storage.FreeText
import Vdsm.Storage.Confinement
import Vdsm.Storage.LvSizing
import Vdsm.Storage.LvmPaths
import Vdsm.Storage.VolumeGroups
import Vdsm.Storage.ConnectionStatus
import Vdsm.Storage.PoolReports
import Vdsm.Storage.CreateVg
import Vdsm.Storage.ConcurrentConnects
import Vdsm.Storage.Iscsi
import Vdsm.Storage.Activation
import Vdsm.Storage.DomainStats
import Vdsm.Virt.Watchdog
import Vdsm.Virt.Reconcile
import Vdsm.Virt.Lifecycle
import Vdsm.Virt.PostState
import Vdsm.Virt.CreateSizes
import Vdsm.Virt.MigrateStatus
import Vdsm.Virt.Stats
import Vdsm.Schema.Unions
import Vdsm.Schema.Anchors
import Vdsm.Schema.LenientLoader
import Vdsm.Host.Clock
import Vdsm.Host.Numa
import Vdsm.Host.VdsmId
import Vdsm.Host.Cpuinfo
import Vdsm.Host.Network
import Vdsm.Host.Machines
