import VpnHide.Lib.BinarySearch
import VpnHide.Lib.Buffers
import VpnHide.Lib.Cells
import VpnHide.Lib.Codec
import VpnHide.Lib.CString
import VpnHide.Lib.Counters
import VpnHide.Lib.Exec
import VpnHide.Lib.FirstWins
import VpnHide.Lib.KeyedRows
import VpnHide.Lib.LeastRecent
import VpnHide.Lib.LineFilter
import VpnHide.Lib.Pages
import VpnHide.Lib.Printf
import VpnHide.Lib.Probing
import VpnHide.Lib.Result
import VpnHide.Lib.RunningMax
import VpnHide.Lib.Runs
import VpnHide.Lib.SavedCell
import VpnHide.Lib.Scan
import VpnHide.Lib.Seqlock
import VpnHide.Lib.Slots
import VpnHide.Lib.Sorted
import VpnHide.Lib.Text
import VpnHide.Lib.Tiles
import VpnHide.Lib.TokenBucket
import VpnHide.Lib.Transaction
import VpnHide.Lib.Transition
import VpnHide.Lib.UserMemory
import VpnHide.Lib.Words
import VpnHide.Abi
import VpnHide.Snapshot
import VpnHide.Grammar
import VpnHide.WellFormed
import VpnHide.Lookup
import VpnHide.Parsers
import VpnHide.Policy
import VpnHide.Layout
import VpnHide.ReadBack
import VpnHide.Pack
import VpnHide.OwnedPorts
import VpnHide.OwnedTable
import VpnHide.Stats
import VpnHide.StatsTable
import VpnHide.Reconcile
import VpnHide.PortStats
import VpnHide.Legacy
import VpnHide.LegacyMeaning
import VpnHide.Payload
import VpnHide.Kernel
import VpnHide.Eligibility
import VpnHide.StatsRun
import VpnHide.Kpatch
import VpnHide.Connect
import VpnHide.PortGrants
import VpnHide.PendingPorts
import VpnHide.PendingRace
import VpnHide.SockDiag
import VpnHide.LocalService
import VpnHide.FibTrie
import VpnHide.ProcNet
import VpnHide.Ifconf
import VpnHide.BpfStats
import VpnHide.NetlinkDump
import VpnHide.Pktinfo
import VpnHide.SetSockOpt
import VpnHide.GetSockOpt
import VpnHide.GetSockOptName
import VpnHide.GetSockOptPatch
import VpnHide.CoverIface
import VpnHide.UdpRates
import VpnHide.UdpSndbuf
import VpnHide.StatsRing
import VpnHide.StatsHistory
import VpnHide.StatsRead
import VpnHide.StatsSnapshot
import VpnHide.Daemon
import VpnHide.PortTotals
import VpnHide.StatsBuffers
import VpnHide.DevRead
import VpnHide.Device
import VpnHide.StatusText
import VpnHide.Concurrency
import VpnHide.StaleWriters
import VpnHide.StaleReaders
import VpnHide.Json
import VpnHide.Resolve
import VpnHide.Intent
import VpnHide.RuleSets
import VpnHide.Resolved
import VpnHide.Load
import VpnHide.EndToEnd
import VpnHide.AppOrder
import VpnHide.Parson
import VpnHide.FileHiding
import VpnHide.SusfsCache
import VpnHide.Inject
