import Qsdk.Lib.Serial
import Qsdk.Lib.Prog
import Qsdk.MgmtRxReo.Basic
import Qsdk.MgmtRxReo.Host
import Qsdk.MgmtRxReo.WaitCount
import Qsdk.MgmtRxReo.ListInvariant
import Qsdk.MgmtRxReo.ReleaseOrder
import Qsdk.Lib.Schedule
import Qsdk.MgmtRxReo.Ownership
import Qsdk.MgmtRxReo.Air
import Qsdk.MgmtRxReo.AirEstimate
import Qsdk.MgmtRxReo.AirOrder
import Qsdk.Lib.Ledger
import Qsdk.Serialization.Basic
import Qsdk.Serialization.Calls
import Qsdk.Serialization.QueueInvariant
import Qsdk.Serialization.Sections
import Qsdk.Serialization.Duties
import Qsdk.Serialization.Accounts
import Qsdk.Serialization.Exclusion
import Qsdk.Serialization.Bookkeeping
import Qsdk.Serialization.Rejection
import Qsdk.Serialization.WorkConserving
import Qsdk.Lib.Linked
import Qsdk.Sfe.Basic
import Qsdk.Sfe.Create
import Qsdk.Sfe.System
import Qsdk.Sfe.Calls
import Qsdk.Sfe.Lifecycle
import Qsdk.Sfe.Lookup
import Qsdk.Sfe.Fill
import Qsdk.Sfe.Mirror
import Qsdk.Sfe.Recreate
import Qsdk.Lib.Meter
import Qsdk.Sfe.Persist
import Qsdk.Sfe.Counters
import Qsdk.Sfe.SyncLedger
import Qsdk.Sfe.Forward
import Qsdk.Sfe.Edit
import Qsdk.Sfe.Translate
import Qsdk.Lib.OnesComplement
import Qsdk.Sfe.Checksum
import Qsdk.Ecm.Basic
import Qsdk.Ecm.Calls
import Qsdk.Ecm.Duties
import Qsdk.Ecm.Accounts
import Qsdk.Ecm.Accounting
import Qsdk.Ecm.Regeneration
import Qsdk.Ecm.Timer
import Qsdk.Ecm.TimerRuns
import Qsdk.Hyfi.Aggr
import Qsdk.Hyfi.Lanes
import Qsdk.Hyfi.Receiver
import Qsdk.Hyfi.Order
import Qsdk.Dfs.PrecacCounts
import Qsdk.Dfs.PrecacForest
import Qsdk.Dfs.PrecacRuns
import Qsdk.Dfs.PrecacDone
import Qsdk.Ecm.Assignment
import Qsdk.Ecm.AssignmentRuns
import Qsdk.Ecm.AssignmentSound
import Qsdk.Umac.SmEngine
import Qsdk.Umac.SmTransitions
import Qsdk.Multicast.Record
import Qsdk.Multicast.RouterState
import Qsdk.Multicast.HostState
import Qsdk.Lib.First
import Qsdk.Multicast.Table
import Qsdk.Multicast.Walks
import Qsdk.Multicast.Snooping
import Qsdk.Multicast.Counts
import Qsdk.Multicast.TableRuns
import Qsdk.Multicast.Accounting
import Qsdk.Multicast.Losses
import Qsdk.Multicast.LeaveFilter
import Qsdk.Umac.ScanDb
import Qsdk.Umac.ScanTasks
import Qsdk.Umac.ScanCalls
import Qsdk.Hyfi.PathSwitch
import Qsdk.Hyfi.SwitchOrder
import Qsdk.Lacp.Selection
import Qsdk.Dfs.PrecacSearch
import Qsdk.Lib.Sweep
import Qsdk.Serialization.Cancellation
import Qsdk.Tracker.TcpState
import Qsdk.Sfe.TcpOptions
import Qsdk.Sfe.TcpWindow
import Qsdk.Tracker.IpHeader
import Qsdk.Qmi.Element
import Qsdk.Tracker.TcpData
import Qsdk.Tracker.TcpCalls
import Qsdk.Tracker.TcpReader
import Qsdk.Dfs.PrecacMove
import Qsdk.Dfs.Timestamps
import Qsdk.Hyfi.Tagging
import Qsdk.Umac.ScanAgeing
import Qsdk.Hyfi.TxAggr
import Qsdk.Multicast.Queriers
import Qsdk.Hyfi.TxRounds
import Qsdk.Hyfi.TxRuns
import Qsdk.Dfs.DelayLines
import Qsdk.Dfs.DelayRuns
import Qsdk.Multicast.Copies
import Qsdk.Lib.Elements
import Qsdk.Umac.HiddenSsid
import Qsdk.Umac.SmHierarchy
import Qsdk.Lib.Splice
import Qsdk.Umac.SsidEdits
import Qsdk.Umac.Inheritance
import Qsdk.Umac.Inherited
import Qsdk.Umac.MbssidFree
import Qsdk.Umac.SplitProfiles
import Qsdk.Umac.SplitJoined
import Qsdk.Lib.Words
import Qsdk.Multicast.ReportEdit
import Qsdk.Multicast.ReportLoop
import Qsdk.Multicast.ReportRebuilt
import Qsdk.Lib.Runner
import Qsdk.Lacp.Machines
import Qsdk.Lacp.Daemon
import Qsdk.Lacp.PortRank
import Qsdk.Lacp.Members
import Qsdk.Lacp.Settled
import Qsdk.Lacp.Outcome
import Qsdk.Lacp.Reached
import Qsdk.Lacp.Promises
import Qsdk.Lacp.Recorded
import Qsdk.Lacp.Wire
import Qsdk.Lib.Writes
import Qsdk.Qmi.Decode
import Qsdk.Qmi.Bounds
import Qsdk.Qmi.Framing
import Qsdk.Qmi.Encode
import Qsdk.Qmi.Restore
import Qsdk.Qmi.Items
import Qsdk.Qmi.ElementTrip
import Qsdk.Qmi.Room
import Qsdk.Qmi.RoundTrip
import Qsdk.Serialization.Scans
