import EbpfToolbox.Lib.Machine
import EbpfToolbox.Lib.BpfMap
import EbpfToolbox.Lib.PerCpu
import EbpfToolbox.Lib.Peak
import EbpfToolbox.Lib.Panel
import EbpfToolbox.Lib.Shards
import EbpfToolbox.Lib.CallTracker
import EbpfToolbox.Lib.Program
import EbpfToolbox.Lib.Interleave
import EbpfToolbox.Lib.SharedRecord
import EbpfToolbox.Lib.Buffer
import EbpfToolbox.Lib.CString
import EbpfToolbox.Lib.Printing
import EbpfToolbox.Common.PidNamespace
import EbpfToolbox.Common.Translation
import EbpfToolbox.Common.LevelSearch
import EbpfToolbox.Common.Cli
import EbpfToolbox.Common.Selection
import EbpfToolbox.Common.Options
import EbpfToolbox.Common.PollLoop
import EbpfToolbox.Common.RunModule
import EbpfToolbox.Common.Lifecycle
import EbpfToolbox.Fs.Open
import EbpfToolbox.Fs.ReadWrite
import EbpfToolbox.Fs.Reporting
import EbpfToolbox.Fs.BlockIo
import EbpfToolbox.Lock.Mutexlock
import EbpfToolbox.Mem.DrSnoop
import EbpfToolbox.Mem.OomKiller
import EbpfToolbox.Mem.SlabRate
import EbpfToolbox.Mem.SlabWindows
import EbpfToolbox.Mem.SlabSystem
import EbpfToolbox.Net.Inet
import EbpfToolbox.Net.InetNtop
import EbpfToolbox.Net.FmtAddr
import EbpfToolbox.Net.TcpMonitor
import EbpfToolbox.Net.TcpSession
import EbpfToolbox.Net.TcpAttribution
import EbpfToolbox.Net.TcpNesting
import EbpfToolbox.Net.TcpStories
import EbpfToolbox.Net.UdpMonitor
import EbpfToolbox.Net.UdpNesting
import EbpfToolbox.Net.UdpSettlement
import EbpfToolbox.Net.UdpFiltering
import EbpfToolbox.Net.Summary
import EbpfToolbox.Net.UdpReports
import EbpfToolbox.Ipc.Msgqueue
import EbpfToolbox.Ipc.Traffic
import EbpfToolbox.Ipc.Classification
import EbpfToolbox.Ipc.Cleanup
import EbpfToolbox.Ipc.Handover
import EbpfToolbox.Ipc.AtMostOnce
import EbpfToolbox.Ipc.MaxUpdate
import EbpfToolbox.Ipc.FreeMsg
import EbpfToolbox.Ipc.Reports
import EbpfToolbox.Ipc.Provenance
import EbpfToolbox.Sched.ContextSwitch
import EbpfToolbox.Sched.RunqueueDelay
import EbpfToolbox.Sched.Lifetimes
import EbpfToolbox.Sched.Preempt
import EbpfToolbox.Syscall.Syscall
import EbpfToolbox.Syscall.Latency
import EbpfToolbox.Accounting
import EbpfToolbox.Threshold
import EbpfToolbox.SharedStats
import EbpfToolbox.Requests
import EbpfToolbox.Panels
