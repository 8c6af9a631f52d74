import Dreamscape.Theory.Pool
import Dreamscape.Theory.Numeral
import Dreamscape.Monitor.Session
import Dreamscape.Monitor.Isolation
import Dreamscape.Monitor.Schedule
import Dreamscape.Monitor.Discipline
import Dreamscape.Monitor.Balance
import Dreamscape.Monitor.Measure
import Dreamscape.MonitorV2.Calls
import Dreamscape.MonitorV2.Handlers
import Dreamscape.MonitorV2.Ledger
import Dreamscape.MonitorV2.Attempt
import Dreamscape.Theory.Serial
import Dreamscape.MonitorV2.Coherence
import Dreamscape.MonitorV2.Unload
import Dreamscape.MonitorV2.Quiescence
import Dreamscape.MonitorV2.Interference
import Dreamscape.Monitor.Grouping
import Dreamscape.MonitorV2.Context
import Dreamscape.Monitor.Snapshot
import Dreamscape.Theory.Cpus
import Dreamscape.Monitor.Preemption
import Dreamscape.TestModule.Handlers
import Dreamscape.Modules.Handlers
import Dreamscape.Theory.History
import Dreamscape.Modules.Message
import Dreamscape.Modules.MessageLock
import Dreamscape.MonitorV2.Timer
import Dreamscape.MonitorV2.Lifetime
import Dreamscape.Theory.Atomic
import Dreamscape.Monitor.Sections
import Dreamscape.Modules.Load
import Dreamscape.Modules.Leftover
import Dreamscape.Kernel.Pmu
import Dreamscape.Pmu.Handlers
import Dreamscape.Pmu.Effect
import Dreamscape.Pmu.Live
import Dreamscape.Pmu.AllCpus
import Dreamscape.Pmu.Neutral
import Dreamscape.MonitorV2.Allocation
import Dreamscape.MonitorV2.Truthful
import Dreamscape.MonitorV2.Deltas
import Dreamscape.Monitor.DumpOutcome
import Dreamscape.Monitor.Grammar
import Dreamscape.Monitor.Numerals
import Dreamscape.Monitor.Leading
import Dreamscape.Monitor.Unloading
import Dreamscape.Monitor.FreedOnce
import Dreamscape.Monitor.DumpFaults
import Dreamscape.Modules.PidText
import Dreamscape.Monitor.Starvation
import Dreamscape.Pmu.Frame
import Dreamscape.Userland.Libc
import Dreamscape.Userland.ReadPmuCounters
import Dreamscape.Userland.Processes
import Dreamscape.Userland.StartSuspended
import Dreamscape.Userland.PmuEventsCli
import Dreamscape.Userland.Measured
import Dreamscape.Pmu.Wiring
import Dreamscape.Monitor.Lifecycle
import Dreamscape.Monitor.Reload
import Dreamscape.Monitor.Linearized
import Dreamscape.Theory.Transcript
import Dreamscape.Userland.SelfMeasuring
import Dreamscape.Userland.SelfMeasured
import Dreamscape.Pmu.UserAccess
import Dreamscape.Pmu.UserRuns
import Dreamscape.Theory.Sum
import Dreamscape.Userland.ReadProcMessage
import Dreamscape.Userland.MessageFile
import Dreamscape.Userland.CountersFile
import Dreamscape.Userland.CountersShown
import Dreamscape.Userland.Forking
import Dreamscape.MonitorV2.Buffers
import Dreamscape.MonitorV2.Conserved
