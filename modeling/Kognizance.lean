import Kognizance.Lib.Run
import Kognizance.Lib.Arena
import Kognizance.Lib.Trie
import Kognizance.Lib.Outline
import Kognizance.Lib.Multimap
import Kognizance.Lib.Sweep
import Kognizance.Lib.Exclusive
import Kognizance.Lib.Index
import Kognizance.Lib.Nesting
import Kognizance.Lib.Critical
import Kognizance.Lib.Mutex
import Kognizance.Lib.LittleEndian
import Kognizance.Lib.Ring
import Kognizance.Lib.Chance
import Kognizance.Lib.Loop
import Kognizance.Platform.Event
import Kognizance.Platform.Device
import Kognizance.Platform.Sessions
import Kognizance.Platform.MapsAgree
import Kognizance.Platform.OwnSessions
import Kognizance.Platform.MaxDevices
import Kognizance.Platform.SessionPause
import Kognizance.Platform.SessionKey
import Kognizance.Platform.SignalHandler
import Kognizance.Platform.SignalOwner
import Kognizance.Platform.SignalUnsafe
import Kognizance.Platform.PauseAll
import Kognizance.Platform.DeviceLoops
import Kognizance.Platform.EndedDevice
import Kognizance.Platform.SelfLock
import Kognizance.Platform.PerfParser
import Kognizance.Platform.PerfRecord
import Kognizance.Platform.SampleLayout
import Kognizance.Platform.SampleEvents
import Kognizance.Platform.RecordOffsets
import Kognizance.Platform.RingStream
import Kognizance.Agent.KvmAgent
import Kognizance.Agent.VcpuSlots
import Kognizance.Agent.Notification
import Kognizance.Agent.NativeAgent
import Kognizance.Agent.Backtrace
import Kognizance.Agent.Symbols
import Kognizance.Agent.Previous
import Kognizance.Agent.Access
import Kognizance.Agent.Bytecode
import Kognizance.Agent.WordCode
import Kognizance.Agent.PythonStack
import Kognizance.Agent.PythonLock
import Kognizance.Watchpoint.Util
import Kognizance.Watchpoint.Slot
import Kognizance.Watchpoint.Victim
import Kognizance.Watchpoint.Library
import Kognizance.Watchpoint.Steps
import Kognizance.Watchpoint.SlotIndices
import Kognizance.Watchpoint.SlotTable
import Kognizance.Watchpoint.Subscribe
import Kognizance.Watchpoint.EventLife
import Kognizance.Watchpoint.Stale
import Kognizance.Watchpoint.Bijection
import Kognizance.Watchpoint.Reservoir
import Kognizance.Watchpoint.Retention
import Kognizance.Watchpoint.Selection
import Kognizance.Watchpoint.TriggerRing
import Kognizance.Watchpoint.ThreadCalls
import Kognizance.Witch.ContextTree
import Kognizance.Witch.Callbacks
import Kognizance.Witch.Locking
import Kognizance.Witch.Steps
import Kognizance.Witch.Trie
import Kognizance.Witch.ContextKinds
import Kognizance.Witch.Attribution
import Kognizance.Witch.PerContext
import Kognizance.Witch.Twins
import Kognizance.Witch.Inefficiency
import Kognizance.Witch.Quotient
import Kognizance.Witch.Report
import Kognizance.Witch.Denominator
import Kognizance.Witch.Reset
import Kognizance.Witch.ContextReport
import Kognizance.Witch.Reprint
import Kognizance.Witch.Overlap
import Kognizance.Witch.Intersection
import Kognizance.Witch.Redundant
import Kognizance.Witch.Compared
import Kognizance.Witch.Duplicate
import Kognizance.Tool.FixIP
import Kognizance.Tool.Handler
import Kognizance.Tool.LeafMap
import Kognizance.Tool.BpTool
import Kognizance.Tool.WitchSessions
import Kognizance.Tool.LogicCalls
