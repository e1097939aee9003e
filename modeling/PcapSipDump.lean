import PcapSipDump.Lib.Machine
import PcapSipDump.Lib.SlotTable
import PcapSipDump.Lib.ResourceLog
import PcapSipDump.Lib.FirstMatch
import PcapSipDump.Lib.CString
import PcapSipDump.Lib.DirTree
import PcapSipDump.Lib.Traces
import PcapSipDump.CallTable.Basic
import PcapSipDump.CallTable.Ops
import PcapSipDump.CallTable.Identity
import PcapSipDump.CallTable.FlowSearch
import PcapSipDump.CallTable.FlowLookup
import PcapSipDump.CallTable.Expiry
import PcapSipDump.CallTable.HighWater
import PcapSipDump.CallTable.PortReuse
import PcapSipDump.CallTable.Cache
import PcapSipDump.CallTable.CallIdIndex
import PcapSipDump.CallTable.FlowCache
import PcapSipDump.CallTable.StaleIndex
import PcapSipDump.Capture.Packet
import PcapSipDump.Capture.SipText
import PcapSipDump.Capture.TaggedLines
import PcapSipDump.Capture.FileName
import PcapSipDump.Capture.Strftime
import PcapSipDump.Capture.World
import PcapSipDump.Capture.Loop
import PcapSipDump.Capture.Steps
import PcapSipDump.Capture.Ownership
import PcapSipDump.Capture.Dumps
import PcapSipDump.Capture.ClosedFiles
import PcapSipDump.Capture.Exits
import PcapSipDump.Capture.Idle
import PcapSipDump.Capture.Branch
import PcapSipDump.Capture.Isolation
import PcapSipDump.Capture.Fragments
import PcapSipDump.Capture.FilePaths
import PcapSipDump.Capture.FinishedCalls
import PcapSipDump.Capture.TimeLimit
import PcapSipDump.Capture.PayloadLength
import PcapSipDump.Capture.Recording
import PcapSipDump.Capture.MediaFiles
import PcapSipDump.Capture.RtcpMode
import PcapSipDump.Capture.RtpEvent
import PcapSipDump.Capture.SipFields
import PcapSipDump.Capture.PeerName
import PcapSipDump.Capture.Template
import PcapSipDump.Capture.Trigger
import PcapSipDump.Capture.ShellTrigger
import PcapSipDump.Capture.Verbosity
import PcapSipDump.Capture.OpenTriggers
import PcapSipDump.Capture.MessageBody
import PcapSipDump.Capture.DistinctPaths
import PcapSipDump.Capture.Dissector
import PcapSipDump.Capture.CaptureBounds
import PcapSipDump.Capture.FragmentMap
import PcapSipDump.Capture.FragmentOrder
import PcapSipDump.Capture.RtpmapEvent
import PcapSipDump.Capture.SdpFlow
import PcapSipDump.Capture.MediaSections
import PcapSipDump.Capture.TriggerSyntax
import PcapSipDump.Capture.Method
import PcapSipDump.Capture.Encapsulation
import PcapSipDump.Capture.PayloadPointer
import PcapSipDump.Capture.TemplateText
import PcapSipDump.Capture.TemplateTokens
import PcapSipDump.Capture.PathComponents
import PcapSipDump.Capture.MkdirP
import PcapSipDump.CallTable.TriggerStrings
import PcapSipDump.Capture.ContentType
import PcapSipDump.Capture.PassTimes
import PcapSipDump.Lib.Scanf
import PcapSipDump.Capture.SizeOption
import PcapSipDump.Capture.Events
import PcapSipDump.Lib.BufferedLog
import PcapSipDump.Lib.FirstDistinct
import PcapSipDump.Lib.Simulation
import PcapSipDump.Capture.CaptureFiles
import PcapSipDump.Capture.Durability
import PcapSipDump.Capture.Sampling
import PcapSipDump.Capture.Archive
import PcapSipDump.Capture.CallHistory
import PcapSipDump.Capture.ArchiveRefinement
import PcapSipDump.Capture.Provenance
import PcapSipDump.Capture.FaxFiles
import PcapSipDump.Capture.Interference
import PcapSipDump.Lib.Getopt
import PcapSipDump.Lib.KeyedFold
import PcapSipDump.Capture.CommandLine
import PcapSipDump.Capture.SettingsText
import PcapSipDump.Capture.TemplateCheck
import PcapSipDump.Capture.MessageText
import PcapSipDump.Capture.HeaderOrder
import PcapSipDump.Capture.Reread
import PcapSipDump.Capture.Replay
