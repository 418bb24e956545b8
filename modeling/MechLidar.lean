import MechLidar.Lib.LittleEndian
import MechLidar.Lib.Cells
import MechLidar.Lib.Serial
import MechLidar.Lib.Batch
import MechLidar.Lib.Loop
import MechLidar.Lib.Find
import MechLidar.Lib.IStream
import MechLidar.Lib.Result
import MechLidar.Lib.Handles
import MechLidar.Lib.Labelled
import MechLidar.Lib.Swaps
import MechLidar.Lib.Collect
import MechLidar.Number
import MechLidar.Packet
import MechLidar.Assembler
import MechLidar.Revolution
import MechLidar.Completion
import MechLidar.Scan
import MechLidar.Socket
import MechLidar.Driver
import MechLidar.Session
import MechLidar.UdpRuns
import MechLidar.Stream
import MechLidar.Order
import MechLidar.Discards
import MechLidar.Pcap
import MechLidar.Replay
import MechLidar.Frames
import MechLidar.Passes
import MechLidar.StartOver
import MechLidar.Transports
import MechLidar.Descriptors
import MechLidar.Receive
import MechLidar.Recovery
import MechLidar.Http
import MechLidar.Streaming
import MechLidar.StatusLine
import MechLidar.Cli
import MechLidar.RosArguments
import MechLidar.Requests
import MechLidar.OptionOrder
import MechLidar.Json
import MechLidar.Config
import MechLidar.RoundTrip
import MechLidar.ConfigCheck
import MechLidar.ConfigIntegers
import MechLidar.Overrides
import MechLidar.ResponseText
import MechLidar.BackoffDelays
import MechLidar.SafetyZones
import MechLidar.ArrivalOrder
import MechLidar.CounterJump
import MechLidar.ScanLayout
import MechLidar.Pacing
import MechLidar.ZoneFaults
import MechLidar.MarkerArrays
import MechLidar.SectorOutlines
import MechLidar.RangeBounds
import MechLidar.Sending
import MechLidar.Connecting
import MechLidar.Lib.Loads
import MechLidar.Lib.Throttle
import MechLidar.Lib.Routine
import MechLidar.Polling
import MechLidar.PollRuns
import MechLidar.Diagnostics
import MechLidar.Reports
import MechLidar.Exchange
import MechLidar.SafetyDebug
import MechLidar.Lib.Workers
import MechLidar.Startup
import MechLidar.Lifecycle
import MechLidar.Shutdown
import MechLidar.Provenance
import MechLidar.Commands
import MechLidar.ExitStatus
import MechLidar.Lib.Owners
import MechLidar.DescriptorTable
