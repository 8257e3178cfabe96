import Wirerust.Lib.SortedMap
import Wirerust.Lib.Checked
import Wirerust.Lib.Chunks
import Wirerust.Lib.FirstWins
import Wirerust.Lib.Framing
import Wirerust.Lib.Lexing
import Wirerust.Lib.Encoding
import Wirerust.Lib.Headed
import Wirerust.Lib.Transducer
import Wirerust.Lib.Trail
import Wirerust.Lib.Capped
import Wirerust.Lib.Words
import Wirerust.Lib.LruTable
import Wirerust.Lib.Grouping
import Wirerust.Lib.Avoid
import Wirerust.Lib.History
import Wirerust.Lib.Joined
import Wirerust.Lib.Tally
import Wirerust.Lib.Cutting
import Wirerust.Lib.Notes
import Wirerust.Lib.Windows
import Wirerust.Lib.Rates
import Wirerust.Lib.Laps
import Wirerust.Lib.Closing
import Wirerust.Lib.Sorting
import Wirerust.Machine
import Wirerust.Packet
import Wirerust.Text
import Wirerust.Utf8
import Wirerust.Reassembly.Segment
import Wirerust.Reassembly.Flow
import Wirerust.Findings
import Wirerust.Reassembly.Gaps
import Wirerust.Reassembly.Buffer
import Wirerust.Reassembly.Direction
import Wirerust.Reassembly.Runs
import Wirerust.Reassembly.Cursor
import Wirerust.Reassembly.FirstWins
import Wirerust.Reassembly.AnyOrder
import Wirerust.Reassembly.Engine
import Wirerust.Reassembly.Moves
import Wirerust.Reassembly.Retiring
import Wirerust.Reassembly.EngineSpec
import Wirerust.Reassembly.Accounting
import Wirerust.Reassembly.Lifetimes
import Wirerust.Reassembly.Handler
import Wirerust.Reassembly.Closing
import Wirerust.Reassembly.Attribution
import Wirerust.Reassembly.Alone
import Wirerust.Reassembly.Isolation
import Wirerust.Reassembly.Anomalies
import Wirerust.Reassembly.Reports
import Wirerust.Reassembly.Expiry
import Wirerust.Reassembly.Eviction
import Wirerust.Analyzer.Common
import Wirerust.Analyzer.Windows
import Wirerust.Analyzer.Modbus
import Wirerust.Analyzer.ModbusPdu
import Wirerust.Analyzer.ModbusStream
import Wirerust.Analyzer.ModbusLedger
import Wirerust.Analyzer.ModbusWindows
import Wirerust.Analyzer.ModbusFindings
import Wirerust.Analyzer.ModbusSustained
import Wirerust.Analyzer.Dnp3
import Wirerust.Analyzer.Dnp3Steps
import Wirerust.Analyzer.Dnp3Turns
import Wirerust.Analyzer.Dnp3Carry
import Wirerust.Analyzer.Dnp3Alarm
import Wirerust.Analyzer.Dnp3Stream
import Wirerust.Analyzer.Dnp3Correlation
import Wirerust.Analyzer.Dnp3Blocked
import Wirerust.Analyzer.Dnp3Windows
import Wirerust.Analyzer.Enip
import Wirerust.Analyzer.EnipWalk
import Wirerust.Analyzer.EnipStream
import Wirerust.Analyzer.EnipCpf
import Wirerust.Analyzer.EnipWindows
import Wirerust.Analyzer.Bursts
import Wirerust.Analyzer.Closing
import Wirerust.Analyzer.Summaries
import Wirerust.Analyzer.Dnp3Closing
import Wirerust.Analyzer.EnipClosing
import Wirerust.Analyzer.Iec104
import Wirerust.Analyzer.Iec104Stream
import Wirerust.Analyzer.Iec104Log
import Wirerust.Analyzer.Iec104Sequence
import Wirerust.Analyzer.Iec104Closing
import Wirerust.Analyzer.S7comm
import Wirerust.Analyzer.S7commStream
import Wirerust.Analyzer.S7commSession
import Wirerust.Analyzer.S7commCotp
import Wirerust.Analyzer.Arp
import Wirerust.Analyzer.ArpBindings
import Wirerust.Analyzer.ArpWindows
import Wirerust.Analyzer.Http
import Wirerust.Analyzer.HttpSides
import Wirerust.Analyzer.HttpPipelining
import Wirerust.Analyzer.Tls
import Wirerust.Analyzer.TlsRecords
import Wirerust.Analyzer.TlsStream
import Wirerust.Analyzer.TlsFingerprints
import Wirerust.Analyzer.TlsNames
import Wirerust.Dispatcher
import Wirerust.DispatcherSteps
import Wirerust.DispatcherRouting
import Wirerust.Protocols
import Wirerust.CoverageGaps
import Wirerust.Mitre
import Wirerust.Summary
import Wirerust.Reporter.Terminal
import Wirerust.Reporter.Safety
import Wirerust.Reporter.Blocks
import Wirerust.Reporter.Escaping
import Wirerust.Reporter.MitreLines
import Wirerust.Analyzer.ModbusTechniques
import Wirerust.Capture.Reader
import Wirerust.Capture.Grammar
import Wirerust.Capture.BlockWalk
import Wirerust.Capture.Chunking
import Wirerust.Capture.Timestamps
import Wirerust.Capture.Bodies
import Wirerust.Decoder
import Wirerust.DecoderArp
import Wirerust.Pipelines
import Wirerust.Reassembly.Conversations
import Wirerust.AnalyzeLoop
import Wirerust.Lib.Commuting
import Wirerust.Reassembly.Orders
import Wirerust.Lib.Lasting
import Wirerust.Wiring
import Wirerust.Endurance
import Wirerust.RunAnalyze
import Wirerust.Survival
import Wirerust.Demux
import Wirerust.Report
import Wirerust.RunCounts
