import ECapture.Errors
import ECapture.Keylog.Dedup
import ECapture.Keylog.Handler
import ECapture.Library.Bytes
import ECapture.Library.Fault
import ECapture.Library.Reader
import ECapture.Library.Layout
import ECapture.Library.StableSort
import ECapture.Library.Steps
import ECapture.Pcap.Writer
import ECapture.Reorder.Buffer
import ECapture.Reorder.Order
import ECapture.Pcap.Delivery
import ECapture.Pcap.LateCalls
import ECapture.Pcap.Order
import ECapture.Events.Text
import ECapture.Events.OpenSSL
import ECapture.Kernel.Secrets
import ECapture.Keylog.HashLength
import ECapture.Events.GoTLS
import ECapture.Events.MySQL
import ECapture.Events.Loop
import ECapture.Events.Bounds
import ECapture.Cli.Reload
import ECapture.Processor.Worker
import ECapture.Processor.Machine
import ECapture.Processor.Handoff
import ECapture.Processor.Drain
import ECapture.Kernel.Filter
import ECapture.Kernel.Ssl
import ECapture.Kernel.Records
import ECapture.Events.NSPR
import ECapture.Kernel.SslCalls
import ECapture.Kernel.ConnTuple
import ECapture.Kernel.SslFd
import ECapture.Kernel.Isolation
import ECapture.Kernel.Traffic
import ECapture.Kernel.TrafficFilter
import ECapture.Kernel.TrafficFlow
import ECapture.Events.Bash
import ECapture.Kernel.Bash
import ECapture.Kernel.MySQL
import ECapture.Events.Protobuf
import ECapture.Events.GnuTLS
import ECapture.Kernel.GnuTLS
import ECapture.Probe.Close
import ECapture.Probe.Shutdown
import ECapture.Library.Scan
import ECapture.Library.PrefixSearch
import ECapture.Library.Channel
import ECapture.Probe.Detect
import ECapture.Probe.Version
import ECapture.Probe.Downgrade
import ECapture.Probe.HookFuncs
import ECapture.Ecaptureq.Hub
import ECapture.Ecaptureq.Sends
import ECapture.Ecaptureq.Effect
import ECapture.Ecaptureq.Logs
import ECapture.Library.Scanf
import ECapture.Probe.GoVersion
import ECapture.Processor.Batches
import ECapture.Processor.Http
import ECapture.Library.Frames
import ECapture.Processor.Http2
import ECapture.Processor.Registry
import ECapture.Kernel.GoTls
import ECapture.Kernel.GoTlsSecrets
import ECapture.Probe.GoAttach
import ECapture.Probe.GoElf
import ECapture.Processor.EachWorker
import ECapture.Processor.Truncate
import ECapture.Library.HexDump
import ECapture.Processor.Fallback
import ECapture.Processor.Destroy
import ECapture.Processor.Http2Bodies
import ECapture.Keylog.Failures
import ECapture.Keylog.ZeroSecrets
import ECapture.Pcap.Count
import ECapture.Library.Rolling
import ECapture.RorateLog.Logger
import ECapture.RorateLog.Files
import ECapture.RorateLog.Rolls
import ECapture.RorateLog.Loss
import ECapture.RorateLog.Size
import ECapture.RorateLog.AfterClose
import ECapture.Library.Padded
import ECapture.Probe.VersionOrder
import ECapture.Processor.Uuid
import ECapture.Processor.Ticker
import ECapture.Reorder.Batches
import ECapture.Kernel.MySQLLength
import ECapture.Kernel.FdInfos
import ECapture.Events.BashLines
import ECapture.Kernel.SslData
import ECapture.Kernel.Handshakes
import ECapture.Events.Packet
import ECapture.Pcap.Capture
import ECapture.Events.Dispatch
import ECapture.Kernel.SslSecrets
import ECapture.Keylog.Capture
import ECapture.Kernel.TextMode
import ECapture.Kernel.TextReading
import ECapture.Library.Regex
import ECapture.Probe.KernelVersion
import ECapture.Probe.Filters
import ECapture.Events.ReaderLoop
import ECapture.Kernel.Lines
import ECapture.Kernel.Windows
import ECapture.Kernel.Postgres
import ECapture.Kernel.Zsh
import ECapture.Kernel.MySQLText
import ECapture.Kernel.NsprText
import ECapture.Kernel.GoTlsText
import ECapture.Kernel.GoTlsKeylog
