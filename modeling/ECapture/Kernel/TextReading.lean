import ECapture.Events.Protobuf
import ECapture.Kernel.TextMode
import ECapture.Library.HexDump

/-!
# Reading the text output back

What `StdoutWriter` or a file gets in text mode is one stream of bytes, and a payload may hold any
bytes, such as a line that looks like the header of another event. A header gives the length of
what follows it, so the stream is cut into events in one way.
-/

namespace ECapture.Events
open Library

/-! ## Dumps of the same length -/

namespace OpenSSL.Event

end OpenSSL.Event

end ECapture.Events

namespace ECapture.Kernel.Ssl
open Library

/-! ## One event -/

/-- What the text of an event is meant to show. -/
structure Shown where
  pid : UInt32
  tid : UInt32
  comm : Bytes
  fd : UInt32
  direction : Bytes
  dataLen : Int32
  payload : Except Fault Bytes

def shown (e : Events.OpenSSL.Event) : Shown :=
  ⟨e.pid, e.tid, e.getComm, e.fd, e.direction, e.dataLen, e.getData⟩

end ECapture.Kernel.Ssl
