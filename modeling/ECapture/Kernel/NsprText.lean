import ECapture.Kernel.Lines
import ECapture.Kernel.SslData

/-!
# The text of PR_Read and PR_Write calls

Text mode of the NSPR probe from end to end. In plain text a line tells how much a call has
transferred, and only in hexadecimal what.
-/

namespace ECapture.Kernel.SslData
open Library Ssl Events.ReaderLoop
open Events.NSPR (TLSDataEvent)

/-! ## Events -/

/-- The text before the closing brace. `timeText` is `time.Unix(0, ns).String()`, in the zone of the
host. -/
def front (timeText : Int64 → Bytes) (e : TLSDataEvent) : Bytes :=
  str "TLSDataEvent\x7bTimestamp: " ++ timeText e.timestamp.toInt64 ++ str ", PID: " ++
    dec e.pid.toNat ++ str ", TID: " ++ dec e.tid.toNat ++ str ", Comm: " ++
    Events.commToString e.comm.toList ++ str ", Direction: " ++
    (if e.isWrite then str "write" else str "read") ++ str ", DataLen: " ++
    decInt e.dataLen.toInt

def string (timeText : Int64 → Bytes) (e : TLSDataEvent) : Bytes :=
  front timeText e ++ str "\x7d"

/-- `StringHex`; reading the payload does not fail. -/
def stringHex (timeText : Int64 → Bytes) (e : TLSDataEvent) : Bytes :=
  front timeText e ++ str ", Data(hex): " ++ hex (e.getData.toOption.getD []) ++ str "\x7d"

theorem getData_safe (e : TLSDataEvent) : Safe e.getData := by
  have size : e.data.toList.length = Events.NSPR.maxDataSize := Vector.length_toList
  unfold TLSDataEvent.getData
  split
  · rw [safe_sliceTo]
    omega
  · split
    · exact Safe.ok _
    · rw [safe_sliceTo]
      omega

/-- The line of an event. -/
def line (timeText : Int64 → Bytes) (useHex : Bool) (e : TLSDataEvent) : Bytes :=
  withNewline (if useHex then stringHex timeText e else string timeText e)

end ECapture.Kernel.SslData
