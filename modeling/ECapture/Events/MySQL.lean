import ECapture.Events.Text

/-!
# Events of the MySQL probe

`internal/probe/mysql/event.go`. The decoder does not look at the length it reads.
-/

namespace ECapture.Events.MySQL
open Library

def maxDataSize : Nat := 256

structure Event where
  pid : UInt64
  timestamp : UInt64
  query : Vector UInt8 256
  alllen : UInt64
  len : UInt64
  comm : Vector UInt8 16
  retval : Int8

namespace Event

/-- `binary.Read` of one field, with the error text of this probe. -/
def field {α : Type} (name : String) (r : Reader ReadError α) : Reader Error α :=
  r.mapError (fun e => .text (str "failed to read " ++ str name ++ str ": " ++ e.message))

theorem field_ok {α : Type} {name : String} {r : Reader ReadError α} {buf rest : Bytes} {a : α}
    (h : r buf = .ok (a, rest)) : field name r buf = .ok (a, rest) :=
  Reader.mapError_ok h

def decodeFromBytes : Reader Error Event := do
  let pid ← field "Pid" readU64
  let timestamp ← field "Timestamp" readU64
  let query ← field "Query" (readFull 256)
  let alllen ← field "Alllen" readU64
  let len ← field "Len" readU64
  let comm ← field "Comm" (readFull 16)
  let retval ← field "Retval" readI8
  return { pid, timestamp, query, alllen, len, comm, retval }

/-- `DispatchCommandReturn.String`. -/
def status (retval : Int8) : Bytes :=
  if retval = 1 then str "CLOSE_CONNECTION"
  else if retval = 0 then str "SUCCESS"
  else if retval = 2 then str "WOULDBLOCK"
  else if retval = -1 then str "NOT_CAPTURED"
  else if retval = -2 then str "V57_FAILED"
  else str "UNKNOWN"

def string (e : Event) : Except Fault Bytes := do
  let query ← sliceTo e.len.toNat e.query.toList
  return str "MySQL Query[PID=" ++ dec e.pid.toNat ++ str ", Comm=" ++ commToString e.comm.toList ++
    str ", Len=" ++ dec e.len.toNat ++ str "/" ++ dec e.alllen.toNat ++ str ", Status=" ++
    status e.retval ++ str "]: " ++ commToString query

/-- `GetQuery`. -/
def getQuery (e : Event) : Except Fault Bytes := commToString <$> sliceTo e.len.toNat e.query.toList

/-- `IsTruncated`. -/
def isTruncated (e : Event) : Bool := e.len < e.alllen

def validate (e : Event) : Except Error Unit :=
  if maxDataSize < e.len.toNat then
    .error (.text (str "query length " ++ dec e.len.toNat ++ str " exceeds maximum " ++
      dec maxDataSize))
  else if e.alllen < e.len then
    .error (.text (str "query length " ++ dec e.len.toNat ++ str " exceeds total length " ++
      dec e.alllen.toNat))
  else .ok ()

end Event

end ECapture.Events.MySQL
