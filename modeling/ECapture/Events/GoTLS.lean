import ECapture.Events.Text
import ECapture.Keylog.Handler

/-!
# Events of the GoTLS probe

`internal/probe/gotls`: TLS data (`event.go`) and master secrets (`event_masterkey.go`). The
decoder of a data event bounds its length; the decoder of a master secret does not look at
the three lengths it reads.
-/

namespace ECapture.Events.GoTLS
open Library

/-! ## TLS data -/

def maxGoTLSPayload : Nat := 16 * 1024
def defaultTuple : Bytes := str "0.0.0.0:0-0.0.0.0:0"

structure GoTLSDataEvent where
  timestamp : UInt64
  bpfMonoNs : UInt64
  pid : UInt32
  tid : UInt32
  dataLen : Int32
  eventType : UInt8
  fd : UInt32
  srcIP : Vector UInt8 16
  srcPort : UInt16
  dstIP : Vector UInt8 16
  dstPort : UInt16
  ipVersion : UInt8
  comm : Vector UInt8 16
  data : Bytes
  tuple : Bytes

namespace GoTLSDataEvent

/-- The payload part of `DecodeFromBytes`: the length that is kept and the bytes. -/
def decodePayload (dataLen : Int32) : Reader Error (Int32 × Bytes) := fun buf =>
  let len := dataLen.toInt.toNat
  if 0 < dataLen then
    if buf.length < len then
      .error (newEventDecodeError (str "gotls.DataLen") (.text (str "data length " ++ dec len ++
        str " exceeds remaining buffer " ++ dec buf.length)))
    else if maxGoTLSPayload < len then
      .error (newEventDecodeError (str "gotls.DataLen") (.text (str "data length " ++ dec len ++
        str " exceeds maximum allowed " ++ dec maxGoTLSPayload)))
    else (field "gotls.Data" ((fun v => (dataLen, v.toList)) <$> readFull len)) buf
  else .ok ((0, []), buf)

/-- All of `DecodeFromBytes` before the tuple. -/
def decodeFields (host : Host) : Reader Error GoTLSDataEvent := do
  let timestamp ← field "gotls.Timestamp" readU64
  let pid ← field "gotls.Pid" readU32
  let tid ← field "gotls.Tid" readU32
  let dataLen ← field "gotls.DataLen" readI32
  let eventType ← field "gotls.EventType" readU8
  let _ ← field "gotls.pad" (readFull 3)
  let fd ← field "gotls.Fd" readU32
  let srcIP ← field "gotls.SrcIP" (readFull 16)
  let srcPort ← field "gotls.SrcPort" readU16
  let _ ← field "gotls.pad2" (readFull 2)
  let dstIP ← field "gotls.DstIP" (readFull 16)
  let dstPort ← field "gotls.DstPort" readU16
  let ipVersion ← field "gotls.IPVersion" readU8
  let _ ← field "gotls.pad3" readU8
  let comm ← field "gotls.Comm" (readFull 16)
  let (dataLen, data) ← decodePayload dataLen
  return { timestamp := if timestamp = 0 then host.now else timestamp
           bpfMonoNs := timestamp, pid, tid, dataLen, eventType, fd, srcIP, srcPort, dstIP,
           dstPort, ipVersion, comm, data, tuple := [] }

def ipToString (ip : Bytes) (version : UInt8) : Except Fault Bytes :=
  if version = 4 then if ip.length < 4 then .ok [] else netIPText <$> sliceTo 4 ip
  else if version = 6 then if ip.length < 16 then .ok [] else netIPText <$> sliceTo 16 ip
  else .ok []

/-- `GetTuple`: the cached text, or the text it would cache. -/
def getTuple (e : GoTLSDataEvent) : Except Fault Bytes :=
  if e.tuple ≠ [] then .ok e.tuple
  else
    let size : Option Nat := if e.ipVersion = 4 then some 4 else if e.ipVersion = 6 then some 16 else none
    match size with
    | none => .ok defaultTuple
    | some size => do
      let localIP ← ipToString (← sliceTo size e.srcIP.toList) e.ipVersion
      let remoteIP ← ipToString (← sliceTo size e.dstIP.toList) e.ipVersion
      let side (ip : Bytes) (port : UInt16) : Bytes := str "[" ++ ip ++ str "]:" ++ dec port.toNat
      let here := side localIP e.srcPort
      let there := side remoteIP e.dstPort
      return if e.eventType = 0 then here ++ str "->" ++ there else there ++ str "->" ++ here

def decodeFromBytes (host : Host) (data : Bytes) : Except Fault (Except Error GoTLSDataEvent) :=
  match (decodeFields host).run data with
  | .error err => .ok (.error err)
  | .ok e => do
    let tuple ← e.getTuple
    return .ok { e with tuple }

def validate (e : GoTLSDataEvent) : Except Error Unit :=
  if maxGoTLSPayload < e.dataLen.toInt then
    .error (.text (str "data length " ++ decInt e.dataLen.toInt ++ str " exceeds maximum " ++
      dec maxGoTLSPayload))
  else if e.dataLen < 0 then
    .error (.text (str "data length " ++ decInt e.dataLen.toInt ++ str " is negative"))
  else .ok ()

/-- `GetData`, which cuts the payload whatever `DataLen` says. -/
def getData (e : GoTLSDataEvent) : Except Fault Bytes :=
  let dataLen := e.dataLen.toInt.toNat
  sliceTo (if e.data.length < dataLen then e.data.length else dataLen) e.data

/-- Both representations, which differ in the last part. -/
def text (e : GoTLSDataEvent) (note : Bytes) (payload : Bytes → Bytes) : Except Fault Bytes := do
  let direction := if e.eventType = 1 then str "READ" else str "WRITE"
  let tuple ← e.getTuple
  let data ← e.getData
  let front := str "PID:" ++ dec e.pid.toNat ++ str ", TID:" ++ dec e.tid.toNat ++ str ", Comm:" ++
    commToString e.comm.toList ++ str ", FD:" ++ dec e.fd.toNat
  let middle := if tuple = [] then [] else str ", Tuple:" ++ tuple
  return front ++ middle ++ str ", Type:" ++ direction ++ str ", Len:" ++ decInt e.dataLen.toInt ++
    note ++ payload data

def string (e : GoTLSDataEvent) : Except Fault Bytes := e.text (str "\nData:\n") id
def stringHex (e : GoTLSDataEvent) : Except Fault Bytes := e.text (str "\nData(hex):\n") hex

end GoTLSDataEvent

/-! ## Master secrets -/

def masterSecretKeyLen : Nat := 32

structure MasterSecretEvent where
  label : Vector UInt8 32
  labelLen : UInt8
  clientRandom : Vector UInt8 64
  clientRandomLen : UInt8
  secret : Vector UInt8 64
  secretLen : UInt8

namespace MasterSecretEvent

def expectedSize : Nat := 32 + 1 + 64 + 1 + 64 + 1

/-- `buf.Read` into an array: here always the whole array, since the size has been checked. -/
def decodeFields : Reader Error MasterSecretEvent := do
  let label ← field "gotls.Label" (readFull 32)
  let labelLen ← field "gotls.LabelLen" readU8
  let clientRandom ← field "gotls.ClientRandom" (readFull 64)
  let clientRandomLen ← field "gotls.ClientRandomLen" readU8
  let secret ← field "gotls.Secret" (readFull 64)
  let secretLen ← field "gotls.SecretLen" readU8
  return { label, labelLen, clientRandom, clientRandomLen, secret, secretLen }

def decodeFromBytes (data : Bytes) : Except Error MasterSecretEvent :=
  if data.length < expectedSize then
    .error (newEventDecodeError (str "gotls.MasterSecretEvent") (.text (str "data too short: got " ++
      dec data.length ++ str " bytes, need at least " ++ dec expectedSize)))
  else decodeFields.run data

def validate (e : MasterSecretEvent) : Except Error Unit :=
  if 32 < e.labelLen then
    .error (.text (str "label length " ++ dec e.labelLen.toNat ++ str " exceeds maximum 32"))
  else if 64 < e.clientRandomLen then
    .error (.text (str "client random length " ++ dec e.clientRandomLen.toNat ++
      str " exceeds maximum 64"))
  else if 64 < e.secretLen then
    .error (.text (str "secret length " ++ dec e.secretLen.toNat ++ str " exceeds maximum 64"))
  else .ok ()

def getLabel (e : MasterSecretEvent) : Except Fault Bytes :=
  sliceTo e.labelLen.toNat e.label.toList

def getClientRandom (e : MasterSecretEvent) : Except Fault Bytes :=
  sliceTo e.clientRandomLen.toNat e.clientRandom.toList

def getSecret (e : MasterSecretEvent) : Except Fault Bytes :=
  sliceTo e.secretLen.toNat e.secret.toList

def string (e : MasterSecretEvent) : Except Fault Bytes := do
  let label ← sliceTo e.labelLen.toNat e.label.toList
  let clientRandom ← sliceTo e.clientRandomLen.toNat e.clientRandom.toList
  return str "Label: " ++ label ++ str ", ClientRandom: " ++ hex clientRandom

def stringHex (e : MasterSecretEvent) : Except Fault Bytes := do
  let label ← sliceTo e.labelLen.toNat e.label.toList
  let clientRandom ← sliceTo e.clientRandomLen.toNat e.clientRandom.toList
  let secret ← sliceTo e.secretLen.toNat e.secret.toList
  return str "Label:" ++ label ++ str ", ClientRandom:" ++ hex clientRandom ++ str ", Secret:" ++
    hex secret

/-- What the getters give the key log handler. -/
def keylogEvent (e : MasterSecretEvent) : Except Fault Keylog.GoTLSMasterSecretEvent := do
  let label ← e.getLabel
  let clientRandom ← e.getClientRandom
  let secret ← e.getSecret
  return { label, clientRandom, secret }

end MasterSecretEvent

end ECapture.Events.GoTLS
