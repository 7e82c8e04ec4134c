import ECapture.Events.Text
import ECapture.Keylog.Handler

/-!
# Events of the OpenSSL probe

`internal/probe/openssl`: TLS data (`event.go`), connections (`event_connect.go`), master
secrets (`event_masterkey.go`) and packets (`event_packet.go`, which the GoTLS probe repeats).
The decoders of all four validate what they decode.
-/

namespace ECapture.Events.OpenSSL
open Library

/-! ## TLS data -/

def maxDataSize : Nat := 1024 * 16
def dataTypeRead : Int64 := 0
def dataTypeWrite : Int64 := 1

structure Event where
  dataType : Int64
  timestamp : UInt64
  pid : UInt32
  tid : UInt32
  data : Vector UInt8 maxDataSize
  dataLen : Int32
  comm : Vector UInt8 16
  fd : UInt32
  version : Int32
  bioType : UInt32

namespace Event

def decodeFromBytes : Reader Error Event := do
  let dataType ← field "openssl.DataType" readI64
  let timestamp ← field "openssl.Timestamp" readU64
  let pid ← field "openssl.Pid" readU32
  let tid ← field "openssl.Tid" readU32
  let data ← field "openssl.Data" (readFull maxDataSize)
  let dataLen ← field "openssl.DataLen" readI32
  let comm ← field "openssl.Comm" (readFull 16)
  let fd ← field "openssl.Fd" readU32
  let version ← field "openssl.Version" readI32
  let bioType ← field "openssl.BioType" readU32
  return { dataType, timestamp, pid, tid, data, dataLen, comm, fd, version, bioType }

/-- The record that `decodeFromBytes` reads. -/
def wire (e : Event) : Bytes :=
  leBytes 8 e.dataType.toUInt64.toNat ++ (leBytes 8 e.timestamp.toNat ++ (leBytes 4 e.pid.toNat ++
    (leBytes 4 e.tid.toNat ++ (e.data.toList ++ (leBytes 4 e.dataLen.toUInt32.toNat ++
    (e.comm.toList ++ (leBytes 4 e.fd.toNat ++ (leBytes 4 e.version.toUInt32.toNat ++
    leBytes 4 e.bioType.toNat))))))))

theorem reads_decodeFromBytes : Reads 16440 (fun _ => True) wire decodeFromBytes := by
  have fields : Reads (8 + (8 + (4 + (4 + (maxDataSize + (4 + (16 + (4 + (4 + 4)))))))))
      (fun _ => True) wire decodeFromBytes := by
    refine (reads_field _ .readI64).bind dataType fun _ => ?_
    refine (reads_field _ .readU64).bind timestamp fun _ => ?_
    refine (reads_field _ .readU32).bind pid fun _ => ?_
    refine (reads_field _ .readU32).bind tid fun _ => ?_
    refine (reads_field _ (.readFull _)).bind data fun _ => ?_
    refine (reads_field _ .readI32).bind dataLen fun _ => ?_
    refine (reads_field _ (.readFull _)).bind comm fun _ => ?_
    refine (reads_field _ .readU32).bind fd fun _ => ?_
    refine (reads_field _ .readI32).bind version fun _ => ?_
    refine (reads_field _ .readU32).last bioType fun _ e => ?_
    cases e
    simp [and_assoc]
  exact fields

def validate (e : Event) : Except Error Unit :=
  if e.dataLen < 0 ∨ maxDataSize < e.dataLen.toInt then
    .error (.new .eventValidation (str "invalid data length: " ++ decInt e.dataLen.toInt))
  else if e.dataType ≠ dataTypeRead ∧ e.dataType ≠ dataTypeWrite then
    .error (.new .eventValidation (str "invalid data type: " ++ decInt e.dataType.toInt))
  else .ok ()

def getComm (e : Event) : Bytes := commToString e.comm.toList

/-- `GetData`, which cuts the payload whatever `DataLen` says. -/
def getData (e : Event) : Except Fault Bytes :=
  if e.dataLen ≤ 0 then .ok []
  else if maxDataSize < e.dataLen.toInt then .ok e.data.toList
  else sliceTo e.dataLen.toInt.toNat e.data.toList

def direction (e : Event) : Bytes := if e.dataType = dataTypeRead then str "READ" else str "WRITE"

/-- The line both representations start with. -/
def header (e : Event) (time note : Bytes) : Bytes :=
  str "[" ++ time ++ str "] PID:" ++ dec e.pid.toNat ++ str " TID:" ++ dec e.tid.toNat ++
    str " Comm:" ++ e.getComm ++ str " FD:" ++ dec e.fd.toNat ++ str " " ++ e.direction ++
    str " (" ++ decInt e.dataLen.toInt ++ note ++ str "):\n"

def string (host : Host) (e : Event) : Except Fault Bytes := do
  let absoluteTimeNs := e.timestamp.toInt64 + host.clockOffset
  let dataStr ← e.getData
  return e.header (host.formatTime absoluteTimeNs.toInt) (str " bytes") ++ dataStr

/-- The hex form takes the timestamp for seconds. -/
def stringHex (host : Host) (e : Event) : Except Fault Bytes := do
  let data ← e.getData
  return e.header (host.formatTime (e.timestamp.toInt64.toInt * 1000000000))
    (str " bytes, hex") ++ dumpByteSlice data []

end Event

/-! ## Connections -/

/-- `ConnDataEvent` with the fields of the embedded `connDataEvent` that are read. -/
structure ConnDataEvent where
  saddr : Vector UInt8 16
  daddr : Vector UInt8 16
  comm : Vector UInt8 16
  timestampNs : UInt64
  sock : UInt64
  pid : UInt32
  tid : UInt32
  fd : UInt32
  family : UInt16
  sport : UInt16
  dport : UInt16
  isDestroy : UInt8
  tuple : Bytes

namespace ConnDataEvent

def afInet : UInt16 := 2

/-- The end of `DecodeFromBytes`: the addresses as text. -/
def tupleText (saddr daddr : Vector UInt8 16) (family sport dport : UInt16) :
    Except Fault Bytes := do
  let addr (a : Vector UInt8 16) : Except Fault Bytes :=
    if family = afInet then ipv4Text <$> sliceTo 4 a.toList else .ok (addrFrom16Text a.toList)
  let src ← addr saddr
  let dst ← addr daddr
  return str "[" ++ src ++ str "]:" ++ dec sport.toNat ++ str "->[" ++ dst ++ str "]:" ++
    dec dport.toNat

/-- The fields of the record; the tuple is added by `decode`. -/
def decodeFields : Reader Error ConnDataEvent := do
  let saddr ← field "openssl.ConnDataEvent.Saddr" (readFull 16)
  let daddr ← field "openssl.ConnDataEvent.Daddr" (readFull 16)
  let comm ← field "openssl.ConnDataEvent.Comm" (readFull 16)
  let timestampNs ← field "openssl.ConnDataEvent.TimestampNs" readU64
  let sock ← field "openssl.ConnDataEvent.Sock" readU64
  let pid ← field "openssl.ConnDataEvent.Pid" readU32
  let tid ← field "openssl.ConnDataEvent.Tid" readU32
  let fd ← field "openssl.ConnDataEvent.Fd" readU32
  let family ← field "openssl.ConnDataEvent.Family" readU16
  let sport ← field "openssl.ConnDataEvent.Sport" readU16
  let dport ← field "openssl.ConnDataEvent.Dport" readU16
  let isDestroy ← field "openssl.ConnDataEvent.IsDestroy" readU8
  return { saddr, daddr, comm, timestampNs, sock, pid, tid, fd, family, sport, dport, isDestroy,
           tuple := [] }

def decodeFromBytes (payload : Bytes) : Except Fault (Except Error ConnDataEvent) :=
  match decodeFields.run payload with
  | .error err => .ok (.error err)
  | .ok e => do
    let tuple ← tupleText e.saddr e.daddr e.family e.sport e.dport
    return .ok { e with tuple }

def validate (_ : ConnDataEvent) : Except Error Unit := .ok ()

def string (ce : ConnDataEvent) : Bytes :=
  str "PID:" ++ dec ce.pid.toNat ++ str ", Comm:" ++ commStr ce.comm.toList ++ str ", TID:" ++
    dec ce.tid.toNat ++ str ", FD:" ++ dec ce.fd.toNat ++ str ", Tuple: " ++ ce.tuple

end ConnDataEvent

/-! ## Master secrets -/

structure MasterSecretEvent where
  version : Int32
  clientRandom : Vector UInt8 32
  masterKey : Vector UInt8 48
  cipherId : UInt32
  earlySecret : Vector UInt8 64
  handshakeSecret : Vector UInt8 64
  handshakeTrafficHash : Vector UInt8 64
  clientAppTrafficSecret : Vector UInt8 64
  serverAppTrafficSecret : Vector UInt8 64
  exporterMasterSecret : Vector UInt8 64

namespace MasterSecretEvent

/-- A field that older records lack: read if the buffer still holds `n` bytes, else left zero.
The error of the read is ignored. -/
def optional {α : Type} (n : Nat) (zero : α) (r : Reader ReadError α) : Reader Error α := fun buf =>
  if n ≤ buf.length then
    match r buf with
    | .ok read => .ok read
    | .error _ => .ok (zero, buf)
  else .ok (zero, buf)

def optionalCipherId : Reader Error UInt32 := optional 4 0 readU32
def optionalSecret : Reader Error (Vector UInt8 64) :=
  optional 64 (Vector.replicate 64 0) (readFull 64)

theorem optional_ok {α : Type} {n : Nat} {zero a : α} {r : Reader ReadError α} {buf rest : Bytes}
    (len : n ≤ buf.length) (h : r buf = .ok (a, rest)) : optional n zero r buf = .ok (a, rest) := by
  rw [optional, if_pos len, h]

def decodeFromBytes : Reader Error MasterSecretEvent := do
  let version ← field "masterSecret.Version" readI32
  let clientRandom ← field "masterSecret.ClientRandom" (readFull 32)
  let masterKey ← field "masterSecret.MasterKey" (readFull 48)
  let cipherId ← optionalCipherId
  let earlySecret ← optionalSecret
  let handshakeSecret ← optionalSecret
  let handshakeTrafficHash ← optionalSecret
  let clientAppTrafficSecret ← optionalSecret
  let serverAppTrafficSecret ← optionalSecret
  let exporterMasterSecret ← optionalSecret
  return { version, clientRandom, masterKey, cipherId, earlySecret, handshakeSecret,
           handshakeTrafficHash, clientAppTrafficSecret, serverAppTrafficSecret,
           exporterMasterSecret }

def validate (e : MasterSecretEvent) : Except Error Unit :=
  if e.version < 0x0301 ∨ 0x0304 < e.version then
    .error (.new .eventValidation (str "invalid TLS version: 0x" ++ hexInt 4 e.version.toInt))
  else if e.clientRandom.toList.all (· == 0) then
    .error (.new .eventValidation (str "client random is all zeros"))
  else .ok ()

/-- `masterSecretEventDecoder.Decode`. -/
def decode (data : Bytes) : Except Error MasterSecretEvent := do
  let e ← decodeFromBytes.run data
  e.validate
  return e

def string (e : MasterSecretEvent) : Bytes :=
  let versionStr :=
    if e.version = 0x0303 then str "TLS 1.2"
    else if e.version = 0x0304 then str "TLS 1.3"
    else str "0x" ++ hexInt 4 e.version.toInt
  str "TLS Version: " ++ versionStr ++ str ", ClientRandom: " ++ hex e.clientRandom.toList

def stringHex (e : MasterSecretEvent) : Bytes :=
  str "Version: 0x" ++ hexInt 4 e.version.toInt ++ str ", ClientRandom: " ++
    hex e.clientRandom.toList ++ str ", MasterKey: " ++ hex e.masterKey.toList

/-- What the getters give the key log handler. -/
def keylogEvent (e : MasterSecretEvent) : Keylog.MasterSecretEvent :=
  { version := e.version
    clientRandom := e.clientRandom.toList
    masterKey := e.masterKey.toList
    cipherId := e.cipherId
    earlySecret := e.earlySecret
    handshakeSecret := e.handshakeSecret
    handshakeTrafficHash := e.handshakeTrafficHash
    clientAppTrafficSecret := e.clientAppTrafficSecret
    serverAppTrafficSecret := e.serverAppTrafficSecret
    exporterMasterSecret := e.exporterMasterSecret }

end MasterSecretEvent

/-! ## Packets -/

structure PacketEvent where
  timestamp : UInt64
  pid : UInt32
  comm : Vector UInt8 16
  packetLen : UInt32
  interfaceIndex : UInt32
  packetData : Bytes

namespace PacketEvent

/-- An error of `binary.Read` is returned as it is. -/
def field {α : Type} (r : Reader ReadError α) : Reader Error α :=
  r.mapError (fun e => .text e.message)

def decodeFields : Reader Error PacketEvent := do
  let timestamp ← field readU64
  let pid ← field readU32
  let comm ← field (readFull 16)
  let packetLen ← field readU32
  let interfaceIndex ← field readU32
  let packetData ← field (readFull packetLen.toNat)
  return { timestamp, pid, comm, packetLen, interfaceIndex, packetData := packetData.toList }

def decodeFromBytes (data : Bytes) : Except Error PacketEvent :=
  if data.length < 36 then .error (.new .eventDecode (str "packet event data too short"))
  else decodeFields.run data

def validate (e : PacketEvent) : Except Error Unit :=
  if e.packetLen = 0 then .error (.new .eventValidation (str "packet length is zero")) else .ok ()

/-- `String` and `StringHex`. -/
def string (e : PacketEvent) : Bytes :=
  str "Packet captured: len=" ++ dec e.packetLen.toNat ++ str " bytes, timestamp=" ++
    dec e.timestamp.toNat ++ str ", interface=" ++ dec e.interfaceIndex.toNat

end PacketEvent

end ECapture.Events.OpenSSL
