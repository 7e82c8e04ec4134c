import ECapture.Kernel.Records

/-!
# Events of the NSPR probe

`internal/probe/nspr`: TLS data (`event.go`) and master secrets (`event_masterkey.go`). Both event
types can write themselves; the decoders read exactly what `Encode` writes.
-/

namespace ECapture.Events.NSPR
open Library

/-! ## TLS data -/

def maxDataSize : Nat := 1024 * 16
def taskCommLen : Nat := 16

structure TLSDataEvent where
  dataType : Int64
  timestamp : UInt64
  pid : UInt32
  tid : UInt32
  data : Vector UInt8 maxDataSize
  dataLen : Int32
  comm : Vector UInt8 taskCommLen

namespace TLSDataEvent

def decodeFromBytes : Reader Error TLSDataEvent := do
  let dataType ← field "nspr.DataType" readI64
  let timestamp ← field "nspr.Timestamp" readU64
  let pid ← field "nspr.PID" readU32
  let tid ← field "nspr.TID" readU32
  let data ← field "nspr.Data" (readFull maxDataSize)
  let dataLen ← field "nspr.DataLen" readI32
  let comm ← field "nspr.Comm" (readFull taskCommLen)
  return { dataType, timestamp, pid, tid, data, dataLen, comm }

/-- `Encode`. Writing to a `bytes.Buffer` does not fail. -/
def encode (e : TLSDataEvent) : Bytes :=
  leBytes 8 e.dataType.toUInt64.toNat ++ (leBytes 8 e.timestamp.toNat ++ (leBytes 4 e.pid.toNat ++
    (leBytes 4 e.tid.toNat ++ (e.data.toList ++ (leBytes 4 e.dataLen.toUInt32.toNat ++
    e.comm.toList)))))

theorem reads_decodeFromBytes : Reads 16428 (fun _ => True) encode decodeFromBytes := by
  have fields : Reads (8 + (8 + (4 + (4 + (maxDataSize + (4 + taskCommLen)))))) (fun _ => True)
      encode decodeFromBytes := by
    refine (reads_field _ .readI64).bind dataType fun _ => ?_
    refine (reads_field _ .readU64).bind timestamp fun _ => ?_
    refine (reads_field _ .readU32).bind pid fun _ => ?_
    refine (reads_field _ .readU32).bind tid fun _ => ?_
    refine (reads_field _ (.readFull _)).bind data fun _ => ?_
    refine (reads_field _ .readI32).bind dataLen fun _ => ?_
    refine (reads_field _ (.readFull _)).last comm fun _ e => ?_
    cases e
    simp [and_assoc]
  exact fields

def isRead (e : TLSDataEvent) : Bool := e.dataType == 0

def isWrite (e : TLSDataEvent) : Bool := e.dataType == 1

/-- The length is compared as an `int32` with `MaxDataSize`. -/
def validate (e : TLSDataEvent) : Except Error Unit :=
  if (maxDataSize : Int) < e.dataLen.toInt then
    .error (.text (str "invalid data length: " ++ decInt e.dataLen.toInt ++ str " > " ++
      decInt maxDataSize))
  else .ok ()

def getData (e : TLSDataEvent) : Except Fault Bytes :=
  if (maxDataSize : Int) < e.dataLen.toInt then sliceTo maxDataSize e.data.toList
  else if e.dataLen < 0 then .ok []
  else sliceTo e.dataLen.toInt.toNat e.data.toList

theorem getData_take {e : TLSDataEvent} (nonneg : 0 ≤ e.dataLen.toInt)
    (fits : e.dataLen.toInt ≤ 16384) :
    e.getData = .ok (e.data.toList.take e.dataLen.toInt.toNat) := by
  have max : maxDataSize = 16384 := rfl
  have size : e.data.toList.length = maxDataSize := Vector.length_toList
  unfold getData
  rw [if_neg (by omega), if_neg, sliceTo_of_le (by omega)]
  rw [Int32.lt_iff_toInt_lt, Int32.toInt_zero]
  omega

/-- `nsprEventDecoder.Decode`. -/
def decode (data : Bytes) : Except Error TLSDataEvent := do
  let event ← decodeFromBytes.run data
  event.validate
  return event

/-- What the struct of `nspr_kern.c` stands for. -/
def ofRecord (e : Kernel.SslDataRecord) : TLSDataEvent :=
  { dataType := .ofNat e.type.toNat, timestamp := e.timestampNs, pid := e.pid, tid := e.tid,
    data := e.data, dataLen := e.dataLen, comm := e.comm }

theorem encode_ofRecord {e : Kernel.SslDataRecord} (hole : e.hole = 0) :
    encode (ofRecord e) ++ List.replicate 4 0 = e.bytes := by
  rw [encode, ofRecord, ← Kernel.leBytes_type, Kernel.SslDataRecord.bytes, hole]
  simp only [List.append_assoc]
  rfl

end TLSDataEvent

/-! ## Master secrets -/

structure MasterSecretEvent where
  clientRandom : Vector UInt8 32
  masterKey : Vector UInt8 48
  clientHandshakeTrafficSecret : Vector UInt8 64
  serverHandshakeTrafficSecret : Vector UInt8 64
  clientAppTrafficSecret : Vector UInt8 64
  serverAppTrafficSecret : Vector UInt8 64
  exporterMasterSecret : Vector UInt8 64

namespace MasterSecretEvent

def decodeFromBytes : Reader Error MasterSecretEvent := do
  let clientRandom ← field "nspr.ClientRandom" (readFull 32)
  let masterKey ← field "nspr.MasterKey" (readFull 48)
  let clientHandshakeTrafficSecret ← field "nspr.ClientHandshakeTrafficSecret" (readFull 64)
  let serverHandshakeTrafficSecret ← field "nspr.ServerHandshakeTrafficSecret" (readFull 64)
  let clientAppTrafficSecret ← field "nspr.ClientAppTrafficSecret" (readFull 64)
  let serverAppTrafficSecret ← field "nspr.ServerAppTrafficSecret" (readFull 64)
  let exporterMasterSecret ← field "nspr.ExporterMasterSecret" (readFull 64)
  return { clientRandom, masterKey, clientHandshakeTrafficSecret, serverHandshakeTrafficSecret,
           clientAppTrafficSecret, serverAppTrafficSecret, exporterMasterSecret }

def encode (e : MasterSecretEvent) : Bytes :=
  e.clientRandom.toList ++ (e.masterKey.toList ++ (e.clientHandshakeTrafficSecret.toList ++
    (e.serverHandshakeTrafficSecret.toList ++ (e.clientAppTrafficSecret.toList ++
    (e.serverAppTrafficSecret.toList ++ e.exporterMasterSecret.toList)))))

theorem reads_decodeFromBytes : Reads 400 (fun _ => True) encode decodeFromBytes := by
  have fields : Reads (32 + (48 + (64 + (64 + (64 + (64 + 64)))))) (fun _ => True) encode
      decodeFromBytes := by
    refine (reads_field _ (.readFull _)).bind clientRandom fun _ => ?_
    refine (reads_field _ (.readFull _)).bind masterKey fun _ => ?_
    refine (reads_field _ (.readFull _)).bind clientHandshakeTrafficSecret fun _ => ?_
    refine (reads_field _ (.readFull _)).bind serverHandshakeTrafficSecret fun _ => ?_
    refine (reads_field _ (.readFull _)).bind clientAppTrafficSecret fun _ => ?_
    refine (reads_field _ (.readFull _)).bind serverAppTrafficSecret fun _ => ?_
    refine (reads_field _ (.readFull _)).last exporterMasterSecret fun _ e => ?_
    cases e
    simp [and_assoc]
  exact fields

end MasterSecretEvent

/-! ## Round trips -/

/-- `Encode` and `DecodeFromBytes` are inverse to each other: what was encoded is decoded, a byte
string is decoded exactly if it has the encoded size, and then encodes to its first bytes. -/
def RoundTrips {α : Type} (size : Nat) (encode : α → Bytes) (decode : Reader Error α) : Prop :=
  (∀ e, (encode e).length = size ∧ decode.run (encode e) = .ok e) ∧
  (∀ b : Bytes, (∃ e, decode.run b = .ok e) ↔ size ≤ b.length) ∧
  ∀ (b : Bytes) (e : α), decode.run b = .ok e → encode e = b.take size

theorem roundTrips_of_reads {α : Type} {size : Nat} {encode : α → Bytes} {decode : Reader Error α}
    (h : Reads size (fun _ => True) encode decode) : RoundTrips size encode decode := by
  refine ⟨fun e => ⟨h.length_write trivial, ?_⟩, h.run_ok_iff, fun b e => h.write_of_run⟩
  have read := h.run_write (a := e) trivial []
  rwa [List.append_nil] at read

/-- Both codecs round-trip, and the memory of the kernel's struct decodes to its fields. -/
theorem codecs_roundTrip :
    RoundTrips 16428 TLSDataEvent.encode TLSDataEvent.decodeFromBytes ∧
    RoundTrips 400 MasterSecretEvent.encode MasterSecretEvent.decodeFromBytes ∧
    ∀ e : Kernel.SslDataRecord, e.hole = 0 →
      ∃ ev, TLSDataEvent.decodeFromBytes.run e.bytes = .ok ev ∧
        ev.dataType.toInt = e.type.toNat ∧ ev.timestamp = e.timestampNs ∧ ev.pid = e.pid ∧
        ev.tid = e.tid ∧ ev.data = e.data ∧ ev.dataLen = e.dataLen ∧ ev.comm = e.comm := by
  refine ⟨roundTrips_of_reads TLSDataEvent.reads_decodeFromBytes,
    roundTrips_of_reads MasterSecretEvent.reads_decodeFromBytes, fun e hole => ?_⟩
  refine ⟨.ofRecord e, ?_, Kernel.toInt_type e.type, rfl, rfl, rfl, rfl, rfl, rfl⟩
  rw [← TLSDataEvent.encode_ofRecord hole]
  exact TLSDataEvent.reads_decodeFromBytes.run_write trivial _

theorem codecs_roundTrip_read :
    ∃ ev, TLSDataEvent.decodeFromBytes.run
        (Kernel.SslDataRecord.mk 0 0 9 7 8 (.replicate _ 104) 5 (.replicate _ 0)).bytes = .ok ev ∧
      ev.dataType.toInt = 0 ∧ ev.pid = 7 ∧ ev.dataLen = 5 := by
  obtain ⟨ev, read, type, -, pid, -, -, len, -⟩ :=
    codecs_roundTrip.2.2 ⟨0, 0, 9, 7, 8, .replicate _ 104, 5, .replicate _ 0⟩ rfl
  exact ⟨ev, read, type, pid, len⟩

end ECapture.Events.NSPR
