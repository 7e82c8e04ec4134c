import ECapture.Events.OpenSSL

/-!
# Events of the GnuTLS probe

`internal/probe/gnutls`: TLS data (`event.go`) and master secrets (`event_masterkey.go`). The code
goes back to that of the OpenSSL probe, whose names it keeps in its errors.
-/

namespace ECapture.Events.GnuTLS
open Library

/-! ## TLS data -/

def maxDataSize : Nat := 4096
def dataTypeRead : Int64 := 0
def dataTypeWrite : Int64 := 1

structure Event where
  dataType : Int64
  timestamp : UInt64
  pid : UInt32
  tid : UInt32
  data : Vector UInt8 maxDataSize
  dataLen : Int32
  comm : Vector UInt8 16
  fd : UInt32
  version : Int32

namespace Event

def decodeFromBytes : Reader Error Event := do
  let dataType ← field "openssl.DataType" readI64
  let timestamp ← field "openssl.Timestamp" readU64
  let pid ← field "openssl.Pid" readU32
  let tid ← field "openssl.Tid" readU32
  let data ← field "openssl.Data" (readFull maxDataSize)
  let dataLen ← field "openssl.DataLen" readI32
  let comm ← field "openssl.Comm" (readFull 16)
  let fd ← field "openssl.Fd" readU32
  let version ← field "openssl.Version" readI32
  return { dataType, timestamp, pid, tid, data, dataLen, comm, fd, version }

/-- The record that `decodeFromBytes` reads. -/
def wire (e : Event) : Bytes :=
  leBytes 8 e.dataType.toUInt64.toNat ++ (leBytes 8 e.timestamp.toNat ++ (leBytes 4 e.pid.toNat ++
    (leBytes 4 e.tid.toNat ++ (e.data.toList ++ (leBytes 4 e.dataLen.toUInt32.toNat ++
    (e.comm.toList ++ (leBytes 4 e.fd.toNat ++ leBytes 4 e.version.toUInt32.toNat)))))))

theorem reads_decodeFromBytes : Reads 4148 (fun _ => True) wire decodeFromBytes := by
  have fields : Reads (8 + (8 + (4 + (4 + (maxDataSize + (4 + (16 + (4 + 4))))))))
      (fun _ => True) wire decodeFromBytes := by
    refine (reads_field _ .readI64).bind dataType fun _ => ?_
    refine (reads_field _ .readU64).bind timestamp fun _ => ?_
    refine (reads_field _ .readU32).bind pid fun _ => ?_
    refine (reads_field _ .readU32).bind tid fun _ => ?_
    refine (reads_field _ (.readFull _)).bind data fun _ => ?_
    refine (reads_field _ .readI32).bind dataLen fun _ => ?_
    refine (reads_field _ (.readFull _)).bind comm fun _ => ?_
    refine (reads_field _ .readU32).bind fd fun _ => ?_
    refine (reads_field _ .readI32).last version fun _ e => ?_
    cases e
    simp [and_assoc]
  exact fields

/-- Where the decoder finds the fields. -/
theorem windows_wire (e : Event) :
    window e.wire 0 8 = leBytes 8 e.dataType.toUInt64.toNat ∧
    window e.wire 8 8 = leBytes 8 e.timestamp.toNat ∧ window e.wire 16 4 = leBytes 4 e.pid.toNat ∧
    window e.wire 20 4 = leBytes 4 e.tid.toNat ∧ window e.wire 24 4096 = e.data.toList ∧
    window e.wire 4120 4 = leBytes 4 e.dataLen.toUInt32.toNat ∧
    window e.wire 4124 16 = e.comm.toList := by
  have size : e.data.toList.length = 4096 := Vector.length_toList
  have name : e.comm.toList.length = 16 := Vector.length_toList
  simp [wire, -Vector.length_toList, size, name]

def validate (e : Event) : Except Error Unit :=
  if e.dataLen < 0 ∨ maxDataSize < e.dataLen.toInt then
    .error (.new .eventValidation (str "invalid data length: " ++ decInt e.dataLen.toInt))
  else if e.dataType ≠ dataTypeRead ∧ e.dataType ≠ dataTypeWrite then
    .error (.new .eventValidation (str "invalid data type: " ++ decInt e.dataType.toInt))
  else .ok ()

def getData (e : Event) : Except Fault Bytes :=
  if e.dataLen ≤ 0 then .ok []
  else if maxDataSize < e.dataLen.toInt then .ok e.data.toList
  else sliceTo e.dataLen.toInt.toNat e.data.toList

/-- `GetData` gives as many bytes as the length says, up to the size of the array. -/
theorem getData_eq (e : Event) : e.getData = .ok (e.data.toList.take e.dataLen.toInt.toNat) := by
  have size : e.data.toList.length = maxDataSize := Vector.length_toList
  unfold getData
  split_ifs with empty long
  · rw [Int32.le_iff_toInt_le, Int32.toInt_zero] at empty
    rw [Int.toNat_of_nonpos empty, List.take_zero]
  · rw [List.take_of_length_le (by omega)]
  · exact sliceTo_of_le (by omega)

end Event

/-! ## Master secrets -/

structure MasterSecretEvent where
  version : Int32
  timestamp : UInt64
  clientRandom : Vector UInt8 32
  masterKey : Vector UInt8 48
  cipherId : UInt32
  clientHandshakeTrafficSecret : Vector UInt8 64
  serverHandshakeTrafficSecret : Vector UInt8 64
  clientAppTrafficSecret : Vector UInt8 64
  serverAppTrafficSecret : Vector UInt8 64
  exporterMasterSecret : Vector UInt8 64

namespace MasterSecretEvent

/-- The timestamp "if included", else the host's time. -/
def readTimestamp (host : Host) : Reader Error UInt64 := fun buf =>
  if 8 ≤ buf.length then
    match readU64 buf with
    | .ok read => .ok read
    | .error _ => .ok (host.now, [])
  else .ok (host.now, buf)

/-- The cipher, read if there is any byte left; a short read empties the buffer. -/
def readCipherId : Reader Error UInt32 := fun buf =>
  if 0 < buf.length then
    match readU32 buf with
    | .ok read => .ok read
    | .error _ => .ok (0, [])
  else .ok (0, buf)

def decodeFromBytes (host : Host) : Reader Error MasterSecretEvent := do
  let version ← field "masterSecret.Version" readI32
  let timestamp ← readTimestamp host
  let clientRandom ← field "masterSecret.ClientRandom" (readFull 32)
  let masterKey ← field "masterSecret.MasterKey" (readFull 48)
  let cipherId ← readCipherId
  let clientHandshakeTrafficSecret ← OpenSSL.MasterSecretEvent.optionalSecret
  let serverHandshakeTrafficSecret ← OpenSSL.MasterSecretEvent.optionalSecret
  let clientAppTrafficSecret ← OpenSSL.MasterSecretEvent.optionalSecret
  let serverAppTrafficSecret ← OpenSSL.MasterSecretEvent.optionalSecret
  let exporterMasterSecret ← OpenSSL.MasterSecretEvent.optionalSecret
  return { version, timestamp, clientRandom, masterKey, cipherId, clientHandshakeTrafficSecret,
           serverHandshakeTrafficSecret, clientAppTrafficSecret, serverAppTrafficSecret,
           exporterMasterSecret }

def validate (e : MasterSecretEvent) : Except Error Unit :=
  if e.version < 0x0301 ∨ 0x0304 < e.version then
    .error (.new .eventValidation (str "invalid TLS version: 0x" ++ hexInt 4 e.version.toInt))
  else if e.clientRandom.toList.all (· == 0) then
    .error (.new .eventValidation (str "client random is all zeros"))
  else .ok ()

theorem readTimestamp_ok {host : Host} {buf rest : Bytes} {v : UInt64} (len : 8 ≤ buf.length)
    (h : readU64 buf = .ok (v, rest)) : readTimestamp host buf = .ok (v, rest) := by
  rw [readTimestamp, if_pos len, h]

theorem readCipherId_ok {buf rest : Bytes} {v : UInt32} (len : 0 < buf.length)
    (h : readU32 buf = .ok (v, rest)) : readCipherId buf = .ok (v, rest) := by
  rw [readCipherId, if_pos len, h]

/-- Where the decoder finds the fields of a record that has them all. -/
theorem decode_windows (host : Host) {data : Bytes} (len : 416 ≤ data.length) :
    ∃ e, (decodeFromBytes host).run data = .ok e ∧
      e.version = (UInt32.ofNat (leNat (window data 0 4))).toInt32 ∧
      e.clientRandom.toList = window data 12 32 ∧ e.masterKey.toList = window data 44 48 ∧
      e.cipherId = UInt32.ofNat (leNat (window data 92 4)) ∧
      e.clientHandshakeTrafficSecret.toList = window data 96 64 ∧
      e.serverHandshakeTrafficSecret.toList = window data 160 64 ∧
      e.clientAppTrafficSecret.toList = window data 224 64 ∧
      e.serverAppTrafficSecret.toList = window data 288 64 ∧
      e.exporterMasterSecret.toList = window data 352 64 := by
  have read₁ : readI32 (data.drop 0) = .ok (_, data.drop 4) :=
    Reader.map_ok (readU32_drop data 0 (by omega))
  have read₂ := readU64_drop data 4 (by omega)
  obtain ⟨random, read₃, eq₃⟩ := readFull_drop data 12 32 (by omega)
  obtain ⟨key, read₄, eq₄⟩ := readFull_drop data 44 48 (by omega)
  have read₅ := readU32_drop data 92 (by omega)
  obtain ⟨chs, read₆, eq₆⟩ := readFull_drop data 96 64 (by omega)
  obtain ⟨shs, read₇, eq₇⟩ := readFull_drop data 160 64 (by omega)
  obtain ⟨client, read₈, eq₈⟩ := readFull_drop data 224 64 (by omega)
  obtain ⟨server, read₉, eq₉⟩ := readFull_drop data 288 64 (by omega)
  obtain ⟨exporter, read₁₀, eq₁₀⟩ := readFull_drop data 352 64 (by omega)
  have secret {k : Nat} {v : Vector UInt8 64} (enough : k + 64 ≤ data.length)
      (read : readFull 64 (data.drop k) = .ok (v, data.drop (k + 64))) :
      OpenSSL.MasterSecretEvent.optionalSecret (data.drop k) = .ok (v, data.drop (k + 64)) :=
    OpenSSL.MasterSecretEvent.optional_ok (by rw [List.length_drop]; omega) read
  rw [List.drop_zero] at read₁
  refine ⟨⟨_, UInt64.ofNat (leNat ((data.drop 4).take 8)), random, key, _, chs, shs, client, server,
    exporter⟩, ?_, rfl, eq₃, eq₄, rfl, eq₆, eq₇, eq₈, eq₉, eq₁₀⟩
  unfold Reader.run decodeFromBytes
  rw [Reader.bind_ok (field_ok read₁),
    Reader.bind_ok (readTimestamp_ok (by rw [List.length_drop]; omega) read₂),
    Reader.bind_ok (field_ok read₃), Reader.bind_ok (field_ok read₄),
    Reader.bind_ok (readCipherId_ok (by rw [List.length_drop]; omega) read₅),
    Reader.bind_ok (secret (by omega) read₆), Reader.bind_ok (secret (by omega) read₇),
    Reader.bind_ok (secret (by omega) read₈), Reader.bind_ok (secret (by omega) read₉),
    Reader.bind_ok (secret (by omega) read₁₀)]
  rfl

end MasterSecretEvent

end ECapture.Events.GnuTLS
