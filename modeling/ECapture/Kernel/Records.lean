import ECapture.Events.Bounds
import ECapture.Kernel.Ssl

/-!
# The memory of data records

The structs that the kernel programs submit as TLS data, byte by byte, and what the decoders of the
OpenSSL and the GoTLS probe make of them. A struct is little-endian with natural alignment; the
perf ring may add bytes behind it.
-/

namespace ECapture.Kernel
open Library

/-- `struct go_tls_event` of `gotls_kern.c`. -/
structure GoTlsEvent where
  tsNs : UInt64
  pid : UInt32
  tid : UInt32
  dataLen : Int32
  eventType : UInt8
  pad : Vector UInt8 3
  fd : UInt32
  srcIp : Vector UInt8 16
  srcPort : UInt16
  pad2 : UInt16
  dstIp : Vector UInt8 16
  dstPort : UInt16
  ipVersion : UInt8
  pad3 : UInt8
  comm : Vector UInt8 16
  data : Vector UInt8 Ssl.maxDataSizeOpenssl

/-- The last four bytes fill the struct up to its alignment. -/
def GoTlsEvent.bytes (e : GoTlsEvent) : Bytes :=
  leBytes 8 e.tsNs.toNat ++ (leBytes 4 e.pid.toNat ++ (leBytes 4 e.tid.toNat ++
    (leBytes 4 e.dataLen.toUInt32.toNat ++ (leBytes 1 e.eventType.toNat ++ (e.pad.toList ++
    (leBytes 4 e.fd.toNat ++ (e.srcIp.toList ++ (leBytes 2 e.srcPort.toNat ++
    (leBytes 2 e.pad2.toNat ++ (e.dstIp.toList ++ (leBytes 2 e.dstPort.toNat ++
    (leBytes 1 e.ipVersion.toNat ++ (leBytes 1 e.pad3.toNat ++ (e.comm.toList ++
    (e.data.toList ++ List.replicate 4 0)))))))))))))))

/-- `struct ssl_data_event_t` of `gnutls.h` and of `nspr_kern.c`, which is that of `openssl.h`
without the last fields. -/
structure SslDataRecord where
  type : UInt32
  /-- The alignment before `timestamp_ns`. -/
  hole : UInt32
  timestampNs : UInt64
  pid : UInt32
  tid : UInt32
  data : Vector UInt8 Ssl.maxDataSizeOpenssl
  dataLen : Int32
  comm : Vector UInt8 16

/-- The last four bytes fill the struct up to its alignment. -/
def SslDataRecord.bytes (e : SslDataRecord) : Bytes :=
  leBytes 4 e.type.toNat ++ (leBytes 4 e.hole.toNat ++ (leBytes 8 e.timestampNs.toNat ++
    (leBytes 4 e.pid.toNat ++ (leBytes 4 e.tid.toNat ++ (e.data.toList ++
    (leBytes 4 e.dataLen.toUInt32.toNat ++ (e.comm.toList ++ List.replicate 4 0)))))))

/-! ## OpenSSL -/

/-- The type and the hole behind it are the eight bytes that the decoder takes for a number. -/
theorem leBytes_type (type : UInt32) :
    leBytes 4 type.toNat ++ leBytes 4 (0 : UInt32).toNat =
      leBytes 8 (Int64.ofNat type.toNat).toUInt64.toNat := by
  have bound := type.toNat_lt
  have small : (Int64.ofNat type.toNat).toUInt64.toNat = type.toNat := by
    change (UInt64.ofNat type.toNat).toNat = type.toNat
    rw [UInt64.toNat_ofNat']
    omega
  have high : type.toNat / 256 ^ 4 = 0 := by omega
  rw [small, leBytes_add 4 4, high]
  rfl

theorem toInt_type (type : UInt32) : (Int64.ofNat type.toNat).toInt = type.toNat := by
  have bound := type.toNat_lt
  have size : Int64.size = 2 ^ 64 := rfl
  rw [Int64.toInt_ofNat']
  exact Int.bmod_eq_of_le (by omega) (by omega)

namespace Ssl

/-- What the decoder makes of the record. -/
def SslDataEvent.event (e : SslDataEvent) : Events.OpenSSL.Event :=
  { dataType := .ofNat e.type.toNat, timestamp := e.timestampNs, pid := e.pid, tid := e.tid,
    data := e.data, dataLen := e.dataLen, comm := e.comm, fd := e.fd, version := e.version,
    bioType := e.bioType }

theorem SslDataEvent.wire_event {e : SslDataEvent} (hole : e.hole = 0) :
    e.event.wire = e.bytes := by
  rw [Events.OpenSSL.Event.wire, SslDataEvent.event, ← leBytes_type, List.append_assoc,
    SslDataEvent.bytes, hole]
  rfl

/-- `DecodeFromBytes` gives back the fields of the struct, whatever follows it. -/
theorem decode_sslDataEvent {e : SslDataEvent} (hole : e.hole = 0) (tail : Bytes) :
    Events.OpenSSL.Event.decodeFromBytes.run (e.bytes ++ tail) = .ok e.event := by
  rw [← SslDataEvent.wire_event hole]
  exact Events.OpenSSL.Event.reads_decodeFromBytes.run_write trivial tail

theorem decode_sslDataEvent_bytes {e : SslDataEvent} (hole : e.hole = 0) :
    Events.OpenSSL.Event.decodeFromBytes.run e.bytes = .ok e.event := by
  have read := decode_sslDataEvent hole []
  rwa [List.append_nil] at read

/-- The struct is as long as what the decoder reads. -/
theorem SslDataEvent.length_bytes (e : SslDataEvent) : e.bytes.length = 16440 := by
  simp [SslDataEvent.bytes, maxDataSizeOpenssl]

end Ssl

/-- The first bytes of the payload, as many as the length says. -/
theorem getData_take {e : Events.OpenSSL.Event} (nonneg : 0 ≤ e.dataLen.toInt)
    (fits : e.dataLen.toInt ≤ 16384) :
    e.getData = .ok (e.data.toList.take e.dataLen.toInt.toNat) := by
  have max : Events.OpenSSL.maxDataSize = 16384 := rfl
  unfold Events.OpenSSL.Event.getData
  split
  case isTrue empty =>
    have := Int32.le_iff_toInt_le.mp empty
    simp only [Int32.toInt_zero] at this
    have zero : e.dataLen.toInt.toNat = 0 := by omega
    rw [zero, List.take_zero]
  case isFalse =>
    have size : e.data.toList.length = 16384 := Vector.length_toList
    rw [if_neg (by omega), sliceTo_of_le (by omega)]

/-! ## GoTLS -/

/-- What `decodePayload` keeps of a payload that fits. -/
theorem decodePayload_take {len : Int32} {buf : Bytes} (nonneg : 0 ≤ len.toInt)
    (fits : len.toInt ≤ 16384) (enough : 16384 ≤ buf.length) :
    Events.GoTLS.GoTLSDataEvent.decodePayload len buf =
      .ok ((len, buf.take len.toInt.toNat), buf.drop len.toInt.toNat) := by
  have max : Events.GoTLS.maxGoTLSPayload = 16384 := rfl
  unfold Events.GoTLS.GoTLSDataEvent.decodePayload
  dsimp only
  split
  case isTrue =>
    rw [if_neg (by omega), if_neg (by omega)]
    obtain ⟨v, read, value⟩ := readFull_drop buf 0 len.toInt.toNat (by omega)
    rw [List.drop_zero, Nat.zero_add] at read
    rw [Events.field_ok (Reader.map_ok read), value, List.drop_zero]
  case isFalse empty =>
    rw [Int32.lt_iff_toInt_lt, Int32.toInt_zero] at empty
    have zero : len = 0 := Int32.toInt_inj.mp (by rw [Int32.toInt_zero]; omega)
    subst zero
    rfl

/-- The fields of the event, before the tuple is added. -/
def GoTlsEvent.event (e : GoTlsEvent) : Events.GoTLS.GoTLSDataEvent :=
  { timestamp := e.tsNs, bpfMonoNs := e.tsNs, pid := e.pid, tid := e.tid, dataLen := e.dataLen,
    eventType := e.eventType, fd := e.fd, srcIP := e.srcIp, srcPort := e.srcPort, dstIP := e.dstIp,
    dstPort := e.dstPort, ipVersion := e.ipVersion, comm := e.comm,
    data := e.data.toList.take e.dataLen.toInt.toNat, tuple := [] }

theorem getData_event (e : GoTlsEvent) (nonneg : 0 ≤ e.dataLen.toInt)
    (fits : e.dataLen.toInt ≤ 16384) :
    e.event.getData = .ok (e.data.toList.take e.dataLen.toInt.toNat) := by
  have size : e.data.toList.length = 16384 := Vector.length_toList
  have kept : (e.data.toList.take e.dataLen.toInt.toNat).length = e.dataLen.toInt.toNat := by
    rw [List.length_take]
    omega
  change sliceTo (if (e.data.toList.take e.dataLen.toInt.toNat).length < e.dataLen.toInt.toNat
    then _ else e.dataLen.toInt.toNat) (e.data.toList.take e.dataLen.toInt.toNat) = _
  rw [if_neg (by omega), sliceTo_of_le (by omega), List.take_take, Nat.min_self]

theorem decodeFields_goTlsEvent {e : GoTlsEvent} (host : Events.Host) (stamped : e.tsNs ≠ 0)
    (nonneg : 0 ≤ e.dataLen.toInt) (fits : e.dataLen.toInt ≤ 16384) (tail : Bytes) :
    (Events.GoTLS.GoTLSDataEvent.decodeFields host).run (e.bytes ++ tail) = .ok e.event := by
  have size : e.data.toList.length = 16384 := Vector.length_toList
  have payload : e.dataLen.toInt.toNat ≤ e.data.toList.length := by omega
  have front : (e.data.toList ++ (List.replicate 4 0 ++ tail)).take e.dataLen.toInt.toNat =
      e.data.toList.take e.dataLen.toInt.toNat := List.take_append_of_le_length payload
  have pad2 : ∀ rest, readFull 2 (leBytes 2 e.pad2.toNat ++ rest) = .ok (_, rest) :=
    readFull_append (⟨(leBytes 2 e.pad2.toNat).toArray, by simp⟩ : Vector UInt8 2)
  unfold Reader.run Events.GoTLS.GoTLSDataEvent.decodeFields GoTlsEvent.bytes
  simp only [List.append_assoc]
  rw [Reader.bind_ok (Events.field_ok (readU64_leBytes e.tsNs _)),
    Reader.bind_ok (Events.field_ok (readU32_leBytes e.pid _)),
    Reader.bind_ok (Events.field_ok (readU32_leBytes e.tid _)),
    Reader.bind_ok (Events.field_ok (readI32_leBytes e.dataLen _)),
    Reader.bind_ok (Events.field_ok (readU8_leBytes e.eventType _)),
    Reader.bind_ok (Events.field_ok (readFull_append e.pad _)),
    Reader.bind_ok (Events.field_ok (readU32_leBytes e.fd _)),
    Reader.bind_ok (Events.field_ok (readFull_append e.srcIp _)),
    Reader.bind_ok (Events.field_ok (readU16_leBytes e.srcPort _)),
    Reader.bind_ok (Events.field_ok (pad2 _)),
    Reader.bind_ok (Events.field_ok (readFull_append e.dstIp _)),
    Reader.bind_ok (Events.field_ok (readU16_leBytes e.dstPort _)),
    Reader.bind_ok (Events.field_ok (readU8_leBytes e.ipVersion _)),
    Reader.bind_ok (Events.field_ok (readU8_leBytes e.pad3 _)),
    Reader.bind_ok (Events.field_ok (readFull_append e.comm _)),
    Reader.bind_ok (decodePayload_take nonneg fits (by rw [List.length_append]; omega)), front,
    if_neg stamped]
  rfl

theorem GoTlsEvent.length_bytes (e : GoTlsEvent) : e.bytes.length = 16472 := by
  simp [GoTlsEvent.bytes, Ssl.maxDataSizeOpenssl]

/-! ## The layouts agree -/

/-- The decoders give back every field of both structs, whatever bytes follow, and the OpenSSL
decoder refuses a record that is shorter than its struct. -/
theorem data_records_decode :
    (∀ (e : Ssl.SslDataEvent) (tail : Bytes), e.hole = 0 → 0 ≤ e.dataLen.toInt →
      e.dataLen.toInt ≤ 16384 →
      ∃ ev, Events.OpenSSL.Event.decodeFromBytes.run (e.bytes ++ tail) = .ok ev ∧
        ev.dataType.toInt = e.type.toNat ∧ ev.timestamp = e.timestampNs ∧ ev.pid = e.pid ∧
        ev.tid = e.tid ∧ ev.dataLen = e.dataLen ∧ ev.comm = e.comm ∧ ev.fd = e.fd ∧
        ev.version = e.version ∧ ev.bioType = e.bioType ∧
        ev.getData = .ok (e.data.toList.take e.dataLen.toInt.toNat)) ∧
    (∀ (e : Ssl.SslDataEvent) (record : Bytes), record.length < e.bytes.length →
      ∃ err, Events.OpenSSL.Event.decodeFromBytes.run record = .error err) ∧
    ∀ (e : GoTlsEvent) (tail : Bytes) (host : Events.Host), e.tsNs ≠ 0 → 0 ≤ e.dataLen.toInt →
      e.dataLen.toInt ≤ 16384 →
      ∃ ev, Events.GoTLS.GoTLSDataEvent.decodeFromBytes host (e.bytes ++ tail) = .ok (.ok ev) ∧
        ev.eventType = e.eventType ∧ ev.timestamp = e.tsNs ∧ ev.bpfMonoNs = e.tsNs ∧
        ev.pid = e.pid ∧ ev.tid = e.tid ∧ ev.dataLen = e.dataLen ∧ ev.fd = e.fd ∧
        ev.srcIP = e.srcIp ∧ ev.srcPort = e.srcPort ∧ ev.dstIP = e.dstIp ∧
        ev.dstPort = e.dstPort ∧ ev.ipVersion = e.ipVersion ∧ ev.comm = e.comm ∧
        ev.getData = .ok (e.data.toList.take e.dataLen.toInt.toNat) := by
  refine ⟨fun e tail hole nonneg fits => ?_, fun e record short => ?_,
    fun e tail host stamped nonneg fits => ?_⟩
  · refine ⟨e.event, Ssl.decode_sslDataEvent hole tail, toInt_type e.type, rfl, rfl, rfl, rfl, rfl,
      rfl, rfl, rfl, ?_⟩
    exact getData_take nonneg fits
  · rw [e.length_bytes] at short
    exact Events.OpenSSL.Event.reads_decodeFromBytes.takes.run_error short
  · obtain ⟨tuple, named⟩ := Events.getTuple_safe e.event
    refine ⟨{ e.event with tuple }, ?_, rfl, rfl, rfl, rfl, rfl, rfl, rfl, rfl, rfl, rfl, rfl, rfl,
      rfl, getData_event e nonneg fits⟩
    rw [Events.GoTLS.GoTLSDataEvent.decodeFromBytes,
      decodeFields_goTlsEvent host stamped nonneg fits tail]
    dsimp only
    rw [named]
    rfl

/-- Five bytes that process 7 writes on fd 4. -/
def sslWriteOfFive : Ssl.SslDataEvent :=
  { Ssl.SslDataEvent.zero with
    type := 1, timestampNs := 9, pid := 7, tid := 8, data := .replicate _ 104, dataLen := 5, fd := 4 }

def goTlsReadOfFive : GoTlsEvent :=
  { tsNs := 9, pid := 7, tid := 8, dataLen := 5, eventType := 1, pad := zeros 3, fd := 4,
    srcIp := zeros 16, srcPort := 443, pad2 := 0, dstIp := zeros 16, dstPort := 40000,
    ipVersion := 4, pad3 := 0, comm := zeros 16, data := .replicate _ 104 }

theorem data_records_decode_five :
    (∃ ev, Events.OpenSSL.Event.decodeFromBytes.run (sslWriteOfFive.bytes ++ [1, 2]) = .ok ev ∧
      ev.dataType.toInt = 1 ∧ ev.pid = 7 ∧ ev.fd = 4) ∧
    (∃ err, Events.OpenSSL.Event.decodeFromBytes.run [1, 2] = .error err) ∧
    ∃ ev,
      Events.GoTLS.GoTLSDataEvent.decodeFromBytes ⟨0, 0, fun _ => []⟩
        (goTlsReadOfFive.bytes ++ [1, 2]) = .ok (.ok ev) ∧
        ev.eventType = 1 ∧ ev.srcPort = 443 ∧ ev.dstPort = 40000 := by
  obtain ⟨openssl, short, gotls⟩ := data_records_decode
  refine ⟨?_, ?_, ?_⟩
  · obtain ⟨ev, read, type, -, pid, -, -, -, fd, -⟩ :=
      openssl sslWriteOfFive [1, 2] rfl (by decide) (by decide)
    exact ⟨ev, read, type, pid, fd⟩
  · exact short sslWriteOfFive [1, 2] (by rw [Ssl.SslDataEvent.length_bytes]; decide)
  · obtain ⟨ev, read, type, -, -, -, -, -, -, -, src, -, dst, -⟩ :=
      gotls goTlsReadOfFive [1, 2] _ (by decide) (by decide) (by decide)
    exact ⟨ev, read, type, src, dst⟩

end ECapture.Kernel
