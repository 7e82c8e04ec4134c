import ECapture.Events.Text
import ECapture.Kernel.Traffic

/-!
# Packet events

`PacketEvent` of `internal/probe/openssl/event_packet.go`, which `internal/probe/gotls` repeats: the
record of a classifier, a header of 36 bytes and the packet behind it. The ring may add bytes.
-/

namespace ECapture.Events
open Library

structure PacketEvent where
  timestamp : UInt64
  pid : UInt32
  comm : Vector UInt8 16
  cmdline : Vector UInt8 256
  packetLen : UInt32
  interfaceIndex : UInt32
  packetData : Bytes

namespace PacketEvent

/-- `binary.Read` of one field; the error is that of the reader. -/
def plain {α : Type} (r : Reader ReadError α) : Reader Error α := r.mapError (.text ·.message)

/-- `Cmdline` after the decoder: the first byte is `[`, the others were never read. -/
def noCmdline : Vector UInt8 256 := (Vector.replicate 256 0).set 0 91

def decodeFields : Reader Error PacketEvent := do
  let timestamp ← plain readU64
  let pid ← plain readU32
  let comm ← plain (readFull 16)
  let packetLen ← plain readU32
  let interfaceIndex ← plain readU32
  let tmpData ← plain (readFull packetLen.toNat)
  return { timestamp, pid, comm, cmdline := noCmdline, packetLen, interfaceIndex,
           packetData := tmpData.toList }

def decodeFromBytes (data : Bytes) : Except Error PacketEvent :=
  if data.length < 36 then .error (.new .eventDecode (str "packet event data too short"))
  else decodeFields.run data

def validate (e : PacketEvent) : Except Error Unit :=
  if e.packetLen = 0 then .error (.new .eventValidation (str "packet length is zero")) else .ok ()

/-- `packetEventDecoder.Decode`. -/
def decode (data : Bytes) : Except Error PacketEvent := do
  let event ← decodeFromBytes data
  event.validate
  return event

/-- `Clone` leaves the process and the command out. -/
def clone (e : PacketEvent) : PacketEvent :=
  { timestamp := e.timestamp, pid := 0, comm := .replicate 16 0, cmdline := .replicate 256 0,
    packetLen := e.packetLen, interfaceIndex := e.interfaceIndex, packetData := e.packetData }

/-! ## The record of an event -/

/-- The header of the record. -/
def header (e : PacketEvent) : Kernel.Tc.SkbDataEvent :=
  ⟨e.timestamp, e.pid, e.comm, e.packetLen, e.interfaceIndex⟩

def encode (e : PacketEvent) : Bytes := e.header.bytes ++ e.packetData

/-- The event of a header and a packet. -/
def ofRecord (h : Kernel.Tc.SkbDataEvent) (packet : Bytes) : PacketEvent :=
  { timestamp := h.ts, pid := h.pid, comm := h.comm, cmdline := noCmdline, packetLen := h.len,
    interfaceIndex := h.ifindex, packetData := packet }

theorem length_header (h : Kernel.Tc.SkbDataEvent) : h.bytes.length = 36 := by
  simp [Kernel.Tc.SkbDataEvent.bytes]

/-- The reader takes the header and as many bytes as it says. -/
theorem decodeFields_append (h : Kernel.Tc.SkbDataEvent) (packet : Vector UInt8 h.len.toNat)
    (rest : Bytes) :
    decodeFields (h.bytes ++ (packet.toList ++ rest)) = .ok (ofRecord h packet.toList, rest) := by
  simp only [Kernel.Tc.SkbDataEvent.bytes, List.append_assoc]
  unfold decodeFields plain
  rw [Reader.bind_ok (Reader.mapError_ok (readU64_leBytes _ _)),
    Reader.bind_ok (Reader.mapError_ok (readU32_leBytes _ _)),
    Reader.bind_ok (Reader.mapError_ok (readFull_append _ _)),
    Reader.bind_ok (Reader.mapError_ok (readU32_leBytes _ _)),
    Reader.bind_ok (Reader.mapError_ok (readU32_leBytes _ _)),
    Reader.bind_ok (Reader.mapError_ok (readFull_append _ _))]
  rfl

theorem decodeFromBytes_append (h : Kernel.Tc.SkbDataEvent) {packet : Bytes}
    (size : packet.length = h.len.toNat) (rest : Bytes) :
    decodeFromBytes (h.bytes ++ packet ++ rest) = .ok (ofRecord h packet) := by
  have read := decodeFields_append h ⟨packet.toArray, by simpa using size⟩ rest
  have bytes : (⟨packet.toArray, by simpa using size⟩ : Vector UInt8 h.len.toNat).toList = packet :=
    by simp [Vector.toList]
  rw [bytes] at read
  rw [decodeFromBytes, if_neg (by simp [length_header]), List.append_assoc, Reader.run, read]
  rfl

/-- Any 36 bytes are the memory of a header. -/
theorem exists_header {data : Bytes} (long : 36 ≤ data.length) :
    ∃ h : Kernel.Tc.SkbDataEvent, h.bytes = data.take 36 := by
  have fields : Reads (ε := ReadError) (8 + (4 + (16 + (4 + 4)))) (fun _ => True)
      Kernel.Tc.SkbDataEvent.bytes (do
        let ts ← readU64
        let pid ← readU32
        let comm ← readFull 16
        let len ← readU32
        let ifindex ← readU32
        return ⟨ts, pid, comm, len, ifindex⟩) := by
    refine Reads.readU64.bind Kernel.Tc.SkbDataEvent.ts fun _ => ?_
    refine Reads.readU32.bind Kernel.Tc.SkbDataEvent.pid fun _ => ?_
    refine (Reads.readFull 16).bind Kernel.Tc.SkbDataEvent.comm fun _ => ?_
    refine Reads.readU32.bind Kernel.Tc.SkbDataEvent.len fun _ => ?_
    refine Reads.readU32.last Kernel.Tc.SkbDataEvent.ifindex fun _ h => ?_
    cases h
    simp [and_assoc]
  obtain ⟨h, -, -, eq⟩ := fields.exists_run long
  exact ⟨h, eq⟩

/-- The length field of a record. -/
def recordLen (data : Bytes) : Nat := leNat (window data 28 4)

theorem recordLen_header (h : Kernel.Tc.SkbDataEvent) (rest : Bytes) :
    recordLen (h.bytes ++ rest) = h.len.toNat := by
  have bound := h.len.toNat_lt
  have field : window (h.bytes ++ rest) 28 4 = leBytes 4 h.len.toNat := by
    simp [Kernel.Tc.SkbDataEvent.bytes]
  rw [recordLen, field, leNat_leBytes, Nat.mod_eq_of_lt (by omega)]

theorem takes_decodeFields_error (h : Kernel.Tc.SkbDataEvent) {packet : Bytes}
    (short : packet.length < h.len.toNat) :
    ∃ e, decodeFields.run (h.bytes ++ packet) = .error e := by
  have tail : readFull h.len.toNat packet =
      .error (if packet.length = 0 then .eof else .unexpectedEOF) := dif_neg (by omega)
  refine ⟨.text (if packet.length = 0 then ReadError.eof else .unexpectedEOF).message, ?_⟩
  simp only [Kernel.Tc.SkbDataEvent.bytes, List.append_assoc]
  unfold Reader.run decodeFields plain
  rw [Reader.bind_ok (Reader.mapError_ok (readU64_leBytes _ _)),
    Reader.bind_ok (Reader.mapError_ok (readU32_leBytes _ _)),
    Reader.bind_ok (Reader.mapError_ok (readFull_append _ _)),
    Reader.bind_ok (Reader.mapError_ok (readU32_leBytes _ _)),
    Reader.bind_ok (Reader.mapError_ok (readU32_leBytes _ _)),
    Reader.bind_error (e := .text (if packet.length = 0 then ReadError.eof
      else .unexpectedEOF).message) (by rw [Reader.mapError, tail]; rfl)]
  rfl

/-- A record with its header and its packet is read as these two, whatever follows. -/
theorem decodeFromBytes_complete {data : Bytes} (long : 36 ≤ data.length)
    (enough : 36 + recordLen data ≤ data.length) :
    ∃ (h : Kernel.Tc.SkbDataEvent) (packet : Bytes), packet.length = h.len.toNat ∧
      h.bytes ++ packet = data.take (36 + h.len.toNat) ∧
      decodeFromBytes data = .ok (ofRecord h packet) := by
  obtain ⟨h, front⟩ := exists_header long
  have split : data = h.bytes ++ data.drop 36 := by rw [front, List.take_append_drop]
  have field : recordLen data = h.len.toNat := by rw [split, recordLen_header]
  have size : ((data.drop 36).take h.len.toNat).length = h.len.toNat := by
    rw [List.length_take, List.length_drop]
    omega
  have parts : h.bytes ++ (data.drop 36).take h.len.toNat ++ (data.drop 36).drop h.len.toNat =
      data := by
    rw [List.append_assoc, List.take_append_drop, ← split]
  refine ⟨h, (data.drop 36).take h.len.toNat, size, ?_, ?_⟩
  · rw [front, ← List.take_add]
  · have read := decodeFromBytes_append h size ((data.drop 36).drop h.len.toNat)
    rwa [parts] at read

theorem decodeFromBytes_incomplete {data : Bytes}
    (short : ¬ (36 ≤ data.length ∧ 36 + recordLen data ≤ data.length)) :
    ∃ err, decodeFromBytes data = .error err := by
  by_cases long : 36 ≤ data.length
  · obtain ⟨h, front⟩ := exists_header long
    have split : data = h.bytes ++ data.drop 36 := by rw [front, List.take_append_drop]
    have field : recordLen data = h.len.toNat := by rw [split, recordLen_header]
    have missing : (data.drop 36).length < h.len.toNat := by
      rw [List.length_drop]
      omega
    obtain ⟨err, failed⟩ := takes_decodeFields_error h missing
    refine ⟨err, ?_⟩
    rw [decodeFromBytes, if_neg (by omega)]
    rwa [← split] at failed
  · exact ⟨_, if_pos (by omega)⟩

/-- An event is valid if it has a packet. -/
theorem validate_ofRecord {h : Kernel.Tc.SkbDataEvent} {packet : Bytes}
    (size : packet.length = h.len.toNat) :
    (ofRecord h packet).validate = .ok () ↔ packet ≠ [] := by
  have zero : h.len = 0 ↔ packet = [] := by
    rw [← List.length_eq_zero_iff, size, ← UInt32.toNat_inj]
    rfl
  change (if h.len = 0 then _ else _) = _ ↔ _
  rw [Ne, ← zero]
  split
  case isTrue none => exact ⟨fun failed => (by cases failed), fun some => absurd none some⟩
  case isFalse some => exact ⟨fun _ => some, fun _ => rfl⟩

/-- What a record is accepted for, and what it is accepted as: the decoder succeeds exactly if the
header is there and the packet as long as it says, and then the event is written back as these
bytes. -/
theorem decode_exact (data : Bytes) :
    ((∃ e, decodeFromBytes data = .ok e) ↔
      36 ≤ data.length ∧ 36 + recordLen data ≤ data.length) ∧
    ∀ e, decodeFromBytes data = .ok e →
      e.packetData.length = e.packetLen.toNat ∧ encode e = data.take (36 + e.packetLen.toNat) ∧
      (e.validate = .ok () ↔ e.packetData ≠ []) := by
  by_cases complete : 36 ≤ data.length ∧ 36 + recordLen data ≤ data.length
  · obtain ⟨h, packet, size, bytes, read⟩ := decodeFromBytes_complete complete.1 complete.2
    refine ⟨⟨fun _ => complete, fun _ => ⟨_, read⟩⟩, fun e decoded => ?_⟩
    obtain rfl : ofRecord h packet = e := by
      rw [read] at decoded
      exact Except.ok.inj decoded
    exact ⟨size, bytes, validate_ofRecord size⟩
  · obtain ⟨err, failed⟩ := decodeFromBytes_incomplete complete
    refine ⟨⟨?_, fun ok => absurd ok complete⟩, fun e decoded => ?_⟩
    · rintro ⟨e, decoded⟩
      rw [failed] at decoded
      cases decoded
    · rw [failed] at decoded
      cases decoded

end PacketEvent

end ECapture.Events
