import ECapture.Events.GnuTLS
import ECapture.Kernel.Records

/-!
# Records of the GnuTLS programs

`gnutls_mastersecret_st` and `uretprobe_gnutls_master_key` of `kern/gnutls_masterkey.h`, and the
data records of `kern/gnutls.h`, next to what the decoders of the GnuTLS probe read. The decoders
are those of another layout: the one for master secrets expects a timestamp and no early secret,
so all fields after the version are read eight bytes too far on, and the one for data expects a
payload of 4096 bytes.
-/

namespace ECapture.Kernel.GnuTLS
open Library

/-- `struct gnutls_mastersecret_st`. -/
structure GnutlsMastersecret where
  version : Int32
  clientRandom : Vector UInt8 32
  masterSecret : Vector UInt8 48
  cipherId : UInt32
  clientEarlyTrafficSecret : Vector UInt8 64
  clientHandshakeSecret : Vector UInt8 64
  serverHandshakeSecret : Vector UInt8 64
  clientTrafficSecret : Vector UInt8 64
  serverTrafficSecret : Vector UInt8 64
  exporterMasterSecret : Vector UInt8 64

def GnutlsMastersecret.bytes (r : GnutlsMastersecret) : Bytes :=
  layout r.version r.clientRandom r.masterSecret r.cipherId
    [r.clientEarlyTrafficSecret, r.clientHandshakeSecret, r.serverHandshakeSecret,
      r.clientTrafficSecret, r.serverTrafficSecret, r.exporterMasterSecret]

/-! ## The return probe -/

/-- The offsets of one GnuTLS version. -/
structure GnutlsOffsets where
  securityParameters : UInt64
  securityParametersPversion : UInt64
  versionEntryId : UInt64
  prf : UInt64
  macEntryId : UInt64
  clientRandom : UInt64
  masterSecret : UInt64
  eCkey : UInt64
  hsCkey : UInt64
  hsSkey : UInt64
  apCkey : UInt64
  apSkey : UInt64
  apExpkey : UInt64

/-- `gnutls_3_8_7_kern.c`. -/
def gnutls387 : GnutlsOffsets :=
  { securityParameters := 0x0, securityParametersPversion := 0xf8, versionEntryId := 0x8,
    prf := 0x18, macEntryId := 0x18, clientRandom := 0x50, masterSecret := 0x20, eCkey := 0x1994,
    hsCkey := 0x19d4, hsSkey := 0x1a14, apCkey := 0x1a54, apSkey := 0x1a94, apExpkey := 0x1ad4 }

def gnutlsSsl3 : Int32 := 1
def gnutlsTls12 : Int32 := 4
def gnutlsTls13 : Int32 := 5
def gnutlsDtls10 : Int32 := 201
def gnutlsDtls12 : Int32 := 202

/-- `make_event`: a copy of the zero-initialised array element. -/
def makeEvent : GnutlsMastersecret :=
  ⟨0, zeros 32, zeros 48, 0, zeros 64, zeros 64, zeros 64, zeros 64, zeros 64, zeros 64⟩

def readPtr (mem : UserMemory) (addr : UInt64) : Option UInt64 :=
  (mem.read addr 8).map (fun v => UInt64.ofNat (leNat v.toList))

def readInt (mem : UserMemory) (addr : UInt64) : Option UInt32 :=
  (mem.read addr 4).map (fun v => UInt32.ofNat (leNat v.toList))

/-- The block for SSL 3.0 to TLS 1.2 and DTLS. A failed read ends the program. -/
def tls12Block (off : GnutlsOffsets) (mem : UserMemory) (session : UInt64) (sslVersion : Int32) :
    Option GnutlsMastersecret := do
  let clientRandom ← mem.read (session + off.clientRandom) 32
  let masterSecret ← mem.read (session + off.masterSecret) 48
  return { makeEvent with version := sslVersion, clientRandom, masterSecret }

/-- The block for TLS 1.3. -/
def tls13Block (off : GnutlsOffsets) (mem : UserMemory) (session : UInt64) (sslVersion : Int32) :
    Option GnutlsMastersecret := do
  let prf ← readPtr mem (session + off.prf)
  let cipherId ← readInt mem (prf + off.macEntryId)
  let clientRandom ← mem.read (session + off.clientRandom) 32
  let clientEarlyTrafficSecret ← mem.read (session + off.eCkey) 64
  let clientHandshakeSecret ← mem.read (session + off.hsCkey) 64
  let serverHandshakeSecret ← mem.read (session + off.hsSkey) 64
  let clientTrafficSecret ← mem.read (session + off.apCkey) 64
  let serverTrafficSecret ← mem.read (session + off.apSkey) 64
  let exporterMasterSecret ← mem.read (session + off.apExpkey) 64
  return { makeEvent with
    version := sslVersion, clientRandom, cipherId, clientEarlyTrafficSecret,
    clientHandshakeSecret, serverHandshakeSecret, clientTrafficSecret, serverTrafficSecret,
    exporterMasterSecret }

/-- The return probe: the filter's answer, the return value of `gnutls_handshake` and what the
entry probe left in `gnutls_session_maps` come from outside. -/
def uretprobeGnutlsMasterKey (off : GnutlsOffsets) (mem : UserMemory) (passesFilter : Bool)
    (rc : UInt64) (session : Option UInt64) : Option GnutlsMastersecret :=
  if !passesFilter ∨ rc.toUInt8 ≠ 0 then none
  else do
    let session ← session
    let pversion ← readPtr mem (session + off.securityParameters + off.securityParametersPversion)
    let sslVersion ← readInt mem (pversion + off.versionEntryId)
    let sslVersion := sslVersion.toInt32
    if (gnutlsSsl3 ≤ sslVersion ∧ sslVersion ≤ gnutlsTls12) ∨
        (gnutlsDtls10 ≤ sslVersion ∧ sslVersion ≤ gnutlsDtls12) then
      tls12Block off mem session sslVersion
    else if sslVersion = gnutlsTls13 then tls13Block off mem session sslVersion
    else none

variable {off : GnutlsOffsets} {mem : UserMemory} {r : GnutlsMastersecret}

theorem version_tls12Block {session : UInt64} {v : Int32}
    (emitted : tls12Block off mem session v = some r) : r.version = v := by
  simp only [tls12Block, bind, Option.bind_eq_some_iff] at emitted
  obtain ⟨_, -, _, -, made⟩ := emitted
  cases made
  rfl

theorem version_tls13Block {session : UInt64} {v : Int32}
    (emitted : tls13Block off mem session v = some r) : r.version = v := by
  simp only [tls13Block, bind, Option.bind_eq_some_iff] at emitted
  obtain ⟨_, -, _, -, _, -, _, -, _, -, _, -, _, -, _, -, _, -, made⟩ := emitted
  cases made
  rfl

/-- GnuTLS numbers the versions from 1 on. -/
theorem version_of_emitted {passesFilter : Bool} {rc : UInt64} {session : Option UInt64}
    (emitted : uretprobeGnutlsMasterKey off mem passesFilter rc session = some r) :
    r.version.toInt ≤ 202 := by
  have small : gnutlsTls12.toInt = 4 ∧ gnutlsTls13.toInt = 5 ∧ gnutlsDtls12.toInt = 202 := by decide
  unfold uretprobeGnutlsMasterKey at emitted
  split at emitted
  case isTrue => cases emitted
  case isFalse =>
    simp only [bind, Option.bind_eq_some_iff] at emitted
    obtain ⟨session, -, pversion, -, number, -, emitted⟩ := emitted
    split_ifs at emitted with tls12 tls13
    · rw [version_tls12Block emitted]
      simp only [Int32.le_iff_toInt_le] at tls12
      omega
    · rw [version_tls13Block emitted, tls13]
      omega

/-! ## Master secrets -/

/-- The fields of the struct are in the event. The event has no field for the early secret, so a
record that has one is not recovered. -/
structure Recovers (r : GnutlsMastersecret) (e : Events.GnuTLS.MasterSecretEvent) : Prop where
  version : e.version = r.version
  clientRandom : e.clientRandom = r.clientRandom
  masterSecret : e.masterKey = r.masterSecret
  cipherId : e.cipherId = r.cipherId
  early : r.clientEarlyTrafficSecret = zeros 64
  clientHandshake : e.clientHandshakeTrafficSecret = r.clientHandshakeSecret
  serverHandshake : e.serverHandshakeTrafficSecret = r.serverHandshakeSecret
  clientTraffic : e.clientAppTrafficSecret = r.clientTrafficSecret
  serverTraffic : e.serverAppTrafficSecret = r.serverTrafficSecret
  exporter : e.exporterMasterSecret = r.exporterMasterSecret

theorem length_bytes (r : GnutlsMastersecret) : r.bytes.length = 472 := by
  simp [GnutlsMastersecret.bytes, layout]

/-- Where the fields of the struct stand. -/
theorem windows_bytes (r : GnutlsMastersecret) (tail : Bytes) :
    window (r.bytes ++ tail) 0 4 = leBytes 4 r.version.toUInt32.toNat ∧
    window (r.bytes ++ tail) 4 32 = r.clientRandom.toList ∧
    window (r.bytes ++ tail) 36 48 = r.masterSecret.toList ∧
    window (r.bytes ++ tail) 84 4 = leBytes 4 r.cipherId.toNat ∧
    window (r.bytes ++ tail) 88 64 = r.clientEarlyTrafficSecret.toList ∧
    window (r.bytes ++ tail) 152 64 = r.clientHandshakeSecret.toList ∧
    window (r.bytes ++ tail) 216 64 = r.serverHandshakeSecret.toList ∧
    window (r.bytes ++ tail) 280 64 = r.clientTrafficSecret.toList ∧
    window (r.bytes ++ tail) 344 64 = r.serverTrafficSecret.toList ∧
    window (r.bytes ++ tail) 408 64 = r.exporterMasterSecret.toList := by
  simp [GnutlsMastersecret.bytes, layout]

/-- Every byte after the version is zero. -/
def Blank (data : Bytes) : Prop := ∀ i, 4 ≤ i → i < 472 → data[i]? = some 0

/-- A record whose random, master secret and cipher repeat after eight bytes and whose secrets
repeat what stands 56 bytes earlier is blank, since the early secret is. -/
theorem blank_of_shifted {data : Bytes}
    (low : ∀ i, 4 ≤ i → i < 88 → data[i]? = data[i + 8]?)
    (early : ∀ i, 88 ≤ i → i < 152 → data[i]? = some 0)
    (high : ∀ i, 152 ≤ i → i < 472 → data[i]? = data[i - 56]?) : Blank data := by
  have after : ∀ i, 88 ≤ i → i < 472 → data[i]? = some 0 := by
    intro i
    induction i using Nat.strong_induction_on with
    | h i ih =>
      intro ge lt
      by_cases inside : i < 152
      · exact early i ge inside
      · rw [high i (by omega) lt]
        exact ih (i - 56) (by omega) (by omega) (by omega)
  -- before the early secret the chain of equal bytes runs upwards
  have before : ∀ n i, 88 - i = n → 4 ≤ i → i < 88 → data[i]? = some 0 := by
    intro n
    induction n using Nat.strong_induction_on with
    | h n ih =>
      intro i dist ge lt
      rw [low i ge lt]
      by_cases inside : i + 8 < 88
      · exact ih (88 - (i + 8)) (by omega) (i + 8) rfl (by omega) inside
      · exact after (i + 8) (by omega) (by omega)
  intro i ge lt
  by_cases inside : i < 88
  · exact before _ i rfl ge inside
  · exact after i (by omega) lt

/-- Equal windows, read at one place. -/
theorem getElem?_of_window_eq {data : Bytes} {j k n : Nat} (h : window data j n = window data k n)
    {i i' : Nat} (ge : k ≤ i) (lt : i < k + n) (shift : i' + k = i + j) : data[i]? = data[i']? := by
  have same := window_eq_iff.mp h (i - k) (by omega)
  rw [show j + (i - k) = i' by omega, show k + (i - k) = i by omega] at same
  exact same.symm

theorem Blank.window {data : Bytes} (h : Blank data) {k n : Nat} (ge : 4 ≤ k) (le : k + n ≤ 472) :
    window data k n = List.replicate n 0 :=
  window_eq_replicate_iff.mpr fun i lt => h (k + i) (by omega) (by omega)

/-- What the decoder takes for a field is that field: the fields before the early secret stand
eight bytes further on, the secrets after it 56 bytes further to the front. -/
structure Shifted (data : Bytes) : Prop where
  clientRandom : window data 12 32 = window data 4 32
  masterSecret : window data 44 48 = window data 36 48
  cipherId : window data 92 4 = window data 84 4
  early : window data 88 64 = List.replicate 64 0
  clientHandshake : window data 96 64 = window data 152 64
  serverHandshake : window data 160 64 = window data 216 64
  clientTraffic : window data 224 64 = window data 280 64
  serverTraffic : window data 288 64 = window data 344 64
  exporter : window data 352 64 = window data 408 64

theorem shifted_iff_blank (data : Bytes) : Shifted data ↔ Blank data := by
  constructor
  · intro h
    apply blank_of_shifted
    · intro i ge lt
      by_cases i < 36
      · exact getElem?_of_window_eq h.clientRandom ge (by omega) (by omega)
      by_cases i < 84
      · exact getElem?_of_window_eq h.masterSecret (by omega) (by omega) (by omega)
      · exact getElem?_of_window_eq h.cipherId (by omega) (by omega) (by omega)
    · intro i ge lt
      have zero := window_eq_replicate_iff.mp h.early (i - 88) (by omega)
      rwa [show 88 + (i - 88) = i by omega] at zero
    · intro i ge lt
      by_cases i < 216
      · exact getElem?_of_window_eq h.clientHandshake ge (by omega) (by omega)
      by_cases i < 280
      · exact getElem?_of_window_eq h.serverHandshake (by omega) (by omega) (by omega)
      by_cases i < 344
      · exact getElem?_of_window_eq h.clientTraffic (by omega) (by omega) (by omega)
      by_cases i < 408
      · exact getElem?_of_window_eq h.serverTraffic (by omega) (by omega) (by omega)
      · exact getElem?_of_window_eq h.exporter (by omega) (by omega) (by omega)
  · intro blank
    have same {j k n : Nat} (inside : 4 ≤ j ∧ 4 ≤ k ∧ j + n ≤ 472 ∧ k + n ≤ 472) :
        window data j n = window data k n := by
      rw [blank.window (by omega) (by omega), blank.window (by omega) (by omega)]
    exact ⟨same (by omega), same (by omega), same (by omega), blank.window (by omega) (by omega),
      same (by omega), same (by omega), same (by omega), same (by omega), same (by omega)⟩

theorem blank_append (r : GnutlsMastersecret) (tail : Bytes) :
    Blank (r.bytes ++ tail) ↔ Blank r.bytes := by
  have length := length_bytes r
  refine forall_congr' fun i => imp_congr_right fun _ => forall_congr' fun lt => ?_
  rw [List.getElem?_append_left (by omega)]

/-- The decoded fields are those of the struct exactly if the record is blank. -/
theorem recovers_iff (r : GnutlsMastersecret) (tail : Bytes) (host : Events.Host) :
    ∃ e, (Events.GnuTLS.MasterSecretEvent.decodeFromBytes host).run (r.bytes ++ tail) = .ok e ∧
      e.version = r.version ∧ (Recovers r e ↔ Blank r.bytes) := by
  have long : 416 ≤ (r.bytes ++ tail).length := by
    rw [List.length_append, length_bytes]
    omega
  obtain ⟨version, random, master, cipher, early, chs, shs, client, server, exporter⟩ :=
    windows_bytes r tail
  obtain ⟨e, read, version', random', master', cipher', chs', shs', client', server', exporter'⟩ :=
    Events.GnuTLS.MasterSecretEvent.decode_windows host long
  have agrees : e.version = r.version := by
    rw [version', (ofNat_leNat_eq_iff (length_window (by omega)) r.version.toUInt32).mpr version,
      Int32.toInt32_toUInt32]
  have word : e.cipherId = r.cipherId ↔
      window (r.bytes ++ tail) 92 4 = window (r.bytes ++ tail) 84 4 := by
    rw [cipher', cipher]
    exact ofNat_leNat_eq_iff (length_window (by omega)) r.cipherId
  have array {n j k : Nat} {v w : Vector UInt8 n} (hv : v.toList = window (r.bytes ++ tail) j n)
      (hw : window (r.bytes ++ tail) k n = w.toList) :
      v = w ↔ window (r.bytes ++ tail) j n = window (r.bytes ++ tail) k n := by
    rw [← Vector.toList_inj, hv, hw]
  have none : r.clientEarlyTrafficSecret = zeros 64 ↔
      window (r.bytes ++ tail) 88 64 = List.replicate 64 0 := by
    rw [← Vector.toList_inj, early, zeros, Vector.toList_replicate]
  refine ⟨e, read, agrees, ?_⟩
  rw [← blank_append r tail, ← shifted_iff_blank]
  constructor
  · intro h
    exact ⟨(array random' random).mp h.clientRandom, (array master' master).mp h.masterSecret,
      word.mp h.cipherId, none.mp h.early, (array chs' chs).mp h.clientHandshake,
      (array shs' shs).mp h.serverHandshake, (array client' client).mp h.clientTraffic,
      (array server' server).mp h.serverTraffic, (array exporter' exporter).mp h.exporter⟩
  · intro h
    exact ⟨agrees, (array random' random).mpr h.clientRandom,
      (array master' master).mpr h.masterSecret, word.mpr h.cipherId, none.mpr h.early,
      (array chs' chs).mpr h.clientHandshake, (array shs' shs).mpr h.serverHandshake,
      (array client' client).mpr h.clientTraffic, (array server' server).mpr h.serverTraffic,
      (array exporter' exporter).mpr h.exporter⟩

/-- No version that the program emits is one that `Validate` knows. -/
theorem validate_emitted {e : Events.GnuTLS.MasterSecretEvent} (version : e.version.toInt ≤ 202) :
    ∃ err, e.validate = .error err := by
  have limit : (0x0301 : Int32).toInt = 769 := by decide
  refine ⟨_, if_pos (.inl ?_)⟩
  rw [Int32.lt_iff_toInt_lt]
  omega

/-! ## Data records -/

/-- The fields of the struct are in the event. -/
structure RecoversData (r : SslDataRecord) (e : Events.GnuTLS.Event) : Prop where
  type : e.dataType.toInt = r.type.toNat
  timestamp : e.timestamp = r.timestampNs
  pid : e.pid = r.pid
  tid : e.tid = r.tid
  dataLen : e.dataLen = r.dataLen
  comm : e.comm = r.comm
  payload : e.getData = .ok (r.data.toList.take r.dataLen.toInt.toNat)

/-- The payload fits the decoder's array, and the bytes behind that array, which the decoder takes
for the length and the name, happen to be those. -/
structure Overlaid (r : SslDataRecord) : Prop where
  hole : r.hole = 0
  small : r.dataLen.toInt ≤ 4096
  dataLen : window r.data.toList 4096 4 = leBytes 4 r.dataLen.toUInt32.toNat
  comm : window r.data.toList 4100 16 = r.comm.toList

theorem windows_record (r : SslDataRecord) (tail : Bytes) :
    window (r.bytes ++ tail) 0 8 = leBytes 4 r.type.toNat ++ leBytes 4 r.hole.toNat ∧
    window (r.bytes ++ tail) 8 8 = leBytes 8 r.timestampNs.toNat ∧
    window (r.bytes ++ tail) 16 4 = leBytes 4 r.pid.toNat ∧
    window (r.bytes ++ tail) 20 4 = leBytes 4 r.tid.toNat ∧
    window (r.bytes ++ tail) 24 4096 = r.data.toList.take 4096 ∧
    window (r.bytes ++ tail) 4120 4 = window r.data.toList 4096 4 ∧
    window (r.bytes ++ tail) 4124 16 = window r.data.toList 4100 16 := by
  have size : r.data.toList.length = 16384 := Vector.length_toList
  have first := window_front (a := leBytes 4 r.type.toNat ++ leBytes 4 r.hole.toNat) (n := 8)
    (by simp)
  simp only [List.append_assoc] at first
  simp only [SslDataRecord.bytes, List.append_assoc]
  refine ⟨first _, by simp, by simp, by simp, ?_, ?_, ?_⟩
  · simp [window_left, size]
    rfl
  · simp [window_left, size]
  · simp [window_left, size]

/-- The type is recovered exactly if the hole behind it is zero. -/
theorem type_recovered_iff {v : Int64} {type hole : UInt32}
    (bytes : leBytes 8 v.toUInt64.toNat = leBytes 4 type.toNat ++ leBytes 4 hole.toNat) :
    v.toInt = type.toNat ↔ hole = 0 := by
  have word : v = .ofNat type.toNat ↔ v.toUInt64 = (Int64.ofNat type.toNat).toUInt64 := by
    refine ⟨congrArg _, fun h => ?_⟩
    have back := congrArg UInt64.toInt64 h
    rwa [Int64.toInt64_toUInt64, Int64.toInt64_toUInt64] at back
  rw [← toInt_type, Int64.toInt_inj, word, ← leBytes_u64_inj, bytes, ← leBytes_type,
    List.append_cancel_left_eq, leBytes_u32_inj]

/-- The payload is recovered exactly if the decoder's array holds it. -/
theorem payload_recovered_iff {e : Events.GnuTLS.Event} {data : Bytes} {len : Int32}
    (size : data.length = 16384) (fits : len.toInt ≤ 16384)
    (kept : e.data.toList = data.take 4096) (same : e.dataLen = len) :
    e.getData = .ok (data.take len.toInt.toNat) ↔ len.toInt ≤ 4096 := by
  rw [e.getData_eq, kept, same, List.take_take]
  constructor
  · intro eq
    have lengths := congrArg (Except.map List.length) eq
    simp only [Except.map, List.length_take, Except.ok.injEq, size] at lengths
    omega
  · intro small
    rw [Nat.min_eq_left (by omega)]

theorem recoversData_iff (r : SslDataRecord) (fits : r.dataLen.toInt ≤ 16384) (tail : Bytes) :
    ∃ e, Events.GnuTLS.Event.decodeFromBytes.run (r.bytes ++ tail) = .ok e ∧
      (RecoversData r e ↔ Overlaid r) := by
  have long : 4148 ≤ (r.bytes ++ tail).length := by
    simp [SslDataRecord.bytes, Ssl.maxDataSizeOpenssl]
    omega
  obtain ⟨e, -, read, wire⟩ := Events.GnuTLS.Event.reads_decodeFromBytes.exists_run long
  refine ⟨e, read, ?_⟩
  obtain ⟨type, timestamp, pid, tid, data, dataLen, comm⟩ := e.windows_wire
  obtain ⟨type', timestamp', pid', tid', data', dataLen', comm'⟩ := windows_record r tail
  rw [wire, window_inside (by omega)] at type timestamp pid tid data dataLen comm
  rw [type'] at type
  rw [timestamp', leBytes_u64_inj] at timestamp
  rw [pid', leBytes_u32_inj] at pid
  rw [tid', leBytes_u32_inj] at tid
  rw [data'] at data
  rw [dataLen'] at dataLen
  rw [comm'] at comm
  have len : e.dataLen = r.dataLen ↔
      window r.data.toList 4096 4 = leBytes 4 r.dataLen.toUInt32.toNat := by
    rw [dataLen, leBytes_u32_inj]
    exact ⟨congrArg _, fun h => by simpa using congrArg UInt32.toInt32 h⟩
  have name : e.comm = r.comm ↔ window r.data.toList 4100 16 = r.comm.toList := by
    rw [comm, Vector.toList_inj]
  have payload (same : e.dataLen = r.dataLen) :=
    payload_recovered_iff Vector.length_toList fits data.symm same
  constructor
  · intro h
    exact ⟨(type_recovered_iff type.symm).mp h.type, (payload h.dataLen).mp h.payload,
      len.mp h.dataLen, name.mp h.comm⟩
  · intro h
    have same := len.mpr h.dataLen
    exact ⟨(type_recovered_iff type.symm).mpr h.hole, timestamp.symm, pid.symm, tid.symm, same,
      name.mpr h.comm, (payload same).mpr h.small⟩

/-! ## The layouts agree in these cases only -/

/-- A master secret record is recovered exactly if all of it but the version is zero, and none that
the program emits is valid. A data record is recovered exactly if its payload fits the decoder's
array and is followed by the length and the name. -/
theorem layouts_agree_iff (tail : Bytes) (host : Events.Host) :
    (∀ r : GnutlsMastersecret,
      ∃ e, (Events.GnuTLS.MasterSecretEvent.decodeFromBytes host).run (r.bytes ++ tail) = .ok e ∧
        (Recovers r e ↔ Blank r.bytes)) ∧
    (∀ off mem passesFilter rc session (r : GnutlsMastersecret),
      uretprobeGnutlsMasterKey off mem passesFilter rc session = some r →
      ∃ e, (Events.GnuTLS.MasterSecretEvent.decodeFromBytes host).run (r.bytes ++ tail) = .ok e ∧
        ∃ err, e.validate = .error err) ∧
    ∀ r : SslDataRecord, r.dataLen.toInt ≤ 16384 →
      ∃ e, Events.GnuTLS.Event.decodeFromBytes.run (r.bytes ++ tail) = .ok e ∧
        (RecoversData r e ↔ Overlaid r) := by
  refine ⟨fun r => ?_, fun _ _ _ _ _ r emitted => ?_, fun r fits => ?_⟩
  · obtain ⟨e, read, -, recovers⟩ := recovers_iff r tail host
    exact ⟨e, read, recovers⟩
  · obtain ⟨e, read, version, -⟩ := recovers_iff r tail host
    exact ⟨e, read, validate_emitted (version ▸ version_of_emitted emitted)⟩
  · exact recoversData_iff r fits tail

/-- A TLS 1.2 record as the program emits it. -/
def tls12Record : GnutlsMastersecret :=
  { makeEvent with
    version := 4, clientRandom := .replicate _ 1, masterSecret := .replicate _ 2 }

/-- The memory of a process with that session at `0x1000`. -/
def tls12Memory : UserMemory where
  read addr n :=
    if addr = 0x10f8 then some (Ssl.overwrite (zeros n) (#v[0x00, 0x20] : Vector UInt8 2))
    else if addr = 0x2008 then some (Ssl.overwrite (zeros n) (#v[4] : Vector UInt8 1))
    else if addr = 0x1050 then some (.replicate n 1)
    else some (.replicate n 2)

/-- A data record with a payload of 4097 bytes. -/
def longRecord : SslDataRecord :=
  ⟨1, 0, 9, 7, 8, .replicate _ 104, 4097, .replicate _ 0⟩

theorem emitted_tls12Record :
    uretprobeGnutlsMasterKey gnutls387 tls12Memory true 0 (some 0x1000) = some tls12Record := by
  rfl

theorem layouts_agree_tls12 :
    (∃ e, (Events.GnuTLS.MasterSecretEvent.decodeFromBytes ⟨0, 0, fun _ => []⟩).run
        (makeEvent.bytes ++ []) = .ok e ∧ (Recovers makeEvent e ↔ Blank makeEvent.bytes)) ∧
    (∃ e, (Events.GnuTLS.MasterSecretEvent.decodeFromBytes ⟨0, 0, fun _ => []⟩).run
        (tls12Record.bytes ++ []) = .ok e ∧ ∃ err, e.validate = .error err) ∧
    ∃ e, Events.GnuTLS.Event.decodeFromBytes.run (longRecord.bytes ++ []) = .ok e ∧
      (RecoversData longRecord e ↔ Overlaid longRecord) :=
  have agree := layouts_agree_iff [] ⟨0, 0, fun _ => []⟩
  ⟨agree.1 makeEvent, agree.2.1 _ _ _ _ _ tls12Record emitted_tls12Record,
    agree.2.2 longRecord (by decide)⟩

/-- The record of a TLS 1.2 handshake is read wrongly and refused; a payload of 4097 bytes is not
recovered. -/
theorem layouts_differ :
    (∃ e, uretprobeGnutlsMasterKey gnutls387 tls12Memory true 0 (some 0x1000) = some tls12Record ∧
      (Events.GnuTLS.MasterSecretEvent.decodeFromBytes ⟨0, 0, fun _ => []⟩).run
        (tls12Record.bytes ++ []) = .ok e ∧ ¬ Recovers tls12Record e ∧
      ∃ err, e.validate = .error err) ∧
    ∃ e, Events.GnuTLS.Event.decodeFromBytes.run (longRecord.bytes ++ []) = .ok e ∧
      ¬ RecoversData longRecord e := by
  refine ⟨?_, ?_⟩
  · obtain ⟨e, read, version, recovers⟩ := recovers_iff tls12Record [] ⟨0, 0, fun _ => []⟩
    refine ⟨e, emitted_tls12Record, read, fun h => ?_, validate_emitted (version ▸ by decide)⟩
    have first : tls12Record.bytes[4]? = some 1 := by rfl
    have blank := (recovers.mp h) 4 (by omega) (by omega)
    rw [first] at blank
    cases blank
  · obtain ⟨e, read, recovers⟩ := recoversData_iff longRecord (by decide) []
    refine ⟨e, read, fun h => ?_⟩
    have small := (recovers.mp h).small
    exact absurd small (by decide)

end ECapture.Kernel.GnuTLS
