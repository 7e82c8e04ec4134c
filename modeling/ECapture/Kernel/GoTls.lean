import ECapture.Kernel.Records
import ECapture.Kernel.SslCalls

/-!
# The GoTLS probes on data

`gotls_write` and `gotls_read` of `kern/gotls_kern.c`, with the walk from `tls.Conn` to the fd and
the addresses, and `gotls_emit_payload`, which submits a payload in segments of 16 KiB from one
reused event. The decoder gives back the payload up to a cap, without gap or overlap.
-/

namespace ECapture.Kernel.GoTls
open Library Kernel.Ssl

/-! ## What a run reads -/

/-- The arguments of the traced function by register and on its stack, counted from 1. -/
structure GoArgs where
  reg : Nat → UInt64
  stack : Nat → UInt64

def goGetArgument (args : GoArgs) (isRegisterAbi : Bool) (index : Nat) : UInt64 :=
  if isRegisterAbi then args.reg index else args.stack index

structure Ctx where
  task : Task
  ktime : UInt64
  mem : UserMemory
  args : GoArgs

/-! ## The event -/

def eventTypeWrite : UInt8 := 0
def eventTypeRead : UInt8 := 1

/-- `get_gotls_event`: the element of the per-CPU array, which keeps its payload and its padding. -/
def getGotlsEvent (x : Ctx) (slot : GoTlsEvent) : GoTlsEvent :=
  { slot with
    tsNs := x.ktime
    pid := x.task.pid
    tid := x.task.tid
    eventType := eventTypeWrite
    fd := 0
    comm := x.task.comm
    srcIp := zeros 16
    dstIp := zeros 16
    srcPort := 0
    dstPort := 0
    ipVersion := 0 }

/-- `get_netfd_ptr_from_tls_conn`; NULL is 0. -/
def getNetfdPtr (mem : UserMemory) (tlsConn : UInt64) : UInt64 :=
  if tlsConn = 0 then 0
  else
    let (ok, netConn) := mem.probeReadU64 (tlsConn + 8)
    if !ok ∨ netConn = 0 then 0
    else
      let (ok, netfd) := mem.probeReadU64 netConn
      if !ok ∨ netfd = 0 then 0 else netfd

def extractFd (mem : UserMemory) (netfd : UInt64) : UInt32 :=
  let (ok, fd) := mem.probeReadU64 (netfd + 16)
  if !ok ∨ fd.toInt64 < 0 then 0 else fd.toUInt32

/-- The version that two address lengths stand for. -/
def ipVersionOf (lipLen ripLen : UInt64) : Option UInt8 :=
  if lipLen = 4 ∧ ripLen = 4 then some 4
  else if lipLen = 16 ∧ ripLen = 16 then some 6
  else none

/-- The end of `extract_addr_from_netfd_ptr`: the ports, and the version that makes them count. -/
def extractPorts (mem : UserMemory) (laddr raddr : UInt64) (version : UInt8) (e : GoTlsEvent) :
    GoTlsEvent :=
  let (ok, lport) := mem.probeReadU64 (laddr + 24)
  if !ok then e
  else
    let (ok, rport) := mem.probeReadU64 (raddr + 24)
    if !ok then e
    else { e with srcPort := lport.toUInt16, dstPort := rport.toUInt16, ipVersion := version }

/-- The reads of the two addresses; a failed one ends the walk. -/
def extractIps (mem : UserMemory) (laddr raddr lip rip : UInt64) (version : UInt8)
    (e : GoTlsEvent) : GoTlsEvent :=
  let size := if version = 4 then 4 else 16
  let (ok, src) := mem.probeRead lip size
  let e := { e with srcIp := overwrite e.srcIp src }
  if !ok then e
  else
    let (ok, dst) := mem.probeRead rip size
    let e := { e with dstIp := overwrite e.dstIp dst }
    if !ok then e else extractPorts mem laddr raddr version e

/-- `extract_addr_from_netfd_ptr`. -/
def extractAddr (mem : UserMemory) (netfd : UInt64) (e : GoTlsEvent) : GoTlsEvent :=
  let (ok, laddr) := mem.probeReadU64 (netfd + 96 + 8)
  if !ok ∨ laddr = 0 then e
  else
    let (ok, raddr) := mem.probeReadU64 (netfd + 112 + 8)
    if !ok ∨ raddr = 0 then e
    else
      let (ok₁, lip) := mem.probeReadU64 laddr
      let (ok₂, lipLen) := mem.probeReadU64 (laddr + 8)
      let (ok₃, rip) := mem.probeReadU64 raddr
      let (ok₄, ripLen) := mem.probeReadU64 (raddr + 8)
      if !(ok₁ && ok₂ && ok₃ && ok₄) then e
      else
        match ipVersionOf lipLen ripLen with
        | none => e
        | some version => extractIps mem laddr raddr lip rip version e

/-- `fill_fd_and_addr_from_tls_conn`. -/
def fillFdAndAddr (mem : UserMemory) (tlsConn : UInt64) (e : GoTlsEvent) : GoTlsEvent :=
  let netfd := getNetfdPtr mem tlsConn
  if netfd = 0 then e else extractAddr mem netfd { e with fd := extractFd mem netfd }

/-! ## Segments -/

def gotlsMaxSegments : UInt32 := 16

/-- `MAX_DATA_SIZE_OPENSSL`. -/
def maxChunk : UInt32 := 16384

/-- `_chunk` of `GOTLS_EMIT_SEG`. -/
def segChunk (total off : UInt32) : UInt32 :=
  let remain := total - off
  if remain < maxChunk then remain &&& (maxChunk - 1) else maxChunk

/-- `GOTLS_EMIT_SEG` on the event and the records so far. -/
def emitSeg (mem : UserMemory) (base : UInt64) (total segIdx : UInt32)
    (s : GoTlsEvent × List Bytes) : GoTlsEvent × List Bytes :=
  let off := segIdx * maxChunk
  if off < total then
    let chunk := segChunk total off
    if 0 < chunk then
      let (ok, bytes) := mem.probeRead (base + off.toUInt64) chunk.toNat
      let event := { s.1 with dataLen := chunk.toInt32, data := overwrite s.1.data bytes }
      (event, if ok then s.2 ++ [event.bytes] else s.2)
    else s
  else s

/-- `gotls_emit_payload`, whose sixteen segments are unrolled. -/
def gotlsEmitPayload (mem : UserMemory) (base : UInt64) (totalLen : Int32) (eventType : UInt8)
    (event : GoTlsEvent) : GoTlsEvent × List Bytes :=
  if base = 0 ∨ totalLen ≤ 0 then (event, [])
  else
    let maxTotal := maxChunk * gotlsMaxSegments
    let total := if maxTotal < totalLen.toUInt32 then maxTotal else totalLen.toUInt32
    (List.range 16).foldl (fun s i => emitSeg mem base total (.ofNat i) s)
      ({ event with eventType }, [])

/-! ## The probes -/

def recordTypeApplicationData : Int32 := 23

/-- `gotls_write`: the element of the array after it, and the records. -/
def gotlsWrite (c : Consts) (isRegisterAbi : Bool) (x : Ctx) (slot : GoTlsEvent) :
    GoTlsEvent × List Bytes :=
  if !passesFilter c x.task then (slot, [])
  else
    let tlsConn := goGetArgument x.args isRegisterAbi 1
    let recordType := (goGetArgument x.args isRegisterAbi 2).toUInt32.toInt32
    let str := goGetArgument x.args isRegisterAbi 3
    let len := (goGetArgument x.args isRegisterAbi 4).toUInt32.toInt32
    if len = 0 then (slot, [])
    else if recordType ≠ recordTypeApplicationData then (slot, [])
    else
      let event := fillFdAndAddr x.mem tlsConn (getGotlsEvent x slot)
      gotlsEmitPayload x.mem str len eventTypeWrite event

/-- `gotls_read`, at a return of `Read`: its arguments are on the stack. -/
def gotlsRead (c : Consts) (isRegisterAbi : Bool) (x : Ctx) (slot : GoTlsEvent) :
    GoTlsEvent × List Bytes :=
  if !passesFilter c x.task then (slot, [])
  else
    let tlsConn := goGetArgument x.args false 1
    let str := goGetArgument x.args false 2
    let retLen := (if isRegisterAbi then goGetArgument x.args isRegisterAbi 1
      else goGetArgument x.args isRegisterAbi 5).toUInt32.toInt32
    if str = 0 then (slot, [])
    else if retLen ≤ 0 then (slot, [])
    else
      let event := fillFdAndAddr x.mem tlsConn (getGotlsEvent x slot)
      gotlsEmitPayload x.mem str retLen eventTypeRead event

/-! ## The bytes of a buffer -/

/-- `n` bytes from `addr` on, where `byte` is the memory. -/
def bytesAt (byte : UInt64 → UInt8) (addr : UInt64) (n : Nat) : Bytes :=
  (List.range n).map fun i => byte (addr + .ofNat i)

/-- Reads within the `len` bytes from `base` on succeed and give the memory. -/
def Readable (mem : UserMemory) (byte : UInt64 → UInt8) (base : UInt64) (len : Nat) : Prop :=
  ∀ off n, off + n ≤ len →
    ∃ v, mem.read (base + .ofNat off) n = some v ∧ v.toList = bytesAt byte (base + .ofNat off) n

@[simp] theorem length_bytesAt (byte : UInt64 → UInt8) (addr : UInt64) (n : Nat) :
    (bytesAt byte addr n).length = n := by
  simp [bytesAt]

theorem bytesAt_add (byte : UInt64 → UInt8) (addr : UInt64) (m n : Nat) :
    bytesAt byte addr (m + n) = bytesAt byte addr m ++ bytesAt byte (addr + .ofNat m) n := by
  simp only [bytesAt, List.range_add, List.map_append, List.map_map]
  congr 1
  apply List.map_congr_left
  intro i _
  simp only [Function.comp_apply, UInt64.ofNat_add, UInt64.add_assoc]

/-- A process all of whose memory can be read. -/
def memoryOf (byte : UInt64 → UInt8) : UserMemory where
  read addr _ := some (.ofFn fun i => byte (addr + .ofNat i))

theorem toList_ofFn {n : Nat} (f : Nat → UInt8) :
    (Vector.ofFn fun i : Fin n => f i).toList = (List.range n).map f := by
  apply List.ext_getElem
  · simp
  · intro i _ _
    simp

theorem readable_memoryOf (byte : UInt64 → UInt8) (base : UInt64) (len : Nat) :
    Readable (memoryOf byte) byte base len := by
  intro off n _
  let f : Nat → UInt8 := fun i => byte (base + .ofNat off + .ofNat i)
  have read : (memoryOf byte).read (base + .ofNat off) n =
    some (Vector.ofFn fun i : Fin n => f i) := rfl
  exact ⟨_, read, toList_ofFn f⟩

/-! ## One segment -/

theorem toNat_segChunk {total off : UInt32} (h : off < total) :
    (segChunk total off).toNat = min (total.toNat - off.toNat) 16384 := by
  have le : off ≤ total := UInt32.le_of_lt h
  have remain : (total - off).toNat = total.toNat - off.toNat := UInt32.toNat_sub_of_le _ _ le
  have max : maxChunk.toNat = 16384 := rfl
  unfold segChunk
  dsimp only
  split
  case isTrue small =>
    have small : total.toNat - off.toNat < 16384 := by
      rw [UInt32.lt_iff_toNat_lt, remain] at small
      exact small
    have mask : (maxChunk - 1).toNat = 2 ^ 14 - 1 := rfl
    rw [UInt32.toNat_and, mask, Nat.and_two_pow_sub_one_eq_mod, remain]
    omega
  case isFalse large =>
    rw [UInt32.lt_iff_toNat_lt, remain] at large
    omega

theorem toNat_segOff {i : Nat} (small : i < 16) :
    (UInt32.ofNat i * maxChunk).toNat = i * 16384 := by
  have max : maxChunk.toNat = 16384 := rfl
  rw [UInt32.toNat_mul, UInt32.toNat_ofNat', max]
  omega

theorem toInt32_eq_ofNat (n : UInt32) : n.toInt32 = Int32.ofNat n.toNat := by
  apply Int32.toBitVec_inj.mp
  simp

/-- The event with another payload. -/
def withPayload {n : Nat} (e : GoTlsEvent) (bytes : Vector UInt8 n) : GoTlsEvent :=
  { e with dataLen := .ofNat n, data := overwrite e.data bytes }

/-- A segment within the payload is submitted, with the bytes that stand there. -/
theorem emitSeg_of_lt {mem : UserMemory} {byte : UInt64 → UInt8} {base : UInt64} {total : UInt32}
    {i : Nat} (small : i < 16) (readable : Readable mem byte base total.toNat)
    (h : i * 16384 < total.toNat) (s : GoTlsEvent × List Bytes) :
    ∃ (n : Nat) (v : Vector UInt8 n), n = min (total.toNat - i * 16384) 16384 ∧
      v.toList = bytesAt byte (base + .ofNat (i * 16384)) n ∧
      emitSeg mem base total (.ofNat i) s =
        (withPayload s.1 v, s.2 ++ [(withPayload s.1 v).bytes]) := by
  have off := toNat_segOff small
  have inside : UInt32.ofNat i * maxChunk < total := by rwa [UInt32.lt_iff_toNat_lt, off]
  have chunk := toNat_segChunk inside
  rw [off] at chunk
  have addr : (UInt32.ofNat i * maxChunk).toUInt64 = .ofNat (i * 16384) := by
    apply UInt64.toNat_inj.mp
    rw [UInt32.toNat_toUInt64, off, UInt64.toNat_ofNat']
    omega
  have pos : 0 < segChunk total (UInt32.ofNat i * maxChunk) := by
    rw [UInt32.lt_iff_toNat_lt, chunk]
    change 0 < _
    omega
  obtain ⟨v, read, value⟩ := readable (i * 16384)
    (segChunk total (UInt32.ofNat i * maxChunk)).toNat (by omega)
  refine ⟨_, v, chunk, value, ?_⟩
  have len : (segChunk total (UInt32.ofNat i * maxChunk)).toInt32 =
      .ofNat (segChunk total (UInt32.ofNat i * maxChunk)).toNat := toInt32_eq_ofNat _
  simp only [emitSeg, if_pos inside, if_pos pos, addr, UserMemory.probeRead, read, withPayload, len,
    if_true]

/-- A segment behind the payload does nothing. -/
theorem emitSeg_of_le {mem : UserMemory} {base : UInt64} {total : UInt32} {i : Nat} (small : i < 16)
    (h : total.toNat ≤ i * 16384) (s : GoTlsEvent × List Bytes) :
    emitSeg mem base total (.ofNat i) s = s := by
  have outside : ¬ UInt32.ofNat i * maxChunk < total := by
    rw [UInt32.lt_iff_toNat_lt, toNat_segOff small]
    omega
  simp only [emitSeg, if_neg outside]

/-! ## All segments -/

/-- The payload that the decoder keeps. -/
def payloadOf (e : GoTlsEvent) : Bytes := e.data.toList.take e.dataLen.toInt.toNat

/-- `ev` is `e` with some payload. -/
def SameHead (e ev : GoTlsEvent) : Prop := { ev with dataLen := e.dataLen, data := e.data } = e

theorem sameHead_withPayload {e ev : GoTlsEvent} (same : SameHead e ev) {n : Nat}
    (v : Vector UInt8 n) : SameHead e (withPayload ev v) := same

theorem toInt_ofNat_small {n : Nat} (h : n ≤ 16384) : (Int32.ofNat n).toInt = n := by
  rw [Int32.toInt_ofNat_of_lt (by omega)]

theorem payloadOf_withPayload {e : GoTlsEvent} {n : Nat} (v : Vector UInt8 n) (h : n ≤ 16384) :
    payloadOf (withPayload e v) = v.toList := by
  have len : (withPayload e v).dataLen.toInt = n := toInt_ofNat_small h
  rw [payloadOf, len, Int.toNat_natCast]
  exact take_overwrite e.data v h

/-- Events that differ from `e` in the payload only, have between 1 and 16384 bytes of it, and are
together the bytes `bs`. -/
structure Tiles (e : GoTlsEvent) (bs : Bytes) (events : List GoTlsEvent) : Prop where
  same : ∀ ev ∈ events, SameHead e ev
  pos : ∀ ev ∈ events, 1 ≤ ev.dataLen.toInt
  bound : ∀ ev ∈ events, ev.dataLen.toInt ≤ 16384
  payload : events.flatMap payloadOf = bs

/-- One more segment. -/
theorem Tiles.snoc {e ev : GoTlsEvent} {bs : Bytes} {events : List GoTlsEvent}
    (h : Tiles e bs events) (same : SameHead e ev) {n : Nat} (v : Vector UInt8 n) (pos : 1 ≤ n)
    (bound : n ≤ 16384) : Tiles e (bs ++ v.toList) (events ++ [withPayload ev v]) := by
  have len : (withPayload ev v).dataLen.toInt = n := toInt_ofNat_small bound
  constructor
  · intro ev' mem
    rcases List.mem_append.mp mem with old | new
    · exact h.same ev' old
    · rw [List.mem_singleton.mp new]
      exact sameHead_withPayload same v
  · intro ev' mem
    rcases List.mem_append.mp mem with old | new
    · exact h.pos ev' old
    · rw [List.mem_singleton.mp new, len]
      omega
  · intro ev' mem
    rcases List.mem_append.mp mem with old | new
    · exact h.bound ev' old
    · rw [List.mem_singleton.mp new, len]
      omega
  · rw [List.flatMap_append, h.payload, List.flatMap_singleton, payloadOf_withPayload v bound]

/-- After `k` segments the records are the first `k * 16384` bytes. -/
theorem tiles_foldl_emitSeg {mem : UserMemory} {byte : UInt64 → UInt8} {base : UInt64}
    {total : UInt32} (readable : Readable mem byte base total.toNat) (e : GoTlsEvent) (k : Nat)
    (small : k ≤ 16) :
    ∃ events, ((List.range k).foldl (fun s i => emitSeg mem base total (.ofNat i) s) (e, [])).2 =
        events.map GoTlsEvent.bytes ∧
      SameHead e ((List.range k).foldl (fun s i => emitSeg mem base total (.ofNat i) s) (e, [])).1 ∧
      Tiles e (bytesAt byte base (min total.toNat (k * 16384))) events := by
  induction k with
  | zero => exact ⟨[], rfl, rfl, ⟨by simp, by simp, by simp, by simp [bytesAt]⟩⟩
  | succ k ih =>
    obtain ⟨events, records, same, tiles⟩ := ih (by omega)
    rw [List.range_succ, List.foldl_append, List.foldl_cons, List.foldl_nil]
    generalize (List.range k).foldl (fun s i => emitSeg mem base total (.ofNat i) s) (e, []) = s
      at records same
    by_cases inside : k * 16384 < total.toNat
    · obtain ⟨n, v, size, value, eq⟩ := emitSeg_of_lt (by omega) readable inside s
      rw [eq]
      refine ⟨events ++ [withPayload s.1 v], by rw [records, List.map_append]; rfl,
        sameHead_withPayload same v, ?_⟩
      have next : min total.toNat ((k + 1) * 16384) = k * 16384 + n := by omega
      have front : min total.toNat (k * 16384) = k * 16384 := Nat.min_eq_right (by omega)
      rw [next, bytesAt_add, ← value, ← front]
      exact tiles.snoc same v (by omega) (by omega)
    · rw [emitSeg_of_le (by omega) (by omega) s]
      refine ⟨events, records, same, ?_⟩
      have front : min total.toNat ((k + 1) * 16384) = min total.toNat (k * 16384) := by omega
      rw [front]
      exact tiles

/-! ## What the decoder makes of the records -/

open Events.GoTLS (GoTLSDataEvent)

/-- Timestamp, process and thread are not touched by the walk to the connection. -/
def SameTask (e e' : GoTlsEvent) : Prop := e'.tsNs = e.tsNs ∧ e'.pid = e.pid ∧ e'.tid = e.tid

theorem sameTask_extractPorts (mem : UserMemory) (laddr raddr : UInt64) (version : UInt8)
    (e : GoTlsEvent) : SameTask e (extractPorts mem laddr raddr version e) := by
  unfold extractPorts
  dsimp only
  split
  · exact ⟨rfl, rfl, rfl⟩
  · split <;> exact ⟨rfl, rfl, rfl⟩

theorem sameTask_extractIps (mem : UserMemory) (laddr raddr lip rip : UInt64) (version : UInt8)
    (e : GoTlsEvent) : SameTask e (extractIps mem laddr raddr lip rip version e) := by
  unfold extractIps
  dsimp only
  generalize (if version = 4 then 4 else 16) = size
  split
  · exact ⟨rfl, rfl, rfl⟩
  · split
    · exact ⟨rfl, rfl, rfl⟩
    · exact sameTask_extractPorts mem laddr raddr version _

theorem sameTask_extractAddr (mem : UserMemory) (netfd : UInt64) (e : GoTlsEvent) :
    SameTask e (extractAddr mem netfd e) := by
  unfold extractAddr
  dsimp only
  split
  · exact ⟨rfl, rfl, rfl⟩
  · split
    · exact ⟨rfl, rfl, rfl⟩
    · split
      · exact ⟨rfl, rfl, rfl⟩
      · split
        · exact ⟨rfl, rfl, rfl⟩
        · exact sameTask_extractIps mem _ _ _ _ _ e

theorem sameTask_fillFdAndAddr (mem : UserMemory) (tlsConn : UInt64) (e : GoTlsEvent) :
    SameTask e (fillFdAndAddr mem tlsConn e) := by
  unfold fillFdAndAddr
  dsimp only
  split
  · exact ⟨rfl, rfl, rfl⟩
  · exact sameTask_extractAddr mem _ { e with fd := extractFd mem _ }

/-- Events with the same head have the same tuple. -/
theorem getTuple_of_sameHead {e ev : GoTlsEvent} (same : SameHead e ev) :
    ev.event.getTuple = e.event.getTuple := by
  rw [← same]
  rfl

/-! ## The traced functions -/

inductive GoTlsFn where
  | write
  | read
  deriving DecidableEq

namespace GoTlsFn

def eventType : GoTlsFn → UInt8
  | .write => eventTypeWrite
  | .read => eventTypeRead

def probe (c : Consts) (isRegisterAbi : Bool) : GoTlsFn → Ctx → GoTlsEvent →
    GoTlsEvent × List Bytes
  | .write => gotlsWrite c isRegisterAbi
  | .read => gotlsRead c isRegisterAbi

variable (isRegisterAbi : Bool) (args : GoArgs)

def conn : GoTlsFn → UInt64
  | .write => goGetArgument args isRegisterAbi 1
  | .read => goGetArgument args false 1

/-- The buffer that is written or has been read into. -/
def base : GoTlsFn → UInt64
  | .write => goGetArgument args isRegisterAbi 3
  | .read => goGetArgument args false 2

/-- The length of what is written or has been read. -/
def totalLen : GoTlsFn → Int32
  | .write => (goGetArgument args isRegisterAbi 4).toUInt32.toInt32
  | .read =>
    (if isRegisterAbi then goGetArgument args isRegisterAbi 1
      else goGetArgument args isRegisterAbi 5).toUInt32.toInt32

/-- A call of a traced process; writes count when they are application data. -/
def Traced (c : Consts) (task : Task) (fn : GoTlsFn) : Prop :=
  passesFilter c task = true ∧
    (fn = .write →
      (goGetArgument args isRegisterAbi 2).toUInt32.toInt32 = recordTypeApplicationData)

end GoTlsFn

/-- The event that the segments of a call share. -/
def headOf (isRegisterAbi : Bool) (fn : GoTlsFn) (x : Ctx) (slot : GoTlsEvent) : GoTlsEvent :=
  { fillFdAndAddr x.mem (fn.conn isRegisterAbi x.args) (getGotlsEvent x slot) with
    eventType := fn.eventType }

/-- The decoder makes `ev` of the record, on every host and whatever follows it. -/
def Decodes (record : Bytes) (ev : GoTLSDataEvent) : Prop :=
  ∀ (host : Events.Host) (tail : Bytes),
    GoTLSDataEvent.decodeFromBytes host (record ++ tail) = .ok (.ok ev)

theorem decodes_bytes {ev : GoTlsEvent} (stamped : ev.tsNs ≠ 0) (nonneg : 0 ≤ ev.dataLen.toInt)
    (fits : ev.dataLen.toInt ≤ 16384) {tuple : Bytes} (named : ev.event.getTuple = .ok tuple) :
    Decodes ev.bytes { ev.event with tuple } := by
  intro host tail
  rw [GoTLSDataEvent.decodeFromBytes, decodeFields_goTlsEvent host stamped nonneg fits tail]
  dsimp only
  rw [named]
  rfl

theorem records_of_nonpos {c : Consts} {isRegisterAbi : Bool} {fn : GoTlsFn} {x : Ctx}
    (slot : GoTlsEvent) (h : fn.totalLen isRegisterAbi x.args ≤ 0) :
    (fn.probe c isRegisterAbi x slot).2 = [] := by
  cases fn with
  | write =>
    have h : (goGetArgument x.args isRegisterAbi 4).toUInt32.toInt32 ≤ 0 := h
    simp only [GoTlsFn.probe, gotlsWrite, gotlsEmitPayload, h, or_true, if_true]
    split
    · rfl
    · split
      · rfl
      · split <;> rfl
  | read =>
    have h : (if isRegisterAbi then goGetArgument x.args isRegisterAbi 1
      else goGetArgument x.args isRegisterAbi 5).toUInt32.toInt32 ≤ 0 := h
    simp only [GoTlsFn.probe, gotlsRead, h, if_true]
    split
    · rfl
    · split <;> rfl

theorem records_of_pos {c : Consts} {isRegisterAbi : Bool} {fn : GoTlsFn} {x : Ctx}
    (slot : GoTlsEvent) (traced : fn.Traced isRegisterAbi x.args c x.task)
    (nonnull : fn.base isRegisterAbi x.args ≠ 0) (pos : ¬ fn.totalLen isRegisterAbi x.args ≤ 0) :
    (fn.probe c isRegisterAbi x slot).2 =
      (gotlsEmitPayload x.mem (fn.base isRegisterAbi x.args) (fn.totalLen isRegisterAbi x.args)
        fn.eventType (fillFdAndAddr x.mem (fn.conn isRegisterAbi x.args)
          (getGotlsEvent x slot))).2 := by
  obtain ⟨passes, app⟩ := traced
  cases fn with
  | write =>
    have nonzero : ¬ (goGetArgument x.args isRegisterAbi 4).toUInt32.toInt32 = 0 := by
      intro zero
      exact pos (by rw [GoTlsFn.totalLen, zero]; decide)
    simp only [GoTlsFn.probe, gotlsWrite, passes, Bool.not_true, Bool.false_eq_true, if_false,
      nonzero, app rfl, ne_eq, not_true_eq_false]
    rfl
  | read =>
    have nonnull : ¬ goGetArgument x.args false 2 = 0 := nonnull
    have pos : ¬ (if isRegisterAbi then goGetArgument x.args isRegisterAbi 1
      else goGetArgument x.args isRegisterAbi 5).toUInt32.toInt32 ≤ 0 := pos
    simp only [GoTlsFn.probe, gotlsRead, passes, Bool.not_true, Bool.false_eq_true, if_false,
      nonnull, pos]
    rfl

/-! ## The payload of a call -/

/-- The capped length of a payload. -/
theorem toNat_total {n : Int32} (pos : 0 < n) :
    (if maxChunk * gotlsMaxSegments < n.toUInt32 then maxChunk * gotlsMaxSegments
      else n.toUInt32).toNat = min n.toInt.toNat 262144 := by
  have max : (maxChunk * gotlsMaxSegments).toNat = 262144 := rfl
  have len : n.toUInt32.toNat = n.toInt.toNat := by
    rw [Int32.toNat_toUInt32_of_le (Int32.le_of_lt pos)]
    rfl
  split
  case isTrue cut =>
    rw [UInt32.lt_iff_toNat_lt, max, len] at cut
    omega
  case isFalse whole =>
    rw [UInt32.lt_iff_toNat_lt, max, len] at whole
    omega

/-- The records of a traced call are events with one head whose payloads tile the buffer. -/
theorem tiles_probe {c : Consts} {isRegisterAbi : Bool} {fn : GoTlsFn} {x : Ctx}
    (slot : GoTlsEvent) {byte : UInt64 → UInt8} (traced : fn.Traced isRegisterAbi x.args c x.task)
    (nonnull : fn.base isRegisterAbi x.args ≠ 0) (pos : 0 < fn.totalLen isRegisterAbi x.args)
    (readable : Readable x.mem byte (fn.base isRegisterAbi x.args)
      (min (fn.totalLen isRegisterAbi x.args).toInt.toNat 262144)) :
    ∃ events, (fn.probe c isRegisterAbi x slot).2 = events.map GoTlsEvent.bytes ∧
      Tiles (headOf isRegisterAbi fn x slot) (bytesAt byte (fn.base isRegisterAbi x.args)
        (min (fn.totalLen isRegisterAbi x.args).toInt.toNat 262144)) events := by
  have pos' : ¬ fn.totalLen isRegisterAbi x.args ≤ 0 := Int32.not_le.mpr pos
  have total := toNat_total pos
  rw [records_of_pos slot traced nonnull pos', gotlsEmitPayload,
    if_neg (not_or.mpr ⟨nonnull, pos'⟩)]
  dsimp only
  rw [← total] at readable ⊢
  obtain ⟨events, records, -, tiles⟩ := tiles_foldl_emitSeg readable
    (headOf isRegisterAbi fn x slot) 16 (Nat.le_refl 16)
  refine ⟨events, records, ?_⟩
  rwa [Nat.min_eq_left (by omega)] at tiles

/-- What the decoder makes of the records, whose events have one tuple. -/
theorem Tiles.decodes {e : GoTlsEvent} {bs : Bytes} {events : List GoTlsEvent}
    (h : Tiles e bs events) (stamped : e.tsNs ≠ 0) {tuple : Bytes}
    (named : e.event.getTuple = .ok tuple) :
    List.Forall₂ Decodes (events.map GoTlsEvent.bytes)
      (events.map fun ev => { ev.event with tuple }) := by
  rw [List.forall₂_map_left_iff, List.forall₂_map_right_iff, List.forall₂_same]
  intro ev mem
  have same := h.same ev mem
  have pos := h.pos ev mem
  have stamped : ev.tsNs ≠ 0 := by rwa [← same] at stamped
  have named : ev.event.getTuple = .ok tuple := by rw [getTuple_of_sameHead same, named]
  exact decodes_bytes stamped (by omega) (h.bound ev mem) named

/-- Nothing is submitted for an empty or negative length. Else the records of a call decode, with
the same head, to events of 1 to 16384 bytes that make up the payload up to 256 KiB. -/
theorem gotls_payload_decodes (c : Consts) (isRegisterAbi : Bool) (fn : GoTlsFn) (x : Ctx)
    (slot : GoTlsEvent) :
    (fn.totalLen isRegisterAbi x.args ≤ 0 → (fn.probe c isRegisterAbi x slot).2 = []) ∧
    ∀ byte : UInt64 → UInt8, fn.Traced isRegisterAbi x.args c x.task → x.ktime ≠ 0 →
      fn.base isRegisterAbi x.args ≠ 0 → 0 < fn.totalLen isRegisterAbi x.args →
      Readable x.mem byte (fn.base isRegisterAbi x.args)
        (min (fn.totalLen isRegisterAbi x.args).toInt.toNat 262144) →
      ∃ evs, List.Forall₂ Decodes (fn.probe c isRegisterAbi x slot).2 evs ∧
        (∃ fd tuple, ∀ ev ∈ evs, ev.timestamp = x.ktime ∧ ev.bpfMonoNs = x.ktime ∧
          ev.pid = x.task.pid ∧ ev.tid = x.task.tid ∧ ev.fd = fd ∧ ev.tuple = tuple ∧
          ev.eventType = fn.eventType) ∧
        (∀ ev ∈ evs, 1 ≤ ev.dataLen.toInt ∧ ev.dataLen.toInt ≤ 16384 ∧
          ev.getData = .ok ev.data) ∧
        (evs.flatMap fun ev => ev.data) = bytesAt byte (fn.base isRegisterAbi x.args)
          (min (fn.totalLen isRegisterAbi x.args).toInt.toNat 262144) := by
  refine ⟨records_of_nonpos slot, ?_⟩
  intro byte traced stamped nonnull pos readable
  obtain ⟨events, records, tiles⟩ := tiles_probe slot traced nonnull pos readable
  obtain ⟨tsNs, pid, tid⟩ := sameTask_fillFdAndAddr x.mem (fn.conn isRegisterAbi x.args)
    (getGotlsEvent x slot)
  obtain ⟨tuple, named⟩ := Events.getTuple_safe (headOf isRegisterAbi fn x slot).event
  have stamped : (headOf isRegisterAbi fn x slot).tsNs ≠ 0 := by
    change (fillFdAndAddr _ _ _).tsNs ≠ 0
    rwa [tsNs]
  refine ⟨events.map fun ev => { ev.event with tuple }, ?_, ?_, ?_, ?_⟩
  · rw [records]
    exact tiles.decodes stamped named
  · refine ⟨(headOf isRegisterAbi fn x slot).fd, tuple, ?_⟩
    intro ev mem
    obtain ⟨sent, submitted, rfl⟩ := List.mem_map.mp mem
    have same := tiles.same sent submitted
    have time : sent.tsNs = x.ktime := (congrArg GoTlsEvent.tsNs same).trans tsNs
    exact ⟨time, time, (congrArg GoTlsEvent.pid same).trans pid,
      (congrArg GoTlsEvent.tid same).trans tid, (congrArg GoTlsEvent.fd same).trans rfl, rfl,
      (congrArg GoTlsEvent.eventType same).trans rfl⟩
  · intro ev mem
    obtain ⟨sent, submitted, rfl⟩ := List.mem_map.mp mem
    have pos := tiles.pos sent submitted
    have bound := tiles.bound sent submitted
    exact ⟨pos, bound, getData_event sent (by omega) bound⟩
  · rw [List.flatMap_map]
    exact tiles.payload

/-- `Read` returned 16389 bytes at address 4096, of a memory that repeats the addresses. -/
def readOf16389 : Ctx where
  task := { pidTgid := 0x700000008, uidGid := 0, cgroupId := 0, comm := zeros 16 }
  ktime := 1
  mem := memoryOf UInt64.toUInt8
  args := { reg := fun _ => 16389, stack := fun i => if i = 2 then 4096 else 64 }

theorem gotls_payload_decodes_16389 :
    ∃ evs, List.Forall₂ Decodes (gotlsRead .unfiltered true readOf16389 goTlsReadOfFive).2 evs ∧
      (∀ ev ∈ evs, ev.pid = 7 ∧ ev.tid = 8 ∧ ev.eventType = 1 ∧ ev.dataLen.toInt ≤ 16384) ∧
      (evs.flatMap fun ev => ev.data) = bytesAt UInt64.toUInt8 4096 16389 := by
  obtain ⟨-, submitted⟩ := gotls_payload_decodes .unfiltered true .read readOf16389 goTlsReadOfFive
  obtain ⟨evs, decodes, ⟨_, _, same⟩, lengths, payload⟩ := submitted UInt64.toUInt8
    ⟨rfl, fun h => GoTlsFn.noConfusion h⟩ (by decide) (by decide) (by decide)
    (readable_memoryOf _ _ _)
  have len : min (GoTlsFn.read.totalLen true readOf16389.args).toInt.toNat 262144 = 16389 := by
    decide
  rw [len] at payload
  refine ⟨evs, decodes, ?_, payload⟩
  intro ev mem
  obtain ⟨-, -, pid, tid, -, -, type⟩ := same ev mem
  exact ⟨pid, tid, type, (lengths ev mem).2.1⟩

end ECapture.Kernel.GoTls
