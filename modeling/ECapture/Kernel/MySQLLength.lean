import ECapture.Events.MySQL
import ECapture.Kernel.MySQL

/-!
# The length of a query on MySQL 5.7

`mysql57_query` copies the `COM_QUERY_DATA` of the server onto its stack, and then reads the length
out of this copy with `bpf_probe_read_user`, eight bytes of it, as if the stack were memory of the
server. What the record says about the length is what is found there: nothing where the stack is not
memory of the server, and the hole behind the length beside it where it is.
-/

namespace ECapture.Kernel.MySQL
open Library Ssl

/-! ## Records -/

/-- `struct data_t`, with the padding at its end. -/
def DataT.bytes (d : DataT) : Bytes :=
  leBytes 8 d.pid.toNat ++ (leBytes 8 d.timestamp.toNat ++ (d.query.toList ++
    (leBytes 8 d.alllen.toNat ++ (leBytes 8 d.len.toNat ++ (d.comm.toList ++
      (leBytes 1 d.retval.toUInt8.toNat ++ (zeros 7).toList))))))

/-- What the record is decoded to. -/
def DataT.event (d : DataT) : Events.MySQL.Event :=
  { pid := d.pid, timestamp := d.timestamp, query := d.query, alllen := d.alllen, len := d.len,
    comm := d.comm, retval := d.retval }

theorem decode_dataT (d : DataT) :
    Events.MySQL.Event.decodeFromBytes.run d.bytes = .ok d.event := by
  have retval : readI8 (leBytes 1 d.retval.toUInt8.toNat ++ (zeros 7).toList) =
      .ok (d.retval, (zeros 7).toList) := by
    rw [readI8, Reader.map_ok (readU8_leBytes _ _)]
    simp
  unfold Reader.run Events.MySQL.Event.decodeFromBytes DataT.bytes
  rw [Reader.bind_ok (Events.MySQL.Event.field_ok (readU64_leBytes d.pid _)),
    Reader.bind_ok (Events.MySQL.Event.field_ok (readU64_leBytes d.timestamp _)),
    Reader.bind_ok (Events.MySQL.Event.field_ok (readFull_append d.query _)),
    Reader.bind_ok (Events.MySQL.Event.field_ok (readU64_leBytes d.alllen _)),
    Reader.bind_ok (Events.MySQL.Event.field_ok (readU64_leBytes d.len _)),
    Reader.bind_ok (Events.MySQL.Event.field_ok (readFull_append d.comm _)),
    Reader.bind_ok (Events.MySQL.Event.field_ok retval)]
  rfl

theorem toNat_queryLen (len : UInt64) : (queryLen len).toNat = min len.toNat 256 := by
  rw [queryLen]
  split
  case isTrue short =>
    rw [UInt64.lt_iff_toNat_lt] at short
    have bound : len.toNat < 256 := short
    rw [UInt64.toNat_and]
    change len.toNat &&& 255 = _
    rw [Nat.and_two_pow_sub_one_eq_mod len.toNat 8]
    omega
  case isFalse long =>
    rw [UInt64.lt_iff_toNat_lt] at long
    have bound : ¬ len.toNat < 256 := long
    change 256 = _
    omega

/-! ## What a record says -/

/-- The record has this length and the beginning of this text, and the decoded event passes its
check and shows them. -/
structure Faithful (length : UInt32) (text : Vector UInt8 256) (d : DataT) : Prop where
  alllen : d.alllen = length.toUInt64
  len : d.len.toNat = min length.toNat 256
  decoded : Events.MySQL.Event.decodeFromBytes.run d.bytes = .ok d.event
  validate : d.event.validate = .ok ()
  getQuery : d.event.getQuery =
    .ok (Events.commToString (text.toList.take (min length.toNat 256)))
  isTruncated : d.event.isTruncated = true ↔ 256 < length.toNat

/-- The two lengths decide about the rest. -/
theorem faithful_iff {length : UInt32} {text : Vector UInt8 256} {d : DataT}
    (query : d.query = text) (len : d.len = queryLen d.alllen) :
    Faithful length text d ↔ d.alllen = length.toUInt64 := by
  refine ⟨Faithful.alllen, fun alllen => ?_⟩
  have total : d.alllen.toNat = length.toNat := by rw [alllen, UInt32.toNat_toUInt64]
  have part : d.len.toNat = min length.toNat 256 := by rw [len, toNat_queryLen, total]
  refine ⟨alllen, part, decode_dataT d, ?_, ?_, ?_⟩
  · have short : ¬ Events.MySQL.maxDataSize < d.len.toNat := by
      rw [part, Events.MySQL.maxDataSize]
      omega
    have within : ¬ d.alllen < d.len := by
      rw [UInt64.lt_iff_toNat_lt, part, total]
      omega
    rw [DataT.event, Events.MySQL.Event.validate]
    simp only [if_neg short, if_neg within]
  · rw [DataT.event, Events.MySQL.Event.getQuery]
    simp only [part, query]
    rw [sliceTo_of_le (by rw [Vector.length_toList]; omega)]
    rfl
  · rw [DataT.event, Events.MySQL.Event.isTruncated, decide_eq_true_eq, UInt64.lt_iff_toNat_lt,
      part, total]
    omega

/-! ## A call -/

/-- A COM_QUERY of a traced process, from its entry to its return: the pointer, the length and the
hole of its `COM_QUERY_DATA`, and what is at the pointer. The memory of the server is readable. -/
structure QueryCall (c : Consts) (k : Call) (ptr : UInt64) (length : UInt32)
    (hole : Vector UInt8 4) (text : Vector UInt8 256) : Prop where
  traced : k.entry.traced .v57 c
  returns : passesFilter c k.ret.task = true ∧ k.ret.task.pid = k.entry.ctx.task.pid
  data : ∃ v, k.entry.ctx.mem.read k.entry.regs.parm2 16 = some v ∧
    v.toList = leBytes 8 ptr.toNat ++ (leBytes 4 length.toNat ++ hole.toList)
  text : k.entry.ctx.mem.read ptr 256 = some text

/-- The return of the call sends one record, and it says what the call was. -/
def Recorded (c : Consts) (s : Maps) (k : Call) (length : UInt32) (text : Vector UInt8 256) :
    Prop :=
  ∃ d, (queryReturn .v57 c k.rc k.ret (query .v57 c k.entry.regs k.entry.ctx s)).events =
    s.events ++ [d] ∧ Faithful length text d

/-- Where the program looks for the length there is either no memory of the server, and the query is
empty, or there are the four bytes of the length and four zeros. -/
def LengthFound (x : Ctx) (length : UInt32) : Prop :=
  match x.mem.read (x.query + 8) 8 with
  | none => length = 0
  | some v => v.toList = leBytes 4 length.toNat ++ [0, 0, 0, 0]

variable {c : Consts} {s : Maps} {k : Call} {ptr : UInt64} {length : UInt32}
  {hole : Vector UInt8 4} {text : Vector UInt8 256}

theorem QueryCall.events (call : QueryCall c k ptr length hole text)
    (room : s.sqlHash.HasRoom k.entry.ctx.task.pid) :
    (queryReturn .v57 c k.rc k.ret (query .v57 c k.entry.regs k.entry.ctx s)).events =
      s.events ++ [Call.record .v57 k] := by
  obtain ⟨passes, pid⟩ := call.returns
  rw [query_traced _ call.traced, queryReturn, passes, pid, Table.lookup_update_self room]
  rfl

/-- The first read finds the pointer, and the second the text. -/
theorem QueryCall.query_record (call : QueryCall c k ptr length hole text) :
    (Call.record .v57 k).query = text := by
  obtain ⟨v, read, bytes⟩ := call.data
  have front : v.toList.take 8 = leBytes 8 ptr.toNat := by
    rw [bytes, List.take_left' (length_leBytes 8 _)]
  have ptrRead : UInt64.ofNat (leNat (v.toList.take 8)) = ptr := by
    have bound := ptr.toNat_lt
    rw [front, leNat_leBytes, Nat.mod_eq_of_lt (by omega), UInt64.ofNat_toNat]
  simp only [Call.record, entryData, data57, UserMemory.probeRead, read, ptrRead, call.text]

/-- Eight bytes are a length exactly if it is in the first four and nothing is in the others. -/
theorem word_eq_length (v : Vector UInt8 8) (length : UInt32) :
    UInt64.ofNat (leNat v.toList) = length.toUInt64 ↔
      v.toList = leBytes 4 length.toNat ++ [0, 0, 0, 0] := by
  have size : v.toList.length = 8 := by simp
  have bound := leNat_lt v.toList
  have small := length.toNat_lt
  rw [size] at bound
  have low : leNat (leBytes 4 length.toNat ++ [0, 0, 0, 0]) = length.toNat := by
    have high : leNat [0, 0, 0, 0] = 0 := rfl
    rw [leNat_append, leNat_leBytes, high, Nat.mul_zero, Nat.add_zero,
      Nat.mod_eq_of_lt (by omega)]
  constructor
  · intro word
    have value : leNat v.toList = length.toNat := by
      have := congrArg UInt64.toNat word
      rwa [UInt64.toNat_ofNat_of_lt' bound, UInt32.toNat_toUInt64] at this
    rw [← leBytes_leNat v.toList, ← leBytes_leNat (leBytes 4 length.toNat ++ [0, 0, 0, 0]), low,
      value, size]
    simp
  · intro bytes
    rw [bytes, low, ← UInt32.toNat_toUInt64, UInt64.ofNat_toNat]

theorem lengthFound_iff (x : Ctx) (length : UInt32) :
    (x.mem.probeReadU64 (x.query + 8)).2 = length.toUInt64 ↔ LengthFound x length := by
  rw [LengthFound]
  cases read : x.mem.read (x.query + 8) 8 with
  | none =>
    simp only [UserMemory.probeReadU64, UserMemory.probeRead, read]
    change 0 = length.toUInt64 ↔ _
    rw [eq_comm, ← UInt64.toNat_inj, ← UInt32.toNat_inj, UInt32.toNat_toUInt64]
    rfl
  | some v =>
    simp only [UserMemory.probeReadU64, UserMemory.probeRead, read]
    exact word_eq_length v length

/-- What the record says is what the last read has delivered. -/
theorem QueryCall.recorded (call : QueryCall c k ptr length hole text)
    (room : s.sqlHash.HasRoom k.entry.ctx.task.pid) :
    Recorded c s k length text ↔
      (k.entry.ctx.mem.probeReadU64 (k.entry.ctx.query + 8)).2 = length.toUInt64 := by
  rw [Recorded, call.events room]
  simp only [List.append_cancel_left_eq, List.cons.injEq, and_true, exists_eq_left']
  exact faithful_iff call.query_record rfl

/-- A record says what its call was exactly where the program finds the length. -/
theorem recorded_iff (call : QueryCall c k ptr length hole text)
    (room : s.sqlHash.HasRoom k.entry.ctx.task.pid) :
    Recorded c s k length text ↔ LengthFound k.entry.ctx length := by
  rw [call.recorded room, lengthFound_iff]

/-- The stack is not memory of the server: only empty queries are recorded right. -/
theorem recorded_iff_of_unreadable (call : QueryCall c k ptr length hole text)
    (room : s.sqlHash.HasRoom k.entry.ctx.task.pid)
    (unreadable : k.entry.ctx.mem.read (k.entry.ctx.query + 8) 8 = none) :
    Recorded c s k length text ↔ length = 0 := by
  rw [call.recorded room, lengthFound_iff, LengthFound, unreadable]

/-- The read finds the copy: the hole has to be empty. -/
theorem recorded_iff_of_copied (call : QueryCall c k ptr length hole text)
    (room : s.sqlHash.HasRoom k.entry.ctx.task.pid) {v : Vector UInt8 8}
    (copied : k.entry.ctx.mem.read (k.entry.ctx.query + 8) 8 = some v)
    (copy : v.toList = leBytes 4 length.toNat ++ hole.toList) :
    Recorded c s k length text ↔ hole.toList = [0, 0, 0, 0] := by
  rw [call.recorded room, lengthFound_iff, LengthFound, copied]
  simp only [copy, List.append_cancel_left_eq]

/-! ## A query of eight bytes, and one without any -/

def bytesAt (bs : Bytes) (n : Nat) : Vector UInt8 n := .ofFn fun i => bs.getD i 0

theorem toList_bytesAt {bs : Bytes} {n : Nat} (short : bs.length ≤ n) :
    (bytesAt bs n).toList = bs ++ List.replicate (n - bs.length) 0 := by
  refine List.ext_getElem (by simp; omega) fun i here there => ?_
  simp only [bytesAt, Vector.getElem_toList, Vector.getElem_ofFn, List.getElem_append,
    List.getElem_replicate]
  split
  case isTrue inside => rw [List.getD_eq_getElem?_getD, List.getElem?_eq_getElem inside]; rfl
  case isFalse outside =>
    rw [List.getD_eq_getElem?_getD, List.getElem?_eq_none (by omega), Option.getD_none]

/-- The `COM_QUERY_DATA` is at 4096 and the text at 8192; nothing else is readable. -/
def serverMemory (length : UInt32) : UserMemory :=
  ⟨fun addr n =>
    if addr = 4096 then some (bytesAt (leBytes 8 8192 ++ leBytes 4 length.toNat) n)
    else if addr = 8192 then some (bytesAt (str "SELECT 1") n)
    else none⟩

def serverCall (length : UInt32) : Call :=
  let x : Ctx := { serverThread 2 1 with mem := serverMemory length, query := 0xffff800012345678 }
  { entry := ⟨⟨0, 4096, comQuery, 0⟩, x⟩, ret := x, rc := 0 }

theorem queryCall_serverCall (length : UInt32) :
    QueryCall .unfiltered (serverCall length) 8192 length (zeros 4)
      (bytesAt (str "SELECT 1") 256) where
  traced := ⟨rfl, rfl⟩
  returns := ⟨rfl, rfl⟩
  data := by
    refine ⟨_, rfl, ?_⟩
    rw [toList_bytesAt (by simp), List.append_assoc]
    rfl
  text := rfl

theorem recorded_iff_empty : Recorded .unfiltered .new (serverCall 0) 0
    (bytesAt (str "SELECT 1") 256) :=
  (recorded_iff (queryCall_serverCall 0) (.inr (by decide))).mpr rfl

/-- The eight bytes of the query have been read, and the record says that there are none. -/
theorem length_lost :
    QueryCall .unfiltered (serverCall 8) 8192 8 (zeros 4) (bytesAt (str "SELECT 1") 256) ∧
      ((queryReturn .v57 .unfiltered 0 (serverCall 8).ret (query .v57 .unfiltered
        (serverCall 8).entry.regs (serverCall 8).entry.ctx .new)).events.map
          fun d => (d.alllen, d.len)) = [(0, 0)] ∧
      ¬ Recorded .unfiltered .new (serverCall 8) 8 (bytesAt (str "SELECT 1") 256) := by
  refine ⟨queryCall_serverCall 8, by decide, ?_⟩
  rw [recorded_iff_of_unreadable (queryCall_serverCall 8) (.inr (by decide)) rfl]
  decide

end ECapture.Kernel.MySQL
