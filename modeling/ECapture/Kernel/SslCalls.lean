import ECapture.Kernel.Records
import ECapture.Library.Pointwise
import ECapture.Library.Steps

/-!
# Records of SSL_read and SSL_write calls

Which call a record on `tls_events` stands for. The `tracer` runs the programs of `openssl.h` and
keeps beside the maps what the traced threads do: the calls that are open and the calls that have
returned, with what each probe could read. A thread enters `SSL_read` (or `SSL_write`) only when
it is not in it, and returns from it only when it is.

An entry probe stores under the thread's id and the return probe removes what it finds there, so
a stored value belongs to the open call of its thread, as long as a return probe is not turned away
by the filter after its entry probe was let through.
-/

namespace ECapture.Kernel.Ssl
open Library

/-! ## Calls -/

/-- A call at its entry, with the fds known to the programs then. -/
structure Entry where
  fn : SslFn
  ctx : Ctx
  ssl : UInt64
  buf : UInt64
  sslStFd : Table UInt64 UInt64

structure Call where
  entry : Entry
  ret : Ctx
  rc : UInt64

/-- What the entry probe computes for the call. -/
def Entry.computed (off : Offsets) (e : Entry) : ActiveSslBuf :=
  activeSslBuf off e.ctx.mem e.sslStFd e.fn e.ssl e.buf

/-- The return value, an `int`. -/
def Call.returnValue (k : Call) : Int := k.rc.toUInt32.toInt32.toInt

/-- How many bytes of the buffer are of interest. -/
def Call.length (k : Call) : Nat := (min k.returnValue 16384).toNat

/-- Both probes look at the call, and it has not failed. -/
def Call.emits (c : Consts) (k : Call) : Bool :=
  passesFilter c k.entry.ctx.task && passesFilter c k.ret.task && decide (0 ≤ k.returnValue)

/-- The record, as the Go side decodes it, is about this call. -/
def Describes (off : Offsets) (k : Call) (record : Bytes) : Prop :=
  ∃ e, Events.OpenSSL.Event.decodeFromBytes.run record = .ok e ∧ e.validate = .ok () ∧
    e.dataType = (if k.entry.fn = .read then Events.OpenSSL.dataTypeRead
      else Events.OpenSSL.dataTypeWrite) ∧
    e.pid = k.entry.ctx.task.pid ∧ e.tid = k.entry.ctx.task.tid ∧
    e.fd = (k.entry.computed off).fd ∧ e.version = (k.entry.computed off).version ∧
    e.bioType = (k.entry.computed off).bioType ∧ e.dataLen.toInt = min k.returnValue 16384 ∧
    ∀ bytes, k.ret.mem.read k.entry.buf k.length = some bytes → e.getData = .ok bytes.toList

/-! ## The tracer -/

structure Traced where
  maps : Maps
  opened : SslFn × UInt64 → Option Entry
  returned : List Call

def trace (c : Consts) (off : Offsets) (s : Traced) (e : Event) : Option Traced :=
  let maps := exec c off s.maps e
  let thread := e.ctx.task.pidTgid
  match e.prog with
  | .entrySSL f ssl buf =>
    match s.opened (f, thread) with
    | some _ => none
    | none =>
      some { s with
        maps
        opened := Function.update s.opened (f, thread) (some ⟨f, e.ctx, ssl, buf, s.maps.sslStFd⟩) }
  | .retSSL f rc =>
    match s.opened (f, thread) with
    | some entry =>
      some { maps
             opened := Function.update s.opened (f, thread) none
             returned := s.returned ++ [⟨entry, e.ctx, rc⟩] }
    | none => none
  | _ => some { s with maps }

def tracer (c : Consts) (off : Offsets) : Machine Traced Event :=
  { init := ⟨.new, fun _ => none, []⟩, step := trace c off }

/-- The records are those of the returned calls that emit, in the order of their returns, and a
thread outside a call has nothing in its map. -/
structure CallsMatch (c : Consts) (off : Offsets) (s : Traced) : Prop where
  records : List.Forall₂ (Describes off) (s.returned.filter (Call.emits c)) s.maps.tlsEvents
  noEntry : ∀ f thread, s.opened (f, thread) = none → (s.maps.args f).lookup thread = none

/-- The map has room for a new entry, and the filter does not turn a return probe away after it has
let the entry probe of the call through. -/
def Steady (c : Consts) (s : Traced) (e : Event) : Prop :=
  match e.prog with
  | .entrySSL f _ _ =>
    passesFilter c e.ctx.task = true → (s.maps.args f).HasRoom e.ctx.task.pidTgid
  | .retSSL f _ =>
    ∀ entry, s.opened (f, e.ctx.task.pidTgid) = some entry →
      passesFilter c entry.ctx.task = true → passesFilter c e.ctx.task = true
  | _ => True

/-! ## One record -/

theorem toInt_dataLen {len : Int32} (nonneg : 0 ≤ len.toInt) :
    (dataLen len).toInt = min len.toInt 16384 := by
  unfold dataLen
  split
  case isTrue small =>
    have bound : len.toInt < 16384 := by simpa [Int32.lt_iff_toInt_lt] using small
    have word : len.toBitVec.toNat < 16384 := by
      have cond := BitVec.toInt_eq_toNat_cond len.toBitVec
      rw [Int32.toInt_toBitVec] at cond
      split at cond <;> omega
    have masked : (len &&& (16384 - 1)).toBitVec = len.toBitVec := by
      apply BitVec.eq_of_toNat_eq
      rw [Int32.toBitVec_and, BitVec.toNat_and]
      change len.toBitVec.toNat &&& (2 ^ 14 - 1) = _
      rw [Nat.and_two_pow_sub_one_eq_mod]
      omega
    rw [Int32.toBitVec_inj.mp masked]
    omega
  case isFalse large =>
    have bound : 16384 ≤ len.toInt := by simpa [Int32.lt_iff_toInt_lt] using large
    have : (16384 : Int32).toInt = 16384 := by decide
    omega

/-- What was read stands at the front, whatever the buffer held before. -/
theorem take_overwrite {n k : Nat} (dst : Vector UInt8 n) (src : Vector UInt8 k) (fits : k ≤ n) :
    (overwrite dst src).toList.take k = src.toList := by
  have length : src.toList.length = k := by simp
  have front : (src.toList ++ dst.toList.drop k).take k = src.toList :=
    List.take_left' length
  simp only [overwrite, Vector.toList_mk, List.take_take, Nat.min_eq_left fits, front]

/-- A successful read of the buffer is what `GetData` returns. -/
theorem getData_overwritten {e : Events.OpenSSL.Event} {dst : Vector UInt8 maxDataSizeOpenssl}
    {n : Nat} (src : Vector UInt8 n) (fits : n ≤ maxDataSizeOpenssl)
    (length : e.dataLen.toInt = n) (data : e.data = overwrite dst src) :
    e.getData = .ok src.toList := by
  have max : maxDataSizeOpenssl = 16384 := rfl
  rw [getData_take (by omega) (by omega), length, Int.toNat_natCast, data]
  exact congrArg _ (take_overwrite dst src fits)

theorem validate_ok {e : Events.OpenSSL.Event} (nonneg : 0 ≤ e.dataLen.toInt)
    (bound : e.dataLen.toInt ≤ 16384)
    (type : e.dataType = Events.OpenSSL.dataTypeRead ∨ e.dataType = Events.OpenSSL.dataTypeWrite) :
    e.validate = .ok () := by
  have max : Events.OpenSSL.maxDataSize = 16384 := rfl
  unfold Events.OpenSSL.Event.validate
  rw [if_neg, if_neg (by tauto)]
  rw [Int32.lt_iff_toInt_lt, Int32.toInt_zero, max]
  omega

/-- The event that the return probe emits for a call, from any state of the heap. -/
theorem describes_sslDataEvent {off : Offsets} {k : Call} {s : Maps}
    (same : k.ret.task.pidTgid = k.entry.ctx.task.pidTgid)
    (hole : (s.dataBufferHeap k.ret.cpu).hole = 0) (nonneg : 0 ≤ k.returnValue) :
    Describes off k
      (sslDataEvent k.entry.fn (k.entry.computed off) k.rc.toUInt32.toInt32 k.ret s).bytes := by
  have length := toInt_dataLen nonneg
  have count : (dataLen k.rc.toUInt32.toInt32).toInt.toNat = k.length := by rw [length]; rfl
  refine ⟨_, decode_sslDataEvent_bytes hole, ?_, ?_, ?_, ?_, rfl, rfl, rfl, length, ?_⟩
  · apply validate_ok
    · change 0 ≤ (dataLen k.rc.toUInt32.toInt32).toInt
      change 0 ≤ k.rc.toUInt32.toInt32.toInt at nonneg
      omega
    · change (dataLen k.rc.toUInt32.toInt32).toInt ≤ 16384
      omega
    · simp only [sslDataEvent]
      cases k.entry.fn
      · exact .inl rfl
      · exact .inr rfl
  · simp only [sslDataEvent]
    cases k.entry.fn <;> rfl
  · exact congrArg (fun id : UInt64 => (id >>> 32).toUInt32) same
  · exact congrArg UInt64.toUInt32 same
  · intro bytes read
    have small : k.length ≤ 16384 := by
      simp only [Call.length]
      omega
    refine @getData_overwritten _ (s.dataBufferHeap k.ret.cpu).data _ bytes small ?_ ?_
    · change (dataLen k.rc.toUInt32.toInt32).toInt = k.length
      change 0 ≤ k.rc.toUInt32.toInt32.toInt at nonneg
      omega
    · have found : (k.ret.mem.probeRead k.entry.buf k.length).2 = bytes := by
        rw [UserMemory.probeRead, read]
      rw [← found]
      simp only [sslDataEvent, createSslDataEvent]
      rw [count]
      rfl

/-! ## The invariant -/

/-- What the map of a function holds for a thread: the values of its open call, if the filter let
the entry probe through. -/
def stored (c : Consts) (off : Offsets) (opened : Option Entry) : Option ActiveSslBuf :=
  match opened with
  | some e => if passesFilter c e.ctx.task then some (e.computed off) else none
  | none => none

structure Inv (c : Consts) (off : Offsets) (s : Traced) : Prop where
  args : ∀ f thread, (s.maps.args f).lookup thread = stored c off (s.opened (f, thread))
  owner : ∀ f thread e, s.opened (f, thread) = some e → e.fn = f ∧ e.ctx.task.pidTgid = thread
  hole : ∀ cpu, (s.maps.dataBufferHeap cpu).hole = 0
  records : List.Forall₂ (Describes off) (s.returned.filter (Call.emits c)) s.maps.tlsEvents

theorem Inv.init (c : Consts) (off : Offsets) : Inv c off (tracer c off).init where
  args f thread := by cases f <;> rfl
  owner f thread e opened := by cases opened
  hole cpu := rfl
  records := .nil

theorem Inv.callsMatch {c : Consts} {off : Offsets} {s : Traced} (inv : Inv c off s) :
    CallsMatch c off s where
  records := inv.records
  noEntry f thread closed := by rw [inv.args, closed, stored]

/-- The maps of `SSL_read` and `SSL_write`, the heap and the ring are left alone. -/
structure Aside (s t : Maps) : Prop where
  args : ∀ f, t.args f = s.args f
  heap : t.dataBufferHeap = s.dataBufferHeap
  records : t.tlsEvents = s.tlsEvents

theorem lookup_setArgs (s : Maps) (f g : SslFn) (t : Table UInt64 ActiveSslBuf) (thread : UInt64) :
    ((s.setArgs f t).args g).lookup thread =
      if g = f then t.lookup thread else (s.args g).lookup thread := by
  split
  case isTrue same => rw [same, Maps.args_setArgs_self]
  case isFalse other => rw [Maps.args_setArgs_of_ne s other]

/-- Entering: the thread has nothing stored, and now has what was computed for this call. -/
theorem Inv.entry {c : Consts} {off : Offsets} {s : Traced} (inv : Inv c off s) (x : Ctx)
    (f : SslFn) (ssl buf : UInt64) (outside : s.opened (f, x.task.pidTgid) = none)
    (room : passesFilter c x.task = true → (s.maps.args f).HasRoom x.task.pidTgid) :
    Inv c off { s with
      maps := probeEntrySSL c off f ssl buf x s.maps
      opened := Function.update s.opened (f, x.task.pidTgid)
        (some ⟨f, x, ssl, buf, s.maps.sslStFd⟩) } where
  args := by
    intro g thread
    have old := inv.args g thread
    by_cases same : (g, thread) = (f, x.task.pidTgid)
    · obtain ⟨rfl, rfl⟩ := Prod.mk.inj same
      cases passes : passesFilter c x.task with
      | true =>
        simp [probeEntrySSL, passes, Table.lookup_update_self (room passes), stored,
          Entry.computed]
      | false =>
        rw [outside] at old
        simpa [probeEntrySSL, passes, stored] using old
    · simp only [Function.update_of_ne same, ← old]
      unfold probeEntrySSL
      split
      · rfl
      · rw [lookup_setArgs]
        split
        case isTrue fn =>
          subst fn
          exact Table.lookup_update_of_ne (by rintro rfl; exact same rfl) _ _
        case isFalse => rfl
  owner := by
    intro g thread e opened
    rcases update_some_cases opened with ⟨same, rfl⟩ | opened
    · obtain ⟨rfl, rfl⟩ := Prod.mk.inj same
      exact ⟨rfl, rfl⟩
    · exact inv.owner g thread e opened
  hole := by
    intro cpu
    unfold probeEntrySSL
    split
    · exact inv.hole cpu
    · simpa using inv.hole cpu
  records := by
    unfold probeEntrySSL
    split
    · exact inv.records
    · simpa using inv.records

theorem args_processSSLData (f g : SslFn) (a : ActiveSslBuf) (rc : UInt64) (x : Ctx) (s : Maps) :
    (processSSLData f a rc x s).args g = s.args g := by
  obtain ⟨heap, out, eq⟩ := processSSLData_eq f a rc x s
  rw [eq]
  cases g <;> rfl

theorem hole_processSSLData (f : SslFn) (a : ActiveSslBuf) (rc : UInt64) (x : Ctx) {s : Maps}
    (hole : ∀ cpu, (s.dataBufferHeap cpu).hole = 0) (cpu : Nat) :
    ((processSSLData f a rc x s).dataBufferHeap cpu).hole = 0 := by
  unfold processSSLData
  dsimp only
  split
  · exact hole cpu
  · by_cases same : cpu = x.cpu
    · subst same
      simpa [sslDataEvent, createSslDataEvent] using hole x.cpu
    · simpa [Function.update_of_ne same] using hole cpu

/-- After a return probe that the filter lets through, the thread has nothing stored. -/
theorem lookup_probeRetSSL {c : Consts} {x : Ctx} (passes : passesFilter c x.task = true)
    (f g : SslFn) (rc : UInt64) (s : Maps) (thread : UInt64) :
    ((probeRetSSL c f rc x s).args g).lookup thread =
      if (g, thread) = (f, x.task.pidTgid) then none else (s.args g).lookup thread := by
  simp only [probeRetSSL, passes, Bool.not_true, Bool.false_eq_true, if_false, lookup_setArgs,
    Table.lookup_delete, Prod.mk.injEq]
  cases found : (s.args f).lookup x.task.pidTgid with
  | some a => grind [args_processSSLData]
  | none => grind

theorem Call.returnValue_nonneg (k : Call) :
    0 ≤ k.returnValue ↔ ¬ k.rc.toUInt32.toInt32 < 0 := by
  rw [Int32.lt_iff_toInt_lt, Int32.toInt_zero, not_lt, Call.returnValue]

section Ret

variable {c : Consts} {off : Offsets} {s : Traced} {x : Ctx} {f : SslFn} {e : Entry}

/-- The call that returns is the one whose values are stored, so the record is about it. -/
theorem Inv.ret_records (inv : Inv c off s) (rc : UInt64)
    (inside : s.opened (f, x.task.pidTgid) = some e) (passes : passesFilter c x.task = true) :
    List.Forall₂ (Describes off)
      ((s.returned ++ [(⟨e, x, rc⟩ : Call)]).filter (Call.emits c))
      (probeRetSSL c f rc x s.maps).tlsEvents := by
  obtain ⟨fn, thread⟩ := inv.owner f _ e inside
  have held := inv.args f x.task.pidTgid
  rw [inside] at held
  have sign := (⟨e, x, rc⟩ : Call).returnValue_nonneg
  simp only [probeRetSSL, passes, Bool.not_true, Bool.false_eq_true, if_false,
    Maps.setArgs_tlsEvents, held, List.filter_append]
  cases entered : passesFilter c e.ctx.task with
  | false => simpa [stored, entered, Call.emits] using inv.records
  | true =>
    by_cases failed : rc.toUInt32.toInt32 < 0
    · have negative : ¬ 0 ≤ Call.returnValue ⟨e, x, rc⟩ := fun nonneg => sign.mp nonneg failed
      simpa [stored, entered, processSSLData, failed, Call.emits, negative] using inv.records
    · have nonneg : 0 ≤ Call.returnValue ⟨e, x, rc⟩ := sign.mpr failed
      have record := @describes_sslDataEvent off ⟨e, x, rc⟩ s.maps thread.symm (inv.hole x.cpu)
        nonneg
      simp only [stored, entered, if_true, processSSLData, failed, if_false, Call.emits, passes,
        nonneg, decide_true, Bool.and_self, List.filter_cons_of_pos, List.filter_nil]
      rw [← fn]
      exact List.rel_append inv.records (.cons record .nil)

/-- The call that returns is over. -/
theorem Inv.ret_owner (inv : Inv c off s) {g : SslFn} {thread : UInt64} {e' : Entry}
    (opened : Function.update s.opened (f, x.task.pidTgid) none (g, thread) = some e') :
    e'.fn = g ∧ e'.ctx.task.pidTgid = thread :=
  inv.owner g thread e' (of_update_none opened).2

/-- A return that the filter turns away, of a call that it has turned away as well. -/
theorem Inv.ret_rejected (inv : Inv c off s) (rc : UInt64)
    (inside : s.opened (f, x.task.pidTgid) = some e) (rejected : passesFilter c e.ctx.task = false)
    (rejects : passesFilter c x.task = false) :
    Inv c off { maps := probeRetSSL c f rc x s.maps
                opened := Function.update s.opened (f, x.task.pidTgid) none
                returned := s.returned ++ [⟨e, x, rc⟩] } := by
  have still : probeRetSSL c f rc x s.maps = s.maps := by simp [probeRetSSL, rejects]
  have held := inv.args f x.task.pidTgid
  rw [inside] at held
  rw [still]
  refine ⟨fun g thread => ?_, fun g thread e' => inv.ret_owner, inv.hole, ?_⟩
  · by_cases same : (g, thread) = (f, x.task.pidTgid)
    · obtain ⟨rfl, rfl⟩ := Prod.mk.inj same
      simpa [stored, rejected] using held
    · simpa [Function.update_of_ne same] using inv.args g thread
  · simpa [List.filter_append, Call.emits, rejected] using inv.records

theorem Inv.ret (inv : Inv c off s) (rc : UInt64) (inside : s.opened (f, x.task.pidTgid) = some e)
    (steady : passesFilter c e.ctx.task = true → passesFilter c x.task = true) :
    Inv c off { maps := probeRetSSL c f rc x s.maps
                opened := Function.update s.opened (f, x.task.pidTgid) none
                returned := s.returned ++ [⟨e, x, rc⟩] } := by
  cases passes : passesFilter c x.task with
  | false =>
    refine inv.ret_rejected rc inside ?_ passes
    by_contra let_through
    simp [steady (by simpa using let_through)] at passes
  | true =>
    refine ⟨fun g thread => ?_, fun g thread e' => inv.ret_owner, fun cpu => ?_,
      inv.ret_records rc inside passes⟩
    · rw [lookup_probeRetSSL passes]
      split
      case isTrue same => simp [same, stored]
      case isFalse other => simpa [Function.update_of_ne other] using inv.args g thread
    · simp only [probeRetSSL, passes, Bool.not_true, Bool.false_eq_true, if_false,
        Maps.setArgs_dataBufferHeap]
      split
      · exact hole_processSSLData f _ rc x inv.hole cpu
      · exact inv.hole cpu

end Ret

theorem Inv.aside {c : Consts} {off : Offsets} {s : Traced} {maps : Maps} (inv : Inv c off s)
    (aside : Aside s.maps maps) : Inv c off { s with maps } where
  args f thread := by rw [aside.args]; exact inv.args f thread
  owner := inv.owner
  hole cpu := by rw [aside.heap]; exact inv.hole cpu
  records := by rw [aside.records]; exact inv.records

theorem Inv.step {c : Consts} {off : Offsets} {s t : Traced} {e : Event} (inv : Inv c off s)
    (steady : Steady c s e) (moved : trace c off s e = some t) : Inv c off t := by
  have aside := exec_cases c off s.maps e
  obtain ⟨x, prog⟩ := e
  cases prog with
  | entrySSL f ssl buf =>
    simp only [trace] at moved
    split at moved
    · cases moved
    case h_2 outside =>
      cases moved
      exact inv.entry x f ssl buf outside steady
  | retSSL f rc =>
    simp only [trace] at moved
    split at moved
    case h_1 e inside =>
      cases moved
      exact inv.ret rc inside (steady e inside)
    · cases moved
  | setFd ssl fd =>
    cases moved
    exact inv.aside ⟨fun f => by cases f <;> rfl, rfl, rfl⟩
  | _ =>
    cases moved
    simp only [reduceCtorEq, exists_false, false_or] at aside
    obtain ⟨infos, out, eq⟩ := aside
    refine inv.aside ?_
    rw [eq]
    exact ⟨fun f => by cases f <;> rfl, rfl, rfl⟩

/-! ## Every run -/

/-- Every record comes from one call: in every run in which the filter does not change its mind
between the two probes of a call it has let in, and in which the maps have room, the records on
`tls_events` are those of the returned calls, one for each, and nothing is left in the maps. -/
theorem records_match_calls (c : Consts) (off : Offsets) {s : Traced}
    (h : (tracer c off).ReachableBy (Steady c) s) : CallsMatch c off s :=
  (h.invariant (Inv.init c off) fun _ _ _ inv steady moved => inv.step steady moved).callsMatch

/-! ## Two schedules of one thread -/

/-- `openssl_3_0_0_kern.c`. -/
def openssl300 : Offsets :=
  { sslStVersion := some 0x0, sslStRbio := 0x10, sslStWbio := 0x18, bioStNum := 0x38,
    bioStMethod := 0x8, bioMethodStType := 0x0 }

/-- Thread 2 of process 1 in the given cgroup; its memory holds the byte 65 everywhere. -/
def threadIn (cgroupId : UInt64) : Ctx :=
  { task := { pidTgid := 0x100000002, uidGid := 0, cgroupId, comm := zeros 16 }
    cpu := 0
    ktime := 1
    mem := ⟨fun _ n => some (Vector.replicate n 65)⟩
    kmem := ⟨fun _ => 0, fun _ => ⟨zeros 4, zeros 4, zeros 2, 0, 0, zeros 16, zeros 16⟩⟩ }

def readIn (cgroupId : UInt64) : Event := ⟨threadIn cgroupId, .entrySSL .read 0x1000 0x2000⟩
def readOutIn (cgroupId : UInt64) : Event := ⟨threadIn cgroupId, .retSSL .read 5⟩

theorem records_match_calls_one_read :
    ∃ s, (tracer .unfiltered openssl300).ReachableBy (Steady .unfiltered) s ∧
      s.maps.tlsEvents.length = 1 ∧ s.returned.length = 1 ∧
      CallsMatch .unfiltered openssl300 s := by
  have reached : ∃ s, (tracer .unfiltered openssl300).ReachableBy (Steady .unfiltered) s ∧
      s.maps.tlsEvents.length = 1 ∧ s.returned.length = 1 := by
    refine ⟨_, .tail (.tail .refl ⟨readIn 3, ?_, rfl⟩) ⟨readOutIn 3, ?_, rfl⟩, ?_, ?_⟩
    · exact fun _ => .inr (by decide)
    · exact fun _ _ _ => rfl
    · decide
    · decide
  obtain ⟨s, reached, record, returned⟩ := reached
  exact ⟨s, reached, record, returned, records_match_calls .unfiltered openssl300 reached⟩

/-- Only cgroup 7 is traced. -/
def onlyCgroup7 : Consts := { Consts.unfiltered with targetCgroupId := 7 }

/-- The thread is moved out of the cgroup during its first call and back during its second one: the
first call leaves its entry behind, and the return of the second emits a record from it. -/
theorem stale_entry_emits :
    (∃ s, (tracer onlyCgroup7 openssl300).Reachable s ∧ s.opened (.read, 0x100000002) = none ∧
      (s.maps.args .read).lookup 0x100000002 ≠ none) ∧
    ∃ s, (tracer onlyCgroup7 openssl300).Reachable s ∧
      s.returned.filter (Call.emits onlyCgroup7) = [] ∧ s.maps.tlsEvents ≠ [] ∧
      ¬CallsMatch onlyCgroup7 openssl300 s := by
  constructor
  · obtain ⟨s, ran, outside, held⟩ :
        ∃ s ∈ (tracer onlyCgroup7 openssl300).run [readIn 7, readOutIn 8],
          (s.opened (.read, 0x100000002)).isNone ∧
          ((s.maps.args .read).lookup 0x100000002).isSome := by
      decide
    exact ⟨s, Machine.reachable_of_run ran, by simpa using outside, by grind⟩
  · obtain ⟨s, ran, calls, records⟩ :
        ∃ s ∈ (tracer onlyCgroup7 openssl300).run
            [readIn 7, readOutIn 8, readIn 8, readOutIn 7],
          (s.returned.filter (Call.emits onlyCgroup7)).length = 0 ∧
          s.maps.tlsEvents.length = 1 := by
      decide
    have none : s.returned.filter (Call.emits onlyCgroup7) = [] := List.length_eq_zero_iff.mp calls
    refine ⟨s, Machine.reachable_of_run ran, none, ?_, fun matched => ?_⟩
    · intro empty
      simp [empty] at records
    · have := matched.records.length_eq
      omega

end ECapture.Kernel.Ssl
