import ECapture.Events.NSPR
import ECapture.Kernel.SslCalls
import ECapture.Library.Calls

/-!
# The data programs of the GnuTLS and the NSPR probe

`kern/gnutls.h`, with its programs on `gnutls_record_recv` and `gnutls_record_send`, and
`kern/nspr_kern.c`, with the same programs on `PR_Read` and `PR_Write`: the two files differ in the
names of the functions and of the ring. The entry program keeps the buffer, the return program
reads it.
-/

namespace ECapture.Kernel.SslData
open Library Ssl

structure Maps where
  activeSslReadArgsMap : Table UInt64 UInt64
  activeSslWriteArgsMap : Table UInt64 UInt64
  /-- One element for each CPU. -/
  dataBufferHeap : Nat → SslDataRecord
  /-- `gnutls_events` or `nspr_events`. -/
  events : List Bytes

def Maps.new : Maps :=
  { activeSslReadArgsMap := .empty _ _ 1024
    activeSslWriteArgsMap := .empty _ _ 1024
    dataBufferHeap := fun _ => ⟨0, 0, 0, 0, 0, zeros _, 0, zeros _⟩
    events := [] }

namespace Maps

/-- The map a program on `f` is given. -/
def args (s : Maps) : SslFn → Table UInt64 UInt64
  | .read => s.activeSslReadArgsMap
  | .write => s.activeSslWriteArgsMap

def setArgs (f : SslFn) (t : Table UInt64 UInt64) (s : Maps) : Maps :=
  match f with
  | .read => { s with activeSslReadArgsMap := t }
  | .write => { s with activeSslWriteArgsMap := t }

@[simp] theorem args_setArgs_self (s : Maps) (f : SslFn) (t : Table UInt64 UInt64) :
    (s.setArgs f t).args f = t := by
  cases f <;> rfl

theorem args_setArgs_of_ne (s : Maps) {f g : SslFn} (other : g ≠ f) (t : Table UInt64 UInt64) :
    (s.setArgs f t).args g = s.args g := by
  cases f <;> cases g <;> first | rfl | exact absurd rfl other

@[simp] theorem setArgs_dataBufferHeap (s : Maps) (f : SslFn) (t : Table UInt64 UInt64) :
    (s.setArgs f t).dataBufferHeap = s.dataBufferHeap := by
  cases f <;> rfl

@[simp] theorem setArgs_events (s : Maps) (f : SslFn) (t : Table UInt64 UInt64) :
    (s.setArgs f t).events = s.events := by
  cases f <;> rfl

end Maps

/-! ## The programs -/

/-- The element of the heap after `create_ssl_data_event`. -/
def createSslDataEvent (x : Ctx) (s : Maps) : SslDataRecord :=
  { s.dataBufferHeap x.cpu with timestampNs := x.ktime, pid := x.task.pid, tid := x.task.tid }

/-- The event `process_SSL_data` emits. -/
def sslDataEvent (f : SslFn) (buf : UInt64) (len : Int32) (x : Ctx) (s : Maps) : SslDataRecord :=
  let event := createSslDataEvent x s
  { event with
    type := f.eventType
    dataLen := dataLen len
    data := overwrite event.data (x.mem.probeRead buf (dataLen len).toInt.toNat).2
    comm := x.task.comm }

def processSSLData (f : SslFn) (buf rc : UInt64) (x : Ctx) (s : Maps) : Maps :=
  let len := rc.toUInt32.toInt32
  if len < 0 then s
  else
    let event := sslDataEvent f buf len x s
    { s with
      dataBufferHeap := Function.update s.dataBufferHeap x.cpu event
      events := s.events ++ [event.bytes] }

def probeEntrySSL (c : Consts) (f : SslFn) (buf : UInt64) (x : Ctx) (s : Maps) : Maps :=
  if !passesFilter c x.task then s
  else s.setArgs f ((s.args f).update x.task.pidTgid buf)

def probeRetSSL (c : Consts) (f : SslFn) (rc : UInt64) (x : Ctx) (s : Maps) : Maps :=
  if !passesFilter c x.task then s
  else
    let s :=
      match (s.args f).lookup x.task.pidTgid with
      | some buf => processSSLData f buf rc x s
      | none => s
    s.setArgs f ((s.args f).delete x.task.pidTgid)

def probeEntrySSLRead (c : Consts) : UInt64 → Ctx → Maps → Maps := probeEntrySSL c .read
def probeRetSSLRead (c : Consts) : UInt64 → Ctx → Maps → Maps := probeRetSSL c .read
def probeEntrySSLWrite (c : Consts) : UInt64 → Ctx → Maps → Maps := probeEntrySSL c .write
def probeRetSSLWrite (c : Consts) : UInt64 → Ctx → Maps → Maps := probeRetSSL c .write

/-! ## Calls -/

structure Entry where
  fn : SslFn
  ctx : Ctx
  buf : UInt64

structure Return where
  fn : SslFn
  ctx : Ctx
  rc : UInt64

namespace Return

/-- The return value, an `int`. -/
def value (y : Return) : Int := y.rc.toUInt32.toInt32.toInt

/-- How many bytes of the buffer are of interest. -/
def length (y : Return) : Nat := (min y.value 16384).toNat

end Return

def onEntry (c : Consts) (x : Entry) (s : Maps) : Maps :=
  match x.fn with
  | .read => probeEntrySSLRead c x.buf x.ctx s
  | .write => probeEntrySSLWrite c x.buf x.ctx s

def onRet (c : Consts) (y : Return) (s : Maps) : Maps :=
  match y.fn with
  | .read => probeRetSSLRead c y.rc y.ctx s
  | .write => probeRetSSLWrite c y.rc y.ctx s

theorem onEntry_eq (c : Consts) (x : Entry) (s : Maps) :
    onEntry c x s = probeEntrySSL c x.fn x.buf x.ctx s := by
  unfold onEntry
  cases x.fn <;> rfl

theorem onRet_eq (c : Consts) (y : Return) (s : Maps) :
    onRet c y s = probeRetSSL c y.fn y.rc y.ctx s := by
  unfold onRet
  cases y.fn <;> rfl

/-- The four programs. A caller is a thread in one of the two functions. -/
def probes (c : Consts) : CallProbes (SslFn × UInt64) Entry Return Maps :=
  { init := .new
    caller := fun x => (x.fn, x.ctx.task.pidTgid)
    returner := fun y => (y.fn, y.ctx.task.pidTgid)
    entry := onEntry c
    ret := onRet c }

/-- The record is about this return and this buffer. -/
structure Matches (y : Return) (buf : UInt64) (e : SslDataRecord) : Prop where
  type : e.type = y.fn.eventType
  hole : e.hole = 0
  time : e.timestampNs = y.ctx.ktime
  pid : e.pid = y.ctx.task.pid
  tid : e.tid = y.ctx.task.tid
  comm : e.comm = y.ctx.task.comm
  length : e.dataLen.toInt = min y.value 16384
  data : ∀ bytes, y.ctx.mem.read buf y.length = some bytes →
    e.data.toList.take y.length = bytes.toList

def Describes (y : Return) (buf : UInt64) (record : Bytes) : Prop :=
  ∃ e, e.bytes = record ∧ Matches y buf e

/-- What the entry program keeps, when the filter lets it. -/
def store (c : Consts) (x : Entry) : Option UInt64 :=
  if passesFilter c x.ctx.task then some x.buf else none

/-- The filter lets the return program through, and the call has not failed. -/
def emits (c : Consts) (y : Return) : Bool :=
  passesFilter c y.ctx.task && decide (0 ≤ y.value)

/-! ## One record -/

theorem matches_sslDataEvent (y : Return) (buf : UInt64) {s : Maps}
    (hole : (s.dataBufferHeap y.ctx.cpu).hole = 0) (nonneg : 0 ≤ y.value) :
    Matches y buf (sslDataEvent y.fn buf y.rc.toUInt32.toInt32 y.ctx s) where
  type := rfl
  hole := hole
  time := rfl
  pid := rfl
  tid := rfl
  comm := rfl
  length := toInt_dataLen nonneg
  data := by
    intro bytes read
    have count : (dataLen y.rc.toUInt32.toInt32).toInt.toNat = y.length := by
      rw [toInt_dataLen nonneg]
      rfl
    have small : y.length ≤ maxDataSizeOpenssl := by
      rw [Return.length, show maxDataSizeOpenssl = 16384 from rfl]
      omega
    have found : (y.ctx.mem.probeRead buf y.length).2 = bytes := by
      rw [UserMemory.probeRead, read]
    simp only [sslDataEvent]
    rw [count, take_overwrite _ _ small, found]

theorem value_nonneg (y : Return) : 0 ≤ y.value ↔ ¬ y.rc.toUInt32.toInt32 < 0 := by
  rw [Int32.lt_iff_toInt_lt, Int32.toInt_zero, not_lt, Return.value]

/-! ## What each program does to the maps -/

theorem args_processSSLData (f g : SslFn) (buf rc : UInt64) (x : Ctx) (s : Maps) :
    (processSSLData f buf rc x s).args g = s.args g := by
  unfold processSSLData
  dsimp only
  split
  · rfl
  · cases g <;> rfl

theorem hole_processSSLData (f : SslFn) (buf rc : UInt64) (x : Ctx) {s : Maps}
    (hole : ∀ cpu, (s.dataBufferHeap cpu).hole = 0) (cpu : Nat) :
    ((processSSLData f buf rc x s).dataBufferHeap cpu).hole = 0 := by
  unfold processSSLData
  dsimp only
  split
  · exact hole cpu
  · by_cases same : cpu = x.cpu
    · subst same
      simpa [sslDataEvent, createSslDataEvent] using hole x.cpu
    · simpa [Function.update_of_ne same] using hole cpu

section Entry

variable (c : Consts) (x : Entry) (s : Maps)

theorem onEntry_of_rejected (rejects : passesFilter c x.ctx.task = false) :
    onEntry c x s = s := by
  simp [onEntry_eq, probeEntrySSL, rejects]

theorem onEntry_of_passes (passes : passesFilter c x.ctx.task = true) :
    onEntry c x s = s.setArgs x.fn ((s.args x.fn).update x.ctx.task.pidTgid x.buf) := by
  simp [onEntry_eq, probeEntrySSL, passes]

/-- Only the map of the function changes, under the thread. -/
theorem lookup_onEntry_of_ne {f : SslFn} {thread : UInt64}
    (other : (f, thread) ≠ (x.fn, x.ctx.task.pidTgid)) :
    ((onEntry c x s).args f).lookup thread = (s.args f).lookup thread := by
  cases passes : passesFilter c x.ctx.task with
  | false => rw [onEntry_of_rejected c x s passes]
  | true =>
    rw [onEntry_of_passes c x s passes]
    by_cases fn : f = x.fn
    · subst fn
      rw [Maps.args_setArgs_self, Table.lookup_update_of_ne]
      rintro rfl
      exact other rfl
    · rw [Maps.args_setArgs_of_ne s fn]

theorem lookup_onEntry_cases {buf : UInt64}
    (held : ((onEntry c x s).args x.fn).lookup x.ctx.task.pidTgid = some buf) :
    store c x = some buf ∨ (s.args x.fn).lookup x.ctx.task.pidTgid = some buf := by
  cases passes : passesFilter c x.ctx.task with
  | false =>
    rw [onEntry_of_rejected c x s passes] at held
    exact .inr held
  | true =>
    rw [onEntry_of_passes c x s passes, Maps.args_setArgs_self] at held
    rcases Table.lookup_update_cases held with ⟨-, rfl⟩ | ⟨other, -⟩
    · exact .inl (by simp [store, passes])
    · exact absurd rfl other

theorem onEntry_dataBufferHeap : (onEntry c x s).dataBufferHeap = s.dataBufferHeap := by
  rw [onEntry_eq, probeEntrySSL]
  split <;> simp

theorem onEntry_events : (onEntry c x s).events = s.events := by
  rw [onEntry_eq, probeEntrySSL]
  split <;> simp

end Entry

section Ret

variable (c : Consts) (y : Return) (s : Maps)

theorem onRet_of_rejected (rejects : passesFilter c y.ctx.task = false) : onRet c y s = s := by
  simp [onRet_eq, probeRetSSL, rejects]

/-- What is left for a thread after the return program. -/
theorem lookup_onRet (passes : passesFilter c y.ctx.task = true) (f : SslFn) (thread : UInt64) :
    ((onRet c y s).args f).lookup thread =
      if (f, thread) = (y.fn, y.ctx.task.pidTgid) then none else (s.args f).lookup thread := by
  have processed : ∀ g, (match (s.args y.fn).lookup y.ctx.task.pidTgid with
      | some buf => processSSLData y.fn buf y.rc y.ctx s
      | none => s).args g = s.args g := by
    intro g
    cases (s.args y.fn).lookup y.ctx.task.pidTgid with
    | some buf => exact args_processSSLData _ _ _ _ _ _
    | none => rfl
  simp only [onRet_eq, probeRetSSL, passes, Bool.not_true, Bool.false_eq_true, if_false]
  by_cases fn : f = y.fn
  · subst fn
    rw [Maps.args_setArgs_self, processed, Table.lookup_delete]
    simp
  · rw [Maps.args_setArgs_of_ne _ fn, processed, if_neg (by simp [fn])]

theorem hole_onRet (hole : ∀ cpu, (s.dataBufferHeap cpu).hole = 0) (cpu : Nat) :
    ((onRet c y s).dataBufferHeap cpu).hole = 0 := by
  simp only [onRet_eq, probeRetSSL]
  split
  · exact hole cpu
  · rw [Maps.setArgs_dataBufferHeap]
    cases (s.args y.fn).lookup y.ctx.task.pidTgid with
    | some buf => exact hole_processSSLData _ buf _ _ hole cpu
    | none => exact hole cpu

/-- The return program adds at most one record, made of the buffer it finds. -/
theorem events_onRet : (onRet c y s).events =
    match (s.args y.fn).lookup y.ctx.task.pidTgid with
    | some buf =>
      if emits c y then
        s.events ++ [(sslDataEvent y.fn buf y.rc.toUInt32.toInt32 y.ctx s).bytes]
      else s.events
    | none => s.events := by
  have sign := value_nonneg y
  simp only [onRet_eq, probeRetSSL]
  cases passes : passesFilter c y.ctx.task with
  | false =>
    cases (s.args y.fn).lookup y.ctx.task.pidTgid <;> simp [emits, passes]
  | true =>
    cases (s.args y.fn).lookup y.ctx.task.pidTgid with
    | none => simp
    | some buf =>
      by_cases failed : y.rc.toUInt32.toInt32 < 0
      · have negative : ¬ 0 ≤ y.value := fun nonneg => sign.mp nonneg failed
        simp [processSSLData, failed, emits, negative]
      · simp [processSSLData, failed, emits, passes, sign.mpr failed]

end Ret

/-! ## Records and calls -/

/-- The programs hand the buffer over from the entry to the return. -/
def handover (c : Consts) : (probes c).Handover UInt64 Bytes where
  held s k := (s.args k.1).lookup k.2
  records := Maps.events
  Sound s := ∀ cpu, (s.dataBufferHeap cpu).hole = 0
  store := store c
  Room x s := (s.args x.fn).HasRoom x.ctx.task.pidTgid
  Evicts _ _ := False
  emits y _ := emits c y
  Describes := Describes
  init_sound _ := rfl
  init_held k := by
    obtain ⟨f, thread⟩ := k
    cases f <;> rfl
  init_records := rfl
  entry_sound x s hole cpu := by
    have same : ((probes c).entry x s).dataBufferHeap = s.dataBufferHeap :=
      onEntry_dataBufferHeap c x s
    rw [same]
    exact hole cpu
  entry_records := onEntry_events c
  entry_other x s k other _ := lookup_onEntry_of_ne c x s other
  entry_evicts x s k buf other held := by
    rwa [← show ((onEntry c x s).args k.1).lookup k.2 = _ from lookup_onEntry_of_ne c x s other]
  entry_turned_away x s turned_away := by
    refine onEntry_of_rejected c x s ?_
    by_contra passes
    simp [store, passes] at turned_away
  entry_self x s buf stored room := by
    cases passes : passesFilter c x.ctx.task with
    | false => simp [store, passes] at stored
    | true =>
      obtain rfl : x.buf = buf := by simpa [store, passes] using stored
      change ((onEntry c x s).args x.fn).lookup x.ctx.task.pidTgid = _
      rw [onEntry_of_passes c x s passes, Maps.args_setArgs_self, Table.lookup_update_self room]
  entry_only x s buf := lookup_onEntry_cases c x s
  ret_sound y s := hole_onRet c y s
  ret_other y s k other := by
    have other : (k.1, k.2) ≠ (y.fn, y.ctx.task.pidTgid) := other
    change ((onRet c y s).args k.1).lookup k.2 = _
    cases passes : passesFilter c y.ctx.task with
    | false => rw [onRet_of_rejected c y s passes]
    | true => rw [lookup_onRet c y s passes, if_neg other]
  ret_only y s buf held := by
    change ((onRet c y s).args y.fn).lookup y.ctx.task.pidTgid = some buf at held
    cases passes : passesFilter c y.ctx.task with
    | false => rwa [onRet_of_rejected c y s passes] at held
    | true =>
      rw [lookup_onRet c y s passes, if_pos rfl] at held
      cases held
  ret_emits y s buf hole held emitted := by
    have nonneg : 0 ≤ y.value := by simp_all [emits]
    refine ⟨_, ⟨_, rfl, matches_sslDataEvent y buf (hole y.ctx.cpu) nonneg⟩, ?_⟩
    have held : (s.args y.fn).lookup y.ctx.task.pidTgid = some buf := held
    change (onRet c y s).events = _
    simp [events_onRet, held, emitted]
  ret_silent y s silent := by
    change (onRet c y s).events = _
    cases held : (s.args y.fn).lookup y.ctx.task.pidTgid with
    | none => simp [events_onRet, held]
    | some buf =>
      have quiet : emits c y = false := silent buf held
      simp [events_onRet, held, quiet]

/-- Both probes look at the call, and it has not failed. -/
def callEmits (c : Consts) (k : Entry × Return) : Bool :=
  passesFilter c k.1.ctx.task && passesFilter c k.2.ctx.task && decide (0 ≤ k.2.value)

/-- The record is about the return of the call and the buffer it was given. -/
def CallDescribes (k : Entry × Return) (record : Bytes) : Prop := Describes k.2 k.1.buf record

/-- The map has room for a new entry, and the return of a call is not let through when its entry
was turned away. -/
def Steady (c : Consts) (s : CallProbes.Traced (SslFn × UInt64) Entry Return Maps)
    (e : CallProbes.Event Entry Return) : Prop :=
  match e with
  | .entry x => passesFilter c x.ctx.task = true → (s.maps.args x.fn).HasRoom x.ctx.task.pidTgid
  | .ret y => ∀ x, s.opened (y.fn, y.ctx.task.pidTgid) = some x →
      passesFilter c y.ctx.task = true → passesFilter c x.ctx.task = true

/-- Two threads inside `PR_Read` at once; the one that entered last returns first. -/
def twoReads : List (CallProbes.Event Entry Return) :=
  let first := threadIn 3
  let second := { first with task := { first.task with pidTgid := 0x100000003 } }
  [.entry ⟨.read, first, 0x2000⟩, .entry ⟨.read, second, 0x3000⟩,
    .ret ⟨.read, second, 5⟩, .ret ⟨.read, first, 7⟩]

instance (c : Consts) (s : CallProbes.Traced (SslFn × UInt64) Entry Return Maps)
    (e : CallProbes.Event Entry Return) : Decidable (Steady c s e) :=
  match e with
  | .entry x => inferInstanceAs (Decidable (_ → (s.maps.args x.fn).HasRoom x.ctx.task.pidTgid))
  | .ret y =>
    match opened : s.opened (y.fn, y.ctx.task.pidTgid) with
    | some x =>
      decidable_of_iff (passesFilter c y.ctx.task = true → passesFilter c x.ctx.task = true)
        ⟨fun h x' same => by rw [opened] at same; cases same; exact h, fun h => h x opened⟩
    | none => isTrue fun x same => by rw [opened] at same; cases same

theorem decode_bytes {e : SslDataRecord} (hole : e.hole = 0) (tail : Bytes) :
    Events.NSPR.TLSDataEvent.decodeFromBytes.run (e.bytes ++ tail) =
      .ok (Events.NSPR.TLSDataEvent.ofRecord e) := by
  rw [← Events.NSPR.TLSDataEvent.encode_ofRecord hole, List.append_assoc]
  exact Events.NSPR.TLSDataEvent.reads_decodeFromBytes.run_write trivial _

/-- The event that the decoder hands to the dispatcher is about this return and this buffer. -/
structure Shows (y : Return) (buf : UInt64) (e : Events.NSPR.TLSDataEvent) : Prop where
  direction : e.isRead = decide (y.fn = .read) ∧ e.isWrite = decide (y.fn = .write)
  time : e.timestamp = y.ctx.ktime
  pid : e.pid = y.ctx.task.pid
  tid : e.tid = y.ctx.task.tid
  comm : e.comm = y.ctx.task.comm
  data : ∀ bytes, y.ctx.mem.read buf y.length = some bytes → e.getData = .ok bytes.toList

theorem shows_of_matches {y : Return} {buf : UInt64} {r : SslDataRecord} (h : Matches y buf r)
    (nonneg : 0 ≤ y.value) (tail : Bytes) :
    ∃ e, Events.NSPR.TLSDataEvent.decode (r.bytes ++ tail) = .ok e ∧ Shows y buf e := by
  have length := h.length
  have size : (Events.NSPR.maxDataSize : Int) = 16384 := rfl
  refine ⟨.ofRecord r, ?_, ?_, h.time, h.pid, h.tid, h.comm, ?_⟩
  · have valid : (Events.NSPR.TLSDataEvent.ofRecord r).validate = .ok () := by
      rw [Events.NSPR.TLSDataEvent.validate, if_neg]
      change ¬ (Events.NSPR.maxDataSize : Int) < r.dataLen.toInt
      omega
    rw [Events.NSPR.TLSDataEvent.decode, decode_bytes h.hole]
    simp only [bind, Except.bind, valid]
    rfl
  · rw [Events.NSPR.TLSDataEvent.isRead, Events.NSPR.TLSDataEvent.isWrite,
      Events.NSPR.TLSDataEvent.ofRecord, h.type]
    cases y.fn <;> exact ⟨rfl, rfl⟩
  · intro bytes read
    have count : r.dataLen.toInt.toNat = y.length := by rw [length]; rfl
    rw [Events.NSPR.TLSDataEvent.getData_take]
    · change Except.ok (r.data.toList.take r.dataLen.toInt.toNat) = _
      rw [count, h.data bytes read]
    · change 0 ≤ r.dataLen.toInt
      omega
    · change r.dataLen.toInt ≤ 16384
      omega

/-- Whatever the order of the probes, the answers of the filter and the room in the maps, every
record of the NSPR programs is accepted by the decoder, and the event shows the process, the
thread, the direction and the bytes of one return, taken from the buffer that an earlier entry of
the same thread into the same function was given. -/
theorem nspr_events_own_thread (c : Consts) (es : List (CallProbes.Event Entry Return)) :
    ∀ record ∈ ((probes c).execAll es).events, ∃ x y e,
      [CallProbes.Event.entry x, .ret y].Sublist es ∧ x.fn = y.fn ∧
      x.ctx.task.pidTgid = y.ctx.task.pidTgid ∧ passesFilter c x.ctx.task = true ∧
      passesFilter c y.ctx.task = true ∧
      Events.NSPR.TLSDataEvent.decode record = .ok e ∧ Shows y x.buf e := by
  intro record mem
  obtain ⟨x, y, buf, order, caller, stored, emitted, r, rfl, matched⟩ :=
    (handover c).records_own es record mem
  obtain ⟨fn, thread⟩ := Prod.mk.inj caller
  cases entered : passesFilter c x.ctx.task with
  | false => simp [handover, store, entered] at stored
  | true =>
    obtain rfl : x.buf = buf := by simpa [handover, store, entered] using stored
    obtain ⟨passes, nonneg⟩ : passesFilter c y.ctx.task = true ∧ 0 ≤ y.value := by
      simpa [handover, emits] using emitted
    obtain ⟨e, decoded, shows⟩ := shows_of_matches matched nonneg []
    rw [List.append_nil] at decoded
    exact ⟨x, y, e, order, fn, thread, entered, passes, decoded, shows⟩

theorem nspr_events_own_thread_two_reads :
    ∃ record ∈ ((probes .unfiltered).execAll twoReads).events, ∃ x y e,
      [CallProbes.Event.entry x, .ret y].Sublist twoReads ∧ x.fn = y.fn ∧
      x.ctx.task.pidTgid = y.ctx.task.pidTgid ∧
      Events.NSPR.TLSDataEvent.decode record = .ok e ∧ Shows y x.buf e := by
  have two : ((probes .unfiltered).execAll twoReads).events.length = 2 := by decide
  obtain ⟨record, mem⟩ := List.exists_mem_of_length_pos (two ▸ Nat.two_pos)
  obtain ⟨x, y, e, order, fn, thread, -, -, decoded, shows⟩ :=
    nspr_events_own_thread .unfiltered twoReads record mem
  exact ⟨record, mem, x, y, e, order, fn, thread, decoded, shows⟩

end ECapture.Kernel.SslData
