import ECapture.Kernel.GoTls
import ECapture.Kernel.Lines

/-!
# The text of Go TLS calls

Text mode of the GoTLS probe from end to end. The programs run on all CPUs in any order, each on the
element of its own CPU, in which the bytes and the addresses of earlier calls still stand. No line
shows any of them.
-/

namespace ECapture.Kernel.GoTls
open Library Events.ReaderLoop
open Events.GoTLS (GoTLSDataEvent)

/-! ## Programs on many CPUs -/

/-- A run of one of the four programs. The clock of the kernel counts from the boot. -/
structure Hit where
  cpu : Nat
  isRegisterAbi : Bool
  fn : GoTlsFn
  ctx : Ctx
  stamped : ctx.ktime ≠ 0

/-- The elements of `gte_context_gen` by CPU, and what has been submitted to `events`. -/
structure Maps where
  gteContext : Nat → GoTlsEvent
  events : List Bytes

def Hit.run (c : Consts) (s : Maps) (h : Hit) : Maps :=
  let (event, records) := h.fn.probe c h.isRegisterAbi h.ctx (s.gteContext h.cpu)
  { gteContext := Function.update s.gteContext h.cpu event, events := s.events ++ records }

/-! ## What a call submits -/

/-- The bytes of a segment of 16 KiB, if there is such a segment and it can be read. -/
def segmentAt (mem : UserMemory) (base : UInt64) (total i : Nat) : Option Bytes :=
  if i * 16384 < total then
    (mem.read (base + .ofNat (i * 16384)) (min (total - i * 16384) 16384)).map Vector.toList
  else none

namespace Hit

variable (h : Hit)

def base : UInt64 := h.fn.base h.isRegisterAbi h.ctx.args

/-- The length of the payload, up to the cap. -/
def total : Nat := min (h.fn.totalLen h.isRegisterAbi h.ctx.args).toInt.toNat 262144

/-- The call is of interest and has a buffer. -/
def traced (c : Consts) : Bool :=
  passesFilter c h.ctx.task && (h.base != 0 && (h.fn == .read ||
    (goGetArgument h.ctx.args h.isRegisterAbi 2).toUInt32.toInt32 == recordTypeApplicationData))

def segments (c : Consts) : List Bytes :=
  if h.traced c then (List.range 16).filterMap (segmentAt h.ctx.mem h.base h.total) else []

end Hit

/-- What the decoder sees of an event besides the payload. -/
def front (e : GoTlsEvent) : GoTLSDataEvent := { e.event with dataLen := 0, data := [] }

/-- An element that no program has used. -/
def unused : GoTlsEvent :=
  { tsNs := 0, pid := 0, tid := 0, dataLen := 0, eventType := 0, pad := zeros 3, fd := 0
    srcIp := zeros 16, srcPort := 0, pad2 := 0, dstIp := zeros 16, dstPort := 0, ipVersion := 0
    pad3 := 0, comm := zeros 16, data := zeros _ }

def withData (e : GoTLSDataEvent) (payload : Bytes) : GoTLSDataEvent :=
  { e with dataLen := .ofNat payload.length, data := payload }

/-- The event of a call with these bytes, before its tuple is known. -/
def Hit.event (h : Hit) (payload : Bytes) : GoTLSDataEvent :=
  withData (front (headOf h.isRegisterAbi h.fn h.ctx unused)) payload

/-! ## Nothing of an earlier call -/

/-- `e` with what the programs leave of `slot`. -/
def stained (slot e : GoTlsEvent) : GoTlsEvent :=
  { e with
    pad := slot.pad, pad2 := slot.pad2, pad3 := slot.pad3
    dataLen := slot.dataLen, data := slot.data }

theorem extractPorts_stained (mem : UserMemory) (laddr raddr : UInt64) (version : UInt8)
    (slot e : GoTlsEvent) :
    extractPorts mem laddr raddr version (stained slot e) =
      stained slot (extractPorts mem laddr raddr version e) := by
  unfold extractPorts
  dsimp only
  split
  · rfl
  · split <;> rfl

theorem extractIps_stained (mem : UserMemory) (laddr raddr lip rip : UInt64) (version : UInt8)
    (slot e : GoTlsEvent) :
    extractIps mem laddr raddr lip rip version (stained slot e) =
      stained slot (extractIps mem laddr raddr lip rip version e) := by
  unfold extractIps
  dsimp only
  generalize (if version = 4 then 4 else 16) = size
  split
  · rfl
  · split
    · rfl
    · exact extractPorts_stained mem laddr raddr version slot
        { e with
          srcIp := Ssl.overwrite e.srcIp (mem.probeRead lip size).2
          dstIp := Ssl.overwrite e.dstIp (mem.probeRead rip size).2 }

theorem extractAddr_stained (mem : UserMemory) (netfd : UInt64) (slot e : GoTlsEvent) :
    extractAddr mem netfd (stained slot e) = stained slot (extractAddr mem netfd e) := by
  unfold extractAddr
  dsimp only
  split
  · rfl
  · split
    · rfl
    · split
      · rfl
      · split
        · rfl
        · exact extractIps_stained mem _ _ _ _ _ slot e

theorem fillFdAndAddr_stained (mem : UserMemory) (tlsConn : UInt64) (slot e : GoTlsEvent) :
    fillFdAndAddr mem tlsConn (stained slot e) = stained slot (fillFdAndAddr mem tlsConn e) := by
  unfold fillFdAndAddr
  dsimp only
  split
  · rfl
  · exact extractAddr_stained mem _ slot { e with fd := extractFd mem _ }

/-- What an event shows of a call does not depend on the element that it was made in. -/
theorem front_headOf (isRegisterAbi : Bool) (fn : GoTlsFn) (x : Ctx) (slot : GoTlsEvent) :
    front (headOf isRegisterAbi fn x slot) = front (headOf isRegisterAbi fn x unused) := by
  have start : getGotlsEvent x slot = stained slot (getGotlsEvent x unused) := rfl
  rw [headOf, start, fillFdAndAddr_stained]
  rfl

/-! ## The records of a call -/

/-- An event in memory that the decoder takes for this one. -/
def Carries (e : GoTLSDataEvent) (sent : GoTlsEvent) : Prop :=
  sent.event = e ∧ 0 ≤ sent.dataLen.toInt ∧ sent.dataLen.toInt ≤ 16384

/-- `GOTLS_EMIT_SEG` reads a segment within the payload and submits it if the read succeeds. -/
theorem emitSeg_of_inside (mem : UserMemory) (base : UInt64) {total : UInt32} {i : Nat}
    (small : i < 16) (inside : i * 16384 < total.toNat) (s : GoTlsEvent × List Bytes) :
    ∃ n, n = min (total.toNat - i * 16384) 16384 ∧
      emitSeg mem base total (.ofNat i) s =
        let read := mem.probeRead (base + .ofNat (i * 16384)) n
        (withPayload s.1 read.2,
          if read.1 then s.2 ++ [(withPayload s.1 read.2).bytes] else s.2) := by
  have off := toNat_segOff small
  have inside : UInt32.ofNat i * maxChunk < total := by rwa [UInt32.lt_iff_toNat_lt, off]
  have chunk := toNat_segChunk inside
  rw [off] at chunk
  have addr : (UInt32.ofNat i * maxChunk).toUInt64 = .ofNat (i * 16384) := by
    apply UInt64.toNat_inj.mp
    rw [UInt32.toNat_toUInt64, off, UInt64.toNat_ofNat']
    omega
  have pos : 0 < segChunk total (UInt32.ofNat i * maxChunk) := by
    rw [UInt32.lt_iff_toNat_lt, chunk]
    change 0 < _
    omega
  have len : (segChunk total (UInt32.ofNat i * maxChunk)).toInt32 =
      .ofNat (segChunk total (UInt32.ofNat i * maxChunk)).toNat := toInt32_eq_ofNat _
  refine ⟨_, chunk, ?_⟩
  simp only [emitSeg, if_pos inside, if_pos pos, addr, withPayload, len]

theorem event_withPayload {e : GoTlsEvent} {n : Nat} (v : Vector UInt8 n) (small : n ≤ 16384) :
    (withPayload e v).event = withData (front e) v.toList := by
  have data : (withPayload e v).data.toList.take (withPayload e v).dataLen.toInt.toNat =
      v.toList := payloadOf_withPayload v small
  rw [GoTlsEvent.event, data, withData, Vector.length_toList]
  rfl

/-- After `k` segments the records are the segments that could be read. -/
theorem foldl_emitSeg (mem : UserMemory) (base : UInt64) (total : UInt32) (e : GoTlsEvent) (k : Nat)
    (small : k ≤ 16) :
    ∃ sent, ((List.range k).foldl (fun s i => emitSeg mem base total (.ofNat i) s) (e, [])).2 =
        sent.map GoTlsEvent.bytes ∧
      front ((List.range k).foldl (fun s i => emitSeg mem base total (.ofNat i) s) (e, [])).1 =
        front e ∧
      List.Forall₂ (fun bytes => Carries (withData (front e) bytes))
        ((List.range k).filterMap (segmentAt mem base total.toNat)) sent := by
  induction k with
  | zero => exact ⟨[], rfl, rfl, .nil⟩
  | succ k ih =>
    obtain ⟨sent, records, same, carries⟩ := ih (by omega)
    rw [List.range_succ, List.foldl_append, List.foldl_cons, List.foldl_nil, List.filterMap_append]
    generalize (List.range k).foldl (fun s i => emitSeg mem base total (.ofNat i) s) (e, []) = s
      at records same
    by_cases inside : k * 16384 < total.toNat
    · obtain ⟨n, size, step⟩ := emitSeg_of_inside mem base (by omega) inside s
      have segment : segmentAt mem base total.toNat k =
          (mem.read (base + .ofNat (k * 16384)) n).map Vector.toList := by
        rw [segmentAt, if_pos inside, size]
      rw [step]
      generalize base + UInt64.ofNat (k * 16384) = addr at segment
      cases read : mem.read addr n with
      | none =>
        rw [read] at segment
        refine ⟨sent, ?_, same, ?_⟩
        · simpa [UserMemory.probeRead, read] using records
        · simpa [segment] using carries
      | some v =>
        rw [read] at segment
        have one : Carries (withData (front e) v.toList) (withPayload s.1 v) := by
          have len : (withPayload s.1 v).dataLen.toInt = n := toInt_ofNat_small (by omega)
          refine ⟨?_, by omega, by omega⟩
          rw [event_withPayload v (by omega), same]
        refine ⟨sent ++ [withPayload s.1 v], ?_, ?_, ?_⟩
        · simp [UserMemory.probeRead, read, records]
        · simp only [UserMemory.probeRead, read]
          exact same
        · simpa [segment] using List.rel_append carries (.cons one .nil)
    · rw [emitSeg_of_le (by omega) (by omega) s]
      refine ⟨sent, records, same, ?_⟩
      simpa [segmentAt, inside] using carries

namespace Hit

variable {c : Consts} {h : Hit}

theorem traced_iff :
    h.traced c = true ↔ h.fn.Traced h.isRegisterAbi h.ctx.args c h.ctx.task ∧ h.base ≠ 0 := by
  cases fn : h.fn <;> simp [traced, GoTlsFn.Traced, fn, and_assoc, and_comm]

theorem records_of_untraced (slot : GoTlsEvent) (untraced : h.traced c = false) :
    (h.fn.probe c h.isRegisterAbi h.ctx slot).2 = [] := by
  cases passes : passesFilter c h.ctx.task with
  | false => cases fn : h.fn <;> simp [GoTlsFn.probe, gotlsWrite, gotlsRead, passes]
  | true =>
    by_cases null : h.base = 0
    · cases fn : h.fn with
      | write =>
        have null : goGetArgument h.ctx.args h.isRegisterAbi 3 = 0 := by
          simpa [base, fn, GoTlsFn.base] using null
        simp only [GoTlsFn.probe, gotlsWrite, passes, gotlsEmitPayload, null, true_or, if_true]
        split
        · rfl
        · split
          · rfl
          · split <;> rfl
      | read =>
        have null : goGetArgument h.ctx.args false 2 = 0 := by
          simpa [base, fn, GoTlsFn.base] using null
        simp [GoTlsFn.probe, gotlsRead, passes, null]
    · cases fn : h.fn with
      | write =>
        have other : (goGetArgument h.ctx.args h.isRegisterAbi 2).toUInt32.toInt32 ≠
            recordTypeApplicationData := by
          simpa [traced, passes, null, fn] using untraced
        simp only [GoTlsFn.probe, gotlsWrite, passes, other, ne_eq, not_false_eq_true, if_true]
        split
        · rfl
        · split <;> rfl
      | read => simp [traced, passes, null, fn] at untraced

/-- The records of a call carry its segments. -/
theorem records_probe (c : Consts) (h : Hit) (slot : GoTlsEvent) :
    ∃ sent, (h.fn.probe c h.isRegisterAbi h.ctx slot).2 = sent.map GoTlsEvent.bytes ∧
      List.Forall₂ (fun bytes => Carries (h.event bytes)) (h.segments c) sent := by
  cases isTraced : h.traced c with
  | false =>
    refine ⟨[], records_of_untraced slot isTraced, ?_⟩
    rw [segments, isTraced]
    exact .nil
  | true =>
    obtain ⟨traced, nonnull⟩ := traced_iff.mp isTraced
    rw [segments, if_pos isTraced]
    by_cases nonpos : h.fn.totalLen h.isRegisterAbi h.ctx.args ≤ 0
    · have none : h.total = 0 := by
        have nonpos : (h.fn.totalLen h.isRegisterAbi h.ctx.args).toInt ≤ 0 :=
          Int32.le_iff_toInt_le.mp nonpos
        rw [total]
        omega
      refine ⟨[], records_of_nonpos slot nonpos, ?_⟩
      have silent : segmentAt h.ctx.mem h.base h.total = fun _ => Option.none := by
        funext i
        rw [segmentAt, none, if_neg (Nat.not_lt_zero _)]
      rw [silent, List.filterMap_none]
      exact .nil
    · have pos : 0 < h.fn.totalLen h.isRegisterAbi h.ctx.args := Int32.not_le.mp nonpos
      rw [records_of_pos slot traced nonnull nonpos, gotlsEmitPayload,
        if_neg (not_or.mpr ⟨show ¬ h.fn.base h.isRegisterAbi h.ctx.args = 0 from nonnull, nonpos⟩)]
      dsimp only
      obtain ⟨sent, records, -, carries⟩ := foldl_emitSeg h.ctx.mem h.base _
        (headOf h.isRegisterAbi h.fn h.ctx slot) 16 (Nat.le_refl 16)
      rw [toNat_total pos, front_headOf] at carries
      exact ⟨sent, records, carries⟩

/-- The calls beside their segments. -/
def submitted (c : Consts) (h : Hit) : List (Hit × Bytes) := (h.segments c).map (h, ·)

end Hit

/-- Whatever stands in the elements, the records of a run carry the segments of its calls. -/
theorem records_run (c : Consts) (hits : List Hit) (s : Maps) :
    ∃ sent, (hits.foldl (Hit.run c) s).events = s.events ++ sent.map GoTlsEvent.bytes ∧
      List.Forall₂ (fun k => Carries (k.1.event k.2)) (hits.flatMap (Hit.submitted c)) sent := by
  induction hits generalizing s with
  | nil => exact ⟨[], by simp, .nil⟩
  | cons h hits ih =>
    obtain ⟨first, records, carries⟩ := h.records_probe c (s.gteContext h.cpu)
    obtain ⟨rest, run, later⟩ := ih (h.run c s)
    refine ⟨first ++ rest, ?_, ?_⟩
    · rw [List.foldl_cons, run, List.map_append, ← List.append_assoc, ← records]
      rfl
    · rw [List.flatMap_cons]
      refine List.rel_append ?_ later
      exact List.forall₂_map_left_iff.mpr carries

/-- The segments of a buffer that can be read are its bytes. -/
theorem flatten_segmentAt {mem : UserMemory} {byte : UInt64 → UInt8} {base : UInt64} {total : Nat}
    (readable : Readable mem byte base total) (k : Nat) :
    ((List.range k).filterMap (segmentAt mem base total)).flatten =
      bytesAt byte base (min total (k * 16384)) := by
  induction k with
  | zero => simp [bytesAt]
  | succ k ih =>
    rw [List.range_succ, List.filterMap_append, List.flatten_append, ih]
    by_cases inside : k * 16384 < total
    · obtain ⟨v, read, value⟩ :=
        readable (k * 16384) (min (total - k * 16384) 16384) (by omega)
      have segment : segmentAt mem base total k = some v.toList := by
        rw [segmentAt, if_pos inside, read]
        rfl
      have next : min total ((k + 1) * 16384) = k * 16384 + min (total - k * 16384) 16384 := by
        omega
      have front : min total (k * 16384) = k * 16384 := Nat.min_eq_right (by omega)
      rw [next, front, bytesAt_add, ← value, List.filterMap_cons_some segment]
      simp
    · have segment : segmentAt mem base total k = none := by
        rw [segmentAt, if_neg inside]
      have done : min total ((k + 1) * 16384) = min total (k * 16384) := by omega
      rw [done, List.filterMap_cons_none segment]
      simp

/-- The segments of a call that can be read are its payload, up to the cap. -/
theorem Hit.flatten_segments {c : Consts} {h : Hit} (traced : h.traced c = true)
    {byte : UInt64 → UInt8} (readable : Readable h.ctx.mem byte h.base h.total) :
    (h.segments c).flatten = bytesAt byte h.base h.total := by
  have capped : h.total ≤ 16 * 16384 := Nat.min_le_right _ _
  rw [segments, if_pos traced, flatten_segmentAt readable, Nat.min_eq_left capped]

/-! ## Lines -/

def shown (useHex : Bool) (e : GoTLSDataEvent) : Except Fault Bytes :=
  if useHex then e.stringHex else e.string

/-- `tlsDataEventDecoder`. Neither it nor a text panics, so that no default is ever taken. -/
def probe (host : Events.Host) : Probe GoTLSDataEvent :=
  { decode := fun data =>
      (GoTLSDataEvent.decodeFromBytes host data).toOption.getD (.error (.text []))
    validate := GoTLSDataEvent.validate
    string := fun e => e.string.toOption.getD []
    stringHex := fun e => e.stringHex.toOption.getD []
    perfMonoNs := some GoTLSDataEvent.bpfMonoNs }

theorem decode_eq (host : Events.Host) (data : Bytes) :
    GoTLSDataEvent.decodeFromBytes host data = .ok ((probe host).decode data) := by
  have safe : Safe (GoTLSDataEvent.decodeFromBytes host data) := by
    unfold GoTLSDataEvent.decodeFromBytes
    split
    · exact Safe.ok _
    · exact (Events.getTuple_safe _).bind fun _ _ => Safe.ok _
  obtain ⟨result, decoded⟩ := safe
  simp only [probe, decoded, Except.toOption, Option.getD_some]

theorem exists_text (e : GoTLSDataEvent) (note : Bytes) (payload : Bytes → Bytes) :
    ∃ text, e.text note payload = .ok text ∧ text ≠ [] := by
  obtain ⟨tuple, named⟩ := Events.getTuple_safe e
  obtain ⟨data, read⟩ := Events.gotls_getData_safe e
  have safe : Safe (e.text note payload) := by
    rw [GoTLSDataEvent.text, named, read]
    exact Safe.ok _
  obtain ⟨text, isText⟩ := safe
  refine ⟨text, isText, ?_⟩
  rw [GoTLSDataEvent.text, named, read] at isText
  cases isText
  simp [str]

theorem text_eq (host : Events.Host) (out : Output) (e : GoTLSDataEvent) :
    shown out.useHex e = .ok ((probe host).text out e) ∧ (probe host).text out e ≠ [] := by
  obtain ⟨text, isText, nonempty⟩ : ∃ text, shown out.useHex e = .ok text ∧ text ≠ [] := by
    cases out.useHex
    · exact exists_text e _ _
    · exact exists_text e _ _
  have same : (probe host).text out e = (shown out.useHex e).toOption.getD [] := by
    unfold Probe.text shown
    split <;> rfl
  rw [same, isText]
  exact ⟨rfl, nonempty⟩

/-- The text does not depend on whether the tuple has been kept. -/
theorem shown_of_tuple {e : GoTLSDataEvent} {tuple : Bytes} (fresh : e.tuple = [])
    (named : e.getTuple = .ok tuple) (useHex : Bool) :
    shown useHex { e with tuple } = shown useHex e := by
  have kept : GoTLSDataEvent.getTuple { e with tuple } = .ok tuple := by
    by_cases empty : tuple = []
    · have same : { e with tuple } = e := by
        cases e
        simp_all
      rw [same, named]
    · rw [GoTLSDataEvent.getTuple, if_pos empty]
  have text : ∀ note payload, GoTLSDataEvent.text { e with tuple } note payload =
      e.text note payload := by
    intro note payload
    rw [GoTLSDataEvent.text, GoTLSDataEvent.text, kept, named]
    rfl
  cases useHex
  · exact text _ _
  · exact text _ _

/-- The event of a segment is about its call. -/
structure OfCall (k : Hit × Bytes) : Prop where
  pid : (k.1.event k.2).pid = k.1.ctx.task.pid
  tid : (k.1.event k.2).tid = k.1.ctx.task.tid
  direction : (k.1.event k.2).eventType = k.1.fn.eventType
  data : (k.1.event k.2).getData = .ok k.2

/-- What the decoder makes of the records of a call: its event, with the tuple. -/
structure Decoded (k : Hit × Bytes) (e : GoTLSDataEvent) : Prop where
  shown : ∀ useHex, shown useHex e = GoTls.shown useHex (k.1.event k.2)
  valid : e.validate = .ok ()
  ofCall : OfCall k

theorem decoded_of_carries {k : Hit × Bytes} {sent : GoTlsEvent}
    (carries : Carries (k.1.event k.2) sent) (host : Events.Host) (pad : Bytes) :
    ∃ e, (probe host).decode (sent.bytes ++ pad) = .ok e ∧ Decoded k e := by
  obtain ⟨isEvent, nonneg, fits⟩ := carries
  obtain ⟨tuple, named⟩ := Events.getTuple_safe sent.event
  obtain ⟨time, pid, tid⟩ := sameTask_fillFdAndAddr k.1.ctx.mem
    (k.1.fn.conn k.1.isRegisterAbi k.1.ctx.args) (getGotlsEvent k.1.ctx unused)
  have stamped : sent.tsNs ≠ 0 := by
    have own : sent.tsNs = (k.1.event k.2).timestamp := congrArg GoTLSDataEvent.timestamp isEvent
    rw [own]
    exact time.trans_ne k.1.stamped
  have read := decodes_bytes stamped nonneg fits named host pad
  rw [decode_eq] at read
  have len : sent.dataLen.toInt = sent.event.dataLen.toInt := rfl
  refine ⟨_, Except.ok.inj read, ?_, ?_, ?_⟩
  · intro useHex
    rw [shown_of_tuple rfl named, isEvent]
  · have max : (Events.GoTLS.maxGoTLSPayload : Int) = 16384 := rfl
    have whole : ¬ sent.event.dataLen < 0 := by
      rw [Int32.lt_iff_toInt_lt, ← len]
      exact not_lt.mpr nonneg
    rw [GoTLSDataEvent.validate, if_neg (by change ¬ _ < sent.dataLen.toInt; omega),
      if_neg whole]
  · have data : sent.data.toList.take sent.dataLen.toInt.toNat = k.2 :=
      congrArg GoTLSDataEvent.data isEvent
    refine ⟨pid, tid, rfl, ?_⟩
    rw [← isEvent, getData_event sent nonneg fits, data]

/-- For every order of the four programs on any CPUs, whatever stands in the elements of the CPUs,
and any arrival of the records, there is one line for each segment of a call whose record arrives.
It is the text of an event with the task, the direction, the connection and the bytes of this call
alone, and the segments of a buffer that can be read are its bytes, up to 256 KiB. -/
theorem gotls_output_of_calls (c : Consts) (host : Events.Host) (out : Output)
    (lag : Option UInt64) (slots : Nat → GoTlsEvent) (hits : List Hit) {readings : List Reading}
    (arrives : Ssl.Arrives (hits.foldl (Hit.run c) ⟨slots, []⟩).events
      (readings.filterMap Reading.rawSample)) :
    ∃ (seen : List (Hit × Bytes)) (lines : List Bytes),
      seen.Subperm (hits.flatMap (Hit.submitted c)) ∧
      ((readings.filterMap Reading.rawSample).length =
          (hits.foldl (Hit.run c) ⟨slots, []⟩).events.length →
        seen.Perm (hits.flatMap (Hit.submitted c))) ∧
      List.Forall₂ (fun k line => OfCall k ∧ Prints (shown out.useHex (k.1.event k.2)) line)
        seen lines ∧
      (startPerfEventReader (probe host) out lag readings).lines = taken out.writerOk 0 lines ∧
      ∀ h ∈ hits, h.traced c = true → ∀ byte, Readable h.ctx.mem byte h.base h.total →
        (h.segments c).flatten = bytesAt byte h.base h.total := by
  obtain ⟨sent, records, carries⟩ := records_run c hits ⟨slots, []⟩
  rw [List.nil_append] at records
  have described : List.Forall₂ (fun k r => ∃ sent, Carries (k.1.event k.2) sent ∧ r = sent.bytes)
      (hits.flatMap (Hit.submitted c)) (hits.foldl (Hit.run c) ⟨slots, []⟩).events := by
    rw [records]
    exact List.forall₂_map_right_iff.mpr (carries.imp fun _ sent carries => ⟨sent, carries, rfl⟩)
  have decodes : ∀ (k : Hit × Bytes) (r pad : Bytes),
      (∃ sent, Carries (k.1.event k.2) sent ∧ r = sent.bytes) →
      ∃ e, (probe host).decode (r ++ pad) = .ok e ∧ Decoded k e := by
    rintro k _ pad ⟨sent, carries, rfl⟩
    exact decoded_of_carries carries host pad
  obtain ⟨seen, events, sub, all, made, lines⟩ :=
    lines_of_records out lag decodes described arrives
  have gives : ∀ e ∈ events,
      given (probe host) out e = [Ssl.withNewline ((probe host).text out e)] := by
    intro e mem
    obtain ⟨_, -, decoded⟩ := exists_mem_left made mem
    exact given_of_valid decoded.valid (text_eq host out e).2
  rw [flatMap_given gives] at lines
  refine ⟨seen, _, sub, all, ?_, lines, fun h _ traced byte => Hit.flatten_segments traced⟩
  rw [List.forall₂_map_right_iff]
  refine made.imp fun k e decoded => ⟨decoded.ofCall, _, ?_, rfl⟩
  rw [← decoded.shown, (text_eq host out e).1]

/-- On one CPU a process reads 16389 bytes, and then another one writes 5. -/
def readThenWrite : List Hit :=
  [{ cpu := 0, isRegisterAbi := true, fn := .read, ctx := readOf16389, stamped := by decide },
    { cpu := 0, isRegisterAbi := true, fn := .write
      ctx :=
        { readOf16389 with
          task := { readOf16389.task with pidTgid := 0x900000009 }
          args := { reg := fun i => [0, 64, 23, 8192, 5].getD i 0, stack := fun _ => 0 } }
      stamped := by decide }]

theorem gotls_output_of_calls_read_then_write :
    (readThenWrite.all fun h => h.traced .unfiltered) = true ∧
    readThenWrite.map Hit.total = [16389, 5] ∧
    ∃ (seen : List (Hit × Bytes)) (lines : List Bytes),
      seen.Perm (readThenWrite.flatMap (Hit.submitted .unfiltered)) ∧
      List.Forall₂ (fun k line => OfCall k ∧ Prints (shown true (k.1.event k.2)) line)
        seen lines ∧
      (startPerfEventReader (probe ⟨0, 1, fun _ => []⟩) ⟨true, fun _ => true⟩ (some 1000)
        ((readThenWrite.foldl (Hit.run .unfiltered) ⟨fun _ => unused, []⟩).events.map
          .record)).lines = lines := by
  let records := (readThenWrite.foldl (Hit.run .unfiltered) ⟨fun _ => unused, []⟩).events
  obtain ⟨seen, lines, -, all, prints, run, -⟩ :=
    gotls_output_of_calls .unfiltered ⟨0, 1, fun _ => []⟩ ⟨true, fun _ => true⟩ (some 1000)
      (fun _ => unused) readThenWrite (arrives_all records)
  rw [taken_of_always fun _ => rfl] at run
  exact ⟨by decide, by decide, seen, lines, all (by rw [filterMap_rawSample]), prints, run⟩

end ECapture.Kernel.GoTls
