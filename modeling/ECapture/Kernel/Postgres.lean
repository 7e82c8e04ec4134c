import ECapture.Kernel.Windows

/-!
# Statements of PostgreSQL servers

`kern/postgres_kern.c` and `internal/probe/postgres`. The program runs when a server process enters
`exec_simple_query`. The text of an event shows a hundred bytes of a statement, which the window of
256 bytes always holds; in hexadecimal it shows 32 bytes of the window, whether or not they belong
to the statement.
-/

namespace ECapture.Kernel.Postgres
open Library Events.ReaderLoop

/-! ## The kernel side -/

/-- `struct data_t`. -/
structure DataT where
  pid : UInt64
  timestamp : UInt64
  query : Vector UInt8 windowSize
  comm : Vector UInt8 16

def DataT.bytes (data : DataT) : Bytes :=
  leBytes 8 data.pid.toNat ++ (leBytes 8 data.timestamp.toNat ++ (data.query.toList ++
    data.comm.toList))

/-- A call of `exec_simple_query`. -/
structure Query where
  task : Task
  ktime : UInt64
  mem : UserMemory
  queryString : UInt64

def Query.data (q : Query) : DataT :=
  { pid := q.task.pid.toUInt64
    timestamp := q.ktime
    query := (q.mem.probeRead q.queryString windowSize).2
    comm := q.task.comm }

/-- The program, with the record that it emits. -/
def postgresQuery (c : Consts) (q : Query) : Option Bytes :=
  if !passesFilter c q.task then none else some q.data.bytes

/-! ## Events -/

structure Event where
  pid : UInt64
  timestamp : UInt64
  query : Vector UInt8 windowSize
  comm : Vector UInt8 16

namespace Event

/-- `binary.Read` of one field, with the error of this probe. -/
def field {α : Type} (name : String) (r : Reader ReadError α) : Reader Error α :=
  r.mapError fun e => .wrap .eventDecode (str "failed to decode " ++ str name) (.text e.message)

def decodeFields : Reader Error Event := do
  let pid ← field "PID" readU64
  let timestamp ← field "timestamp" readU64
  let query ← field "query" (readFull windowSize)
  let comm ← field "comm" (readFull 16)
  return { pid, timestamp, query, comm }

/-- `binary.Size` of an event. -/
def size : Nat := 288

def decodeFromBytes (data : Bytes) : Except Error Event :=
  if data.length < size then
    .error (.new .eventDecode (str "insufficient data for PostgreSQL event"))
  else decodeFields.run data

def validate (e : Event) : Except Error Unit :=
  if e.pid = 0 then .error (.new .eventValidation (str "invalid event: PID is zero"))
  else if e.timestamp = 0 then
    .error (.new .eventValidation (str "invalid event: timestamp is zero"))
  else .ok ()

/-- A statement as `String` shows it. -/
def truncated (query : Bytes) : Bytes :=
  if 100 < query.length then query.take 100 ++ str "..." else query

def string (e : Event) : Bytes :=
  str "PID=" ++ dec e.pid.toNat ++ str " Comm=" ++ Events.commToString e.comm.toList ++
    str " Query=" ++ truncated (Events.commToString e.query.toList)

def stringHex (e : Event) : Bytes :=
  str "PID=0x" ++ hexInt 0 e.pid.toNat ++ str " Timestamp=0x" ++ hexInt 0 e.timestamp.toNat ++
    str " Query=" ++ hex (e.query.toList.take 32) ++ str " Comm=" ++ hex e.comm.toList

/-- What is in the record. -/
def wire (e : Event) : Bytes :=
  leBytes 8 e.pid.toNat ++ (leBytes 8 e.timestamp.toNat ++ (e.query.toList ++ e.comm.toList))

theorem reads_decodeFields : Reads size (fun _ => True) wire decodeFields := by
  have fields : Reads (8 + (8 + (windowSize + 16))) (fun _ => True) wire decodeFields := by
    refine (Reads.readU64.mapError _).bind pid fun _ => ?_
    refine (Reads.readU64.mapError _).bind timestamp fun _ => ?_
    refine ((Reads.readFull _).mapError _).bind query fun _ => ?_
    refine ((Reads.readFull _).mapError _).last comm fun _ e => ?_
    cases e
    simp [and_assoc]
  exact fields

end Event

/-- `postgresEventDecoder.Decode`. -/
def decode (rawData : Bytes) : Except Error Event :=
  (Event.decodeFromBytes rawData).mapError
    (.wrap .eventDecode (str "failed to decode PostgreSQL event"))

def probe : Probe Event :=
  { decode
    validate := Event.validate
    string := Event.string
    stringHex := Event.stringHex
    perfMonoNs := some Event.timestamp }

/-! ## From statements to lines -/

/-- The event of a call. -/
def Query.event (q : Query) : Event :=
  ⟨q.data.pid, q.data.timestamp, q.data.query, q.data.comm⟩

/-- The filter lets the call pass, and its event is valid. -/
def Query.shown (c : Consts) (q : Query) : Bool :=
  passesFilter c q.task && (q.task.pid != 0 && q.ktime != 0)

def Query.line (useHex : Bool) (q : Query) : Bytes :=
  Ssl.withNewline (if useHex then q.event.stringHex else q.event.string)

/-- The text of the call when this statement is executed. -/
def Query.plain (q : Query) (statement : Bytes) : Bytes :=
  str "PID=" ++ dec q.task.pid.toNat ++ str " Comm=" ++ Events.commToString q.task.comm.toList ++
    str " Query=" ++ Event.truncated statement

theorem decode_record {c : Consts} {q : Query} {record : Bytes}
    (emitted : postgresQuery c q = some record) (pad : Bytes) :
    decode (record ++ pad) = .ok q.event := by
  have isRecord : record = q.event.wire := by
    unfold postgresQuery at emitted
    split at emitted
    · cases emitted
    · exact (Option.some.inj emitted).symm
  have length := Event.reads_decodeFields.length_write (a := q.event) trivial
  rw [← isRecord] at length
  have long : ¬ (record ++ pad).length < Event.size := by
    rw [List.length_append, length]
    omega
  rw [decode, Event.decodeFromBytes, if_neg long, isRecord,
    Event.reads_decodeFields.run_write trivial]
  rfl

theorem given_event (out : Output) (q : Query) :
    given probe out q.event =
      if q.task.pid != 0 && q.ktime != 0 then [q.line out.useHex] else [] := by
  have isPid : q.event.pid = 0 ↔ q.task.pid = 0 := by
    change q.task.pid.toUInt64 = 0 ↔ _
    rw [← UInt64.toNat_inj, ← UInt32.toNat_inj]
    simp
  by_cases noPid : q.task.pid = 0
  · have invalid : probe.validate q.event = .error _ := if_pos (isPid.mpr noPid)
    rw [given_of_invalid invalid, if_neg (by simp [noPid])]
  · by_cases noTime : q.ktime = 0
    · have invalid : probe.validate q.event = .error _ :=
        (if_neg (mt isPid.mp noPid)).trans (if_pos noTime)
      rw [given_of_invalid invalid, if_neg (by simp [noTime])]
    · have valid : probe.validate q.event = .ok () :=
        (if_neg (mt isPid.mp noPid)).trans (if_neg noTime)
      have nonempty : probe.text out q.event ≠ [] := by
        unfold Probe.text
        split <;> simp [probe, Event.stringHex, Event.string, str]
      rw [given_of_valid valid nonempty, if_pos (by simp [noPid, noTime])]
      rfl

/-- The window is long enough for what `String` shows. -/
theorem line_of_statement {q : Query} {statement : Bytes}
    (holds : HoldsString q.mem q.queryString statement) :
    q.line false = Ssl.withNewline (q.plain statement) := by
  have text : Events.commToString q.event.query.toList = statement.take windowSize :=
    windowText_of_string holds
  have cut : Event.truncated (statement.take windowSize) = Event.truncated statement := by
    by_cases long : 100 < statement.length
    · have stillLong : 100 < (statement.take windowSize).length := by
        rw [List.length_take]
        exact lt_min (by decide) long
      rw [Event.truncated, Event.truncated, if_pos stillLong, if_pos long, List.take_take]
      rfl
    · rw [List.take_of_length_le]
      exact (not_lt.mp long).trans (by decide)
  have pid : q.event.pid.toNat = q.task.pid.toNat := UInt32.toNat_toUInt64 _
  rw [Query.line, if_neg (by simp), Event.string, text, cut, pid]
  rfl

theorem line_of_fault {q : Query} (fault : q.mem.read q.queryString windowSize = none) :
    q.line false = Ssl.withNewline (q.plain []) := by
  have text : Events.commToString q.event.query.toList = [] := windowText_of_fault fault
  have pid : q.event.pid.toNat = q.task.pid.toNat := UInt32.toNat_toUInt64 _
  rw [Query.line, if_neg (by simp), Event.string, text, pid]
  rfl

/-- For statements of any server processes, any arrival of their records and either reader loop, the
text handler is given one line for each shown statement whose record arrives. In plain text it is
the statement, up to a hundred bytes of it, or nothing of it if its window cannot be read. -/
theorem postgres_output_of_queries (c : Consts) (out : Output) (lag : Option UInt64)
    {queries : List Query} {readings : List Reading}
    (arrives : Ssl.Arrives (queries.filterMap (postgresQuery c))
      (readings.filterMap Reading.rawSample)) :
    ∃ seen : List Query, seen.Subperm (queries.filter (Query.shown c)) ∧
      ((readings.filterMap Reading.rawSample).length =
          (queries.filterMap (postgresQuery c)).length →
        seen.Perm (queries.filter (Query.shown c))) ∧
      (startPerfEventReader probe out lag readings).lines =
        taken out.writerOk 0 (seen.map (Query.line out.useHex)) ∧
      ∀ q ∈ seen,
        (∀ statement, HoldsString q.mem q.queryString statement →
          q.line false = Ssl.withNewline (q.plain statement)) ∧
        (q.mem.read q.queryString windowSize = none →
          q.line false = Ssl.withNewline (q.plain [])) := by
  have isShown : (fun q => (postgresQuery c q).isSome && (q.task.pid != 0 && q.ktime != 0)) =
      Query.shown c := by
    funext q
    cases passes : passesFilter c q.task <;> simp [postgresQuery, Query.shown, passes]
  have lines := lines_of_calls out lag (fun q record pad emitted => decode_record emitted pad)
    (given_event out) arrives
  rw [isShown] at lines
  obtain ⟨seen, sub, all, lines⟩ := lines
  exact ⟨seen, sub, all, lines, fun q _ => ⟨fun _ => line_of_statement, line_of_fault⟩⟩

/-- Process 7 executes `SELECT 1`, with zeros behind it in memory. -/
def selectOne : Query :=
  { task := { pidTgid := 0x700000007, uidGid := 0, cgroupId := 0, comm := zeros 16 }
    ktime := 5
    mem := ⟨fun _ _ => some (Vector.ofFn fun i => (str "SELECT 1").getD i 0)⟩
    queryString := 0x1000 }

def selectOneReadings : List Reading :=
  [.lost 3, .record (selectOne.data.bytes ++ [0, 0, 0, 0]), .failed]

theorem postgres_output_of_queries_select_one :
    (startPerfEventReader probe ⟨false, fun _ => true⟩ (some 1000) selectOneReadings).lines =
      [selectOne.line false] := by
  have passes : postgresQuery .unfiltered selectOne = some selectOne.data.bytes :=
    if_neg (by decide)
  have records : [selectOne].filterMap (postgresQuery .unfiltered) = [selectOne.data.bytes] := by
    simp only [List.filterMap_cons, passes, List.filterMap_nil]
  have samples : selectOneReadings.filterMap Reading.rawSample =
      [selectOne.data.bytes ++ [0, 0, 0, 0]] := by
    simp [selectOneReadings, List.filterMap_cons, Reading.rawSample]
  have arrives : Ssl.Arrives ([selectOne].filterMap (postgresQuery .unfiltered))
      (selectOneReadings.filterMap Reading.rawSample) :=
    ⟨_, .refl _, by rw [records, samples]; exact .cons ⟨_, rfl⟩ .nil⟩
  obtain ⟨seen, -, all, lines, -⟩ :=
    postgres_output_of_queries .unfiltered ⟨false, fun _ => true⟩ (some 1000) arrives
  have isShown : selectOne.shown .unfiltered = true := by decide
  have shown : [selectOne].filter (Query.shown .unfiltered) = [selectOne] := by simp [isShown]
  have one : seen = [selectOne] := by
    have perm := all (by simp [records, samples])
    rwa [shown, List.perm_singleton] at perm
  rw [lines, taken_of_always fun _ => rfl, one]
  rfl

end ECapture.Kernel.Postgres
