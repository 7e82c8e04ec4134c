import ECapture.Kernel.Windows

/-!
# Lines of zsh

`kern/zsh_kern.c` and `internal/probe/zsh`. The program runs when `zleentry` returns the line that
has been read. The event shows all of the window but a newline at its end. The kernel sends type 4,
where the Go side has 0 for a line; nothing looks at the type.
-/

namespace ECapture.Kernel.Zsh
open Library Events.ReaderLoop

/-! ## The kernel side -/

/-- `ZSH_EVENT_TYPE_READLINE` of `common.h`. -/
def zshEventTypeReadline : UInt32 := 4

/-- `struct event`, and the type that reads it. -/
structure Event where
  zshType : UInt32
  pid : UInt32
  uid : UInt32
  comm : Vector UInt8 16
  line : Vector UInt8 windowSize

def Event.bytes (e : Event) : Bytes :=
  leBytes 4 e.zshType.toNat ++ (leBytes 4 e.pid.toNat ++ (leBytes 4 e.uid.toNat ++
    (e.comm.toList ++ e.line.toList)))

/-- A return of `zleentry`. -/
structure Read where
  task : Task
  mem : UserMemory
  rc : UInt64

def Read.event (r : Read) : Event :=
  { zshType := zshEventTypeReadline
    pid := r.task.pid
    uid := r.task.uid
    comm := r.task.comm
    line := (r.mem.probeRead r.rc windowSize).2 }

/-- The program, with the record that it emits. -/
def uretprobeZshZleentry (c : Consts) (r : Read) : Option Bytes :=
  if !passesFilter c r.task then none else some r.event.bytes

/-! ## Events -/

namespace Event

def decodeFields : Reader Error Event := do
  let zshType ← Events.field "zsh event: ZshType" readU32
  let pid ← Events.field "zsh event: Pid" readU32
  let uid ← Events.field "zsh event: Uid" readU32
  let comm ← Events.field "zsh event: Comm" (readFull 16)
  let line ← Events.field "zsh event: Line" (readFull windowSize)
  return { zshType, pid, uid, comm, line }

def decodeFromBytes (data : Bytes) : Except Error Event :=
  if data.length = 0 then .error (newEventDecodeError (str "zsh event") (.text (str "empty data")))
  else decodeFields.run data

/-- `strings.TrimSuffix` of a newline. -/
def trimNewline (line : Bytes) : Bytes := if line.getLast? = some 10 then line.dropLast else line

/-- The text up to the line. -/
def header (pid uid : UInt32) (comm : Vector UInt8 16) : Bytes :=
  str "PID:" ++ dec pid.toNat ++ str ", UID:" ++ dec uid.toNat ++ str ", \tComm:" ++
    Events.commToString comm.toList

def string (e : Event) : Bytes :=
  header e.pid e.uid e.comm ++ str ", \tLine:\n" ++
    trimNewline (Events.commToString e.line.toList)

def stringHex (e : Event) : Bytes :=
  header e.pid e.uid e.comm ++ str ", \tLine(hex):\n" ++
    hex (trimNewline (Events.commToString e.line.toList))

theorem reads_decodeFields : Reads 284 (fun _ => True) bytes decodeFields := by
  have fields : Reads (4 + (4 + (4 + (16 + windowSize)))) (fun _ => True) bytes decodeFields := by
    refine (Events.reads_field _ .readU32).bind zshType fun _ => ?_
    refine (Events.reads_field _ .readU32).bind pid fun _ => ?_
    refine (Events.reads_field _ .readU32).bind uid fun _ => ?_
    refine (Events.reads_field _ (.readFull _)).bind comm fun _ => ?_
    refine (Events.reads_field _ (.readFull _)).last line fun _ e => ?_
    cases e
    simp [and_assoc]
  exact fields

end Event

/-- `zshEventDecoder`; the events have no `PerfMonoNs` and are always valid. -/
def probe : Probe Event :=
  { decode := Event.decodeFromBytes
    validate := fun _ => .ok ()
    string := Event.string
    stringHex := Event.stringHex
    perfMonoNs := none }

/-! ## From lines to output -/

def Read.output (useHex : Bool) (r : Read) : Bytes :=
  Ssl.withNewline (if useHex then r.event.stringHex else r.event.string)

/-- The text of the call that returns this line. -/
def Read.text (useHex : Bool) (r : Read) (line : Bytes) : Bytes :=
  Event.header r.task.pid r.task.uid r.task.comm ++
    if useHex then str ", \tLine(hex):\n" ++ hex (Event.trimNewline line)
    else str ", \tLine:\n" ++ Event.trimNewline line

theorem decode_record {c : Consts} {r : Read} {record : Bytes}
    (emitted : uretprobeZshZleentry c r = some record) (pad : Bytes) :
    Event.decodeFromBytes (record ++ pad) = .ok r.event := by
  have isRecord : record = r.event.bytes := by
    unfold uretprobeZshZleentry at emitted
    split at emitted
    · cases emitted
    · exact (Option.some.inj emitted).symm
  have length := Event.reads_decodeFields.length_write (a := r.event) trivial
  rw [← isRecord] at length
  have nonempty : ¬ (record ++ pad).length = 0 := by
    rw [List.length_append, length]
    omega
  rw [Event.decodeFromBytes, if_neg nonempty, isRecord]
  exact Event.reads_decodeFields.run_write trivial pad

theorem given_event (out : Output) (r : Read) :
    given probe out r.event = if true then [r.output out.useHex] else [] := by
  have nonempty : probe.text out r.event ≠ [] := by
    unfold Probe.text
    split <;> simp [probe, Event.stringHex, Event.string, Event.header, str]
  rw [if_pos rfl]
  exact given_of_valid rfl nonempty

/-- The output depends on the text of the window only. -/
theorem output_of_window {r : Read} {line : Bytes} (text : windowText r.mem r.rc = line)
    (useHex : Bool) : r.output useHex = Ssl.withNewline (r.text useHex line) := by
  have same : Events.commToString r.event.line.toList = line := text
  cases useHex <;> simp [Read.output, Read.text, Event.string, Event.stringHex, same] <;> rfl

/-- For lines read by any shells and any arrival of their records, the text handler is given one
output for each line of a shell that the filter lets pass and whose record arrives. It shows the
first 256 bytes of the line without a newline at their end, or nothing if the window of the line
cannot be read. -/
theorem zsh_output_of_lines (c : Consts) (out : Output) (lag : Option UInt64) {reads : List Read}
    {readings : List Reading}
    (arrives : Ssl.Arrives (reads.filterMap (uretprobeZshZleentry c))
      (readings.filterMap Reading.rawSample)) :
    ∃ seen : List Read, seen.Subperm (reads.filter fun r => passesFilter c r.task) ∧
      ((readings.filterMap Reading.rawSample).length =
          (reads.filterMap (uretprobeZshZleentry c)).length →
        seen.Perm (reads.filter fun r => passesFilter c r.task)) ∧
      (startPerfEventReader probe out lag readings).lines =
        taken out.writerOk 0 (seen.map (Read.output out.useHex)) ∧
      ∀ r ∈ seen,
        (∀ line, HoldsString r.mem r.rc line →
          r.output out.useHex = Ssl.withNewline (r.text out.useHex (line.take windowSize))) ∧
        (r.mem.read r.rc windowSize = none →
          r.output out.useHex = Ssl.withNewline (r.text out.useHex [])) := by
  have isShown : (fun r : Read => (uretprobeZshZleentry c r).isSome && true) =
      fun r => passesFilter c r.task := by
    funext r
    cases passes : passesFilter c r.task <;> simp [uretprobeZshZleentry, passes]
  have lines := lines_of_calls out lag (fun r record pad emitted => decode_record emitted pad)
    (given_event out) arrives
  rw [isShown] at lines
  obtain ⟨seen, sub, all, lines⟩ := lines
  exact ⟨seen, sub, all, lines, fun r _ =>
    ⟨fun line holds => output_of_window (windowText_of_string holds) _,
      fun fault => output_of_window (windowText_of_fault fault) _⟩⟩

/-- Shell 7 of user 1000 reads `ls`, with zeros behind it in memory. -/
def readLs : Read :=
  { task := { pidTgid := 0x700000007, uidGid := 1000, cgroupId := 0, comm := zeros 16 }
    mem := ⟨fun _ _ => some (Vector.ofFn fun i => (str "ls\n").getD i 0)⟩
    rc := 0x1000 }

def readLsReadings : List Reading := [.record (readLs.event.bytes ++ [0, 0, 0, 0]), .lost 1]

theorem zsh_output_of_lines_ls :
    (startPerfEventReader probe ⟨true, fun _ => true⟩ none readLsReadings).lines =
      [readLs.output true] := by
  have passes : uretprobeZshZleentry .unfiltered readLs = some readLs.event.bytes :=
    if_neg (by decide)
  have records : [readLs].filterMap (uretprobeZshZleentry .unfiltered) =
      [readLs.event.bytes] := by
    simp only [List.filterMap_cons, passes, List.filterMap_nil]
  have samples : readLsReadings.filterMap Reading.rawSample =
      [readLs.event.bytes ++ [0, 0, 0, 0]] := by
    simp [readLsReadings, List.filterMap_cons, Reading.rawSample]
  have arrives : Ssl.Arrives ([readLs].filterMap (uretprobeZshZleentry .unfiltered))
      (readLsReadings.filterMap Reading.rawSample) :=
    ⟨_, .refl _, by rw [records, samples]; exact .cons ⟨_, rfl⟩ .nil⟩
  obtain ⟨seen, -, all, lines, -⟩ :=
    zsh_output_of_lines .unfiltered ⟨true, fun _ => true⟩ none arrives
  have isShown : passesFilter .unfiltered readLs.task = true := by decide
  have one : seen = [readLs] := by
    have perm := all (by simp [records, samples])
    simpa [isShown] using perm
  rw [lines, taken_of_always fun _ => rfl, one]
  rfl

end ECapture.Kernel.Zsh
