import ECapture.Pcap.Count
import ECapture.Probe.OpenSSL

/-!
# The files of a probe after it is closed

`FileWriter` of `internal/output/writers/file_writer.go` under the text, key log and pcapng handlers,
and what `BaseProbe.Close` and `Dispatcher.Close` do to it. The two pcapng handlers share one
`PcapWriter`, and only one of them closes the file below it.

While a probe captures, its outputs are a machine. Closing is a relation, since `PcapWriter.Close`
waits for its `Serve` goroutine, which may take its steps in any order. `closes` counts the calls of
`os.File.Close`, and `written` is all that has been given to `Write`. Writes to an open file succeed;
whether `fsync` does depends on the file.
-/

namespace ECapture.Probe.Output
open Library

/-! ## File writers -/

/-- `BufferSize` of the pcapng file. -/
def bufferSize : Nat := 65536

/-- `bufio.Writer.Write`: what goes to the file, and the buffer. -/
def bufioWrite (buf p : Bytes) : Bytes × Bytes :=
  if p.length ≤ bufferSize - buf.length then ([], buf ++ p)
  else if buf = [] then (p, [])
  else
    -- the buffer is filled and flushed, and the rest goes on with an empty one
    let filled := buf ++ p.take (bufferSize - buf.length)
    let rest := p.drop (bufferSize - buf.length)
    if rest.length ≤ bufferSize then (filled, rest) else (filled ++ rest, [])

structure FileWriter where
  /-- What the `bufio.Writer` holds, where there is one. -/
  buffered : Option Bytes
  file : Bytes
  isOpen : Bool
  syncs : Bool
  closes : Nat
  written : Bytes

namespace FileWriter

/-- `NewFileWriter` on a file with this content. -/
def new (isBuffered : Bool) (content : Bytes) (syncs : Bool) : FileWriter :=
  { buffered := if isBuffered then some [] else none
    file := content
    isOpen := true
    syncs
    closes := 0
    written := content }

def write (p : Bytes) (w : FileWriter) : FileWriter :=
  if !w.isOpen then w
  else
    match w.buffered with
    | some buf =>
      { w with
        buffered := some (bufioWrite buf p).2
        file := w.file ++ (bufioWrite buf p).1
        written := w.written ++ p }
    | none => { w with file := w.file ++ p, written := w.written ++ p }

/-- Whether there was no error, and the writer. -/
def flush (w : FileWriter) : Bool × FileWriter :=
  match w.buffered with
  | some buf =>
    if buf = [] then (true, w)
    else if w.isOpen then (true, { w with buffered := some [], file := w.file ++ buf })
    else (false, w)
  | none => (w.isOpen && w.syncs, w)

def close (w : FileWriter) : Bool × FileWriter :=
  match w.flush with
  | (false, w) => (false, w)
  | (true, w) =>
    match if w.buffered.isSome then w.flush else (true, w) with
    | (false, w) => (false, w)
    | (true, w) => (w.isOpen, { w with isOpen := false, closes := w.closes + 1 })

/-- `KeylogHandler.Close` over a `KeylogWriter`. -/
def closeKeylog (w : FileWriter) : Bool × FileWriter :=
  match w.flush with
  | (false, w) => (false, w)
  | (true, w) => w.close

end FileWriter

/-! ## The pcapng file -/

/-- What the `NgWriter` writes: the section header with the interfaces, and the blocks. -/
structure Format where
  header : Bytes
  encode : Pcap.Block → Bytes

def Format.output (f : Format) (pw : Pcap.PcapWriter) : Bytes :=
  f.header ++ pw.writer.blocks.flatMap f.encode

/-- A `PcapWriter` and the file writer below it. -/
structure PcapOutput where
  pw : Pcap.PcapWriter
  file : FileWriter

/-- What the `NgWriter` has not yet handed to the file writer. -/
def PcapOutput.rest (f : Format) (p : PcapOutput) : Bytes :=
  (f.output p.pw).drop p.file.written.length

/-- `Flush` of the `NgWriter`, in the pieces of its own buffer. -/
def PcapOutput.HandsOver (f : Format) (p : PcapOutput) (file : FileWriter) : Prop :=
  ∃ pieces : List Bytes, pieces.flatten = p.rest f ∧
    file = pieces.foldl (fun w piece => w.write piece) p.file

/-- The method `Flush` of the `PcapWriter`. -/
def PcapOutput.Flush (f : Format) (p q : PcapOutput) : Prop :=
  Pcap.step Pcap.neverFails p.pw .flush = some q.pw ∧
    if p.pw.serve = .returned then p.HandsOver f q.file else q.file = p.file

/-- What the `Serve` goroutine does on its own. -/
def isServe : Pcap.Act → Bool
  | .deadline | .tick | .recvPacket | .recvKeylog | .ctxDone | .drain => true
  | _ => false

/-- `PcapWriter.Close` with its error. A second call does nothing. -/
inductive PcapOutput.Close (f : Format) : PcapOutput → Option Error → PcapOutput → Prop where
  | again {p : PcapOutput} {pw : Pcap.PcapWriter} (closed : p.pw.isClosed = true)
    (called : Pcap.step Pcap.neverFails p.pw .close = some pw) : Close f p none ⟨pw, p.file⟩
  | first {p : PcapOutput} {called served closed final : Pcap.PcapWriter} {file : FileWriter}
    {err : Option Error} (isOpen : p.pw.isClosed = false)
    (call : Pcap.step Pcap.neverFails p.pw .close = some called)
    (serve : Relation.ReflTransGen
      ((Pcap.pcapWriter Pcap.neverFails).Next fun _ a => isServe a = true) called served)
    (chans : Pcap.step Pcap.neverFails served .closeChans = some closed)
    (ret : Pcap.step Pcap.neverFails closed .closeReturn = some final)
    (result : final.closeResults = closed.closeResults ++ [err])
    (flushed : PcapOutput.HandsOver f ⟨closed, p.file⟩ file) : Close f p err ⟨final, file⟩

/-! ## The outputs of a probe -/

/-- The handlers that are registered with the dispatcher. -/
inductive Handler where
  | text
  | keylog
  | pcapng
  | pcapKeylog
  deriving DecidableEq

/-- The writer of the text handler where it is a file, the key log file, and the pcapng file. -/
structure Outputs where
  text : Option FileWriter
  keylog : Option FileWriter
  pcap : Option PcapOutput

def Outputs.registered (s : Outputs) : List Handler :=
  .text :: ((if s.keylog.isSome then [.keylog] else []) ++
    if s.pcap.isSome then [.pcapng, .pcapKeylog] else [])

def Outputs.files (s : Outputs) : List FileWriter :=
  s.text.toList ++ s.keylog.toList ++ (s.pcap.map PcapOutput.file).toList

/-- The text file is opened for appending, so it may have a content. The other files are truncated;
`NewPcapWriter` flushes the header. -/
structure Setup where
  text : Option (Bytes × Bool)
  keylog : Option Bool
  pcap : Option Bool

def Setup.open (f : Format) (setup : Setup) : Outputs :=
  { text := setup.text.map fun (content, syncs) => .new false content syncs
    keylog := setup.keylog.map (.new false [])
    pcap := setup.pcap.map fun syncs => ⟨Pcap.newPcapWriter, (FileWriter.new true [] syncs).write f.header⟩ }

/-- A handler of the probe, without its path. -/
def Handler.ofSpec : HandlerSpec → Handler
  | .keylog _ => .keylog
  | .pcapng _ => .pcapng
  | .pcapKeylog _ => .pcapKeylog

/-- The files of the handlers that a probe has registered; `syncs` is asked for each path. -/
def Setup.ofSpecs (text : Option (Bytes × Bool)) (syncs : String → Bool) (specs : List HandlerSpec) :
    Setup :=
  { text
    keylog := specs.findSome? fun
      | .keylog path => some (syncs path)
      | _ => none
    pcap := specs.findSome? fun
      | .pcapng path => some (syncs path)
      | _ => none }

/-- In pcap mode the dispatcher has the text handler and those of `setupManagerPcapNG`. -/
theorem registered_pcapNG (f : Format) (text : Option (Bytes × Bool)) (syncs : String → Bool) {os : Os}
    {cfg : Config} {specs : List HandlerSpec} {m : Manager}
    (setup : setupManagerPcapNG os cfg = (specs, .ok m)) :
    ((Setup.ofSpecs text syncs specs).open f).registered = .text :: specs.map Handler.ofSpec := by
  obtain ⟨-, rfl⟩ := setupManagerPcapNG_ok setup
  unfold keylogFileHandler
  split <;> rfl

/-- What happens while the probe captures: writes of the handlers, the steps of the `PcapWriter`, and
bytes that its `NgWriter` hands to the file writer. -/
inductive Act where
  | text (p : Bytes)
  | keylog (p : Bytes)
  | pcap (a : Pcap.Act)
  | handOver (n : Nat)

/-- The calls and steps that are no part of `Close`. -/
def isCapture : Pcap.Act → Bool
  | .writePacket _ _ | .writeKeyLog _ | .flush => true
  | a => isServe a

/-- A step of the `PcapWriter` while the probe captures. -/
def writerStep (pw : Pcap.PcapWriter) (a : Pcap.Act) : Option Pcap.PcapWriter :=
  if isCapture a then Pcap.step Pcap.neverFails pw a else none

def captureStep (f : Format) (s : Outputs) : Act → Option Outputs
  | .text p => some { s with text := s.text.map (FileWriter.write p) }
  | .keylog p => some { s with keylog := s.keylog.map (FileWriter.write p) }
  | .pcap a => do
    let p ← s.pcap
    let pw ← writerStep p.pw a
    return { s with pcap := some { p with pw } }
  | .handOver n => do
    let p ← s.pcap
    return { s with pcap := some { p with file := p.file.write ((p.rest f).take n) } }

def capture (f : Format) (setup : Setup) : Machine Outputs Act :=
  { init := setup.open f, step := captureStep f }

/-! ## Closing -/

/-- `Close` of a handler. -/
inductive Handler.Close (f : Format) : Handler → Outputs → Outputs → Prop where
  | text (s : Outputs) : Close f .text s { s with text := s.text.map fun w => w.close.2 }
  | keylog (s : Outputs) : Close f .keylog s { s with keylog := s.keylog.map fun w => w.closeKeylog.2 }
  | pcapng {s : Outputs} {p q : PcapOutput} (found : s.pcap = some p) (closed : p.Close f none q) :
    Close f .pcapng s { s with pcap := some { q with file := q.file.close.2 } }
  /-- The error is returned before the file writer is closed. -/
  | pcapngError {s : Outputs} {p q : PcapOutput} {err : Error} (found : s.pcap = some p)
    (failed : p.Close f (some err) q) : Close f .pcapng s { s with pcap := some q }
  | pcapKeylog {s : Outputs} {p flushed q : PcapOutput} {err : Option Error} (found : s.pcap = some p)
    (flush : p.Flush f flushed) (closed : flushed.Close f err q) :
    Close f .pcapKeylog s { s with pcap := some q }

/-- `Dispatcher.Close` with the order in which it visits its map. Errors are collected. -/
inductive DispatcherClose (f : Format) : List Handler → Outputs → Outputs → Prop where
  | nil (s : Outputs) : DispatcherClose f [] s s
  | cons {h : Handler} {order : List Handler} {s t u : Outputs} (closed : h.Close f s t)
    (rest : DispatcherClose f order t u) : DispatcherClose f (h :: order) s u

/-- `BaseProbe.Close`: the text handler is in `p.closers` as well. -/
def BaseProbeClose (f : Format) (order : List Handler) (s t : Outputs) : Prop :=
  ∃ u, Handler.Close f .text s u ∧ DispatcherClose f order u t

/-- Every file is flushed and closed once, and the pcapng file has all that was captured. -/
def Complete (f : Format) (s : Outputs) : Prop :=
  (∀ w ∈ s.files, w.closes = 1 ∧ w.file = w.written) ∧
    ∀ p ∈ s.pcap, p.file.file = f.output p.pw ∧
      Pcap.packets p.pw.writer.blocks = p.pw.accepted ∧
      Pcap.lines p.pw.writer.blocks = p.pw.acceptedKeylogs

/-- The key log handler of the pcapng file comes before its packet handler. -/
def keylogFirst : List Handler → Bool
  | [] => false
  | .pcapKeylog :: _ => true
  | .pcapng :: _ => false
  | _ :: order => keylogFirst order

/-- What the state before `Close` and the order have to be. -/
def ClosesCleanly (order : List Handler) (s : Outputs) : Prop :=
  (∀ w ∈ s.text, w.syncs = true) ∧ (∀ w ∈ s.keylog, w.syncs = true) ∧
    ∀ p ∈ s.pcap, p.pw.accepted ≠ [] ∨ keylogFirst order = true

/-! ## What a file writer does -/

theorem bufioWrite_append (buf p : Bytes) :
    (bufioWrite buf p).1 ++ (bufioWrite buf p).2 = buf ++ p := by
  simp only [bufioWrite]
  split_ifs with fits empty short
  · rfl
  · simp [empty]
  · rw [List.append_assoc, List.take_append_drop]
  · rw [List.append_nil, List.append_assoc, List.take_append_drop]

namespace FileWriter

/-- A file that nothing has closed, with what is still in its buffer. -/
structure Fresh (w : FileWriter) : Prop where
  isOpen : w.isOpen = true
  closes : w.closes = 0
  intact : w.file ++ w.buffered.getD [] = w.written

/-- An unbuffered file after `Close`, which has failed where `fsync` does. -/
structure Settled (w : FileWriter) : Prop where
  unbuffered : w.buffered = none
  isOpen : w.isOpen = !w.syncs
  closes : w.closes = if w.syncs then 1 else 0
  intact : w.file = w.written

theorem fresh_new (isBuffered : Bool) (content : Bytes) (syncs : Bool) :
    (new isBuffered content syncs).Fresh := by
  cases isBuffered <;> exact ⟨rfl, rfl, List.append_nil _⟩

variable {w : FileWriter}

theorem write_nil (w : FileWriter) : w.write [] = w := by
  obtain ⟨buffered, file, isOpen, syncs, closes, written⟩ := w
  cases isOpen <;> cases buffered <;> simp [write, bufioWrite]

theorem Fresh.written_write (h : w.Fresh) (p : Bytes) : (w.write p).written = w.written ++ p := by
  simp only [write, h.isOpen]
  cases w.buffered <;> rfl

theorem isSome_buffered_write (p : Bytes) (w : FileWriter) :
    (w.write p).buffered.isSome = w.buffered.isSome := by
  unfold write
  split
  · rfl
  · cases w.buffered <;> rfl

theorem Fresh.write (h : w.Fresh) (p : Bytes) : (w.write p).Fresh := by
  obtain ⟨isOpen, closes, intact⟩ := h
  cases buffered : w.buffered with
  | none =>
    rw [buffered, Option.getD_none, List.append_nil] at intact
    simp only [FileWriter.write, isOpen, buffered, Bool.not_true, Bool.false_eq_true, if_false]
    exact ⟨rfl, closes, by simp [intact]⟩
  | some buf =>
    rw [buffered, Option.getD_some] at intact
    simp only [FileWriter.write, isOpen, buffered, Bool.not_true, Bool.false_eq_true, if_false]
    refine ⟨rfl, closes, ?_⟩
    rw [Option.getD_some, List.append_assoc, bufioWrite_append, ← List.append_assoc, intact]

/-- `Close` of an unbuffered writer, by either handler. -/
theorem close_unbuffered (unbuffered : w.buffered = none) :
    w.close.2 = if w.isOpen && w.syncs then { w with isOpen := false, closes := w.closes + 1 }
      else w := by
  cases ok : w.isOpen && w.syncs <;> simp [close, flush, unbuffered, ok]

theorem closeKeylog_unbuffered (unbuffered : w.buffered = none) : w.closeKeylog.2 = w.close.2 := by
  cases ok : w.isOpen && w.syncs <;> simp [closeKeylog, close, flush, unbuffered, ok]

theorem close_buffered (buffered : w.buffered.isSome = true) (isOpen : w.isOpen = true) :
    w.close.2 = { w with
      buffered := some []
      file := w.file ++ w.buffered.getD []
      isOpen := false
      closes := w.closes + 1 } := by
  obtain ⟨buf, eq⟩ := Option.isSome_iff_exists.mp buffered
  by_cases empty : buf = []
  · subst empty
    simp [close, flush, eq]
  · simp [close, flush, eq, isOpen, empty]

theorem Fresh.settled (h : w.Fresh) (unbuffered : w.buffered = none) : w.close.2.Settled := by
  have intact := h.intact
  rw [unbuffered, Option.getD_none, List.append_nil] at intact
  rw [close_unbuffered unbuffered, h.isOpen]
  cases syncs : w.syncs with
  | false => exact ⟨unbuffered, by simp [syncs, h.isOpen], by simp [syncs, h.closes], intact⟩
  | true => exact ⟨unbuffered, rfl, by simp [h.closes], intact⟩

/-- Closing the text file once more changes nothing. -/
theorem Settled.close_eq (h : w.Settled) : w.close.2 = w := by
  rw [close_unbuffered h.unbuffered, h.isOpen]
  cases w.syncs <;> rfl

theorem syncs_close (unbuffered : w.buffered = none) : w.close.2.syncs = w.syncs := by
  rw [close_unbuffered unbuffered]
  split <;> rfl

/-- Writes in a row. -/
theorem Fresh.writes (h : w.Fresh) (pieces : List Bytes) :
    (pieces.foldl (fun w piece => w.write piece) w).Fresh ∧
      (pieces.foldl (fun w piece => w.write piece) w).written = w.written ++ pieces.flatten ∧
      (pieces.foldl (fun w piece => w.write piece) w).buffered.isSome = w.buffered.isSome := by
  induction pieces generalizing w with
  | nil => simpa using h
  | cons piece pieces ih =>
    obtain ⟨fresh, written, buffered⟩ := ih (h.write piece)
    refine ⟨fresh, ?_, ?_⟩
    · rw [List.foldl_cons, written, h.written_write, List.append_assoc, List.flatten_cons]
    · rw [List.foldl_cons, buffered, isSome_buffered_write]

theorem writes_nil {pieces : List Bytes} (nothing : pieces.flatten = []) (w : FileWriter) :
    pieces.foldl (fun w piece => w.write piece) w = w := by
  induction pieces with
  | nil => rfl
  | cons piece pieces ih =>
    rw [List.flatten_cons, List.append_eq_nil_iff] at nothing
    rw [List.foldl_cons, nothing.1, write_nil, ih nothing.2]

end FileWriter

/-! ## What closing the `PcapWriter` does -/

/-- The bytes of the `NgWriter` are on their way to the file, in order. -/
structure PcapOutput.Fresh (f : Format) (p : PcapOutput) : Prop where
  file : p.file.Fresh
  buffered : p.file.buffered.isSome = true
  handed : p.file.written <+: f.output p.pw

/-- A flush of the `NgWriter` leaves nothing behind. -/
theorem PcapOutput.HandsOver.fresh {f : Format} {p : PcapOutput} {file : FileWriter}
    (handed : p.HandsOver f file) (fresh : p.Fresh f) :
    PcapOutput.Fresh f ⟨p.pw, file⟩ ∧ file.written = f.output p.pw := by
  obtain ⟨pieces, all, rfl⟩ := handed
  obtain ⟨file, written, buffered⟩ := fresh.file.writes pieces
  rw [all, PcapOutput.rest, List.prefix_iff_eq_append.mp fresh.handed] at written
  exact ⟨⟨file, buffered.trans fresh.buffered, written ▸ List.prefix_rfl⟩, written⟩

theorem PcapOutput.HandsOver.nothing {f : Format} {p : PcapOutput} {file : FileWriter}
    (handed : p.HandsOver f file) (all : p.file.written = f.output p.pw) : file = p.file := by
  obtain ⟨pieces, rest, rfl⟩ := handed
  apply FileWriter.writes_nil
  rw [rest, PcapOutput.rest, all, List.drop_length]

/-- The capture up to here, on the `PcapWriter` alone. -/
def CapturedBy (pw : Pcap.PcapWriter) : Prop :=
  (Pcap.pcapWriter Pcap.neverFails).ReachableBy Pcap.WritesBeforeClose pw

theorem CapturedBy.step {pw t : Pcap.PcapWriter} {a : Pcap.Act} (h : CapturedBy pw)
    (before : Pcap.WritesBeforeClose pw a) (moved : Pcap.step Pcap.neverFails pw a = some t) :
    CapturedBy t :=
  Relation.ReflTransGen.tail h ⟨a, before, moved⟩

/-- Only the two writes are accepted. -/
theorem quiet {pw : Pcap.PcapWriter} {a : Pcap.Act} (rejects : Pcap.accepts pw a = false) :
    Pcap.WritesBeforeClose pw a := by
  intro accepts
  rw [rejects] at accepts
  cases accepts

theorem CapturedBy.inv {pw : Pcap.PcapWriter} (h : CapturedBy pw) : Pcap.Inv pw :=
  (Pcap.reachable_refines Pcap.beforeClose (fun _ _ ok => ok) h).1

theorem CapturedBy.counted {pw : Pcap.PcapWriter} (h : CapturedBy pw) : Pcap.Counted pw := by
  refine h.invariant (I := Pcap.Counted) ?_ ?_
  · rfl
  · exact fun _ _ _ counted _ moved => counted.step moved

theorem CapturedBy.delivered {pw : Pcap.PcapWriter} (h : CapturedBy pw)
    (served : pw.serve = .returned) :
    Pcap.packets pw.writer.blocks = pw.accepted ∧
      Pcap.lines pw.writer.blocks = pw.acceptedKeylogs := by
  obtain ⟨-, moves⟩ := Pcap.reachable_refines Pcap.beforeClose (fun _ _ ok => ok) h
  exact Pcap.delivered (run_invariant .move Pcap.conserved_new moves)
    (run_invariant .move Pcap.drained_new moves).emptied served

/-- `Serve` accepts nothing. -/
theorem not_accepts_serve {pw : Pcap.PcapWriter} {a : Pcap.Act} (serves : isServe a = true) :
    Pcap.accepts pw a = false := by
  cases a <;> first | rfl | cases serves

theorem CapturedBy.serve {pw t : Pcap.PcapWriter} (h : CapturedBy pw)
    (steps : Relation.ReflTransGen
      ((Pcap.pcapWriter Pcap.neverFails).Next fun _ a => isServe a = true) pw t) :
    CapturedBy t ∧ t.accepted = pw.accepted ∧ pw.writer.blocks <+: t.writer.blocks := by
  have nothing : ∀ (s : Pcap.PcapWriter) (a : Pcap.Act), isServe a = true → Pcap.accepts s a = true →
      False := by
    intro s a serves accepts
    rw [not_accepts_serve serves] at accepts
    cases accepts
  obtain ⟨-, moves⟩ := @Pcap.steps_refine (fun _ => False) _ _ _ nothing h.inv steps
  refine ⟨?_, ?_, ?_⟩
  · refine Relation.ReflTransGen.trans h (Relation.ReflTransGen.mono ?_ _ _ steps)
    rintro s t ⟨a, serves, moved⟩
    exact ⟨a, fun accepts => (nothing s a serves accepts).elim, moved⟩
  · exact run_invariant (I := fun p => p.accepted = pw.accepted)
      (fun same m => m.accepted_eq.trans same) rfl moves
  · exact run_invariant (I := fun p => pw.writer.blocks <+: p.emitted)
      (fun same m => same.trans m.emitted_prefix) List.prefix_rfl moves

/-- What the first call of `Close` has done: nothing is left for the file writer, and there is an error
if no packet was captured. -/
structure FirstClose (f : Format) (p : PcapOutput) (err : Option Error) (q : PcapOutput) : Prop where
  captured : CapturedBy q.pw
  isClosed : q.pw.isClosed = true
  idle : q.pw.closer = .idle
  accepted : q.pw.accepted = p.pw.accepted
  result : err = none ↔ p.pw.accepted ≠ []
  fresh : q.Fresh f
  all : q.file.written = f.output q.pw

theorem Format.output_prefix (f : Format) {pw t : Pcap.PcapWriter}
    (blocks : pw.writer.blocks <+: t.writer.blocks) : f.output pw <+: f.output t := by
  obtain ⟨rest, eq⟩ := blocks
  rw [output, output, ← eq, List.flatMap_append, ← List.append_assoc]
  exact List.prefix_append _ _

theorem output_finishClose (f : Format) {pw : Pcap.PcapWriter} (served : pw.serve = .returned) :
    f.output (pw.finishClose Pcap.neverFails) = f.output pw := by
  simp [Pcap.PcapWriter.finishClose, Pcap.PcapWriter.flush, served, Format.output]

theorem accepted_finishClose {pw : Pcap.PcapWriter} (served : pw.serve = .returned) :
    (pw.finishClose Pcap.neverFails).accepted = pw.accepted := by
  simp [Pcap.PcapWriter.finishClose, Pcap.PcapWriter.flush, served]

theorem finishClose_result {pw : Pcap.PcapWriter} {err : Option Error} (served : pw.serve = .returned)
    (result : (pw.finishClose Pcap.neverFails).closeResults = pw.closeResults ++ [err]) :
    err = none ↔ pw.packetCount ≠ 0 := by
  simp only [Pcap.PcapWriter.finishClose, Pcap.PcapWriter.flush, served, if_true, Pcap.NgWriter.flush,
    Pcap.neverFails] at result
  have err := List.append_cancel_left result
  grind

theorem step_close_again {pw t : Pcap.PcapWriter} (isClosed : pw.isClosed = true)
    (call : Pcap.step Pcap.neverFails pw .close = some t) :
    t = { pw with closeResults := pw.closeResults ++ [none] } := by
  cases (Pcap.stepped_of_step call).2 with
  | closeAgain => rfl
  | close idle open_ =>
    rw [isClosed] at open_
    cases open_

theorem step_close_first {pw t : Pcap.PcapWriter} (isOpen : pw.isClosed = false)
    (call : Pcap.step Pcap.neverFails pw .close = some t) :
    t = { pw with cancelled := true, closer := .waitServe } := by
  cases (Pcap.stepped_of_step call).2 with
  | close => rfl
  | closeAgain idle closed =>
    rw [isOpen] at closed
    cases closed

theorem step_closeChans {pw t : Pcap.PcapWriter}
    (chans : Pcap.step Pcap.neverFails pw .closeChans = some t) :
    pw.serve = .returned ∧
      t = { pw with packetClosed := true, keylogClosed := true, closer := .flush } := by
  cases (Pcap.stepped_of_step chans).2 with
  | closeChans waiting served => exact ⟨served, rfl⟩

theorem step_closeReturn {pw t : Pcap.PcapWriter}
    (ret : Pcap.step Pcap.neverFails pw .closeReturn = some t) :
    t = pw.finishClose Pcap.neverFails := by
  cases (Pcap.stepped_of_step ret).2
  rfl

theorem PcapOutput.Close.first_spec {f : Format} {p q : PcapOutput} {err : Option Error}
    (closed : p.Close f err q) (isOpen : p.pw.isClosed = false) (captured : CapturedBy p.pw)
    (fresh : p.Fresh f) : FirstClose f p err q := by
  cases closed with
  | again isClosed =>
    rw [isOpen] at isClosed
    cases isClosed
  | @first called served closed final file _ _ call serve chans ret result flushed =>
    have called_eq := step_close_first isOpen call
    obtain ⟨captured, accepted, blocks⟩ := (captured.step (quiet rfl) call).serve serve
    obtain ⟨returned, closed_eq⟩ := step_closeChans chans
    have captured := captured.step (quiet rfl) chans
    have final_eq := step_closeReturn ret
    have captured' := captured.step (quiet rfl) ret
    have closedServe : closed.serve = .returned := by
      rw [closed_eq]
      exact returned
    have kept : closed.accepted = p.pw.accepted := by
      rw [called_eq] at accepted
      rw [closed_eq]
      exact accepted
    have handed : PcapOutput.Fresh f ⟨closed, p.file⟩ := by
      refine ⟨fresh.file, fresh.buffered, fresh.handed.trans (f.output_prefix ?_)⟩
      rw [called_eq] at blocks
      rw [closed_eq]
      exact blocks
    obtain ⟨fresh, all⟩ := flushed.fresh handed
    refine ⟨captured', ?_, ?_, ?_, ?_, ?_, ?_⟩
    · rw [final_eq]
      rfl
    · rw [final_eq]
      rfl
    · rw [final_eq, accepted_finishClose closedServe, kept]
    · rw [final_eq] at result
      rw [finishClose_result closedServe result, captured.counted, (captured.delivered closedServe).1,
        kept, ne_eq, List.length_eq_zero_iff]
    · refine ⟨fresh.file, fresh.buffered, ?_⟩
      rw [final_eq, output_finishClose f closedServe]
      exact fresh.handed
    · rw [final_eq, output_finishClose f closedServe]
      exact all

/-- What a second call of `Close` leaves as it is. -/
structure SecondClose (f : Format) (p : PcapOutput) (err : Option Error) (q : PcapOutput) : Prop where
  captured : CapturedBy q.pw
  isClosed : q.pw.isClosed = true
  accepted : q.pw.accepted = p.pw.accepted
  result : err = none
  output : f.output q.pw = f.output p.pw
  file : q.file = p.file

theorem PcapOutput.Close.second_spec {f : Format} {p q : PcapOutput} {err : Option Error}
    (closed : p.Close f err q) (isClosed : p.pw.isClosed = true) (captured : CapturedBy p.pw) :
    SecondClose f p err q := by
  cases closed with
  | again _ called =>
    have captured := captured.step (quiet rfl) called
    rw [step_close_again isClosed called] at captured ⊢
    exact ⟨captured, isClosed, rfl, rfl, rfl, rfl⟩
  | first isOpen =>
    rw [isClosed] at isOpen
    cases isOpen

/-- What `Flush` of the `PcapWriter` leaves as it is. -/
structure Flushed (f : Format) (p q : PcapOutput) : Prop where
  captured : CapturedBy q.pw
  isClosed : q.pw.isClosed = p.pw.isClosed
  accepted : q.pw.accepted = p.pw.accepted
  output : f.output q.pw = f.output p.pw
  fresh : p.Fresh f → q.Fresh f
  file : p.file.written = f.output p.pw → q.file = p.file

theorem PcapOutput.Flush.spec {f : Format} {p q : PcapOutput} (flush : p.Flush f q)
    (captured : CapturedBy p.pw) : Flushed f p q := by
  obtain ⟨called, file⟩ := flush
  have captured := captured.step (quiet rfl) called
  simp only [Pcap.step, Option.ite_none_left_eq_some, Option.some.injEq] at called
  obtain ⟨-, called⟩ := called
  have same : q.pw.isClosed = p.pw.isClosed ∧ q.pw.accepted = p.pw.accepted ∧
      f.output q.pw = f.output p.pw := by
    rw [← called, Pcap.PcapWriter.flush]
    split <;> exact ⟨rfl, rfl, rfl⟩
  obtain ⟨isClosed, accepted, output⟩ := same
  split at file
  · refine ⟨captured, isClosed, accepted, output, fun fresh => ?_, file.nothing⟩
    have fresh := (file.fresh fresh).1
    exact ⟨fresh.file, fresh.buffered, output ▸ fresh.handed⟩
  · refine ⟨captured, isClosed, accepted, output, fun fresh => ?_, fun _ => file⟩
    refine ⟨file ▸ fresh.file, file ▸ fresh.buffered, ?_⟩
    rw [file, output]
    exact fresh.handed

/-! ## How far the pcapng file is -/

/-- The pcapng file is closed, with all that the `NgWriter` has written. -/
structure PcapOutput.Closed (p : PcapOutput) : Prop where
  closes : p.file.closes = 1
  intact : p.file.file = p.file.written

/-- The state of the pcapng file while handlers are left. `first` says which of its two handlers is
visited first. -/
inductive Stage (f : Format) (first : Bool) (left : List Handler) (p : PcapOutput) : Prop where
  | untouched (packets : .pcapng ∈ left) (keylog : .pcapKeylog ∈ left) (order : keylogFirst left = first)
    (isOpen : p.pw.isClosed = false) (fresh : p.Fresh f)
  | keylogClosed (packets : .pcapng ∈ left) (keylog : .pcapKeylog ∉ left) (order : first = true)
    (isClosed : p.pw.isClosed = true) (fresh : p.Fresh f) (all : p.file.written = f.output p.pw)
  | done (packets : .pcapng ∉ left) (isClosed : p.pw.isClosed = true)
    (all : p.file.written = f.output p.pw)
    (closed : p.pw.accepted ≠ [] ∨ first = true → p.Closed)
    (leaked : ¬(p.pw.accepted ≠ [] ∨ first = true) → p.file.closes = 0)

/-- The file writer is closed after all of the `NgWriter` was handed to it. -/
theorem PcapOutput.Fresh.closed {f : Format} {p : PcapOutput} (fresh : p.Fresh f) :
    PcapOutput.Closed { p with file := p.file.close.2 } ∧
      p.file.close.2.written = p.file.written := by
  rw [FileWriter.close_buffered fresh.buffered fresh.file.isOpen]
  refine ⟨⟨?_, fresh.file.intact⟩, rfl⟩
  simp [fresh.file.closes]

variable {f : Format} {first : Bool} {left : List Handler}

/-- A handler of another file is visited. -/
theorem Stage.other {h : Handler} {p : PcapOutput} (stage : Stage f first (h :: left) p)
    (notPcapng : h ≠ .pcapng) (notKeylog : h ≠ .pcapKeylog) : Stage f first left p := by
  have packets : Handler.pcapng ∈ h :: left ↔ .pcapng ∈ left := by simp [notPcapng.symm]
  have keylog : Handler.pcapKeylog ∈ h :: left ↔ .pcapKeylog ∈ left := by simp [notKeylog.symm]
  have order : keylogFirst (h :: left) = keylogFirst left := by
    cases h <;> first | rfl | contradiction
  cases stage with
  | untouched p k o => exact .untouched (packets.mp p) (keylog.mp k) (order.symm.trans o) ‹_› ‹_›
  | keylogClosed p k => exact .keylogClosed (packets.mp p) (mt keylog.mpr k) ‹_› ‹_› ‹_› ‹_›
  | done p => exact .done (mt packets.mpr p) ‹_› ‹_› ‹_› ‹_›

/-- The packet handler is visited, and `Close` of the `PcapWriter` has no error. -/
theorem Stage.pcapng {p q : PcapOutput} (stage : Stage f first (.pcapng :: left) p)
    (once : .pcapng ∉ left) (captured : CapturedBy p.pw) (closed : p.Close f none q) :
    Stage f first left { q with file := q.file.close.2 } ∧ CapturedBy q.pw ∧
      q.pw.accepted = p.pw.accepted := by
  cases stage with
  | untouched _ _ _ isOpen fresh =>
    have spec := closed.first_spec isOpen captured fresh
    obtain ⟨done, written⟩ := spec.fresh.closed
    refine ⟨?_, spec.captured, spec.accepted⟩
    have some_packets : q.pw.accepted ≠ [] := spec.accepted ▸ spec.result.mp rfl
    exact .done once spec.isClosed (written.trans spec.all) (fun _ => done)
      (fun none => (none (.inl some_packets)).elim)
  | keylogClosed _ _ order isClosed fresh all =>
    have spec := closed.second_spec isClosed captured
    have fresh : q.Fresh f := by
      refine ⟨spec.file ▸ fresh.file, spec.file ▸ fresh.buffered, ?_⟩
      rw [spec.file, spec.output]
      exact fresh.handed
    obtain ⟨done, written⟩ := fresh.closed
    refine ⟨?_, spec.captured, spec.accepted⟩
    refine .done once spec.isClosed ?_ (fun _ => done) (fun none => (none (.inr order)).elim)
    rw [written, spec.file, all]
    exact spec.output.symm
  | done notLeft => exact (notLeft List.mem_cons_self).elim

/-- The packet handler is visited, and an error leaves the file open. -/
theorem Stage.pcapngError {p q : PcapOutput} {err : Error} (stage : Stage f first (.pcapng :: left) p)
    (once : .pcapng ∉ left) (captured : CapturedBy p.pw) (failed : p.Close f (some err) q) :
    Stage f first left q ∧ CapturedBy q.pw ∧ q.pw.accepted = p.pw.accepted := by
  cases stage with
  | untouched _ _ order isOpen fresh =>
    have spec := failed.first_spec isOpen captured fresh
    refine ⟨?_, spec.captured, spec.accepted⟩
    have nothing : ¬(q.pw.accepted ≠ [] ∨ first = true) := by
      rintro (some_packets | isFirst)
      · rw [spec.accepted, ← spec.result] at some_packets
        cases some_packets
      · rw [isFirst] at order
        cases order
    exact .done once spec.isClosed spec.all (fun h => (nothing h).elim)
      (fun _ => spec.fresh.file.closes)
  | keylogClosed _ _ _ isClosed =>
    cases (failed.second_spec isClosed captured).result
  | done notLeft => exact (notLeft List.mem_cons_self).elim

/-- The key log handler of the pcapng file is visited. -/
theorem Stage.pcapKeylog {p flushed q : PcapOutput} {err : Option Error}
    (stage : Stage f first (.pcapKeylog :: left) p) (once : .pcapKeylog ∉ left)
    (captured : CapturedBy p.pw) (flush : p.Flush f flushed) (closed : flushed.Close f err q) :
    Stage f first left q ∧ CapturedBy q.pw ∧ q.pw.accepted = p.pw.accepted := by
  have kept := flush.spec captured
  have left_iff : Handler.pcapng ∈ Handler.pcapKeylog :: left ↔ .pcapng ∈ left := by simp
  cases stage with
  | untouched packets _ order isOpen fresh =>
    have spec := closed.first_spec (kept.isClosed.trans isOpen) kept.captured (kept.fresh fresh)
    refine ⟨?_, spec.captured, spec.accepted.trans kept.accepted⟩
    exact .keylogClosed (left_iff.mp packets) once order.symm spec.isClosed spec.fresh spec.all
  | keylogClosed _ notLeft => exact (notLeft List.mem_cons_self).elim
  | done packets isClosed all closedIf leakedIf =>
    have spec := closed.second_spec (kept.isClosed.trans isClosed) kept.captured
    have file : q.file = p.file := spec.file.trans (kept.file all)
    have accepted : q.pw.accepted = p.pw.accepted := spec.accepted.trans kept.accepted
    refine ⟨?_, spec.captured, accepted⟩
    refine .done (mt left_iff.mpr packets) spec.isClosed ?_ ?_ ?_
    · rw [file, all, spec.output, kept.output]
    · rw [accepted]
      intro h
      exact ⟨file ▸ (closedIf h).closes, file ▸ (closedIf h).intact⟩
    · rw [accepted, file]
      exact leakedIf

/-! ## All handlers -/

/-- What holds while the handlers in `left` are still to be visited. `o` is the state before `Close`. -/
structure Closing (f : Format) (first : Bool) (o : Outputs) (left : List Handler) (s : Outputs) :
    Prop where
  textSyncs : s.text.map FileWriter.syncs = o.text.map FileWriter.syncs
  text : ∀ w ∈ s.text, w.Settled
  keylogSyncs : s.keylog.map FileWriter.syncs = o.keylog.map FileWriter.syncs
  keylogLeft : .keylog ∈ left → ∀ w ∈ s.keylog, w.Fresh ∧ w.buffered = none
  keylogClosed : .keylog ∉ left → ∀ w ∈ s.keylog, w.Settled
  accepted : s.pcap.map (fun p => p.pw.accepted) = o.pcap.map (fun p => p.pw.accepted)
  pcap : ∀ p ∈ s.pcap, CapturedBy p.pw ∧ Stage f first left p

variable {o s t : Outputs}

/-- The handlers of the pcapng file move it one stage on. -/
theorem Closing.pcapStage {h : Handler} {p q : PcapOutput} (inv : Closing f first o (h :: left) s)
    (notKeylog : h ≠ .keylog) (found : s.pcap = some p)
    (stage : Stage f first left q ∧ CapturedBy q.pw ∧ q.pw.accepted = p.pw.accepted) :
    Closing f first o left { s with pcap := some q } := by
  have keylog : Handler.keylog ∈ h :: left ↔ .keylog ∈ left := by simp [notKeylog.symm]
  have accepted := inv.accepted
  rw [found, Option.map_some, ← stage.2.2] at accepted
  refine ⟨inv.textSyncs, inv.text, inv.keylogSyncs, fun mem => inv.keylogLeft (keylog.mpr mem),
    fun notMem => inv.keylogClosed (mt keylog.mp notMem), accepted, ?_⟩
  intro q' mem
  cases mem
  exact ⟨stage.2.1, stage.1⟩

theorem Closing.visit {h : Handler} (inv : Closing f first o (h :: left) s) (once : h ∉ left)
    (closed : h.Close f s t) : Closing f first o left t := by
  cases closed with
  | text =>
    have same : s.text.map (fun w => w.close.2) = s.text := by
      cases text : s.text with
      | none => rfl
      | some w => rw [Option.map_some, (inv.text w text).close_eq]
    rw [same]
    refine ⟨inv.textSyncs, inv.text, inv.keylogSyncs, ?_, ?_, inv.accepted, ?_⟩
    · exact fun mem => inv.keylogLeft (List.mem_cons_of_mem _ mem)
    · exact fun notMem => inv.keylogClosed (by simpa using notMem)
    · exact fun p mem => ⟨(inv.pcap p mem).1, (inv.pcap p mem).2.other (by decide) (by decide)⟩
  | keylog =>
    have fresh := inv.keylogLeft List.mem_cons_self
    refine ⟨inv.textSyncs, inv.text, ?_, fun mem => (once mem).elim, fun _ => ?_, inv.accepted, ?_⟩
    · rw [← inv.keylogSyncs]
      cases keylog : s.keylog with
      | none => rfl
      | some w =>
        have unbuffered := (fresh w keylog).2
        simp [FileWriter.closeKeylog_unbuffered unbuffered, FileWriter.syncs_close unbuffered]
    · intro w mem
      obtain ⟨w, found, rfl⟩ := Option.map_eq_some_iff.mp mem
      obtain ⟨fresh, unbuffered⟩ := fresh w found
      rw [FileWriter.closeKeylog_unbuffered unbuffered]
      exact fresh.settled unbuffered
    · exact fun p mem => ⟨(inv.pcap p mem).1, (inv.pcap p mem).2.other (by decide) (by decide)⟩
  | pcapng found closed =>
    obtain ⟨captured, stage⟩ := inv.pcap _ found
    exact inv.pcapStage (by decide) found (stage.pcapng once captured closed)
  | pcapngError found failed =>
    obtain ⟨captured, stage⟩ := inv.pcap _ found
    exact inv.pcapStage (by decide) found (stage.pcapngError once captured failed)
  | pcapKeylog found flush closed =>
    obtain ⟨captured, stage⟩ := inv.pcap _ found
    exact inv.pcapStage (by decide) found (stage.pcapKeylog once captured flush closed)

/-- The dispatcher visits every handler. -/
theorem Closing.dispatcherClose {order : List Handler} (closed : DispatcherClose f order s t)
    (inv : Closing f first o order s) (nodup : order.Nodup) : Closing f first o [] t := by
  induction closed with
  | nil => exact inv
  | cons closed _ ih =>
    rw [List.nodup_cons] at nodup
    exact ih (inv.visit nodup.1 closed) nodup.2

/-! ## The capture -/

/-- A `PcapWriter` before `Close`. -/
structure Running (pw : Pcap.PcapWriter) : Prop where
  cancelled : pw.cancelled = false
  isClosed : pw.isClosed = false
  packetClosed : pw.packetClosed = false
  keylogClosed : pw.keylogClosed = false
  closer : pw.closer = .idle
  panicked : pw.panicked = false

structure Captured (f : Format) (s : Outputs) : Prop where
  text : ∀ w ∈ s.text, w.Fresh ∧ w.buffered = none
  keylog : ∀ w ∈ s.keylog, w.Fresh ∧ w.buffered = none
  pcap : ∀ p ∈ s.pcap, CapturedBy p.pw ∧ Running p.pw ∧ p.Fresh f

/-- Only `Close` ends the running. -/
theorem Running.step {pw t : Pcap.PcapWriter} {a : Pcap.Act} (h : Running pw)
    (captures : isCapture a = true) (moved : Pcap.step Pcap.neverFails pw a = some t) : Running t := by
  obtain ⟨cancelled, isClosed, packetClosed, keylogClosed, closer, panicked⟩ := h
  unfold Pcap.step at moved
  constructor <;> cases a with
  | close | closeChans | closeReturn => cases captures
  | writePacket | writeKeyLog | flush | deadline | ctxDone =>
    grind [Pcap.PcapWriter.writePacket, Pcap.PcapWriter.writeKeyLog, Pcap.PcapWriter.flush]
  | tick => grind [Pcap.PcapWriter.onTick, Pcap.PcapWriter.save]
  | recvPacket => grind [Pcap.PcapWriter.onPacket, Pcap.PcapWriter.save]
  | recvKeylog =>
    grind [Pcap.PcapWriter.onKeylog, Pcap.PcapWriter.saveAfterDSB, Pcap.PcapWriter.save]
  | drain => grind [Pcap.PcapWriter.drain, Pcap.PcapWriter.save]

theorem Captured.init (f : Format) (setup : Setup) : Captured f (setup.open f) where
  text w mem := by
    obtain ⟨⟨content, syncs⟩, -, rfl⟩ := Option.map_eq_some_iff.mp mem
    exact ⟨FileWriter.fresh_new _ _ _, rfl⟩
  keylog w mem := by
    obtain ⟨syncs, -, rfl⟩ := Option.map_eq_some_iff.mp mem
    exact ⟨FileWriter.fresh_new _ _ _, rfl⟩
  pcap p mem := by
    obtain ⟨syncs, -, rfl⟩ := Option.map_eq_some_iff.mp mem
    have fresh := FileWriter.fresh_new true [] syncs
    refine ⟨.refl, ⟨rfl, rfl, rfl, rfl, rfl, rfl⟩, fresh.write _, ?_, ?_⟩
    · rw [FileWriter.isSome_buffered_write]
      rfl
    · rw [fresh.written_write]
      exact List.prefix_append _ _

/-- Writes of an unbuffered handler. -/
theorem Captured.writes {p : Bytes} {writer : Option FileWriter}
    (fresh : ∀ w ∈ writer, w.Fresh ∧ w.buffered = none) :
    ∀ w ∈ writer.map (FileWriter.write p), w.Fresh ∧ w.buffered = none := by
  intro w mem
  obtain ⟨w, found, rfl⟩ := Option.map_eq_some_iff.mp mem
  obtain ⟨fresh, unbuffered⟩ := fresh w found
  refine ⟨fresh.write p, ?_⟩
  rw [← Option.not_isSome_iff_eq_none, FileWriter.isSome_buffered_write, unbuffered]
  decide

theorem PcapOutput.Fresh.handOver {p : PcapOutput} (fresh : p.Fresh f) (n : Nat) :
    PcapOutput.Fresh f { p with file := p.file.write ((p.rest f).take n) } := by
  refine ⟨fresh.file.write _, ?_, ?_⟩
  · rw [FileWriter.isSome_buffered_write]
    exact fresh.buffered
  · rw [fresh.file.written_write, PcapOutput.rest]
    obtain ⟨rest, eq⟩ := fresh.handed
    rw [← eq, List.drop_left]
    exact List.prefix_append_right_inj _ |>.mpr (List.take_prefix _ _)

theorem Captured.step {a : Act} (h : Captured f s) (moved : captureStep f s a = some t) :
    Captured f t := by
  cases a with
  | text p =>
    cases moved
    exact ⟨Captured.writes h.text, h.keylog, h.pcap⟩
  | keylog p =>
    cases moved
    exact ⟨h.text, Captured.writes h.keylog, h.pcap⟩
  | pcap a =>
    simp only [captureStep, Option.bind_eq_bind, Option.bind_eq_some_iff] at moved
    obtain ⟨p, found, pw, moved, rest⟩ := moved
    obtain ⟨captures, moved⟩ := Option.ite_none_right_eq_some.mp moved
    cases rest
    obtain ⟨captured, running, fresh⟩ := h.pcap p found
    obtain ⟨-, move⟩ := @Pcap.step_refines Pcap.beforeClose _ _ _ captured.inv
      (fun _ => running.cancelled) moved
    refine ⟨h.text, h.keylog, ?_⟩
    intro q mem
    cases mem
    refine ⟨captured.step (fun _ => running.cancelled) moved, running.step captures moved,
      fresh.file, fresh.buffered, ?_⟩
    exact fresh.handed.trans (f.output_prefix move.emitted_prefix)
  | handOver n =>
    simp only [captureStep, Option.bind_eq_bind, Option.bind_eq_some_iff] at moved
    obtain ⟨p, found, rest⟩ := moved
    cases rest
    obtain ⟨captured, running, fresh⟩ := h.pcap p found
    refine ⟨h.text, h.keylog, ?_⟩
    intro q mem
    cases mem
    exact ⟨captured, running, fresh.handOver n⟩

/-! ## `Close` returns -/

/-- What is left of the shutdown of `Serve`. -/
def shutdownLeft (pw : Pcap.PcapWriter) : Nat :=
  pw.packetChan.length + pw.keylogChan.length +
    match pw.serve with
    | .select => 4
    | .drainPackets => 3
    | .drainKeylogs => 2
    | .saveBuffered => 1
    | .returned => 0

/-- `drainOnShutdown` goes on until it returns. -/
theorem exists_drain {pw : Pcap.PcapWriter} (draining : pw.serve ≠ .select)
    (running : pw.serve ≠ .returned) :
    ∃ t, pw.drain Pcap.neverFails = some t ∧ shutdownLeft t < shutdownLeft pw ∧
      t.cancelled = pw.cancelled ∧ t.panicked = pw.panicked ∧ t.closer = pw.closer := by
  cases serve : pw.serve with
  | select => exact (draining serve).elim
  | returned => exact (running serve).elim
  | drainPackets =>
    cases packets : pw.packetChan <;> simp [Pcap.PcapWriter.drain, shutdownLeft, serve, packets]
  | drainKeylogs =>
    cases isNil : pw.keylogNil <;> cases keylogs : pw.keylogChan <;>
      simp [Pcap.PcapWriter.drain, shutdownLeft, serve, isNil, keylogs]
  | saveBuffered =>
    by_cases empty : pw.tcPackets = [] <;>
      simp [Pcap.PcapWriter.drain, Pcap.PcapWriter.save, shutdownLeft, serve, empty]

/-- A cancelled `Serve` that has not returned has a next step of its shutdown. -/
theorem exists_shutdown_step {pw : Pcap.PcapWriter} (cancelled : pw.cancelled = true)
    (panicked : pw.panicked = false) (running : pw.serve ≠ .returned) :
    ∃ a t, isServe a = true ∧ Pcap.step Pcap.neverFails pw a = some t ∧
      shutdownLeft t < shutdownLeft pw ∧ t.cancelled = true ∧ t.panicked = false ∧
      t.closer = pw.closer := by
  by_cases serve : pw.serve = .select
  · refine ⟨.ctxDone, { pw with serve := .drainPackets }, rfl, ?_, ?_, cancelled, panicked, rfl⟩
    · simp [Pcap.step, panicked, serve, cancelled]
    · simp [shutdownLeft, serve]
  · obtain ⟨t, drained, less, sameCancelled, samePanicked, closer⟩ := exists_drain serve running
    refine ⟨.drain, t, rfl, ?_, less, sameCancelled.trans cancelled, samePanicked.trans panicked, closer⟩
    simpa [Pcap.step, panicked] using drained

/-- A cancelled `Serve` returns. -/
theorem exists_served (pw : Pcap.PcapWriter) (cancelled : pw.cancelled = true)
    (panicked : pw.panicked = false) :
    ∃ t, Relation.ReflTransGen
        ((Pcap.pcapWriter Pcap.neverFails).Next fun _ a => isServe a = true) pw t ∧
      t.serve = .returned ∧ t.panicked = false ∧ t.closer = pw.closer := by
  induction left : shutdownLeft pw using Nat.strongRecOn generalizing pw with
  | _ n ih =>
    by_cases served : pw.serve = .returned
    · exact ⟨pw, .refl, served, panicked, rfl⟩
    · obtain ⟨a, next, serves, moved, less, cancelled, panicked, closer⟩ :=
        exists_shutdown_step cancelled panicked served
      obtain ⟨t, steps, returned, panicked, closer'⟩ := ih _ (left ▸ less) next cancelled panicked rfl
      exact ⟨t, .head ⟨a, serves, moved⟩ steps, returned, panicked, closer'.trans closer⟩

theorem PcapOutput.handsOver_rest (f : Format) (p : PcapOutput) :
    p.HandsOver f (p.file.write (p.rest f)) :=
  ⟨[p.rest f], by simp, rfl⟩

/-- No call of the `PcapWriter` is going on. -/
structure Idle (pw : Pcap.PcapWriter) : Prop where
  closer : pw.closer = .idle
  panicked : pw.panicked = false

theorem Idle.step_close {pw : Pcap.PcapWriter} (idle : Idle pw) :
    Pcap.step Pcap.neverFails pw .close = some (if pw.isClosed then
      { pw with closeResults := pw.closeResults ++ [none] }
      else { pw with cancelled := true, closer := .waitServe }) := by
  unfold Pcap.step
  rw [if_neg (Bool.eq_false_iff.mp idle.panicked)]
  dsimp only
  rw [if_neg (not_not.mpr idle.closer)]
  split <;> rfl

/-- The end of `Close` once `Serve` has returned. -/
theorem step_returned {pw : Pcap.PcapWriter} (returned : pw.serve = .returned)
    (panicked : pw.panicked = false) (waiting : pw.closer = .waitServe) :
    ∃ closed final err, Pcap.step Pcap.neverFails pw .closeChans = some closed ∧
      Pcap.step Pcap.neverFails closed .closeReturn = some final ∧
      final.closeResults = closed.closeResults ++ [err] ∧ Idle final := by
  let closed := { pw with packetClosed := true, keylogClosed := true, closer := .flush }
  have chans : Pcap.step Pcap.neverFails pw .closeChans = some closed := by
    simp [Pcap.step, panicked, waiting, returned, closed]
  have ret : Pcap.step Pcap.neverFails closed .closeReturn =
      some (closed.finishClose Pcap.neverFails) := by
    simp [Pcap.step, panicked, closed]
  have served : closed.serve = .returned := returned
  have result : ∃ err,
      (closed.finishClose Pcap.neverFails).closeResults = closed.closeResults ++ [err] := by
    simp only [Pcap.PcapWriter.finishClose, Pcap.PcapWriter.flush, served, if_true]
    exact ⟨_, rfl⟩
  obtain ⟨err, result⟩ := result
  refine ⟨closed, _, err, chans, ret, result, rfl, ?_⟩
  simp only [Pcap.PcapWriter.finishClose, Pcap.PcapWriter.flush, served, if_true]
  exact panicked

theorem PcapOutput.exists_close (f : Format) (p : PcapOutput) (idle : Idle p.pw) :
    ∃ err q, p.Close f err q ∧ Idle q.pw := by
  have called := idle.step_close
  cases isClosed : p.pw.isClosed with
  | true =>
    rw [if_pos isClosed] at called
    exact ⟨none, _, .again isClosed called, idle.closer, idle.panicked⟩
  | false =>
    rw [if_neg (Bool.eq_false_iff.mp isClosed)] at called
    obtain ⟨served, steps, returned, panicked, waiting⟩ :=
      exists_served { p.pw with cancelled := true, closer := .waitServe } rfl idle.panicked
    obtain ⟨closed, final, err, chans, ret, result, idle⟩ := step_returned returned panicked waiting
    exact ⟨err, _, .first isClosed called steps chans ret result (PcapOutput.handsOver_rest f _), idle⟩

theorem PcapOutput.exists_flush (f : Format) (p : PcapOutput) (idle : Idle p.pw) :
    ∃ q, p.Flush f q ∧ Idle q.pw := by
  have called : Pcap.step Pcap.neverFails p.pw .flush = some (p.pw.flush Pcap.neverFails).2 := by
    simp [Pcap.step, idle.panicked]
  have idle' : Idle (p.pw.flush Pcap.neverFails).2 := by
    unfold Pcap.PcapWriter.flush
    split <;> exact ⟨idle.closer, idle.panicked⟩
  by_cases returned : p.pw.serve = .returned
  · refine ⟨⟨_, p.file.write (p.rest f)⟩, ⟨called, ?_⟩, idle'⟩
    rw [if_pos returned]
    exact PcapOutput.handsOver_rest f p
  · refine ⟨⟨_, p.file⟩, ⟨called, ?_⟩, idle'⟩
    rw [if_neg returned]

/-- The handlers can be closed one after the other. -/
def AllIdle (s : Outputs) : Prop := ∀ p ∈ s.pcap, Idle p.pw

theorem Handler.exists_close (f : Format) (h : Handler) (idle : AllIdle s)
    (registered : h = .pcapng ∨ h = .pcapKeylog → s.pcap.isSome = true) :
    ∃ t, h.Close f s t ∧ AllIdle t ∧ t.pcap.isSome = s.pcap.isSome := by
  have keep : ∀ {q : PcapOutput}, Idle q.pw → AllIdle { s with pcap := some q } := by
    intro q idle p mem
    cases mem
    exact idle
  cases h with
  | text => exact ⟨_, .text s, idle, rfl⟩
  | keylog => exact ⟨_, .keylog s, idle, rfl⟩
  | pcapng =>
    obtain ⟨p, found⟩ := Option.isSome_iff_exists.mp (registered (.inl rfl))
    obtain ⟨err, q, closed, idle⟩ := PcapOutput.exists_close f p (idle p found)
    cases err with
    | none => exact ⟨_, .pcapng found closed, keep idle, by simp [found]⟩
    | some err => exact ⟨_, .pcapngError found closed, keep idle, by simp [found]⟩
  | pcapKeylog =>
    obtain ⟨p, found⟩ := Option.isSome_iff_exists.mp (registered (.inr rfl))
    obtain ⟨flushed, flush, idle⟩ := PcapOutput.exists_flush f p (idle p found)
    obtain ⟨err, q, closed, idle⟩ := PcapOutput.exists_close f flushed idle
    exact ⟨_, .pcapKeylog found flush closed, keep idle, by simp [found]⟩

theorem exists_dispatcherClose (f : Format) (order : List Handler) (idle : AllIdle s)
    (registered : ∀ h ∈ order, h = .pcapng ∨ h = .pcapKeylog → s.pcap.isSome = true) :
    ∃ t, DispatcherClose f order s t := by
  induction order generalizing s with
  | nil => exact ⟨s, .nil s⟩
  | cons h order ih =>
    obtain ⟨t, closed, idle, same⟩ := h.exists_close f idle (registered h List.mem_cons_self)
    obtain ⟨u, rest⟩ := ih idle fun h mem pcap =>
      same.trans (registered h (List.mem_cons_of_mem _ mem) pcap)
    exact ⟨u, .cons closed rest⟩

/-! ## What `Close` leaves behind -/

theorem Outputs.nodup_registered (s : Outputs) : s.registered.Nodup := by
  unfold registered
  split <;> split <;> decide

/-- The state right before the dispatcher is closed. -/
theorem Captured.closing {order : List Handler} (captured : Captured f s)
    (visits : order.Perm s.registered) :
    Closing f (keylogFirst order) s order { s with text := s.text.map fun w => w.close.2 } := by
  refine ⟨?_, ?_, rfl, fun _ => captured.keylog, ?_, rfl, ?_⟩
  · cases text : s.text with
    | none => rfl
    | some w => simp [FileWriter.syncs_close (captured.text w text).2]
  · intro w mem
    obtain ⟨w, found, rfl⟩ := Option.map_eq_some_iff.mp mem
    obtain ⟨fresh, unbuffered⟩ := captured.text w found
    exact fresh.settled unbuffered
  · intro notMem w mem
    have registered : Handler.keylog ∈ s.registered := by
      have found : s.keylog = some w := mem
      simp [Outputs.registered, found]
    exact (notMem (visits.mem_iff.mpr registered)).elim
  · intro p mem
    obtain ⟨capturedBy, running, fresh⟩ := captured.pcap p mem
    have registered : Handler.pcapng ∈ s.registered ∧ .pcapKeylog ∈ s.registered := by
      have found : s.pcap = some p := mem
      simp [Outputs.registered, found]
    exact ⟨capturedBy, .untouched (visits.mem_iff.mpr registered.1) (visits.mem_iff.mpr registered.2)
      rfl running.isClosed fresh⟩

theorem Outputs.forall_files (s : Outputs) (Q : FileWriter → Prop) :
    (∀ w ∈ s.files, Q w) ↔
      (∀ w ∈ s.text, Q w) ∧ (∀ w ∈ s.keylog, Q w) ∧ ∀ p ∈ s.pcap, Q p.file := by
  simp [files, or_imp, forall_and]

theorem FileWriter.Settled.complete_iff {w : FileWriter} (h : w.Settled) :
    w.closes = 1 ∧ w.file = w.written ↔ w.syncs = true := by
  rw [h.closes]
  cases w.syncs <;> simp [h.intact]

/-- After the last handler the pcapng file is complete, or was left open. -/
theorem Stage.complete_iff {p : PcapOutput} (stage : Stage f first [] p) (captured : CapturedBy p.pw) :
    ((p.file.closes = 1 ∧ p.file.file = p.file.written) ∧ p.file.file = f.output p.pw ∧
      Pcap.packets p.pw.writer.blocks = p.pw.accepted ∧
      Pcap.lines p.pw.writer.blocks = p.pw.acceptedKeylogs) ↔
      p.pw.accepted ≠ [] ∨ first = true := by
  cases stage with
  | untouched mem | keylogClosed mem => cases mem
  | done _ isClosed all closed leaked =>
    constructor
    · intro complete
      by_contra nothing
      have open_ := leaked nothing
      omega
    · intro h
      obtain ⟨closes, intact⟩ := closed h
      have served := captured.inv.ended (.inr (.inr (.inr isClosed)))
      exact ⟨⟨closes, intact⟩, intact.trans all, captured.delivered served⟩

theorem Closing.complete_iff (h : Closing f first o [] t) :
    Complete f t ↔ (∀ w ∈ t.text, w.syncs = true) ∧ (∀ w ∈ t.keylog, w.syncs = true) ∧
      ∀ p ∈ t.pcap, p.pw.accepted ≠ [] ∨ first = true := by
  have text : (∀ w ∈ t.text, w.closes = 1 ∧ w.file = w.written) ↔ ∀ w ∈ t.text, w.syncs = true :=
    forall₂_congr fun w mem => (h.text w mem).complete_iff
  have keylog : (∀ w ∈ t.keylog, w.closes = 1 ∧ w.file = w.written) ↔ ∀ w ∈ t.keylog, w.syncs = true :=
    forall₂_congr fun w mem => (h.keylogClosed List.not_mem_nil w mem).complete_iff
  rw [Complete, Outputs.forall_files, text, keylog, and_assoc, and_assoc, ← forall₂_and]
  exact and_congr_right fun _ => and_congr_right fun _ =>
    forall₂_congr fun p mem => (h.pcap p mem).2.complete_iff (h.pcap p mem).1

/-- For every set of outputs, every capture and every order in which the handlers are visited, `Close`
returns, and it leaves every file flushed and closed once exactly if `fsync` works on the text and key
log files, and in pcap mode a packet was captured or the key log handler is visited before the packet
handler. -/
theorem closed_once_iff (f : Format) (setup : Setup) {order : List Handler}
    (captured : (capture f setup).Reachable s) (visits : order.Perm s.registered) :
    (∃ t, BaseProbeClose f order s t) ∧
      ∀ t, BaseProbeClose f order s t → (Complete f t ↔ ClosesCleanly order s) := by
  have captured : Captured f s :=
    captured.invariant (Captured.init f setup) fun _ _ _ h _ moved => h.step moved
  constructor
  · have idle : AllIdle { s with text := s.text.map fun w => w.close.2 } :=
      fun p mem => ⟨(captured.pcap p mem).2.1.closer, (captured.pcap p mem).2.1.panicked⟩
    have registered : ∀ h ∈ order, h = .pcapng ∨ h = .pcapKeylog → s.pcap.isSome = true := by
      intro h mem pcap
      have mem := visits.mem_iff.mp mem
      unfold Outputs.registered at mem
      grind
    obtain ⟨t, closed⟩ := exists_dispatcherClose f order idle registered
    exact ⟨t, _, .text s, closed⟩
  · rintro t ⟨u, ⟨⟩, closed⟩
    have nodup := visits.nodup_iff.mpr s.nodup_registered
    have final := Closing.dispatcherClose closed (captured.closing visits) nodup
    have syncs : ∀ writer : Option FileWriter, (∀ w ∈ writer, w.syncs = true) ↔
        ∀ b ∈ writer.map FileWriter.syncs, b = true := by simp
    have packets : ∀ pcap : Option PcapOutput,
        (∀ p ∈ pcap, p.pw.accepted ≠ [] ∨ keylogFirst order = true) ↔
          ∀ l ∈ pcap.map (fun p => p.pw.accepted), l ≠ [] ∨ keylogFirst order = true := by simp
    rw [final.complete_iff, ClosesCleanly, syncs, syncs, packets, final.textSyncs, final.keylogSyncs,
      final.accepted, ← syncs, ← syncs, ← packets]

/-- A format with one byte for the header and for each block. -/
def oneByte : Format := ⟨[1], fun _ => [2]⟩

/-- All files, each on a disk. -/
def allFiles : Setup := ⟨some ([], true), some true, some true⟩

theorem closed_once_one_packet :
    ∃ s t, (capture oneByte allFiles).Reachable s ∧
      BaseProbeClose oneByte [.text, .pcapng, .keylog, .pcapKeylog] s t ∧ Complete oneByte t := by
  have ran : (capture oneByte allFiles).run [.text [3], .keylog [4], .pcap (.writePacket [5] 6),
      .pcap (.writeKeyLog [7])] = some _ := rfl
  have reached := Machine.reachable_of_run ran
  have visits : [Handler.text, .pcapng, .keylog, .pcapKeylog].Perm
      [.text, .keylog, .pcapng, .pcapKeylog] := by decide
  obtain ⟨⟨t, closed⟩, complete⟩ := closed_once_iff oneByte allFiles reached visits
  refine ⟨_, t, reached, closed, (complete t closed).mpr ⟨?_, ?_, ?_⟩⟩
  · rintro w ⟨⟩
    rfl
  · rintro w ⟨⟩
    rfl
  · rintro p ⟨⟩
    exact .inl (List.cons_ne_nil _ _)

/-- A capture of one key log line and no packet. -/
def lineCaptured : PcapOutput :=
  ⟨Pcap.newPcapWriter.writeKeyLog [7], (FileWriter.new true [] true).write [1]⟩

/-- Its `Close` has an error, and the bytes are in the buffer of the file. -/
theorem lineCaptured_close :
    ∃ err q, lineCaptured.Close oneByte (some err) q ∧ q.pw.acceptedKeylogs = [[7]] ∧
      q.file.written = [1, 2] ∧ q.file.file = [] ∧ q.file.closes = 0 ∧ q.pw.isClosed = true ∧
      Idle q.pw ∧ q.pw.serve = .returned ∧ q.rest oneByte = [] := by
  have serve : Relation.ReflTransGen
      ((Pcap.pcapWriter Pcap.neverFails).Next fun _ a => isServe a = true)
      { lineCaptured.pw with cancelled := true, closer := .waitServe } _ :=
    .tail (.tail (.tail (.tail (.tail .refl ⟨.ctxDone, rfl, rfl⟩) ⟨.drain, rfl, rfl⟩)
      ⟨.drain, rfl, rfl⟩) ⟨.drain, rfl, rfl⟩) ⟨.drain, rfl, rfl⟩
  exact ⟨_, _, .first rfl rfl serve rfl rfl rfl ⟨[[2]], rfl, rfl⟩, rfl, rfl, rfl, rfl, rfl, ⟨rfl, rfl⟩,
    rfl, rfl⟩

/-- The packet handler is visited first and returns the error of the empty capture: the header and the
line stay in the buffer of a file that nothing closes. -/
theorem empty_capture_left_open :
    ∃ s t, (capture oneByte ⟨none, none, some true⟩).Reachable s ∧
      [.text, .pcapng, .pcapKeylog].Perm s.registered ∧
      BaseProbeClose oneByte [.text, .pcapng, .pcapKeylog] s t ∧
      (∃ p ∈ t.pcap, p.pw.acceptedKeylogs = [[7]] ∧ p.file.written = [1, 2] ∧ p.file.file = [] ∧
        p.file.closes = 0) ∧ ¬Complete oneByte t := by
  have ran : (capture oneByte ⟨none, none, some true⟩).run [.pcap (.writeKeyLog [7])] =
      some ⟨none, none, some lineCaptured⟩ := rfl
  obtain ⟨err, q, failed, keylogs, written, file, closes, isClosed, idle, returned, nothing⟩ :=
    lineCaptured_close
  have flush : q.Flush oneByte ⟨{ q.pw with writer := (q.pw.writer.flush Pcap.neverFails).2 }, q.file⟩ := by
    refine ⟨by simp [Pcap.step, idle.panicked, Pcap.PcapWriter.flush, returned], ?_⟩
    rw [if_pos returned]
    exact ⟨[], nothing.symm, rfl⟩
  have again : Idle { q.pw with writer := (q.pw.writer.flush Pcap.neverFails).2 } :=
    ⟨idle.closer, idle.panicked⟩
  have called := again.step_close
  rw [if_pos isClosed] at called
  refine ⟨_, _, Machine.reachable_of_run ran, by decide, ⟨_, .text _, .cons (.text _)
    (.cons (.pcapngError rfl failed) (.cons (.pcapKeylog rfl flush (.again isClosed called)) (.nil _)))⟩,
    ⟨_, rfl, keylogs, written, file, closes⟩, ?_⟩
  intro complete
  have once : q.file.closes = 1 := (complete.1 _ (List.mem_singleton_self _)).1
  omega

end ECapture.Probe.Output
