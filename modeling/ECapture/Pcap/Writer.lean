import ECapture.Errors
import ECapture.Library.Steps

/-!
# The pcapng writer

`PcapWriter` of `internal/output/writers/pcap_writer.go`. Callers push packets and key log
lines into two bounded channels; the `Serve` goroutine takes them out, buffers packets and
calls the `NgWriter`. `Close` cancels the context, waits for `Serve`, then closes the
channels.

The goroutines interleave at channel operations. The body of a `select` branch touches only
what `Serve` owns, so a branch is one step; every receive of `drainOnShutdown` is a step of
its own. The clock enters as one event, the passing of `dsbGraceDeadline`. `accepted` and
`acceptedKeylogs` record, in order, the calls that returned nil.
-/

namespace ECapture.Pcap
open Library

/-- `gopacket.CaptureInfo`; the timestamp in nanoseconds. -/
structure CaptureInfo where
  timestamp : Int
  captureLength : Nat
  length : Nat
  interfaceIndex : Nat
  deriving DecidableEq

structure TcPacket where
  ci : CaptureInfo
  data : Bytes
  deriving DecidableEq

inductive Block where
  | packet (p : TcPacket)
  | dsb (line : Bytes)
  deriving DecidableEq

/-! ## The underlying writer -/

/-- `pcapgo.NgWriter`: its calls are numbered, and `ng n` says whether call `n` succeeds. A
failing call emits no block. -/
structure NgWriter where
  blocks : List Block
  calls : Nat
  deriving DecidableEq

def neverFails : Nat → Bool := fun _ => true

namespace NgWriter

def emit (ng : Nat → Bool) (b : Block) (w : NgWriter) : Bool × NgWriter :=
  if ng w.calls then (true, ⟨w.blocks ++ [b], w.calls + 1⟩)
  else (false, { w with calls := w.calls + 1 })

def writePacket (ng : Nat → Bool) (p : TcPacket) (w : NgWriter) : Bool × NgWriter :=
  w.emit ng (.packet p)

def writeDecryptionSecretsBlock (ng : Nat → Bool) (line : Bytes) (w : NgWriter) :
    Bool × NgWriter :=
  w.emit ng (.dsb line)

def flush (ng : Nat → Bool) (w : NgWriter) : Bool × NgWriter :=
  (ng w.calls, { w with calls := w.calls + 1 })

end NgWriter

/-- The loop of `savePcapng`, after `i` packets: the count, whether there was no error, and
the writer. -/
def savePcapng (ng : Nat → Bool) : List TcPacket → Nat → NgWriter → (Nat × Bool) × NgWriter
  | [], i, w =>
    if i = 0 then ((0, true), w)
    else ((i, (w.flush ng).1), (w.flush ng).2)
  | p :: ps, i, w =>
    match w.writePacket ng p with
    | (false, w) => ((i + 1, false), w)
    | (true, w) => savePcapng ng ps (i + 1) w

/-! ## State -/

/-- Where `Serve` stands: at its `select`, in one of the three parts of `drainOnShutdown`, or
past `close(pw.serveDone)`. -/
inductive ServePc where
  | select
  | drainPackets
  | drainKeylogs
  | saveBuffered
  | returned
  deriving DecidableEq

/-- Where the caller of `Close` stands. -/
inductive ClosePc where
  | idle
  | waitServe
  | flush
  deriving DecidableEq

structure PcapWriter where
  writer : NgWriter
  tcPackets : List TcPacket
  packetChan : List TcPacket
  packetClosed : Bool
  keylogChan : List Bytes
  keylogClosed : Bool
  /-- `pw.keylogChan` has been set to nil. -/
  keylogNil : Bool
  /-- The local counter of `Serve`. -/
  i : Nat
  packetCount : Nat
  firstDSBWritten : Bool
  deadlinePassed : Bool
  cancelled : Bool
  isClosed : Bool
  serve : ServePc
  closer : ClosePc
  panicked : Bool
  accepted : List TcPacket
  acceptedKeylogs : List Bytes
  /-- What the calls of `Close` have returned. -/
  closeResults : List (Option Error)

def packetChanCap : Nat := 1024
def keylogChanCap : Nat := 256

/-- `NewPcapWriter`, whose last act is to start `Serve`. -/
def newPcapWriter : PcapWriter :=
  { writer := ⟨[], 0⟩, tcPackets := [], packetChan := [], packetClosed := false,
    keylogChan := [], keylogClosed := false, keylogNil := false, i := 0, packetCount := 0,
    firstDSBWritten := false, deadlinePassed := false, cancelled := false, isClosed := false,
    serve := .select, closer := .idle, panicked := false, accepted := [],
    acceptedKeylogs := [], closeResults := [] }

/-! ## The operations -/

namespace PcapWriter

def writePacket (data : Bytes) (timestamp : Int) (pw : PcapWriter) : PcapWriter :=
  let packet : TcPacket := ⟨⟨timestamp, data.length, data.length, 0⟩, data⟩
  if pw.packetClosed then { pw with panicked := true }
  else if pw.packetChan.length < packetChanCap then
    { pw with packetChan := pw.packetChan ++ [packet], accepted := pw.accepted ++ [packet] }
  else pw

def writeKeyLog (keylogLine : Bytes) (pw : PcapWriter) : PcapWriter :=
  if pw.keylogNil then pw
  else if pw.keylogClosed then { pw with panicked := true }
  else if pw.keylogChan.length < keylogChanCap then
    { pw with
      keylogChan := pw.keylogChan ++ [keylogLine]
      acceptedKeylogs := pw.acceptedKeylogs ++ [keylogLine] }
  else pw

/-- `savePcapng` with the count kept when there was no error. -/
def save (ng : Nat → Bool) (pw : PcapWriter) : PcapWriter :=
  let ((n, ok), w) := savePcapng ng pw.tcPackets 0 pw.writer
  { pw with writer := w, packetCount := if ok then pw.packetCount + n else pw.packetCount }

/-- `case <-ti.C`. -/
def onTick (ng : Nat → Bool) (pw : PcapWriter) : PcapWriter :=
  if pw.i = 0 ∨ pw.tcPackets = [] then pw
  else if !pw.firstDSBWritten && !pw.deadlinePassed then pw
  else { pw.save ng with i := 0, tcPackets := [] }

/-- `case packet, ok := <-pw.packetChan`. -/
def onPacket (ng : Nat → Bool) (pw : PcapWriter) : Option PcapWriter :=
  match pw.packetChan with
  | packet :: rest =>
    some { pw with packetChan := rest, tcPackets := pw.tcPackets ++ [packet], i := pw.i + 1 }
  | [] =>
    if pw.packetClosed then
      some { (if pw.tcPackets = [] then pw else pw.save ng) with serve := .returned }
    else none

/-- The part of the key log branch that comes after the DSB. -/
def saveAfterDSB (ng : Nat → Bool) (pw : PcapWriter) : PcapWriter :=
  if pw.tcPackets = [] then pw else { pw.save ng with i := 0, tcPackets := [] }

/-- `case keylogLine, ok := <-pw.keylogChan`. -/
def onKeylog (ng : Nat → Bool) (pw : PcapWriter) : Option PcapWriter :=
  if pw.keylogNil then none
  else
    match pw.keylogChan with
    | keylogLine :: rest =>
      let w := (pw.writer.writeDecryptionSecretsBlock ng keylogLine).2
      let w := (w.flush ng).2
      some (saveAfterDSB ng { pw with keylogChan := rest, writer := w, firstDSBWritten := true })
    | [] => if pw.keylogClosed then some { pw with keylogNil := true } else none

/-- The next step of `drainOnShutdown`. -/
def drain (ng : Nat → Bool) (pw : PcapWriter) : Option PcapWriter :=
  match pw.serve with
  | .drainPackets =>
    match pw.packetChan with
    | packet :: rest =>
      some { pw with packetChan := rest, tcPackets := pw.tcPackets ++ [packet] }
    | [] => some { pw with serve := .drainKeylogs }
  | .drainKeylogs =>
    match pw.keylogNil, pw.keylogChan with
    | false, keylog :: rest =>
      some { pw with
        keylogChan := rest
        writer := (pw.writer.writeDecryptionSecretsBlock ng keylog).2 }
    | _, _ => some { pw with serve := .saveBuffered }
  | .saveBuffered =>
    let saved := if pw.tcPackets = [] then pw else { pw.save ng with tcPackets := [] }
    some { saved with writer := (saved.writer.flush ng).2, serve := .returned }
  | _ => none

/-- The method `Flush`, of any caller. -/
def flush (ng : Nat → Bool) (pw : PcapWriter) : Bool × PcapWriter :=
  if pw.serve = .returned then
    ((pw.writer.flush ng).1, { pw with writer := (pw.writer.flush ng).2 })
  else (true, pw)

/-- The end of `Close`; an `NgWriter` is no `io.Closer`. -/
def finishClose (ng : Nat → Bool) (pw : PcapWriter) : PcapWriter :=
  let (flushed, pw) := pw.flush ng
  let result :=
    if !flushed then some (.text (str "flush failed"))
    else if pw.packetCount = 0 then
      some (.coded .eventNotReady (str "nothing captured, please check your network interface, " ++
        str "see \"ecapture tls -h\" for more information.") none)
    else none
  { pw with isClosed := true, closer := .idle, closeResults := pw.closeResults ++ [result] }

end PcapWriter

/-! ## Steps -/

inductive Act where
  | writePacket (data : Bytes) (timestamp : Int)
  | writeKeyLog (keylogLine : Bytes)
  | flush
  | deadline
  | tick
  | recvPacket
  | recvKeylog
  | ctxDone
  | drain
  | close
  | closeChans
  | closeReturn

def step (ng : Nat → Bool) (pw : PcapWriter) (a : Act) : Option PcapWriter :=
  -- a panic ends the process
  if pw.panicked then none
  else
    match a with
    | .writePacket data timestamp => some (pw.writePacket data timestamp)
    | .writeKeyLog keylogLine => some (pw.writeKeyLog keylogLine)
    | .flush => some (pw.flush ng).2
    | .deadline => some { pw with deadlinePassed := true }
    | .tick => if pw.serve = .select then some (pw.onTick ng) else none
    | .recvPacket => if pw.serve = .select then pw.onPacket ng else none
    | .recvKeylog => if pw.serve = .select then pw.onKeylog ng else none
    | .ctxDone =>
      if pw.serve = .select ∧ pw.cancelled then some { pw with serve := .drainPackets } else none
    | .drain => pw.drain ng
    | .close =>
      if pw.closer ≠ .idle then none
      else if pw.isClosed then some { pw with closeResults := pw.closeResults ++ [none] }
      else some { pw with cancelled := true, closer := .waitServe }
    | .closeChans =>
      if pw.closer = .waitServe ∧ pw.serve = .returned then
        some { pw with packetClosed := true, keylogClosed := true, closer := .flush }
      else none
    | .closeReturn =>
      if pw.closer = .flush then some (pw.finishClose ng) else none

def pcapWriter (ng : Nat → Bool) : Machine PcapWriter Act := ⟨newPcapWriter, step ng⟩

/-- The steps that are done, and what they make of the writer. -/
inductive Stepped (ng : Nat → Bool) (pw : PcapWriter) : Act → PcapWriter → Prop where
  | writePacket (data : Bytes) (timestamp : Int) :
      Stepped ng pw (.writePacket data timestamp) (pw.writePacket data timestamp)
  | writeKeyLog (keylogLine : Bytes) :
      Stepped ng pw (.writeKeyLog keylogLine) (pw.writeKeyLog keylogLine)
  | flush : Stepped ng pw .flush (pw.flush ng).2
  | deadline : Stepped ng pw .deadline { pw with deadlinePassed := true }
  | tick (running : pw.serve = .select) : Stepped ng pw .tick (pw.onTick ng)
  | recvPacket {t : PcapWriter} (running : pw.serve = .select)
      (received : pw.onPacket ng = some t) : Stepped ng pw .recvPacket t
  | recvKeylog {t : PcapWriter} (running : pw.serve = .select)
      (received : pw.onKeylog ng = some t) : Stepped ng pw .recvKeylog t
  | ctxDone (running : pw.serve = .select) (cancelled : pw.cancelled = true) :
      Stepped ng pw .ctxDone { pw with serve := .drainPackets }
  | drain {t : PcapWriter} (drained : pw.drain ng = some t) : Stepped ng pw .drain t
  | closeAgain (idle : pw.closer = .idle) (closed : pw.isClosed = true) :
      Stepped ng pw .close { pw with closeResults := pw.closeResults ++ [none] }
  | close (idle : pw.closer = .idle) (open_ : pw.isClosed = false) :
      Stepped ng pw .close { pw with cancelled := true, closer := .waitServe }
  | closeChans (waiting : pw.closer = .waitServe) (served : pw.serve = .returned) :
      Stepped ng pw .closeChans
        { pw with packetClosed := true, keylogClosed := true, closer := .flush }
  | closeReturn (flushing : pw.closer = .flush) : Stepped ng pw .closeReturn (pw.finishClose ng)

theorem stepped_of_step {ng : Nat → Bool} {pw t : PcapWriter} {a : Act}
    (moved : step ng pw a = some t) : pw.panicked = false ∧ Stepped ng pw a t := by
  unfold step at moved
  split at moved
  case isTrue => cases moved
  case isFalse calm =>
    refine ⟨Bool.eq_false_iff.mpr calm, ?_⟩
    cases a with
    | writePacket data timestamp =>
      cases moved
      exact .writePacket data timestamp
    | writeKeyLog keylogLine =>
      cases moved
      exact .writeKeyLog keylogLine
    | flush =>
      cases moved
      exact .flush
    | deadline =>
      cases moved
      exact .deadline
    | tick =>
      simp only [Option.ite_none_right_eq_some, Option.some.injEq] at moved
      obtain ⟨running, rfl⟩ := moved
      exact .tick running
    | recvPacket =>
      simp only [Option.ite_none_right_eq_some] at moved
      exact .recvPacket moved.1 moved.2
    | recvKeylog =>
      simp only [Option.ite_none_right_eq_some] at moved
      exact .recvKeylog moved.1 moved.2
    | ctxDone =>
      simp only [Option.ite_none_right_eq_some, Option.some.injEq] at moved
      obtain ⟨⟨running, cancelled⟩, rfl⟩ := moved
      exact .ctxDone running cancelled
    | drain => exact .drain moved
    | close =>
      simp only [Option.ite_none_left_eq_some, ne_eq, not_not] at moved
      obtain ⟨idle, moved⟩ := moved
      split at moved
      case isTrue closed =>
        cases moved
        exact .closeAgain idle closed
      case isFalse open_ =>
        cases moved
        exact .close idle (Bool.eq_false_iff.mpr open_)
    | closeChans =>
      simp only [Option.ite_none_right_eq_some, Option.some.injEq] at moved
      obtain ⟨⟨waiting, served⟩, rfl⟩ := moved
      exact .closeChans waiting served
    | closeReturn =>
      simp only [Option.ite_none_right_eq_some, Option.some.injEq] at moved
      obtain ⟨flushing, rfl⟩ := moved
      exact .closeReturn flushing

end ECapture.Pcap
