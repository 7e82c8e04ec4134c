import ECapture.Library.Bytes

/-!
# Event workers

`eventWorker` of `pkg/event_processor/iworker.go`. A worker gathers the payloads of one UUID and
displays them when it has been idle for a while or when it is closed. Its goroutine runs `Run`,
with `drainAndClose` at the end; this module has the steps that touch nothing but the worker.

`logger.(CollectorWriter)` asserts the method set of `io.Writer`, so it succeeds for every logger
and `Display` always takes the text branch. The parsers enter as a structure of their methods.
-/

namespace ECapture.Processor
open Library

/-- The fields of `Base` that are printed. -/
structure Base where
  pid : Int64
  pName : Bytes
  srcIP : Bytes
  srcPort : UInt16
  dstIP : Bytes
  dstPort : UInt16
  deriving DecidableEq

/-- `IEventStruct`, by what its methods return. -/
structure Event where
  getUUID : Bytes
  payload : Bytes
  base : Base
  deriving DecidableEq

/-- The methods of `IParser` that a worker calls. `newParser` ranges over the map of registered
parsers; its first argument stands for the order in which the runtime visits that map. An error
of `Write` is only printed. -/
structure Parsers (π : Type) where
  newParser : Nat → Bytes → π
  write : Bytes → π → π
  display : π → Bytes
  reset : π → π

def cToGoString (c : Bytes) : Bytes := c.takeWhile (· ≠ 0)

/-- `DefaultParser`, a buffer that is shown as text or as a dump, when no other parser is
registered. -/
def defaultParser : Parsers Bytes where
  newParser _ _ := []
  write b reader := reader ++ b
  display reader :=
    match reader with
    | [] => []
    | c :: _ => if c < 32 ∨ 126 < c then hexDump reader else cToGoString reader
  reset _ := []

/-- What `NewEventProcessor` is given, with the registered parsers. -/
structure Config (π : Type) where
  isHex : Bool
  truncateSize : UInt64
  parsers : Parsers π

/-! ## Lifecycle -/

inductive LifeCycleState where
  | default
  | sock
  deriving DecidableEq

def socketLifecycleUUIDPrefix : Bytes := str "sock:"

structure ParsedUUID where
  uuidOutput : Bytes
  destroyUUID : UInt64
  lifeCycle : LifeCycleState

/-- `uuidParse`: a UUID `sock:Pid_Tid_Comm_Fd_DataType_Tuple_Sock` ties the worker to a socket. -/
def uuidParse (uuid : Bytes) : ParsedUUID :=
  let plain : ParsedUUID := ⟨uuid, 0, .default⟩
  if ! socketLifecycleUUIDPrefix.isPrefixOf uuid then plain
  else
    let core := uuid.drop socketLifecycleUUIDPrefix.length
    match cutLast 95 core with
    | none => plain
    | some (output, last) =>
      match parseUint last with
      | none => plain
      | some sock => if sock ≤ 0 then plain else ⟨output, sock, .sock⟩

/-! ## The worker -/

inductive ProcessStatus where
  | init
  | processing
  | done
  deriving DecidableEq

/-- Where the goroutine stands: at the `select` of `Run`, before `delWorkerByUUID`, at the
`select` of `drainAndClose`, in its default branch before `IfUsed`, before `Close`, or gone.
`last` tells the final `drainAndClose` from the one after which `Run` goes on. -/
inductive WorkerPc where
  | run
  | del
  | drain (last : Bool)
  | testUsed (last : Bool)
  | close (last : Bool)
  | exited
  deriving DecidableEq

/-- The payload buffer and the event that was last written into it. -/
structure Gathered where
  payload : Bytes
  originEvent : Option Event
  backed : payload ≠ [] → originEvent.isSome

namespace Gathered

def origin (g : Gathered) (h : g.payload ≠ []) : Event := g.originEvent.get (g.backed h)

def write (e : Event) (g : Gathered) : Gathered := ⟨g.payload ++ e.payload, some e, fun _ => rfl⟩

def truncate (n : Nat) (g : Gathered) : Gathered where
  payload := g.payload.take n
  originEvent := g.originEvent
  backed h := g.backed fun empty => h (by simp [empty])

def reset (g : Gathered) : Gathered := ⟨[], g.originEvent, fun h => absurd rfl h⟩

end Gathered

structure EventWorker (π : Type) where
  incoming : List Event
  gathered : Gathered
  status : ProcessStatus
  /-- The ticker has not been stopped. -/
  ticker : Bool
  tickerCount : UInt8
  uuid : Bytes
  uuidOutput : Bytes
  destroyUUID : UInt64
  parser : Option π
  used : Bool
  /-- `none` is a nil channel, `some true` a closed one. -/
  closeChan : Option Bool
  lifeCycle : LifeCycleState
  tickerRestartFlag : Bool
  pc : WorkerPc
  /-- The events for which `Write` returned nil. -/
  accepted : List Event
  /-- The events that were passed to `writeEvent`. -/
  handled : List Event

def maxTickerCount : UInt8 := 10
def maxChanLen : Nat := 1024

namespace EventWorker

variable {π : Type} (cfg : Config π)

/-- `NewEventWorker`, whose goroutine is started at once. -/
def newEventWorker (uuid : Bytes) : EventWorker π :=
  let parsed := uuidParse uuid
  { incoming := [], gathered := ⟨[], none, fun h => absurd rfl h⟩, status := .init,
    ticker := true, tickerCount := 0, uuid, uuidOutput := parsed.uuidOutput,
    destroyUUID := parsed.destroyUUID, parser := none, used := false,
    closeChan := if parsed.lifeCycle = .sock then some false else none,
    lifeCycle := parsed.lifeCycle, tickerRestartFlag := false, pc := .run, accepted := [],
    handled := [] }

def closeEventWorker (ew : EventWorker π) : EventWorker π :=
  { ew with closeChan := ew.closeChan.map fun _ => true }

/-- `Write`: whether there was room, and the worker. -/
def write (e : Event) (ew : EventWorker π) : Bool × EventWorker π :=
  if ew.incoming.length < maxChanLen then
    (true, { ew with incoming := ew.incoming ++ [e], accepted := ew.accepted ++ [e] })
  else (false, ew)

def writeEvent (e : Event) (ew : EventWorker π) : EventWorker π :=
  if ew.status ≠ .init ∧ ew.lifeCycle = .default then ew
  else
    let tsize := cfg.truncateSize.toInt64.toInt
    if 0 < tsize ∧ tsize ≤ ew.gathered.payload.length then
      { ew with gathered := ew.gathered.truncate tsize.toNat }
    else { ew with gathered := ew.gathered.write e }

/-- `parserEvents`: what the parser displays, and the parser. -/
def parserEvents (order : Nat) (ew : EventWorker π) : Bytes × π :=
  let parser := ew.parser.getD (cfg.parsers.newParser order ew.gathered.payload)
  let parser := cfg.parsers.write ew.gathered.payload parser
  (cfg.parsers.display parser, parser)

/-- The line of `Fprintf` for the collector. -/
def format (base : Base) (b : Bytes) : Bytes :=
  str "PID:" ++ decInt base.pid.toInt ++ str ", Comm:" ++ base.pName ++ str ", Src:" ++
    base.srcIP ++ str ":" ++ dec base.srcPort.toNat ++ str ", Dest:" ++ base.dstIP ++ str ":" ++
    dec base.dstPort.toNat ++ str ",\n" ++ b

/-- `Display`: what it hands to `writeToChan`, if anything, and the worker. -/
def display (order : Nat) (ew : EventWorker π) : Option Bytes × EventWorker π :=
  if h : ew.gathered.payload = [] then (none, ew)
  else
    let (b, parser) := ew.parserEvents cfg order
    let shown := if cfg.isHex then hexDump b else b
    (if b = [] then none else some (format (ew.gathered.origin h).base shown),
      { ew with
        parser := some (cfg.parsers.reset parser)
        gathered := ew.gathered.reset
        status := .init })

/-- `Close`, and what follows `drainAndClose` in `Run`. -/
def close (last : Bool) (order : Nat) (ew : EventWorker π) : Option Bytes × EventWorker π :=
  let (out, ew) := { ew with ticker := false }.display cfg order
  (out,
    if last then { ew with tickerCount := 0, pc := .exited }
    else { ew with tickerCount := 0, tickerRestartFlag := true, pc := .run })

/-! ## Steps that touch nothing but the worker -/

inductive Move where
  | tick
  | recv
  | recvClose
  | drain
  | testUsed

/-- Receive `e` from `incoming` and write it. -/
def receive (e : Event) (rest : List Event) (ew : EventWorker π) : EventWorker π :=
  { ew.writeEvent cfg e with incoming := rest, handled := ew.handled ++ [e] }

def move (ew : EventWorker π) : Move → Option (EventWorker π)
  | .tick =>
    if ew.pc = .run ∧ ew.ticker then
      if maxTickerCount < ew.tickerCount then
        if ew.lifeCycle = .sock then some { ew with pc := .drain false }
        else some { ew with pc := .del }
      else some { ew with tickerCount := ew.tickerCount + 1 }
    else none
  | .recv =>
    match ew.pc, ew.incoming with
    | .run, e :: rest =>
      some ({ ew with
        ticker := ew.ticker || ew.tickerRestartFlag
        tickerRestartFlag := false
        tickerCount := 0 }.receive cfg e rest)
    | _, _ => none
  | .recvClose =>
    if ew.pc = .run ∧ ew.closeChan = some true then some { ew with pc := .del } else none
  | .drain =>
    match ew.pc, ew.incoming with
    | .drain _, e :: rest => some (ew.receive cfg e rest)
    | .drain last, [] => some { ew with pc := .testUsed last }
    | _, _ => none
  | .testUsed =>
    match ew.pc with
    | .testUsed last =>
      if ew.used then some { ew with pc := .drain last } else some { ew with pc := .close last }
    | _ => none

/-- What a worker can do on its own, and where it stands then. -/
inductive Moved (ew : EventWorker π) : EventWorker π → Prop
  | sockTicks (running : ew.pc = .run) (sock : ew.lifeCycle = .sock) :
    Moved ew { ew with pc := .drain false }
  | ticksOut (running : ew.pc = .run) (other : ew.lifeCycle ≠ .sock) :
    Moved ew { ew with pc := .del }
  | ticks (running : ew.pc = .run) : Moved ew { ew with tickerCount := ew.tickerCount + 1 }
  | receives (e : Event) (rest : List Event) (running : ew.pc = .run)
      (queued : ew.incoming = e :: rest) :
    Moved ew ({ ew with
      ticker := ew.ticker || ew.tickerRestartFlag
      tickerRestartFlag := false
      tickerCount := 0 }.receive cfg e rest)
  | told (running : ew.pc = .run) (told : ew.closeChan = some true) :
    Moved ew { ew with pc := .del }
  | drains (last : Bool) (e : Event) (rest : List Event) (draining : ew.pc = .drain last)
      (queued : ew.incoming = e :: rest) : Moved ew (ew.receive cfg e rest)
  | drained (last : Bool) (draining : ew.pc = .drain last) (empty : ew.incoming = []) :
    Moved ew { ew with pc := .testUsed last }
  | held (last : Bool) (testing : ew.pc = .testUsed last) (used : ew.used = true) :
    Moved ew { ew with pc := .drain last }
  | free (last : Bool) (testing : ew.pc = .testUsed last) (unused : ew.used = false) :
    Moved ew { ew with pc := .close last }

theorem moved_of_move {m : Move} {ew ew' : EventWorker π} (moved : ew.move cfg m = some ew') :
    Moved cfg ew ew' := by
  cases m with
  | tick =>
    simp only [move] at moved
    split at moved
    case isFalse => cases moved
    case isTrue running =>
      split at moved
      · split at moved
        case isTrue sock =>
          cases moved
          exact .sockTicks running.1 sock
        case isFalse other =>
          cases moved
          exact .ticksOut running.1 other
      · cases moved
        exact .ticks running.1
  | recv =>
    simp only [move] at moved
    split at moved
    case h_2 => cases moved
    case h_1 e rest running queued =>
      cases moved
      exact .receives e rest running queued
  | recvClose =>
    simp only [move] at moved
    split at moved
    case isFalse => cases moved
    case isTrue told =>
      cases moved
      exact .told told.1 told.2
  | drain =>
    simp only [move] at moved
    split at moved
    case h_1 last e rest draining queued =>
      cases moved
      exact .drains last e rest draining queued
    case h_2 last draining empty =>
      cases moved
      exact .drained last draining empty
    case h_3 => cases moved
  | testUsed =>
    simp only [move] at moved
    split at moved
    case h_2 => cases moved
    case h_1 last testing =>
      split at moved
      case isTrue used =>
        cases moved
        exact .held last testing used
      case isFalse unused =>
        cases moved
        exact .free last testing (by simpa using unused)

end EventWorker

end ECapture.Processor
