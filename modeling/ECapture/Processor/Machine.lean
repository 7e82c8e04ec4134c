import Mathlib.Data.List.AList
import ECapture.Library.Steps
import ECapture.Processor.Worker

/-!
# The event processor

`EventProcessor` of `pkg/event_processor/processor.go`: callers of `Write` push events, the
goroutine of `Serve` dispatches each to the worker of its UUID and writes the workers' output to
the logger, and `Close` makes `Serve` drain everything before it returns.

The goroutines interleave at statements that touch shared state. The mutex is not a field of its
own: it is held exactly while `Serve` stands between the lookup and `Get`, or between the
insertion and `Get`, and while `Close` stands between its two assignments; every other critical
section is one step. `pushed`, `dispatched`, `produced` and `logger` record, in order, the events
that `Write` has pushed, the calls of `dispatch` that have returned, the outputs that `Display`
has handed to `writeToChan`, and the writes to the logger.
-/

namespace ECapture.Processor
open Library

/-! ## State -/

/-- The statements of `dispatch`; a worker is named by its number. -/
inductive DispatchPc where
  | lookup
  | get (w : Nat)
  | create
  | add (w : Nat)
  | addGet (w : Nat)
  | write (w : Nat)
  | put (w : Nat) (ok : Bool)
  deriving DecidableEq

/-- Where `Serve` stands: at its `select`, in the first loop of `drain`, in a `dispatch` that one
of these has called, or in one of the later parts of `drain`. -/
inductive ServePc where
  | select
  | drain
  | dispatch (e : Event) (draining : Bool) (pc : DispatchPc)
  | signalWorkers
  | waitWorkers
  | flush
  | returned
  deriving DecidableEq

/-- Where the first caller of `Close` stands. -/
inductive ClosePc where
  | idle
  | marked
  | waiting
  | returned
  deriving DecidableEq

structure EventProcessor (π : Type) where
  isClosed : Bool
  incoming : List Event
  outComing : List Bytes
  destroyConn : List UInt64
  workerQueue : AList (fun _ : Bytes => Nat)
  /-- Every worker that was ever created, by its number. -/
  workers : List (EventWorker π)
  logger : List Bytes
  /-- `closeChan` has been closed. -/
  closeSignalled : Bool
  /-- The number of errors in `errChan`, all `ErrEventWorkerIncomingFull`. -/
  errChan : Nat
  serve : ServePc
  closer : ClosePc
  /-- Calls of `Write` that have found `isClosed` false. -/
  writers : List Event
  /-- Calls of `WriteDestroyConn` that have found `isClosed` false. -/
  destroyers : List UInt64
  /-- `Get` or `Put` has panicked. -/
  panicked : Bool
  /-- Some call of `Close` has returned. -/
  closeReturned : Bool
  pushed : List Event
  dispatched : List Event
  produced : List Bytes

def maxIncomingChanLen : Nat := 1024
def errChanLen : Nat := 16

def newEventProcessor (π : Type) : EventProcessor π :=
  { isClosed := false, incoming := [], outComing := [], destroyConn := [], workerQueue := ∅,
    workers := [], logger := [], closeSignalled := false, errChan := 0, serve := .select,
    closer := .idle, writers := [], destroyers := [], panicked := false, closeReturned := false,
    pushed := [], dispatched := [], produced := [] }

/-! ## Operations -/

namespace EventProcessor

variable {π : Type} (cfg : Config π)

/-- Somebody holds the mutex. -/
def locked (ep : EventProcessor π) : Bool :=
  ep.closer = .marked ||
    match ep.serve with
    | .dispatch _ _ (.get _) => true
    | .dispatch _ _ (.addGet _) => true
    | _ => false

def setWorker (w : Nat) (ew : EventWorker π) (ep : EventProcessor π) : EventProcessor π :=
  { ep with workers := ep.workers.set w ew }

/-- `Get` and `Put`: the swap of `used`, which panics when it finds the new value there. -/
def swapUsed (w : Nat) (used : Bool) (ep : EventProcessor π) : Option (EventProcessor π) :=
  match ep.workers[w]? with
  | none => none
  | some ew =>
    if ew.used = used then some { ep with panicked := true }
    else some (ep.setWorker w { ew with used })

/-- The next statement of `dispatch`. -/
def dispatch (ep : EventProcessor π) : Option (EventProcessor π) :=
  match ep.serve with
  | .dispatch e draining pc =>
    let goto pc : EventProcessor π → EventProcessor π := ({ · with serve := .dispatch e draining pc })
    match pc with
    | .lookup =>
      if ep.locked then none
      else
        match ep.workerQueue.lookup e.getUUID with
        | some w => some (goto (.get w) ep)
        | none => some (goto .create ep)
    | .get w => goto (.write w) <$> ep.swapUsed w true
    | .create =>
      some (goto (.add ep.workers.length)
        { ep with workers := ep.workers ++ [.newEventWorker e.getUUID] })
    | .add w =>
      if ep.locked then none
      else
        match ep.workers[w]? with
        | none => none
        | some ew => some (goto (.addGet w)
            { ep with workerQueue := ep.workerQueue.insert ew.uuid w })
    | .addGet w => goto (.write w) <$> ep.swapUsed w true
    | .write w =>
      match ep.workers[w]? with
      | none => none
      | some ew => some (goto (.put w (ew.write e).1) (ep.setWorker w (ew.write e).2))
    | .put w ok =>
      match ep.swapUsed w false with
      | none => none
      | some ep => some { ep with
          errChan := if !ok && ep.errChan < errChanLen then ep.errChan + 1 else ep.errChan
          dispatched := ep.dispatched ++ [e]
          serve := if draining then .drain else .select }
  | _ => none

/-- The workers in the map that are tied to the socket. -/
def tiedTo (destroyUUID : UInt64) (ep : EventProcessor π) : List Nat :=
  (ep.workerQueue.entries.map Sigma.snd).filter fun w =>
    match ep.workers[w]? with
    | some ew => ew.destroyUUID = destroyUUID
    | none => false

/-- `destroyWorkers`, where the runtime visits the `k`-th of the tied workers first. -/
def destroyWorkers (destroyUUID : UInt64) (k : Nat) (ep : EventProcessor π) :
    Option (EventProcessor π) :=
  if destroyUUID ≤ 0 then some ep
  else if ep.locked then none
  else
    match ep.tiedTo destroyUUID with
    | [] => some ep
    | ws =>
      match ws[k]? with
      | none => none
      | some w => (fun ew => ep.setWorker w ew.closeEventWorker) <$> ep.workers[w]?

/-- The loop over `workerQueue` in `drain`. -/
def closeAll (ep : EventProcessor π) : EventProcessor π :=
  { ep with workers := ep.workers.mapIdx fun w ew =>
      if w ∈ ep.workerQueue.entries.map Sigma.snd then ew.closeEventWorker else ew }

def delWorkerByUUID (ew : EventWorker π) (ep : EventProcessor π) : EventProcessor π :=
  { ep with workerQueue := ep.workerQueue.erase ew.uuid }

/-- `writeToChan` of what `Display` has produced. -/
def writeToChan (out : Option Bytes) (ep : EventProcessor π) : EventProcessor π :=
  match out with
  | none => ep
  | some b =>
    { ep with
      produced := ep.produced ++ [b]
      outComing :=
        if ep.outComing.length < maxIncomingChanLen then ep.outComing ++ [b] else ep.outComing }

/-! What the operations can do. -/

theorem swapUsed_cases {ep ep' : EventProcessor π} {w : Nat} {used : Bool}
    (moved : ep.swapUsed w used = some ep') : ∃ ew, ep.workers[w]? = some ew ∧
      (ew.used = used ∧ ep' = { ep with panicked := true } ∨
        ew.used ≠ used ∧ ep' = ep.setWorker w { ew with used }) := by
  unfold swapUsed at moved
  split at moved
  case h_1 => cases moved
  case h_2 ew here =>
    refine ⟨ew, here, ?_⟩
    split at moved
    case isTrue same =>
      cases moved
      exact .inl ⟨same, rfl⟩
    case isFalse other =>
      cases moved
      exact .inr ⟨other, rfl⟩

theorem destroyWorkers_cases {ep ep' : EventProcessor π} {d : UInt64} {k : Nat}
    (moved : ep.destroyWorkers d k = some ep') : ep' = ep ∨
      ∃ w ew, ep.workers[w]? = some ew ∧ ep' = ep.setWorker w ew.closeEventWorker := by
  unfold destroyWorkers at moved
  split at moved
  · cases moved
    exact .inl rfl
  · split at moved
    · cases moved
    · split at moved
      · cases moved
        exact .inl rfl
      · split at moved
        · cases moved
        · rename_i w _
          simp only [Option.map_eq_map, Option.map_eq_some_iff] at moved
          obtain ⟨ew, here, rfl⟩ := moved
          exact .inr ⟨w, ew, here, rfl⟩

/-! ## Steps -/

inductive Act where
  /-- `Write` up to its test of `isClosed`. -/
  | writeTest (e : Event)
  /-- The `select` of a call of `Write`. -/
  | writePush (j : Nat)
  | destroyTest (destroyUUID : UInt64)
  | destroyPush (j : Nat)
  /-- The owner of the processor reads `ErrorChan`. -/
  | recvError
  | serveIncoming
  | serveDestroy (k : Nat)
  /-- `Serve` receives an output and writes it to the logger. -/
  | serveOut
  | serveClose
  | dispatch
  /-- The first loop of `drain`. -/
  | drain
  | signalWorkers
  | workersDone
  | serveReturn
  | workerMove (w : Nat) (m : EventWorker.Move)
  | workerDel (w : Nat)
  | workerClose (w : Nat) (order : Nat)
  /-- `Close` of the first caller: `isClosed`, `closeChan`, and the return. -/
  | closeMark
  | closeSignal
  | closeReturn
  /-- `Close` of a later caller. -/
  | closeAgain

def writePush (j : Nat) (ep : EventProcessor π) : Option (EventProcessor π) :=
  match ep.writers[j]? with
  | none => none
  | some e =>
    let ep := { ep with writers := ep.writers.eraseIdx j }
    if ep.incoming.length < maxIncomingChanLen then
      some { ep with incoming := ep.incoming ++ [e], pushed := ep.pushed ++ [e] }
    else some ep

def destroyPush (j : Nat) (ep : EventProcessor π) : Option (EventProcessor π) :=
  match ep.destroyers[j]? with
  | none => none
  | some d =>
    -- this push blocks
    if ep.destroyConn.length < maxIncomingChanLen then
      some { ep with
        destroyers := ep.destroyers.eraseIdx j
        destroyConn := ep.destroyConn ++ [d] }
    else none

def serveIncoming (ep : EventProcessor π) : Option (EventProcessor π) :=
  match ep.serve, ep.incoming with
  | .select, e :: rest => some { ep with incoming := rest, serve := .dispatch e false .lookup }
  | _, _ => none

def serveDestroy (k : Nat) (ep : EventProcessor π) : Option (EventProcessor π) :=
  match ep.serve, ep.destroyConn with
  | .select, d :: rest => { ep with destroyConn := rest }.destroyWorkers d k
  | _, _ => none

def serveOut (ep : EventProcessor π) : Option (EventProcessor π) :=
  match ep.outComing with
  | b :: rest =>
    if ep.serve ∈ [.select, .waitWorkers, .flush] then
      some { ep with outComing := rest, logger := ep.logger ++ [b] }
    else none
  | [] => none

def drain (ep : EventProcessor π) : Option (EventProcessor π) :=
  match ep.serve, ep.incoming with
  | .drain, e :: rest => some { ep with incoming := rest, serve := .dispatch e true .lookup }
  | .drain, [] => some { ep with serve := .signalWorkers }
  | _, _ => none

def workerMove (w : Nat) (m : EventWorker.Move) (ep : EventProcessor π) :
    Option (EventProcessor π) := do
  let ew ← ep.workers[w]?
  let ew ← ew.move cfg m
  return ep.setWorker w ew

def workerDel (w : Nat) (ep : EventProcessor π) : Option (EventProcessor π) :=
  match ep.workers[w]? with
  | none => none
  | some ew =>
    if ew.pc = .del ∧ !ep.locked then
      some ((ep.delWorkerByUUID ew).setWorker w { ew with pc := .drain true })
    else none

def workerClose (w : Nat) (order : Nat) (ep : EventProcessor π) : Option (EventProcessor π) :=
  match ep.workers[w]? with
  | none => none
  | some ew =>
    match ew.pc with
    | .close last =>
      some ((ep.setWorker w (ew.close cfg last order).2).writeToChan (ew.close cfg last order).1)
    | _ => none

def perform (ep : EventProcessor π) : Act → Option (EventProcessor π)
  | .writeTest e => some (if ep.isClosed then ep else { ep with writers := ep.writers ++ [e] })
  | .writePush j => ep.writePush j
  | .destroyTest d =>
    some (if ep.isClosed then ep else { ep with destroyers := ep.destroyers ++ [d] })
  | .destroyPush j => ep.destroyPush j
  | .recvError => if 0 < ep.errChan then some { ep with errChan := ep.errChan - 1 } else none
  | .serveIncoming => ep.serveIncoming
  | .serveDestroy k => ep.serveDestroy k
  | .serveOut => ep.serveOut
  | .serveClose =>
    if ep.serve = .select ∧ ep.closeSignalled then some { ep with serve := .drain } else none
  | .dispatch => ep.dispatch
  | .drain => ep.drain
  | .signalWorkers =>
    if ep.serve = .signalWorkers ∧ !ep.locked then some { ep.closeAll with serve := .waitWorkers }
    else none
  | .workersDone =>
    if ep.serve = .waitWorkers ∧ ∀ ew ∈ ep.workers, ew.pc = .exited then
      some { ep with serve := .flush }
    else none
  | .serveReturn =>
    if ep.serve = .flush ∧ ep.outComing = [] then some { ep with serve := .returned } else none
  | .workerMove w m => ep.workerMove cfg w m
  | .workerDel w => ep.workerDel w
  | .workerClose w order => ep.workerClose cfg w order
  | .closeMark =>
    if ep.closer = .idle ∧ !ep.locked then some { ep with isClosed := true, closer := .marked }
    else none
  | .closeSignal =>
    if ep.closer = .marked then some { ep with closeSignalled := true, closer := .waiting }
    else none
  | .closeReturn =>
    if ep.closer = .waiting ∧ ep.serve = .returned then
      some { ep with closer := .returned, closeReturned := true }
    else none
  | .closeAgain =>
    if ep.isClosed ∧ !ep.locked then some { ep with closeReturned := true } else none

/-- A panic ends the process. -/
def step (ep : EventProcessor π) (a : Act) : Option (EventProcessor π) :=
  if ep.panicked then none else ep.perform cfg a

theorem perform_of_step {cfg : Config π} {ep ep' : EventProcessor π} {a : Act}
    (moved : ep.step cfg a = some ep') : ep.perform cfg a = some ep' := by
  unfold step at moved
  split at moved
  · cases moved
  · exact moved

/-! ### The steps of the callers -/

/-- The statements of `Write`, `WriteDestroyConn` and `Close`, and the read of `ErrorChan`. -/
def Act.ofCaller : Act → Bool
  | .writeTest _ => true
  | .writePush _ => true
  | .destroyTest _ => true
  | .destroyPush _ => true
  | .recvError => true
  | .closeMark => true
  | .closeSignal => true
  | .closeReturn => true
  | .closeAgain => true
  | _ => false

/-- `Serve`, its workers and what they have put out are where they were. -/
structure SameServe (ep ep' : EventProcessor π) : Prop where
  panicked : ep'.panicked = ep.panicked
  serve : ep'.serve = ep.serve
  workers : ep'.workers = ep.workers
  workerQueue : ep'.workerQueue = ep.workerQueue
  dispatched : ep'.dispatched = ep.dispatched
  produced : ep'.produced = ep.produced
  logger : ep'.logger = ep.logger
  outComing : ep'.outComing = ep.outComing

/-- A caller pushes an event, or its `Close` returns, or neither. -/
inductive CallerStep (ep : EventProcessor π) (a : Act) (ep' : EventProcessor π) : Prop where
  | aside (same : SameServe ep ep') (pushed : ep'.pushed = ep.pushed)
      (incoming : ep'.incoming = ep.incoming) (closeReturned : ep'.closeReturned = ep.closeReturned)
  | push {j e} (act : a = .writePush j) (same : SameServe ep ep')
      (pushed : ep'.pushed = ep.pushed ++ [e]) (incoming : ep'.incoming = ep.incoming ++ [e])
      (closeReturned : ep'.closeReturned = ep.closeReturned)
  | returns (act : a = .closeAgain ∨ ep.serve = .returned) (same : SameServe ep ep')
      (pushed : ep'.pushed = ep.pushed) (incoming : ep'.incoming = ep.incoming)

theorem CallerStep.same {ep ep' : EventProcessor π} {a : Act} (moved : CallerStep ep a ep') :
    SameServe ep ep' := by
  cases moved <;> assumption

theorem caller_cases {cfg : Config π} {ep ep' : EventProcessor π} {a : Act}
    (caller : a.ofCaller = true) (moved : ep.perform cfg a = some ep') : CallerStep ep a ep' := by
  cases a with
  | writeTest _ | destroyTest _ =>
    simp only [perform, Option.some.injEq] at moved
    subst moved
    split <;> exact .aside ⟨rfl, rfl, rfl, rfl, rfl, rfl, rfl, rfl⟩ rfl rfl rfl
  | writePush j =>
    simp only [perform, writePush] at moved
    split at moved
    · cases moved
    · split at moved <;> cases moved
      · exact .push rfl ⟨rfl, rfl, rfl, rfl, rfl, rfl, rfl, rfl⟩ rfl rfl rfl
      · exact .aside ⟨rfl, rfl, rfl, rfl, rfl, rfl, rfl, rfl⟩ rfl rfl rfl
  | destroyPush j =>
    simp only [perform, destroyPush] at moved
    split at moved
    · cases moved
    · split at moved <;> cases moved
      exact .aside ⟨rfl, rfl, rfl, rfl, rfl, rfl, rfl, rfl⟩ rfl rfl rfl
  | recvError | closeMark | closeSignal =>
    simp only [perform] at moved
    split at moved <;> cases moved
    exact .aside ⟨rfl, rfl, rfl, rfl, rfl, rfl, rfl, rfl⟩ rfl rfl rfl
  | closeReturn =>
    simp only [perform] at moved
    split at moved
    case isFalse => cases moved
    case isTrue h =>
      cases moved
      exact .returns (.inr h.2) ⟨rfl, rfl, rfl, rfl, rfl, rfl, rfl, rfl⟩ rfl rfl
  | closeAgain =>
    simp only [perform] at moved
    split at moved <;> cases moved
    exact .returns (.inl rfl) ⟨rfl, rfl, rfl, rfl, rfl, rfl, rfl, rfl⟩ rfl rfl
  | _ => cases caller

/-! ### All steps -/

/-- A statement of `dispatch`, with what it has found. -/
inductive Dispatched (ep : EventProcessor π) : EventProcessor π → Prop where
  | found {e draining w} (serve : ep.serve = .dispatch e draining .lookup)
      (free : ep.locked = false) (hit : ep.workerQueue.lookup e.getUUID = some w) :
    Dispatched ep { ep with serve := .dispatch e draining (.get w) }
  | missed {e draining} (serve : ep.serve = .dispatch e draining .lookup)
      (free : ep.locked = false) (miss : ep.workerQueue.lookup e.getUUID = none) :
    Dispatched ep { ep with serve := .dispatch e draining .create }
  | gets {e draining pc w ep₁} (serve : ep.serve = .dispatch e draining pc)
      (before : pc = .get w ∨ pc = .addGet w) (swapped : ep.swapUsed w true = some ep₁) :
    Dispatched ep { ep₁ with serve := .dispatch e draining (.write w) }
  | creates {e draining} (serve : ep.serve = .dispatch e draining .create) :
    Dispatched ep { ep with
      workers := ep.workers ++ [.newEventWorker e.getUUID]
      serve := .dispatch e draining (.add ep.workers.length) }
  | adds {e draining w ew} (serve : ep.serve = .dispatch e draining (.add w))
      (free : ep.locked = false) (here : ep.workers[w]? = some ew) :
    Dispatched ep { ep with
      workerQueue := ep.workerQueue.insert ew.uuid w
      serve := .dispatch e draining (.addGet w) }
  | writes {e draining w ew} (serve : ep.serve = .dispatch e draining (.write w))
      (here : ep.workers[w]? = some ew) :
    Dispatched ep { ep.setWorker w (ew.write e).2 with
      serve := .dispatch e draining (.put w (ew.write e).1) }
  | puts {e draining w ok ep₁} (serve : ep.serve = .dispatch e draining (.put w ok))
      (swapped : ep.swapUsed w false = some ep₁) :
    Dispatched ep { ep₁ with
      errChan := if !ok && ep₁.errChan < errChanLen then ep₁.errChan + 1 else ep₁.errChan
      dispatched := ep₁.dispatched ++ [e]
      serve := if draining then .drain else .select }

theorem dispatched_of_dispatch {ep ep' : EventProcessor π} (moved : ep.dispatch = some ep') :
    Dispatched ep ep' := by
  unfold dispatch at moved
  split at moved
  case h_2 => cases moved
  case h_1 e draining pc serve =>
    cases pc with
    | lookup =>
      dsimp only at moved
      split at moved
      case isTrue => cases moved
      case isFalse free =>
        rw [Bool.not_eq_true] at free
        split at moved <;> cases moved
        case h_1 w hit => exact .found serve free hit
        case h_2 miss => exact .missed serve free miss
    | get w =>
      simp only [Option.map_eq_map, Option.map_eq_some_iff] at moved
      obtain ⟨ep₁, swapped, rfl⟩ := moved
      exact .gets serve (.inl rfl) swapped
    | create =>
      cases moved
      exact .creates serve
    | add w =>
      dsimp only at moved
      split at moved
      case isTrue => cases moved
      case isFalse free =>
        rw [Bool.not_eq_true] at free
        split at moved <;> cases moved
        case h_2 ew here => exact .adds serve free here
    | addGet w =>
      simp only [Option.map_eq_map, Option.map_eq_some_iff] at moved
      obtain ⟨ep₁, swapped, rfl⟩ := moved
      exact .gets serve (.inr rfl) swapped
    | write w =>
      dsimp only at moved
      split at moved <;> cases moved
      case h_2 ew here => exact .writes serve here
    | put w ok =>
      dsimp only at moved
      split at moved <;> cases moved
      case h_2 ep₁ swapped => exact .puts serve swapped

/-- A step, with what its guards have found. -/
inductive Stepped (cfg : Config π) (ep : EventProcessor π) (a : Act) : EventProcessor π → Prop where
  | caller {ep'} (moved : CallerStep ep a ep') : Stepped cfg ep a ep'
  | takes {e rest draining} (serve : ep.serve = if draining then .drain else .select)
      (queued : ep.incoming = e :: rest) :
    Stepped cfg ep a { ep with incoming := rest, serve := .dispatch e draining .lookup }
  | destroys {d rest k ep'} (act : a = .serveDestroy k) (serve : ep.serve = .select)
      (queued : ep.destroyConn = d :: rest)
      (moved : { ep with destroyConn := rest }.destroyWorkers d k = some ep') :
    Stepped cfg ep a ep'
  | shows {b rest} (queued : ep.outComing = b :: rest)
      (serve : ep.serve ∈ [.select, .waitWorkers, .flush]) :
    Stepped cfg ep a { ep with outComing := rest, logger := ep.logger ++ [b] }
  | drains (serve : ep.serve = .select) (signalled : ep.closeSignalled = true) :
    Stepped cfg ep a { ep with serve := .drain }
  | dispatches {ep'} (act : a = .dispatch) (moved : Dispatched ep ep') : Stepped cfg ep a ep'
  | drained (serve : ep.serve = .drain) (empty : ep.incoming = []) :
    Stepped cfg ep a { ep with serve := .signalWorkers }
  | signals (serve : ep.serve = .signalWorkers) (free : ep.locked = false) :
    Stepped cfg ep a { ep.closeAll with serve := .waitWorkers }
  | done (serve : ep.serve = .waitWorkers) (exited : ∀ ew ∈ ep.workers, ew.pc = .exited) :
    Stepped cfg ep a { ep with serve := .flush }
  | returns (serve : ep.serve = .flush) (empty : ep.outComing = []) :
    Stepped cfg ep a { ep with serve := .returned }
  | workerMoves {w m ew ew'} (here : ep.workers[w]? = some ew) (moved : ew.move cfg m = some ew') :
    Stepped cfg ep a (ep.setWorker w ew')
  | workerDels {w ew} (here : ep.workers[w]? = some ew) (pc : ew.pc = .del)
      (free : ep.locked = false) :
    Stepped cfg ep a ((ep.delWorkerByUUID ew).setWorker w { ew with pc := .drain true })
  | workerCloses {w order ew last} (act : a = .workerClose w order)
      (here : ep.workers[w]? = some ew) (pc : ew.pc = .close last) :
    Stepped cfg ep a
      ((ep.setWorker w (ew.close cfg last order).2).writeToChan (ew.close cfg last order).1)

theorem stepped_of_step {cfg : Config π} {ep ep' : EventProcessor π} {a : Act}
    (moved : ep.step cfg a = some ep') : Stepped cfg ep a ep' := by
  replace moved := perform_of_step moved
  cases a with
  | writeTest _ | writePush _ | destroyTest _ | destroyPush _ | recvError | closeMark | closeSignal
  | closeReturn | closeAgain => exact .caller (caller_cases rfl moved)
  | serveIncoming =>
    simp only [perform, serveIncoming] at moved
    split at moved <;> cases moved
    case h_1 e rest serve queued => exact .takes serve queued
  | serveDestroy k =>
    simp only [perform, serveDestroy] at moved
    split at moved
    case h_2 => cases moved
    case h_1 d rest serve queued => exact .destroys rfl serve queued moved
  | serveOut =>
    simp only [perform, serveOut] at moved
    split at moved
    case h_2 => cases moved
    case h_1 b rest queued =>
      split at moved <;> cases moved
      case isTrue serve => exact .shows queued serve
  | serveClose =>
    simp only [perform, Option.ite_none_right_eq_some, Option.some.injEq] at moved
    obtain ⟨h, rfl⟩ := moved
    exact .drains h.1 h.2
  | dispatch => exact .dispatches rfl (dispatched_of_dispatch moved)
  | drain =>
    simp only [perform, drain] at moved
    split at moved <;> cases moved
    case h_1 e rest serve queued => exact .takes serve queued
    case h_2 serve empty => exact .drained serve empty
  | signalWorkers =>
    simp only [perform, Option.ite_none_right_eq_some, Option.some.injEq] at moved
    obtain ⟨h, rfl⟩ := moved
    exact .signals h.1 (by simpa using h.2)
  | workersDone =>
    simp only [perform, Option.ite_none_right_eq_some, Option.some.injEq] at moved
    obtain ⟨h, rfl⟩ := moved
    exact .done h.1 h.2
  | serveReturn =>
    simp only [perform, Option.ite_none_right_eq_some, Option.some.injEq] at moved
    obtain ⟨h, rfl⟩ := moved
    exact .returns h.1 h.2
  | workerMove w m =>
    simp only [perform, workerMove, bind, pure, Option.some.injEq, Option.bind_eq_some_iff] at moved
    obtain ⟨ew, here, ew', next, rfl⟩ := moved
    exact .workerMoves here next
  | workerDel w =>
    simp only [perform, workerDel] at moved
    split at moved
    case h_1 => cases moved
    case h_2 ew here =>
      split at moved <;> cases moved
      case isTrue h => exact .workerDels here h.1 (by simpa using h.2)
  | workerClose w order =>
    simp only [perform, workerClose] at moved
    split at moved
    case h_1 => cases moved
    case h_2 ew here =>
      split at moved <;> cases moved
      case h_1 last closing => exact .workerCloses rfl here closing

end EventProcessor

def eventProcessor {π : Type} (cfg : Config π) :
    Machine (EventProcessor π) EventProcessor.Act :=
  ⟨newEventProcessor π, EventProcessor.step cfg⟩

/-! ## Parts of schedules -/

open EventProcessor

def plainText : Config Bytes := ⟨false, 0, defaultParser⟩

/-- An event with UUID `a` whose payload is one letter. -/
def letter (c : UInt8) : Event := ⟨[97], [c], ⟨1, [], [], 0, [], 0⟩⟩

/-- A caller writes the event and `Serve` receives it. -/
def deliver (e : Event) : List Act := [.writeTest e, .writePush 0, .serveIncoming]

/-- The first worker runs into its idle limit. -/
def idleOut : List Act := List.replicate 12 (.workerMove 0 .tick)

/-- The first worker drains its empty queue, finds itself unused and leaves. -/
def leave : List Act := [.workerMove 0 .drain, .workerMove 0 .testUsed, .workerClose 0 0]

end ECapture.Processor
