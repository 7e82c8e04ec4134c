import ECapture.Processor.Machine

/-!
# What `Close` leaves behind

`drain` promises that every event pushed by `Write` is dispatched and that every output of a
worker reaches the logger before `Close` returns. Three branches break it: a `Write` that has
seen `isClosed` unset may push after `drain` has looked at the queue for the last time,
`writeToChan` drops an output when `outComing` is full, and a second `Close` returns at once.
-/

namespace ECapture.Processor
open Library

variable {π : Type} {cfg : Config π}

namespace ServePc

/-- The event that is being dispatched. -/
def current : ServePc → List Event
  | .dispatch e _ _ => [e]
  | _ => []

/-- `drain` has found `incoming` empty. -/
def drained : ServePc → Bool
  | .signalWorkers => true
  | .waitWorkers => true
  | .flush => true
  | .returned => true
  | _ => false

/-- `drain` has seen the last worker exit. -/
def allDone : ServePc → Bool
  | .flush => true
  | .returned => true
  | _ => false

end ServePc

namespace EventProcessor

/-- The schedule is kind to the drain: a caller of `Write` pushes before `drain` has found
`incoming` empty, no worker calls `writeToChan` while `outComing` is full, and nobody calls
`Close` again before `Serve` has returned. -/
def drains (cfg : Config π) (ep : EventProcessor π) : Act → Bool
  | .writePush _ => !ep.serve.drained
  | .workerClose w order =>
    ep.workers[w]?.all fun ew =>
      ({ ew with ticker := false }.display cfg order).1.isNone ||
        ep.outComing.length < maxIncomingChanLen
  | .closeAgain => ep.serve = .returned
  | _ => true

def Drains (cfg : Config π) (ep : EventProcessor π) (a : Act) : Prop := ep.drains cfg a = true

instance (ep : EventProcessor π) (a : Act) : Decidable (Drains cfg ep a) :=
  inferInstanceAs (Decidable (_ = true))

/-- Where the events and the outputs are, and what the later parts of `drain` have waited for. -/
structure Ledger (ep : EventProcessor π) : Prop where
  events : ep.pushed = ep.dispatched ++ ep.serve.current ++ ep.incoming
  outputs : ep.produced = ep.logger ++ ep.outComing
  drained : ep.serve.drained = true → ep.incoming = []
  exited : ep.serve.allDone = true → ∀ ew ∈ ep.workers, ew.pc = .exited
  flushed : ep.serve = .returned → ep.outComing = []
  returned : ep.closeReturned = true → ep.serve = .returned

theorem ledger_new : Ledger (newEventProcessor π) := by
  constructor <;> simp [newEventProcessor, ServePc.current, ServePc.drained, ServePc.allDone]

/-- The fields that the ledger reads, less `serve`, `dispatched` and the workers. -/
structure SameChannels (ep ep' : EventProcessor π) : Prop where
  pushed : ep'.pushed = ep.pushed
  incoming : ep'.incoming = ep.incoming
  produced : ep'.produced = ep.produced
  logger : ep'.logger = ep.logger
  outComing : ep'.outComing = ep.outComing
  closeReturned : ep'.closeReturned = ep.closeReturned

theorem SameChannels.setWorker (ep : EventProcessor π) (w : Nat) (ew : EventWorker π) :
    SameChannels ep (ep.setWorker w ew) := ⟨rfl, rfl, rfl, rfl, rfl, rfl⟩

theorem SameChannels.swapUsed {ep ep' : EventProcessor π} {w : Nat} {used : Bool}
    (moved : ep.swapUsed w used = some ep') :
    SameChannels ep ep' ∧ ep'.dispatched = ep.dispatched := by
  obtain ⟨ew, -, ⟨-, rfl⟩ | ⟨-, rfl⟩⟩ := swapUsed_cases moved
  · exact ⟨⟨rfl, rfl, rfl, rfl, rfl, rfl⟩, rfl⟩
  · exact ⟨.setWorker ep w _, rfl⟩

/-- A step of a goroutine that leaves `Serve` and the channels alone. -/
theorem Ledger.aside {ep ep' : EventProcessor π} (ledger : Ledger ep) (same : SameChannels ep ep')
    (dispatched : ep'.dispatched = ep.dispatched) (serve : ep'.serve = ep.serve)
    (exited : ep.serve.allDone = true → ∀ ew ∈ ep'.workers, ew.pc = .exited) : Ledger ep' where
  events := by rw [same.pushed, dispatched, serve, same.incoming]; exact ledger.events
  outputs := by rw [same.produced, same.logger, same.outComing]; exact ledger.outputs
  drained := by rw [serve, same.incoming]; exact ledger.drained
  exited := by rw [serve]; exact exited
  flushed := by rw [serve, same.outComing]; exact ledger.flushed
  returned := by rw [serve, same.closeReturned]; exact ledger.returned

/-- `Serve` goes from one of its parts to the next, outside of `dispatch`. -/
theorem Ledger.goto {ep : EventProcessor π} {pc : ServePc} (ledger : Ledger ep)
    (before : ep.serve.current = []) (after : pc.current = [])
    (drained : pc.drained = true → ep.incoming = [])
    (exited : pc.allDone = true → ∀ ew ∈ ep.workers, ew.pc = .exited)
    (flushed : pc = .returned → ep.outComing = []) (running : ep.serve ≠ .returned) :
    Ledger { ep with serve := pc } where
  events := by
    rw [after, ← before]
    exact ledger.events
  outputs := ledger.outputs
  drained := drained
  exited := exited
  flushed := flushed
  returned returned := absurd (ledger.returned returned) running

/-- `Serve` takes an event out of `incoming`. -/
theorem Ledger.take {ep : EventProcessor π} {e : Event} {rest : List Event} {draining : Bool}
    (ledger : Ledger ep) (before : ep.serve.current = []) (queued : ep.incoming = e :: rest)
    (running : ep.serve ≠ .returned) :
    Ledger { ep with incoming := rest, serve := .dispatch e draining .lookup } where
  events := by
    have events := ledger.events
    rw [before, queued] at events
    simpa [ServePc.current] using events
  outputs := ledger.outputs
  drained := by simp [ServePc.drained]
  exited := by simp [ServePc.allDone]
  flushed := by simp
  returned returned := absurd (ledger.returned returned) running

/-- A statement of `dispatch` leaves the channels alone; the last one completes the dispatch. -/
inductive DispatchStep (ep ep' : EventProcessor π) : Prop where
  | goesOn {e draining pc pc'} (serve : ep.serve = .dispatch e draining pc)
      (next : ep'.serve = .dispatch e draining pc') (same : SameChannels ep ep')
      (dispatched : ep'.dispatched = ep.dispatched)
  | returns {e draining pc} (serve : ep.serve = .dispatch e draining pc)
      (next : ep'.serve = if draining then .drain else .select) (same : SameChannels ep ep')
      (dispatched : ep'.dispatched = ep.dispatched ++ [e])

theorem dispatch_cases {ep ep' : EventProcessor π} (moved : Dispatched ep ep') :
    DispatchStep ep ep' := by
  cases moved with
  | found serve | missed serve | creates serve | adds serve | writes serve =>
    exact .goesOn serve rfl ⟨rfl, rfl, rfl, rfl, rfl, rfl⟩ rfl
  | gets serve _ swapped =>
    obtain ⟨same, dispatched⟩ := SameChannels.swapUsed swapped
    exact .goesOn serve rfl ⟨same.pushed, same.incoming, same.produced, same.logger,
      same.outComing, same.closeReturned⟩ dispatched
  | puts serve swapped =>
    obtain ⟨same, dispatched⟩ := SameChannels.swapUsed swapped
    exact .returns serve rfl ⟨same.pushed, same.incoming, same.produced, same.logger,
      same.outComing, same.closeReturned⟩ (by rw [dispatched])

theorem Ledger.dispatch {ep ep' : EventProcessor π} (ledger : Ledger ep)
    (moved : DispatchStep ep ep') : Ledger ep' := by
  have open_ {e draining pc} (serve : ep.serve = .dispatch e draining pc)
      (same : SameChannels ep ep') : ep'.closeReturned ≠ true := by
    intro returned
    have := ledger.returned (same.closeReturned ▸ returned)
    simp [serve] at this
  cases moved with
  | goesOn serve next same dispatched =>
    have events := ledger.events
    rw [serve] at events
    refine ⟨?_, ?_, ?_, ?_, ?_, fun returned => absurd returned (open_ serve same)⟩
    · rw [same.pushed, dispatched, next, same.incoming]
      exact events
    · rw [same.produced, same.logger, same.outComing]
      exact ledger.outputs
    · simp [next, ServePc.drained]
    · simp [next, ServePc.allDone]
    · simp [next]
  | @returns e draining pc serve next same dispatched =>
    have events := ledger.events
    rw [serve] at events
    refine ⟨?_, ?_, ?_, ?_, ?_, fun returned => absurd returned (open_ serve same)⟩
    · rw [same.pushed, dispatched, next, same.incoming, events]
      cases draining <;> simp [ServePc.current]
    · rw [same.produced, same.logger, same.outComing]
      exact ledger.outputs
    · cases draining <;> simp [next, ServePc.drained]
    · cases draining <;> simp [next, ServePc.allDone]
    · cases draining <;> simp [next]

theorem sameChannels_destroyWorkers {ep ep' : EventProcessor π} {d : UInt64} {k : Nat}
    (moved : ep.destroyWorkers d k = some ep') :
    SameChannels ep ep' ∧ ep'.dispatched = ep.dispatched ∧ ep'.serve = ep.serve := by
  rcases destroyWorkers_cases moved with rfl | ⟨w, ew, -, rfl⟩
  · exact ⟨⟨rfl, rfl, rfl, rfl, rfl, rfl⟩, rfl, rfl⟩
  · exact ⟨.setWorker ep w _, rfl, rfl⟩

/-- A worker that has exited makes no move. -/
theorem not_exited_of_move {ew ew' : EventWorker π} {m : EventWorker.Move}
    (moved : ew.move cfg m = some ew') : ew.pc ≠ .exited := by
  intro exited
  cases m <;> simp [EventWorker.move, exited] at moved

/-- No worker moves any more once `drain` has seen all of them exit. -/
theorem Ledger.running {ep : EventProcessor π} (ledger : Ledger ep) {w : Nat}
    {ew : EventWorker π} (here : ep.workers[w]? = some ew) (running : ew.pc ≠ .exited) :
    ep.serve.allDone ≠ true :=
  fun done => running (ledger.exited done ew (List.mem_of_getElem? here))

theorem Ledger.workerClose {ep : EventProcessor π} (ledger : Ledger ep) {w order : Nat}
    {ew : EventWorker π} {last : Bool} (kind : Drains cfg ep (.workerClose w order))
    (here : ep.workers[w]? = some ew) (closing : ew.pc = .close last) :
    Ledger ((ep.setWorker w (ew.close cfg last order).2).writeToChan
      (ew.close cfg last order).1) := by
  have active : ep.serve.allDone ≠ true := ledger.running here (by simp [closing])
  have still : ep.serve ≠ .returned := fun returned => active (by simp [returned, ServePc.allDone])
  have open_ : ep.closeReturned ≠ true := fun returned => still (ledger.returned returned)
  cases out : (ew.close cfg last order).1 with
  | none =>
    exact ledger.aside (.setWorker ep _ _) rfl rfl (fun done => absurd done active)
  | some b =>
    have shown : ({ ew with ticker := false }.display cfg order).1 = some b := out
    have room : ep.outComing.length < maxIncomingChanLen := by
      simpa [Drains, drains, here, shown] using kind
    refine ⟨ledger.events, ?_, ledger.drained, fun done => absurd done active,
      fun returned => absurd returned still, fun returned => absurd returned open_⟩
    simp [writeToChan, setWorker, room, ledger.outputs]

theorem Ledger.caller {ep ep' : EventProcessor π} {a : Act} (ledger : Ledger ep)
    (kind : Drains cfg ep a) (moved : CallerStep ep a ep') : Ledger ep' := by
  have same := moved.same
  have exited : ep.serve.allDone = true → ∀ ew ∈ ep'.workers, ew.pc = .exited := by
    rw [same.workers]
    exact ledger.exited
  cases moved with
  | aside _ pushed incoming closeReturned =>
    exact ledger.aside ⟨pushed, incoming, same.produced, same.logger, same.outComing, closeReturned⟩
      same.dispatched same.serve exited
  | @push j e act _ pushed incoming closeReturned =>
    subst act
    have before : ep.serve.drained ≠ true := by simpa [Drains, drains] using kind
    constructor
    case events => simp [pushed, incoming, same.dispatched, same.serve, ledger.events]
    case outputs => rw [same.produced, same.logger, same.outComing, ledger.outputs]
    case drained =>
      rw [same.serve]
      exact fun drained => absurd drained before
    case exited => rwa [same.serve]
    case flushed =>
      rw [same.serve, same.outComing]
      exact ledger.flushed
    case returned =>
      rw [same.serve, closeReturned]
      exact ledger.returned
  | returns act _ pushed incoming =>
    have done : ep.serve = .returned := by
      rcases act with rfl | done
      · simpa [Drains, drains] using kind
      · exact done
    constructor
    case events => rw [pushed, incoming, same.dispatched, same.serve, ledger.events]
    case outputs => rw [same.produced, same.logger, same.outComing, ledger.outputs]
    case drained =>
      rw [same.serve, incoming]
      exact ledger.drained
    case exited => rwa [same.serve]
    case flushed =>
      rw [same.serve, same.outComing]
      exact ledger.flushed
    case returned => exact fun _ => same.serve.trans done

/-- An output goes from the channel to the logger. -/
theorem Ledger.serveOut {ep : EventProcessor π} (ledger : Ledger ep) {b : Bytes}
    {rest : List Bytes} (queued : ep.outComing = b :: rest) :
    Ledger { ep with outComing := rest, logger := ep.logger ++ [b] } := by
  refine ⟨ledger.events, ?_, ledger.drained, ledger.exited, fun returned => ?_, ledger.returned⟩
  · simp [ledger.outputs, queued]
  · simpa [queued] using ledger.flushed returned

theorem Ledger.step {ep ep' : EventProcessor π} {a : Act} (ledger : Ledger ep)
    (kind : Drains cfg ep a) (moved : ep.step cfg a = some ep') : Ledger ep' := by
  cases stepped_of_step moved with
  | caller next => exact ledger.caller kind next
  | @takes e rest draining serve queued =>
    refine ledger.take ?_ queued ?_ <;> cases draining <;> simp [serve, ServePc.current]
  | destroys _ serve _ next =>
    obtain ⟨same, dispatched, kept⟩ := sameChannels_destroyWorkers next
    refine ledger.aside ⟨same.pushed, same.incoming, same.produced, same.logger, same.outComing,
      same.closeReturned⟩ dispatched kept ?_
    simp [serve, ServePc.allDone]
  | shows queued => exact ledger.serveOut queued
  | drains serve =>
    exact ledger.goto (by simp [serve, ServePc.current]) rfl (by simp [ServePc.drained])
      (by simp [ServePc.allDone]) (by simp) (by simp [serve])
  | dispatches _ next => exact ledger.dispatch (dispatch_cases next)
  | drained serve empty =>
    exact ledger.goto (by simp [serve, ServePc.current]) rfl (fun _ => empty)
      (by simp [ServePc.allDone]) (by simp) (by simp [serve])
  | signals serve =>
    have signalled : Ledger ep.closeAll :=
      ledger.aside ⟨rfl, rfl, rfl, rfl, rfl, rfl⟩ rfl rfl (by simp [serve, ServePc.allDone])
    have serve : ep.closeAll.serve = .signalWorkers := serve
    exact signalled.goto (by simp [serve, ServePc.current]) rfl
      (fun _ => signalled.drained (by simp [serve, ServePc.drained])) (by simp [ServePc.allDone])
      (by simp) (by simp [serve])
  | done serve exited =>
    exact ledger.goto (by simp [serve, ServePc.current]) rfl
      (fun _ => ledger.drained (by simp [serve, ServePc.drained])) (fun _ => exited) (by simp)
      (by simp [serve])
  | returns serve empty =>
    exact ledger.goto (by simp [serve, ServePc.current]) rfl
      (fun _ => ledger.drained (by simp [serve, ServePc.drained]))
      (fun _ => ledger.exited (by simp [serve, ServePc.allDone])) (fun _ => empty)
      (by simp [serve])
  | workerMoves here next =>
    have active := ledger.running here (not_exited_of_move next)
    exact ledger.aside (.setWorker ep _ _) rfl rfl fun done => absurd done active
  | workerDels here pc =>
    have active := ledger.running here (by simp [pc])
    exact ledger.aside ⟨rfl, rfl, rfl, rfl, rfl, rfl⟩ rfl rfl fun done => absurd done active
  | workerCloses act here closing =>
    subst act
    exact ledger.workerClose kind here closing

theorem ledger_of_drains {ep : EventProcessor π}
    (reached : (eventProcessor cfg).ReachableBy (Drains cfg) ep) : Ledger ep :=
  reached.invariant ledger_new fun _ _ _ ledger kind moved => ledger.step kind moved

end EventProcessor

open EventProcessor

/-- When the schedule is kind to the drain, a `Close` that has returned leaves nothing behind:
both channels are empty, every pushed event has been dispatched, and the logger has received
every output exactly once, in the order in which the workers produced them. -/
theorem close_leaves_nothing (cfg : Config π) {ep : EventProcessor π}
    (reached : (eventProcessor cfg).ReachableBy (Drains cfg) ep)
    (returned : ep.closeReturned = true) :
    ep.incoming = [] ∧ ep.outComing = [] ∧ ep.dispatched = ep.pushed ∧
      ep.logger = ep.produced := by
  have ledger := ledger_of_drains reached
  have done := ledger.returned returned
  have incoming := ledger.drained (by simp [done, ServePc.drained])
  have outComing := ledger.flushed done
  refine ⟨incoming, outComing, ?_, ?_⟩
  · simpa [done, incoming, ServePc.current] using ledger.events.symm
  · simpa [outComing] using ledger.outputs.symm

/-- `Close` right after `Write`: `drain` dispatches the event, the worker displays it when it has
been idle, and the output is flushed. -/
def immediateClose : List Act :=
  [.writeTest (letter 65), .writePush 0, .closeMark, .closeSignal, .serveClose, .drain] ++
    List.replicate 6 .dispatch ++ [.drain, .signalWorkers, .workerMove 0 .recv] ++ idleOut ++
    [.workerDel 0] ++ leave ++ [.workersDone, .serveOut, .serveReturn, .closeReturn]

theorem close_leaves_nothing_immediateClose :
    ∃ ep, (eventProcessor plainText).ReachableBy (Drains plainText) ep ∧
      ep.closeReturned = true ∧ ep.pushed = [letter 65] ∧ ep.dispatched = [letter 65] ∧
        ep.logger = [EventWorker.format (letter 65).base [65]] := by
  obtain ⟨ep, ran, returned, pushed, produced⟩ :
      ∃ ep ∈ (eventProcessor plainText).runGuarded (Drains plainText) immediateClose,
        ep.closeReturned = true ∧ ep.pushed = [letter 65] ∧
          ep.produced = [EventWorker.format (letter 65).base [65]] := by
    decide
  have reached := Machine.reachableBy_of_runGuarded ran
  obtain ⟨-, -, dispatched, logger⟩ := close_leaves_nothing plainText reached returned
  exact ⟨ep, reached, returned, pushed, dispatched.trans pushed, logger.trans produced⟩

/-- A caller of `Write` has seen `isClosed` unset and pushes after the last look of `drain`. -/
def latePush : List Act :=
  [.writeTest (letter 65), .closeMark, .closeSignal, .serveClose, .drain, .signalWorkers,
    .workersDone, .serveReturn, .writePush 0, .closeReturn]

/-- A second `Close` while an event waits. -/
def closeTwice : List Act :=
  [.writeTest (letter 65), .writePush 0, .closeMark, .closeSignal, .closeAgain]

/-- `Close` has returned and a pushed event is in `incoming`, never dispatched. -/
theorem close_leaves_event :
    (∃ ep, (eventProcessor plainText).Reachable ep ∧ ep.closer = .returned ∧
      ep.incoming = [letter 65] ∧ ep.pushed = [letter 65] ∧ ep.dispatched = []) ∧
    ∃ ep, (eventProcessor plainText).Reachable ep ∧ ep.closeReturned = true ∧
      ep.incoming = [letter 65] ∧ ep.pushed = [letter 65] ∧ ep.dispatched = [] := by
  constructor
  · obtain ⟨ep, ran, left⟩ : ∃ ep ∈ (eventProcessor plainText).run latePush,
        ep.closer = .returned ∧ ep.incoming = [letter 65] ∧ ep.pushed = [letter 65] ∧
          ep.dispatched = [] := by
      decide
    exact ⟨ep, Machine.reachable_of_run ran, left⟩
  · obtain ⟨ep, ran, left⟩ : ∃ ep ∈ (eventProcessor plainText).run closeTwice,
        ep.closeReturned = true ∧ ep.incoming = [letter 65] ∧ ep.pushed = [letter 65] ∧
          ep.dispatched = [] := by
      decide
    exact ⟨ep, Machine.reachable_of_run ran, left⟩

end ECapture.Processor
