import ECapture.Library.Pointwise
import ECapture.Processor.Machine

/-!
# What a step of the processor can do

Nearly every step leaves the hand-off between the dispatcher and its worker alone; the others
are its statements, one by one. `Effect` lists them, and `Inv.effect` reads the effect off the step
function once, under the invariant that rules the panics of `Get` and `Put` out.
-/

namespace ECapture.Processor
open Library

variable {π : Type} {cfg : Config π}

/-! ## What a step leaves of a worker -/

/-- The worker has not begun its final `drainAndClose`. -/
def WorkerPc.live : WorkerPc → Bool
  | .run => true
  | .del => true
  | .drain last => !last
  | .testUsed last => !last
  | .close last => !last
  | .exited => false

namespace EventWorker

/-- Everything accepted was handled or is still queued, in order, and has the worker's UUID. -/
structure Ok (ew : EventWorker π) : Prop where
  conserved : ew.accepted = ew.handled ++ ew.incoming
  routed : ∀ e ∈ ew.accepted, e.getUUID = ew.uuid

/-- A worker about to leave has an empty queue, or somebody still holds it. -/
structure Settled (ew : EventWorker π) : Prop where
  tested : ew.pc = .testUsed true → ew.incoming ≠ [] → ew.used = true
  gone : ew.pc = .close true ∨ ew.pc = .exited → ew.incoming = [] ∧ ew.used = false

/-- What every step but those of the hand-off keeps. -/
structure Keeps (ew ew' : EventWorker π) : Prop where
  uuid : ew'.uuid = ew.uuid
  used : ew'.used = ew.used
  live : ew'.pc.live = ew.pc.live
  ok : ew.Ok → ew'.Ok
  settled : ew.Settled → ew'.Settled

theorem Keeps.refl (ew : EventWorker π) : Keeps ew ew := ⟨rfl, rfl, rfl, id, id⟩

theorem Keeps.trans {ew₁ ew₂ ew₃ : EventWorker π} (h : Keeps ew₁ ew₂) (h' : Keeps ew₂ ew₃) :
    Keeps ew₁ ew₃ :=
  ⟨h'.uuid.trans h.uuid, h'.used.trans h.used, h'.live.trans h.live, h'.ok ∘ h.ok,
    h'.settled ∘ h.settled⟩

theorem ok_new (uuid : Bytes) : (newEventWorker uuid : EventWorker π).Ok :=
  ⟨rfl, by simp [newEventWorker]⟩

theorem settled_of_live {ew : EventWorker π} (live : ew.pc.live = true) : ew.Settled := by
  constructor
  · intro tested
    simp [tested, WorkerPc.live] at live
  · rintro (closing | exited)
    · simp [closing, WorkerPc.live] at live
    · simp [exited, WorkerPc.live] at live

/-- A change of fields that the hand-off does not read. -/
theorem Keeps.of_same {ew ew' : EventWorker π} (uuid : ew'.uuid = ew.uuid)
    (used : ew'.used = ew.used) (pc : ew'.pc = ew.pc) (incoming : ew'.incoming = ew.incoming)
    (accepted : ew'.accepted = ew.accepted) (handled : ew'.handled = ew.handled) :
    Keeps ew ew' where
  uuid := uuid
  used := used
  live := by rw [pc]
  ok h := ⟨by rw [accepted, handled, incoming, h.conserved], by rw [accepted, uuid]; exact h.routed⟩
  settled h := ⟨by rw [pc, incoming, used]; exact h.tested,
    by rw [pc, incoming, used]; exact h.gone⟩

theorem writeEvent_eq (cfg : Config π) (e : Event) (ew : EventWorker π) :
    ∃ gathered, ew.writeEvent cfg e = { ew with gathered } := by
  unfold writeEvent
  split
  · exact ⟨ew.gathered, rfl⟩
  · dsimp only
    split
    · exact ⟨_, rfl⟩
    · exact ⟨_, rfl⟩

theorem display_eq (cfg : Config π) (order : Nat) (ew : EventWorker π) :
    ∃ parser gathered status,
      (ew.display cfg order).2 = { ew with parser, gathered, status } := by
  unfold display
  split
  · exact ⟨ew.parser, ew.gathered, ew.status, rfl⟩
  · exact ⟨_, _, _, rfl⟩

/-- Receiving moves the head of the queue to the end of what was handled. -/
theorem keeps_receive {e : Event} {rest : List Event} {ew : EventWorker π}
    (queued : ew.incoming = e :: rest) (waiting : ew.pc ≠ .close true ∧ ew.pc ≠ .exited) :
    Keeps ew (ew.receive cfg e rest) := by
  obtain ⟨gathered, eq⟩ := writeEvent_eq cfg e ew
  unfold receive
  rw [eq]
  refine ⟨rfl, rfl, rfl, fun h => ⟨?_, h.routed⟩, fun h => ⟨?_, ?_⟩⟩
  · simp [h.conserved, queued]
  · exact fun tested _ => h.tested tested (by simp [queued])
  · rintro (closing | exited)
    · exact absurd closing waiting.1
    · exact absurd exited waiting.2

/-- A worker may go to any statement that is not past its final test. -/
theorem keeps_goto {ew : EventWorker π} (pc : WorkerPc) (live : pc.live = ew.pc.live)
    (tested : pc = .testUsed true → ew.incoming ≠ [] → ew.used = true)
    (gone : pc = .close true ∨ pc = .exited → ew.Settled → ew.incoming = [] ∧ ew.used = false) :
    Keeps ew { ew with pc } :=
  ⟨rfl, rfl, live, fun h => ⟨h.conserved, h.routed⟩, fun h => ⟨tested, fun p => gone p h⟩⟩

theorem keeps_move {m : Move} {ew ew' : EventWorker π} (moved : ew.move cfg m = some ew') :
    Keeps ew ew' := by
  cases moved_of_move cfg moved with
  | sockTicks running => exact keeps_goto _ (by simp [running, WorkerPc.live]) (by simp) (by simp)
  | ticksOut running => exact keeps_goto _ (by simp [running, WorkerPc.live]) (by simp) (by simp)
  | ticks => exact .of_same rfl rfl rfl rfl rfl rfl
  | receives e rest running queued =>
    refine .trans ?_ (keeps_receive queued (by simp [running]))
    exact .of_same rfl rfl rfl rfl rfl rfl
  | told running => exact keeps_goto _ (by simp [running, WorkerPc.live]) (by simp) (by simp)
  | drains last e rest draining queued => exact keeps_receive queued (by simp [draining])
  | drained last draining empty =>
    exact keeps_goto _ (by simp [draining, WorkerPc.live]) (by simp [empty]) (by simp)
  | held last testing =>
    exact keeps_goto _ (by simp [testing, WorkerPc.live]) (by simp) (by simp)
  | free last testing unused =>
    refine keeps_goto _ (by simp [testing, WorkerPc.live]) (by simp) ?_
    rintro (closing | exited) settled
    · cases closing
      refine ⟨?_, unused⟩
      by_contra queued
      have used := settled.tested testing queued
      rw [unused] at used
      cases used
    · cases exited

theorem keeps_close {last : Bool} {ew : EventWorker π} (order : Nat)
    (closing : ew.pc = .close last) : Keeps ew (ew.close cfg last order).2 := by
  obtain ⟨parser, gathered, status, eq⟩ := display_eq cfg order { ew with ticker := false }
  simp only [close, eq]
  cases last with
  | false =>
    refine .trans (keeps_goto .run ?_ (by simp) (by simp)) (.of_same rfl rfl rfl rfl rfl rfl)
    simp [closing, WorkerPc.live]
  | true =>
    refine .trans (keeps_goto .exited ?_ (by simp) ?_) (.of_same rfl rfl rfl rfl rfl rfl)
    · simp [closing, WorkerPc.live]
    · exact fun _ settled => settled.gone (.inl closing)

theorem keeps_closeEventWorker (ew : EventWorker π) : Keeps ew ew.closeEventWorker :=
  .of_same rfl rfl rfl rfl rfl rfl

end EventWorker

/-! ## What a step of the processor can do -/

/-- How far a dispatch has got with its worker. -/
inductive Stage where
  | found
  | created
  | added
  | got
  deriving DecidableEq

/-- The event, the worker and the stage of the current dispatch, once it has a worker. -/
def ServePc.engaged : ServePc → Option (Event × Nat × Stage)
  | .dispatch e _ (.get w) => some (e, w, .found)
  | .dispatch e _ (.add w) => some (e, w, .created)
  | .dispatch e _ (.addGet w) => some (e, w, .added)
  | .dispatch e _ (.write w) => some (e, w, .got)
  | .dispatch e _ (.put w _) => some (e, w, .got)
  | _ => none

namespace ServePc

variable (e : Event) (w : Nat) (draining ok : Bool)

@[simp] theorem engaged_get : (dispatch e draining (.get w)).engaged = some (e, w, .found) := rfl

@[simp] theorem engaged_add : (dispatch e draining (.add w)).engaged = some (e, w, .created) := rfl

@[simp] theorem engaged_addGet : (dispatch e draining (.addGet w)).engaged = some (e, w, .added) :=
  rfl

@[simp] theorem engaged_write : (dispatch e draining (.write w)).engaged = some (e, w, .got) := rfl

@[simp] theorem engaged_put : (dispatch e draining (.put w ok)).engaged = some (e, w, .got) := rfl

end ServePc

namespace EventProcessor

/-- A step that no part of the hand-off takes. -/
structure Quiet (ep ep' : EventProcessor π) : Prop where
  calm : ep'.panicked = ep.panicked
  workers : List.Forall₂ EventWorker.Keeps ep.workers ep'.workers
  queue : ep'.workerQueue = ep.workerQueue
  engaged : ep'.serve.engaged = ep.serve.engaged

/-- What a step can do, with the statements of the hand-off one by one. -/
inductive Effect (ep : EventProcessor π) (a : Act) : EventProcessor π → Prop where
  | quiet {ep'} (h : Quiet ep ep') : Effect ep a ep'
  | del {w ew} (here : ep.workers[w]? = some ew) (pc : ew.pc = .del) (free : ep.locked = false) :
    Effect ep a ((ep.delWorkerByUUID ew).setWorker w { ew with pc := .drain true })
  | find {e w draining} (idle : ep.serve.engaged = none)
      (hit : ep.workerQueue.lookup e.getUUID = some w) :
    Effect ep a { ep with serve := .dispatch e draining (.get w) }
  | create {e draining} (idle : ep.serve.engaged = none) :
    Effect ep a { ep with
      workers := ep.workers ++ [.newEventWorker e.getUUID]
      serve := .dispatch e draining (.add ep.workers.length) }
  | add {e w draining ew} (act : a = .dispatch) (pc : ep.serve = .dispatch e draining (.add w))
      (here : ep.workers[w]? = some ew) :
    Effect ep a { ep with
      workerQueue := ep.workerQueue.insert ew.uuid w
      serve := .dispatch e draining (.addGet w) }
  | get {e w st draining ew} (engaged : ep.serve.engaged = some (e, w, st))
      (locked : st = .found ∨ st = .added) (here : ep.workers[w]? = some ew) :
    Effect ep a { ep.setWorker w { ew with used := true } with
      serve := .dispatch e draining (.write w) }
  | write {e w draining ew} (engaged : ep.serve.engaged = some (e, w, .got))
      (here : ep.workers[w]? = some ew) :
    Effect ep a { ep.setWorker w (ew.write e).2 with
      serve := .dispatch e draining (.put w (ew.write e).1) }
  | put {e w ok draining ew ep'} (act : a = .dispatch)
      (pc : ep.serve = .dispatch e draining (.put w ok)) (here : ep.workers[w]? = some ew)
      (calm : ep'.panicked = ep.panicked)
      (workers : ep'.workers = ep.workers.set w { ew with used := false })
      (queue : ep'.workerQueue = ep.workerQueue) (idle : ep'.serve.engaged = none) :
    Effect ep a ep'

/-- Invariant of every run: the flag `used` says which worker the dispatcher holds, so `Get` and
`Put` never panic. -/
structure Inv (ep : EventProcessor π) : Prop where
  calm : ep.panicked = false
  ok : ∀ ew ∈ ep.workers, ew.Ok
  used : ∀ w ew, ep.workers[w]? = some ew →
    (ew.used = true ↔ ∃ e, ep.serve.engaged = some (e, w, .got))
  mapped : ∀ u w, ep.workerQueue.lookup u = some w →
    ∃ ew, ep.workers[w]? = some ew ∧ ew.uuid = u
  target : ∀ e w st, ep.serve.engaged = some (e, w, st) →
    ∃ ew, ep.workers[w]? = some ew ∧ ew.uuid = e.getUUID
  entry : ∀ e w st, ep.serve.engaged = some (e, w, st) → st = .found ∨ st = .added →
    ep.workerQueue.lookup e.getUUID = some w

/-! ## Every step is one of these -/

theorem Quiet.of_same {ep ep' : EventProcessor π} (calm : ep'.panicked = ep.panicked)
    (workers : ep'.workers = ep.workers) (queue : ep'.workerQueue = ep.workerQueue)
    (engaged : ep'.serve.engaged = ep.serve.engaged) : Quiet ep ep' :=
  ⟨calm, workers ▸ forall₂_refl .refl _, queue, engaged⟩

theorem Quiet.of_caller {ep ep' : EventProcessor π} {a : Act} (moved : CallerStep ep a ep') :
    Quiet ep ep' :=
  have same := moved.same
  .of_same same.panicked same.workers same.workerQueue (by rw [same.serve])

theorem Quiet.setWorker {ep : EventProcessor π} {w : Nat} {ew ew' : EventWorker π}
    (here : ep.workers[w]? = some ew) (keeps : ew.Keeps ew') : Quiet ep (ep.setWorker w ew') :=
  ⟨rfl, forall₂_set .refl here keeps, rfl, rfl⟩

theorem Quiet.writeToChan {ep ep' : EventProcessor π} (h : Quiet ep ep') (out : Option Bytes) :
    Quiet ep (ep'.writeToChan out) := by
  cases out with
  | none => exact h
  | some b => exact ⟨h.calm, h.workers, h.queue, h.engaged⟩

theorem quiet_destroyWorkers {ep ep' : EventProcessor π} {d : UInt64} {k : Nat}
    (moved : ep.destroyWorkers d k = some ep') : Quiet ep ep' := by
  rcases destroyWorkers_cases moved with rfl | ⟨w, ew, here, rfl⟩
  · exact .of_same rfl rfl rfl rfl
  · exact .setWorker here ew.keeps_closeEventWorker

theorem swapUsed_eq {ep ep' : EventProcessor π} {w : Nat} {used : Bool} {ew : EventWorker π}
    (here : ep.workers[w]? = some ew) (free : ew.used ≠ used)
    (moved : ep.swapUsed w used = some ep') : ep' = ep.setWorker w { ew with used } := by
  obtain ⟨ew', here', ⟨same, -⟩ | ⟨-, rfl⟩⟩ := swapUsed_cases moved
  · rw [here] at here'
    cases here'
    exact absurd same free
  · rw [here] at here'
    cases here'
    rfl

/-- Before `Get` nobody holds the worker. -/
theorem Inv.unused {ep : EventProcessor π} (inv : Inv ep) {e : Event} {w : Nat} {st : Stage}
    {ew : EventWorker π} (engaged : ep.serve.engaged = some (e, w, st)) (before : st ≠ .got)
    (here : ep.workers[w]? = some ew) : ew.used ≠ true := by
  intro used
  obtain ⟨e', got⟩ := (inv.used w ew here).mp used
  rw [engaged] at got
  cases got
  exact before rfl

theorem Inv.effect_get {ep ep₁ : EventProcessor π} (inv : Inv ep) {a : Act} {e : Event} {w : Nat}
    {st : Stage} {draining : Bool} (engaged : ep.serve.engaged = some (e, w, st))
    (locked : st = .found ∨ st = .added) (swapped : ep.swapUsed w true = some ep₁) :
    Effect ep a { ep₁ with serve := .dispatch e draining (.write w) } := by
  obtain ⟨ew, here, -⟩ := inv.target e w st engaged
  have unused := inv.unused engaged (by rcases locked with rfl | rfl <;> simp) here
  rw [swapUsed_eq here unused swapped]
  exact .get engaged locked here

theorem Inv.effect_dispatch {ep ep' : EventProcessor π} (inv : Inv ep)
    (moved : Dispatched ep ep') : Effect ep .dispatch ep' := by
  cases moved with
  | found serve _ hit => exact .find (by rw [serve]; rfl) hit
  | missed serve => exact .quiet (.of_same rfl rfl rfl (by rw [serve]; rfl))
  | gets serve before swapped =>
    rcases before with rfl | rfl
    · exact inv.effect_get (by rw [serve, ServePc.engaged_get]) (.inl rfl) swapped
    · exact inv.effect_get (by rw [serve, ServePc.engaged_addGet]) (.inr rfl) swapped
  | creates serve => exact .create (by rw [serve]; rfl)
  | adds serve _ here => exact .add rfl serve here
  | writes serve here => exact .write (by rw [serve, ServePc.engaged_write]) here
  | @puts e draining w ok ep₁ serve swapped =>
    have engaged : ep.serve.engaged = some (e, w, .got) := by rw [serve, ServePc.engaged_put]
    obtain ⟨ew, here, -⟩ := inv.target e w .got engaged
    have used : ew.used ≠ false := by simpa using (inv.used w ew here).mpr ⟨e, engaged⟩
    rw [swapUsed_eq here used swapped]
    refine .put rfl serve here rfl rfl rfl ?_
    cases draining <;> rfl

theorem Inv.effect {ep ep' : EventProcessor π} (inv : Inv ep) {a : Act}
    (moved : ep.step cfg a = some ep') : Effect ep a ep' := by
  cases stepped_of_step moved with
  | caller next => exact .quiet (.of_caller next)
  | @takes e rest draining serve =>
    refine .quiet (.of_same rfl rfl rfl ?_)
    rw [serve]
    cases draining <;> rfl
  | destroys _ _ _ next =>
    obtain ⟨calm, workers, queue, engaged⟩ := quiet_destroyWorkers next
    exact .quiet ⟨calm, workers, queue, engaged⟩
  | shows => exact .quiet (.of_same rfl rfl rfl rfl)
  | drains serve | drained serve | done serve | returns serve =>
    exact .quiet (.of_same rfl rfl rfl (by rw [serve]; rfl))
  | dispatches act next =>
    subst act
    exact inv.effect_dispatch next
  | signals serve =>
    refine .quiet ⟨rfl, forall₂_mapIdx (fun w ew => ?_) _, rfl, by rw [serve]; rfl⟩
    split
    · exact ew.keeps_closeEventWorker
    · exact .refl ew
  | @workerMoves _ _ ew _ here next => exact .quiet (.setWorker here (ew.keeps_move next))
  | workerDels here pc free => exact .del here pc free
  | @workerCloses _ order ew _ _ here closing =>
    exact .quiet (Quiet.writeToChan (.setWorker here (ew.keeps_close order closing)) _)

end EventProcessor

end ECapture.Processor
