import ECapture.Processor.Machine

/-!
# Invariants of one worker

Every step of the processor adds a new worker, or applies one of seven operations to workers that
exist. What a new worker has and each of the operations keeps, every worker of every reachable
state has.
-/

namespace ECapture.Processor
open Library

variable {π : Type} {cfg : Config π} {P : EventWorker π → Prop}

namespace EventWorker

/-- New workers satisfy `P`, and what a statement does to a worker keeps it. -/
structure Invariant (cfg : Config π) (P : EventWorker π → Prop) : Prop where
  new : ∀ uuid, P (newEventWorker uuid)
  used : ∀ ew used, P ew → P { ew with used }
  write : ∀ ew e, P ew → P (ew.write e).2
  told : ∀ ew, P ew → P ew.closeEventWorker
  deleted : ∀ ew, ew.pc = .del → P ew → P { ew with pc := .drain true }
  move : ∀ ew m ew', ew.move cfg m = some ew' → P ew → P ew'
  close : ∀ ew last order, ew.pc = .close last → P ew → P (ew.close cfg last order).2

end EventWorker

namespace EventProcessor

/-- Every worker satisfies `P`. -/
def EachWorker (P : EventWorker π → Prop) (ep : EventProcessor π) : Prop := ∀ ew ∈ ep.workers, P ew

variable {ep ep' : EventProcessor π}

theorem EachWorker.of_same (each : ep.EachWorker P) (same : ep'.workers = ep.workers) :
    ep'.EachWorker P := by
  rw [EachWorker, same]
  exact each

theorem EachWorker.setWorker (each : ep.EachWorker P) {w : Nat} {ew : EventWorker π}
    (kept : P ew) : (ep.setWorker w ew).EachWorker P := by
  intro x mem
  rcases List.mem_or_eq_of_mem_set mem with old | rfl
  · exact each x old
  · exact kept

theorem EachWorker.swapUsed (each : ep.EachWorker P) (inv : EventWorker.Invariant cfg P) {w : Nat}
    {used : Bool} (moved : ep.swapUsed w used = some ep') : ep'.EachWorker P := by
  obtain ⟨ew, here, ⟨-, rfl⟩ | ⟨-, rfl⟩⟩ := swapUsed_cases moved
  · exact each
  · exact each.setWorker (inv.used ew used (each ew (List.mem_of_getElem? here)))

theorem EachWorker.destroyWorkers (each : ep.EachWorker P) (inv : EventWorker.Invariant cfg P)
    {d : UInt64} {k : Nat} (moved : ep.destroyWorkers d k = some ep') : ep'.EachWorker P := by
  rcases destroyWorkers_cases moved with rfl | ⟨w, ew, here, rfl⟩
  · exact each
  · exact each.setWorker (inv.told ew (each ew (List.mem_of_getElem? here)))

theorem EachWorker.dispatch (each : ep.EachWorker P) (inv : EventWorker.Invariant cfg P)
    (moved : Dispatched ep ep') : ep'.EachWorker P := by
  cases moved with
  | found | missed | adds => exact each
  | gets _ _ swapped =>
    have next := each.swapUsed inv swapped
    exact next
  | creates =>
    intro x mem
    rcases List.mem_append.mp mem with old | new
    · exact each x old
    · rw [List.mem_singleton.mp new]
      exact inv.new _
  | @writes e draining w ew _ here =>
    have next := each.setWorker (w := w) (inv.write ew e (each ew (List.mem_of_getElem? here)))
    exact next
  | puts _ swapped =>
    have next := each.swapUsed inv swapped
    exact next

theorem EachWorker.step (each : ep.EachWorker P) (inv : EventWorker.Invariant cfg P) {a : Act}
    (moved : ep.step cfg a = some ep') : ep'.EachWorker P := by
  cases stepped_of_step moved with
  | caller next => exact each.of_same next.same.workers
  | takes | shows | drains | drained | done | returns => exact each
  | @destroys d rest _ _ _ _ _ next =>
    have before : EachWorker P { ep with destroyConn := rest } := each
    exact before.destroyWorkers inv next
  | dispatches _ next => exact each.dispatch inv next
  | signals =>
    intro x mem
    obtain ⟨w, bound, rfl⟩ := List.mem_mapIdx.mp mem
    split
    · exact inv.told _ (each _ (List.getElem_mem bound))
    · exact each _ (List.getElem_mem bound)
  | workerMoves here next =>
    exact each.setWorker (inv.move _ _ _ next (each _ (List.mem_of_getElem? here)))
  | @workerDels w ew here pc =>
    have before : (ep.delWorkerByUUID ew).EachWorker P := each
    exact before.setWorker (inv.deleted ew pc (each ew (List.mem_of_getElem? here)))
  | @workerCloses w order ew last _ here closing =>
    have next := each.setWorker (w := w)
      (inv.close ew last order closing (each ew (List.mem_of_getElem? here)))
    cases (ew.close cfg last order).1 with
    | none => exact next
    | some b => exact next

/-- Every worker of every run. -/
theorem eachWorker_of_reachable (inv : EventWorker.Invariant cfg P)
    (reached : (eventProcessor cfg).Reachable ep) : ep.EachWorker P := by
  refine Machine.ReachableBy.invariant (I := EachWorker P) ?_ ?_ reached
  · intro ew mem
    cases mem
  · exact fun s a t each _ moved => EachWorker.step each inv moved

end EventProcessor

end ECapture.Processor
