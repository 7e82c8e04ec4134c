import ECapture.Processor.Effect

/-!
# The hand-off between the dispatcher and a closing worker

A worker that closes takes itself out of the map, drains its queue, and leaves when it finds the
queue empty and itself unused. `dispatch` marks the worker as used before it writes to it and
unmarks it afterwards. The two tests of the worker are two steps, so the outcome depends on where
`Put` falls, and a new worker runs before it is in the map.
-/

namespace ECapture.Processor
open Library

variable {π : Type} {cfg : Config π}

namespace EventProcessor

/-! ## Every run -/

theorem Inv.quiet {ep ep' : EventProcessor π} (inv : Inv ep) (h : Quiet ep ep') : Inv ep' where
  calm := h.calm.trans inv.calm
  ok ew mem := by
    obtain ⟨ew₀, mem, keeps⟩ := exists_mem_left h.workers mem
    exact keeps.ok (inv.ok ew₀ mem)
  used w ew here := by
    obtain ⟨ew₀, here, keeps⟩ := exists_left h.workers here
    rw [keeps.used, h.engaged]
    exact inv.used w ew₀ here
  mapped u w hit := by
    rw [h.queue] at hit
    obtain ⟨ew₀, here, uuid⟩ := inv.mapped u w hit
    obtain ⟨ew, here, keeps⟩ := exists_right h.workers here
    exact ⟨ew, here, keeps.uuid.trans uuid⟩
  target e w st engaged := by
    rw [h.engaged] at engaged
    obtain ⟨ew₀, here, uuid⟩ := inv.target e w st engaged
    obtain ⟨ew, here, keeps⟩ := exists_right h.workers here
    exact ⟨ew, here, keeps.uuid.trans uuid⟩
  entry e w st engaged := by
    rw [h.engaged] at engaged
    rw [h.queue]
    exact inv.entry e w st engaged

/-- The dispatcher or a worker changes the record of one worker. -/
theorem Inv.set {ep ep' : EventProcessor π} (inv : Inv ep) {w : Nat} {ew ew' : EventWorker π}
    (here : ep.workers[w]? = some ew) (workers : ep'.workers = ep.workers.set w ew')
    (calm : ep'.panicked = ep.panicked) (uuid : ew'.uuid = ew.uuid) (ok : ew'.Ok)
    (self : ew'.used = true ↔ ∃ e, ep'.serve.engaged = some (e, w, .got))
    (others : ∀ v, v ≠ w → ((∃ e, ep.serve.engaged = some (e, v, .got)) ↔
      ∃ e, ep'.serve.engaged = some (e, v, .got)))
    (queue : ∀ u v, ep'.workerQueue.lookup u = some v → ep.workerQueue.lookup u = some v)
    (target : ∀ e v st, ep'.serve.engaged = some (e, v, st) →
      ∃ st, ep.serve.engaged = some (e, v, st))
    (entry : ∀ e v st, ep'.serve.engaged = some (e, v, st) → st = .found ∨ st = .added →
      ep'.workerQueue.lookup e.getUUID = some v) : Inv ep' := by
  have each : List.Forall₂ (fun x y : EventWorker π => y.uuid = x.uuid) ep.workers ep'.workers := by
    rw [workers]
    exact forall₂_set (R := fun x y : EventWorker π => y.uuid = x.uuid) (fun _ => rfl) here uuid
  refine ⟨calm.trans inv.calm, fun x mem => ?_, fun v x found => ?_, fun u v hit => ?_,
    fun e v st engaged => ?_, entry⟩
  · rw [workers] at mem
    rcases List.mem_or_eq_of_mem_set mem with old | rfl
    · exact inv.ok x old
    · exact ok
  · rw [workers] at found
    rcases getElem?_set_cases found with ⟨rfl, rfl⟩ | ⟨other, found⟩
    · exact self
    · exact (inv.used v x found).trans (others v other)
  · obtain ⟨x, found, same⟩ := inv.mapped u v (queue u v hit)
    obtain ⟨y, found, next⟩ := exists_right each found
    exact ⟨y, found, next.trans same⟩
  · obtain ⟨st, before⟩ := target e v st engaged
    obtain ⟨x, found, same⟩ := inv.target e v st before
    obtain ⟨y, found, next⟩ := exists_right each found
    exact ⟨y, found, next.trans same⟩

theorem lookup_of_erase {q : AList fun _ : Bytes => Nat} {k u : Bytes} {v : Nat}
    (hit : (q.erase k).lookup u = some v) : u ≠ k ∧ q.lookup u = some v := by
  have other : u ≠ k := by
    rintro rfl
    simp at hit
  exact ⟨other, AList.lookup_erase_ne other ▸ hit⟩

/-- Between the lookup or the insertion and `Get` the mutex is held. -/
theorem locked_of_engaged {ep : EventProcessor π} {e : Event} {w : Nat} {st : Stage}
    (engaged : ep.serve.engaged = some (e, w, st)) (stage : st = .found ∨ st = .added) :
    ep.locked = true := by
  unfold locked
  cases serve : ep.serve with
  | dispatch e' draining pc =>
    rw [serve] at engaged
    cases pc with
    | lookup | create => cases engaged
    | get w | addGet w => simp
    | add w | write w | put w ok =>
      cases engaged
      simp at stage
  | _ =>
    rw [serve] at engaged
    cases engaged

theorem ok_write {e : Event} {ew : EventWorker π} (ok : ew.Ok) (uuid : ew.uuid = e.getUUID) :
    (ew.write e).2.Ok := by
  unfold EventWorker.write
  split
  · refine ⟨by simp [ok.conserved], fun x mem => ?_⟩
    rcases List.mem_append.mp mem with old | new
    · exact ok.routed x old
    · rw [List.mem_singleton.mp new]
      exact uuid.symm
  · exact ok

theorem write_same (e : Event) (ew : EventWorker π) :
    (ew.write e).2.uuid = ew.uuid ∧ (ew.write e).2.used = ew.used ∧
      (ew.write e).2.pc = ew.pc := by
  unfold EventWorker.write
  split <;> exact ⟨rfl, rfl, rfl⟩

/-- A new worker is unused and in no map. -/
theorem Inv.create {ep : EventProcessor π} (inv : Inv ep) {e : Event} {draining : Bool}
    (idle : ep.serve.engaged = none) :
    Inv { ep with
      workers := ep.workers ++ [.newEventWorker e.getUUID]
      serve := .dispatch e draining (.add ep.workers.length) } where
  calm := inv.calm
  ok x mem := by
    rcases List.mem_append.mp mem with old | new
    · exact inv.ok x old
    · rw [List.mem_singleton.mp new]
      exact EventWorker.ok_new _
  used v x found := by
    rcases List.mem_append.mp (List.mem_of_getElem? found) with old | new
    · obtain ⟨u, found⟩ := List.mem_iff_getElem?.mp old
      simpa [idle] using inv.used u x found
    · rw [List.mem_singleton.mp new]
      simp [EventWorker.newEventWorker]
  mapped u v hit := by
    obtain ⟨x, found, uuid⟩ := inv.mapped u v hit
    have bound := (List.getElem?_eq_some_iff.mp found).1
    exact ⟨x, (List.getElem?_append_left bound).trans found, uuid⟩
  target e' v st engaged := by
    cases engaged
    exact ⟨_, List.getElem?_concat_length, rfl⟩
  entry e' v st engaged stage := by
    cases engaged
    simp at stage

/-- The worker that is engaged goes into the map. -/
theorem Inv.add {ep : EventProcessor π} (inv : Inv ep) {e : Event} {w : Nat} {draining : Bool}
    {ew : EventWorker π} (engaged : ep.serve.engaged = some (e, w, .created))
    (here : ep.workers[w]? = some ew) :
    Inv { ep with
      workerQueue := ep.workerQueue.insert ew.uuid w
      serve := .dispatch e draining (.addGet w) } := by
  obtain ⟨ew', here', uuid⟩ := inv.target e w .created engaged
  rw [here] at here'
  cases here'
  refine ⟨inv.calm, inv.ok, fun v x found => ?_, fun u v hit => ?_, fun e' v st engaged => ?_,
    fun e' v st engaged _ => ?_⟩
  · simpa [engaged] using inv.used v x found
  · by_cases same : u = ew.uuid
    · subst same
      rw [AList.lookup_insert] at hit
      cases hit
      exact ⟨ew, here, rfl⟩
    · rw [AList.lookup_insert_ne same] at hit
      exact inv.mapped u v hit
  · cases engaged
    exact ⟨ew, here, uuid⟩
  · cases engaged
    rw [← uuid]
    exact AList.lookup_insert _

theorem Inv.next {ep ep' : EventProcessor π} {a : Act} (inv : Inv ep) (effect : Effect ep a ep') :
    Inv ep' := by
  cases effect with
  | quiet h => exact inv.quiet h
  | @del w ew here pc free =>
    have same := inv.ok ew (List.mem_of_getElem? here)
    refine inv.set here rfl rfl rfl ⟨same.conserved, same.routed⟩ (inv.used w ew here)
      (fun _ _ => .rfl) (fun u v hit => (lookup_of_erase hit).2)
      (fun e v st engaged => ⟨st, engaged⟩) (fun e v st engaged stage => ?_)
    have held : ep.locked = true := locked_of_engaged engaged stage
    simp [free] at held
  | @find e w draining idle hit =>
    refine ⟨inv.calm, inv.ok, fun v x found => ?_, inv.mapped, fun e' v st engaged => ?_,
      fun e' v st engaged _ => ?_⟩
    · simpa [idle] using inv.used v x found
    · cases engaged
      exact inv.mapped _ _ hit
    · cases engaged
      exact hit
  | create idle => exact inv.create idle
  | add act pc here => exact inv.add (by rw [pc]; rfl) here
  | @get e w st draining ew engaged locked here =>
    have same := inv.ok ew (List.mem_of_getElem? here)
    refine inv.set here rfl rfl rfl ⟨same.conserved, same.routed⟩ ?_ (fun v other => ?_)
      (fun u v hit => hit) (fun e' v st' next => ?_) (fun e' v st' next stage => ?_)
    · simp
    · rcases locked with rfl | rfl <;> simp [engaged, Ne.symm other]
    · cases next
      exact ⟨st, engaged⟩
    · cases next
      simp at stage
  | @write e w draining ew engaged here =>
    obtain ⟨ew', here', uuid⟩ := inv.target e w .got engaged
    rw [here] at here'
    cases here'
    have same := write_same e ew
    refine inv.set here rfl rfl same.1 (ok_write (inv.ok ew (List.mem_of_getElem? here)) uuid) ?_
      (fun v other => ?_) (fun u v hit => hit) (fun e' v st' next => ?_)
      (fun e' v st' next stage => ?_)
    · rw [same.2.1, inv.used w ew here, engaged]
      simp
    · simp [engaged, Ne.symm other]
    · cases next
      exact ⟨.got, engaged⟩
    · cases next
      simp at stage
  | @put e w ok draining ew ep' act pc here calm workers queue idle =>
    have engaged : ep.serve.engaged = some (e, w, .got) := by rw [pc]; rfl
    have same := inv.ok ew (List.mem_of_getElem? here)
    refine inv.set here workers calm rfl ⟨same.conserved, same.routed⟩ ?_ (fun v other => ?_)
      (fun u v hit => queue ▸ hit) (fun e' v st' next => ?_) (fun e' v st' next stage => ?_)
    · simp [idle]
    · simp [engaged, idle, Ne.symm other]
    · simp [idle] at next
    · simp [idle] at next

/-! ## Runs in which the hand-off succeeds -/

/-- Invariant of the runs in which the hand-off succeeds: who is in the map is not leaving. -/
structure Sound (ep : EventProcessor π) : Prop where
  settled : ∀ ew ∈ ep.workers, ew.Settled
  live : ∀ u w ew, ep.workerQueue.lookup u = some w → ep.workers[w]? = some ew →
    ew.pc.live = true

theorem Sound.quiet {ep ep' : EventProcessor π} (sound : Sound ep) (h : Quiet ep ep') :
    Sound ep' where
  settled ew mem := by
    obtain ⟨ew₀, mem, keeps⟩ := exists_mem_left h.workers mem
    exact keeps.settled (sound.settled ew₀ mem)
  live u w ew hit here := by
    rw [h.queue] at hit
    obtain ⟨ew₀, here, keeps⟩ := exists_left h.workers here
    rw [keeps.live]
    exact sound.live u w ew₀ hit here

/-- The record of one worker changes; while the worker is in the map, it has not begun to leave. -/
theorem Sound.set {ep ep' : EventProcessor π} (sound : Sound ep) {w : Nat} {ew' : EventWorker π}
    (workers : ep'.workers = ep.workers.set w ew') (settled : ew'.Settled)
    (queue : ∀ u v, ep'.workerQueue.lookup u = some v → ep.workerQueue.lookup u = some v)
    (live : ∀ u, ep'.workerQueue.lookup u = some w → ew'.pc.live = true) : Sound ep' where
  settled x mem := by
    rw [workers] at mem
    rcases List.mem_or_eq_of_mem_set mem with old | rfl
    · exact sound.settled x old
    · exact settled
  live u v x hit found := by
    rw [workers] at found
    rcases getElem?_set_cases found with ⟨rfl, rfl⟩ | ⟨-, found⟩
    · exact live u hit
    · exact sound.live u v x (queue u v hit) found

/-- The schedule is kind to the hand-off: `Put` does not fall between the worker's last look at
its queue and its test of `IfUsed` while an event has arrived in between, and a new worker is put
into the map before it has begun its final drain. -/
def handsOver (ep : EventProcessor π) (a : Act) : Bool :=
  match a, ep.serve with
  | .dispatch, .dispatch _ _ (.put w _) =>
    ep.workers[w]?.all fun ew => !(ew.pc = .testUsed true && ew.incoming ≠ [])
  | .dispatch, .dispatch _ _ (.add w) => ep.workers[w]?.all fun ew => ew.pc.live
  | _, _ => true

def HandsOver (ep : EventProcessor π) (a : Act) : Prop := ep.handsOver a = true

instance (ep : EventProcessor π) (a : Act) : Decidable (HandsOver ep a) :=
  inferInstanceAs (Decidable (_ = true))

theorem Sound.next {ep ep' : EventProcessor π} {a : Act} (sound : Sound ep) (inv : Inv ep)
    (kind : HandsOver ep a) (effect : Effect ep a ep') : Sound ep' := by
  cases effect with
  | quiet h => exact sound.quiet h
  | @del w ew here pc free =>
    refine sound.set rfl ⟨by simp, by simp⟩ (fun u v hit => (lookup_of_erase hit).2) ?_
    -- no other key of the map leads to the worker that leaves
    intro u hit
    obtain ⟨other, kept⟩ := lookup_of_erase hit
    obtain ⟨ew', here', uuid⟩ := inv.mapped u w kept
    rw [here] at here'
    cases here'
    exact absurd uuid.symm other
  | @find e w draining idle hit => exact ⟨sound.settled, sound.live⟩
  | @create e draining idle =>
    constructor
    · intro x mem
      rcases List.mem_append.mp mem with old | new
      · exact sound.settled x old
      · rw [List.mem_singleton.mp new]
        exact EventWorker.settled_of_live rfl
    · intro u v x hit found
      obtain ⟨y, before, -⟩ := inv.mapped u v hit
      have bound := (List.getElem?_eq_some_iff.mp before).1
      exact sound.live u v x hit ((List.getElem?_append_left bound).symm.trans found)
  | @add e w draining ew act pc here =>
    have live : ew.pc.live = true := by
      subst act
      simpa [HandsOver, handsOver, pc, here] using kind
    refine ⟨sound.settled, fun u v x hit found => ?_⟩
    by_cases same : u = ew.uuid
    · subst same
      rw [AList.lookup_insert] at hit
      cases hit
      rw [here] at found
      cases found
      exact live
    · rw [AList.lookup_insert_ne same] at hit
      exact sound.live u v x hit found
  | @get e w st draining ew engaged locked here =>
    have live := sound.live _ w ew (inv.entry e w st engaged locked) here
    exact sound.set rfl (EventWorker.settled_of_live live) (fun _ _ hit => hit) fun _ _ => live
  | @write e w draining ew engaged here =>
    have used : ew.used = true := (inv.used w ew here).mpr ⟨e, engaged⟩
    have same := write_same e ew
    have settled : (ew.write e).2.Settled := by
      refine ⟨fun _ _ => same.2.1.trans used, fun leaving => ?_⟩
      rw [same.2.2] at leaving
      have unused := ((sound.settled ew (List.mem_of_getElem? here)).gone leaving).2
      simp [used] at unused
    refine sound.set rfl settled (fun _ _ hit => hit) ?_
    intro u hit
    rw [same.2.2]
    exact sound.live u w ew hit here
  | @put e w ok draining ew ep' act pc here calm workers queue idle =>
    have before := sound.settled ew (List.mem_of_getElem? here)
    have empty : ew.pc ≠ .testUsed true ∨ ew.incoming = [] := by
      subst act
      simpa [HandsOver, handsOver, pc, here] using kind
    have settled : ({ ew with used := false } : EventWorker π).Settled :=
      ⟨fun tested queued => absurd (empty.resolve_left fun other => other tested) queued,
        fun leaving => ⟨(before.gone leaving).1, rfl⟩⟩
    apply sound.set workers settled
    · rw [queue]
      exact fun _ _ hit => hit
    · intro u hit
      rw [queue] at hit
      exact sound.live u w ew hit here

theorem inv_new : Inv (newEventProcessor π) := by
  constructor <;> simp [newEventProcessor, ServePc.engaged]

theorem sound_new : Sound (newEventProcessor π) := by
  constructor <;> simp [newEventProcessor]

theorem inv_of_reachable {ep : EventProcessor π} (reached : (eventProcessor cfg).Reachable ep) :
    Inv ep :=
  reached.invariant inv_new fun _ _ _ inv _ moved => inv.next (inv.effect moved)

/-- Whatever the schedule, `Get` and `Put` find the flag as they expect it, and a worker has
handled or still queues what it has accepted. -/
theorem calm_and_ok {ep : EventProcessor π} (reached : (eventProcessor cfg).Reachable ep) :
    ep.panicked = false ∧ ∀ ew ∈ ep.workers, ew.Ok :=
  ⟨(inv_of_reachable reached).calm, (inv_of_reachable reached).ok⟩

theorem sound_of_handsOver {ep : EventProcessor π}
    (reached : (eventProcessor cfg).ReachableBy HandsOver ep) : Inv ep ∧ Sound ep :=
  reached.invariant (I := fun ep => Inv ep ∧ Sound ep) ⟨inv_new, sound_new⟩
    fun _ _ _ ⟨inv, sound⟩ kind moved =>
      ⟨inv.next (inv.effect moved), sound.next inv kind (inv.effect moved)⟩

end EventProcessor

open EventProcessor

/-- When the schedule is kind to the hand-off, no accepted event is lost: what a worker has
accepted is what it has passed to `writeEvent` followed by what is queued, in that order and all
of its UUID, and a goroutine that has exited has an empty queue. -/
theorem accepted_events_are_written (cfg : Config π) {ep : EventProcessor π}
    (reached : (eventProcessor cfg).ReachableBy HandsOver ep) :
    ep.panicked = false ∧ ∀ ew ∈ ep.workers,
      ew.accepted = ew.handled ++ ew.incoming ∧ (∀ e ∈ ew.accepted, e.getUUID = ew.uuid) ∧
        (ew.pc = .exited → ew.incoming = []) := by
  obtain ⟨inv, sound⟩ := sound_of_handsOver reached
  refine ⟨inv.calm, fun ew mem => ⟨(inv.ok ew mem).conserved, (inv.ok ew mem).routed, ?_⟩⟩
  exact fun exited => ((sound.settled ew mem).gone (.inr exited)).1

/-! ## Schedules -/

/-- Two events; the worker starts to close while it is used for the second, which it still takes. -/
def kindRun : List Act :=
  deliver (letter 65) ++ List.replicate 6 .dispatch ++ [.workerMove 0 .recv] ++ idleOut ++
    deliver (letter 66) ++
    [.dispatch, .dispatch, .workerDel 0, .dispatch, .workerMove 0 .drain, .dispatch] ++ leave

theorem accepted_events_are_written_kindRun :
    ∃ ep, (eventProcessor plainText).ReachableBy HandsOver ep ∧
      ∃ ew ∈ ep.workers, ew.pc = .exited ∧ ew.accepted = [letter 65, letter 66] ∧
        ew.handled = [letter 65, letter 66] := by
  obtain ⟨ep, ran, ew, mem, exited, accepted⟩ :
      ∃ ep ∈ (eventProcessor plainText).runGuarded HandsOver kindRun,
        ∃ ew ∈ ep.workers, ew.pc = .exited ∧ ew.accepted = [letter 65, letter 66] := by
    decide
  have reached := Machine.reachableBy_of_runGuarded ran
  obtain ⟨conserved, -, empty⟩ := (accepted_events_are_written plainText reached).2 ew mem
  refine ⟨ep, reached, ew, mem, exited, accepted, ?_⟩
  simpa [empty exited, accepted] using conserved.symm

/-- `Put` between the two tests: the queue was empty, the second event arrives, the worker finds
itself unused. -/
def latePut : List Act :=
  deliver (letter 65) ++ List.replicate 6 .dispatch ++ [.workerMove 0 .recv] ++ idleOut ++
    deliver (letter 66) ++
    [.dispatch, .dispatch, .workerDel 0, .workerMove 0 .drain, .dispatch, .dispatch,
      .workerMove 0 .testUsed, .workerClose 0 0]

/-- A new worker leaves before `addWorkerByUUID` puts it into the map. -/
def lateAdd : List Act :=
  deliver (letter 65) ++ [.dispatch, .dispatch] ++ idleOut ++ [.workerDel 0] ++ leave ++
    List.replicate 4 .dispatch

/-- Either way the goroutine is gone and an accepted event is left in its queue. -/
theorem exited_worker_has_event :
    (∃ ep, (eventProcessor plainText).Reachable ep ∧ ∃ ew ∈ ep.workers,
      ew.pc = .exited ∧ ew.accepted = [letter 65, letter 66] ∧ ew.handled = [letter 65] ∧
        ew.incoming = [letter 66]) ∧
    ∃ ep, (eventProcessor plainText).Reachable ep ∧ ∃ ew ∈ ep.workers,
      ew.pc = .exited ∧ ew.accepted = [letter 65] ∧ ew.handled = [] ∧
        ew.incoming = [letter 65] := by
  constructor
  · obtain ⟨ep, ran, lost⟩ : ∃ ep ∈ (eventProcessor plainText).run latePut,
        ∃ ew ∈ ep.workers, ew.pc = .exited ∧ ew.accepted = [letter 65, letter 66] ∧
          ew.handled = [letter 65] ∧ ew.incoming = [letter 66] := by
      decide
    exact ⟨ep, Machine.reachable_of_run ran, lost⟩
  · obtain ⟨ep, ran, lost⟩ : ∃ ep ∈ (eventProcessor plainText).run lateAdd,
        ∃ ew ∈ ep.workers, ew.pc = .exited ∧ ew.accepted = [letter 65] ∧ ew.handled = [] ∧
          ew.incoming = [letter 65] := by
      decide
    exact ⟨ep, Machine.reachable_of_run ran, lost⟩

end ECapture.Processor
