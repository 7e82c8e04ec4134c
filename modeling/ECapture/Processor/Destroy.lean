import ECapture.Processor.EachWorker
import ECapture.Processor.Handoff

/-!
# Sockets that are destroyed

A socket has a worker for each UUID that names it: one for each direction, descriptor and thread.
`destroyWorkers` closes the first of them that the map yields and stops there. A worker that is tied
to a socket leaves only when it is told to, so the others stay.
-/

namespace ECapture.Processor
open Library

variable {π : Type} {cfg : Config π}

/-! ## A worker of a socket -/

/-- The worker has left `Run`, or is about to. -/
def WorkerPc.leaving : WorkerPc → Bool
  | .run => false
  | .del => true
  | .drain last => last
  | .testUsed last => last
  | .close last => last
  | .exited => true

theorem uuidParse_cases (uuid : Bytes) :
    (uuidParse uuid).destroyUUID = 0 ∧ (uuidParse uuid).lifeCycle = .default ∨
      (uuidParse uuid).destroyUUID ≠ 0 ∧ (uuidParse uuid).lifeCycle = .sock := by
  unfold uuidParse
  dsimp only
  split
  · exact .inl ⟨rfl, rfl⟩
  · split
    · exact .inl ⟨rfl, rfl⟩
    · split
      · exact .inl ⟨rfl, rfl⟩
      · split
        · exact .inl ⟨rfl, rfl⟩
        · rename_i sock _ pos
          refine .inr ⟨fun zero => pos ?_, rfl⟩
          exact UInt64.le_of_eq zero

namespace EventWorker

/-- The worker has been told to close. -/
def Told (ew : EventWorker π) : Prop := ew.closeChan = some true

instance (ew : EventWorker π) : Decidable ew.Told := inferInstanceAs (Decidable (_ = _))

/-- A worker of a socket can be told to close, and only leaves when it has been. -/
structure OfSocket (ew : EventWorker π) : Prop where
  life : ew.lifeCycle = .sock ↔ ew.destroyUUID ≠ 0
  channel : ew.lifeCycle = .sock → ew.closeChan.isSome
  stays : ew.lifeCycle = .sock → ew.pc.leaving = true → ew.Told

variable {ew ew' : EventWorker π}

theorem OfSocket.of_same (h : ew.OfSocket) (life : ew'.lifeCycle = ew.lifeCycle)
    (destroyUUID : ew'.destroyUUID = ew.destroyUUID) (channel : ew'.closeChan = ew.closeChan)
    (leaving : ew'.pc.leaving = true → ew.pc.leaving = true) : ew'.OfSocket where
  life := by
    rw [life, destroyUUID]
    exact h.life
  channel := by
    rw [life, channel]
    exact h.channel
  stays sock left := by
    rw [Told, channel]
    exact h.stays (life ▸ sock) (leaving left)

/-- A worker that is not tied to a socket may go anywhere, and so may one that has been told. -/
theorem OfSocket.goto (h : ew.OfSocket) (pc : WorkerPc)
    (allowed : ew.lifeCycle = .sock → pc.leaving = true → ew.Told) :
    OfSocket { ew with pc } where
  life := h.life
  channel := h.channel
  stays := allowed

theorem OfSocket.receive (h : ew.OfSocket) (e : Event) (rest : List Event) :
    (ew.receive cfg e rest).OfSocket := by
  obtain ⟨gathered, eq⟩ := writeEvent_eq cfg e ew
  rw [EventWorker.receive, eq]
  exact h.of_same rfl rfl rfl id

theorem OfSocket.move {m : Move} (moved : ew.move cfg m = some ew') (h : ew.OfSocket) :
    ew'.OfSocket := by
  have stays : ∀ {pc' : WorkerPc}, pc'.leaving = ew.pc.leaving → OfSocket { ew with pc := pc' } :=
    fun same => h.goto _ fun sock left => h.stays sock (same ▸ left)
  cases moved_of_move cfg moved with
  | sockTicks => exact h.goto _ (fun _ left => by cases left)
  | ticksOut _ other => exact h.goto _ (fun sock => absurd sock other)
  | ticks => exact h.of_same rfl rfl rfl id
  | receives e rest =>
    have awake : OfSocket { ew with
        ticker := ew.ticker || ew.tickerRestartFlag
        tickerRestartFlag := false
        tickerCount := 0 } := h.of_same rfl rfl rfl id
    exact awake.receive e rest
  | told _ told => exact h.goto _ (fun _ _ => told)
  | drains last e rest => exact h.receive e rest
  | drained last draining => exact stays (by rw [draining]; rfl)
  | held last testing => exact stays (by rw [testing]; rfl)
  | free last testing => exact stays (by rw [testing]; rfl)

theorem OfSocket.close {last : Bool} (closing : ew.pc = .close last) (order : Nat)
    (h : ew.OfSocket) : (ew.close cfg last order).2.OfSocket := by
  obtain ⟨parser, gathered, status, eq⟩ := display_eq cfg order { ew with ticker := false }
  simp only [EventWorker.close, eq]
  cases last with
  | false => exact h.of_same rfl rfl rfl (fun left => by cases left)
  | true => exact h.of_same rfl rfl rfl (fun _ => by rw [closing]; rfl)

theorem ofSocket_new (uuid : Bytes) : (newEventWorker uuid : EventWorker π).OfSocket := by
  rcases uuidParse_cases uuid with ⟨zero, life⟩ | ⟨pos, life⟩
  · constructor <;> simp [newEventWorker, zero, life]
  · constructor <;> simp [newEventWorker, pos, life, WorkerPc.leaving]

theorem invariant_ofSocket (cfg : Config π) : Invariant cfg OfSocket where
  new := ofSocket_new
  used _ _ h := h.of_same rfl rfl rfl id
  write ew e h := by
    unfold EventWorker.write
    split
    · exact h.of_same rfl rfl rfl id
    · exact h
  told ew h :=
    ⟨h.life, fun sock => by simpa [closeEventWorker] using h.channel sock,
      fun sock _ => by
        obtain ⟨b, open_⟩ := Option.isSome_iff_exists.mp (h.channel sock)
        simp [Told, closeEventWorker, open_]⟩
  deleted ew pc h := h.goto _ (fun sock _ => h.stays sock (by rw [pc]; rfl))
  move _ _ _ moved h := h.move moved
  close _ _ order closing h := h.close closing order

end EventWorker

/-! ## One message -/

namespace EventProcessor

variable {ep ep' : EventProcessor π} {ew ew' : EventWorker π} {d : UInt64} {k w : Nat}

/-- The worker has been told to close. -/
def Told (ep : EventProcessor π) (w : Nat) : Prop := ∃ ew ∈ ep.workers[w]?, ew.Told

instance (ep : EventProcessor π) (w : Nat) : Decidable (ep.Told w) :=
  inferInstanceAs (Decidable (∃ ew ∈ ep.workers[w]?, ew.Told))

/-- `Serve` stands at its `select`, the mutex is free, and the message `d` is next. -/
structure Handles (ep : EventProcessor π) (d : UInt64) : Prop where
  select : ep.serve = .select
  free : ep.locked = false
  queued : ep.destroyConn.head? = some d

/-- A worker is in the map once. -/
theorem Inv.nodup_tiedTo (inv : Inv ep) (d : UInt64) : (ep.tiedTo d).Nodup := by
  let uuidOf (w : Nat) : Bytes := (ep.workers[w]?.map EventWorker.uuid).getD []
  have keys : (ep.workerQueue.entries.map Sigma.snd).map uuidOf = ep.workerQueue.entries.keys := by
    rw [List.map_map, List.keys]
    refine List.map_congr_left fun entry mem => ?_
    obtain ⟨ew, here, uuid⟩ := inv.mapped entry.1 entry.2 (AList.mem_lookup_iff.mpr mem)
    simp [uuidOf, here, uuid]
  refine List.Nodup.filter _ (List.Nodup.of_map uuidOf ?_)
  rw [keys]
  exact ep.workerQueue.nodupKeys

theorem mem_tiedTo (mem : w ∈ ep.tiedTo d) :
    ∃ ew, ep.workers[w]? = some ew ∧ ew.destroyUUID = d := by
  have tied := (List.mem_filter.mp mem).2
  cases here : ep.workers[w]? with
  | none => simp [here] at tied
  | some ew => exact ⟨ew, rfl, by simpa [here] using tied⟩

/-- `Serve` handles the message with the call of `destroyWorkers`. -/
theorem Inv.step_serveDestroy (inv : Inv ep) (handles : ep.Handles d) (k : Nat) :
    ep.step cfg (.serveDestroy k) =
      { ep with destroyConn := ep.destroyConn.tail }.destroyWorkers d k := by
  obtain ⟨rest, queued⟩ : ∃ rest, ep.destroyConn = d :: rest :=
    List.head?_eq_some_iff.mp handles.queued
  simp [step, inv.calm, perform, serveDestroy, handles.select, queued]

/-- The message tells the worker that the loop reaches first, and no other. -/
theorem Inv.serveDestroy_cases (inv : Inv ep) (handles : ep.Handles d) (pos : 0 < d)
    (moved : ep.step cfg (.serveDestroy k) = some ep') :
    ep.tiedTo d = [] ∧ ep'.workers = ep.workers ∨
      ∃ w ew, (ep.tiedTo d)[k]? = some w ∧ ep.workers[w]? = some ew ∧ ew.destroyUUID = d ∧
        ep'.workers = ep.workers.set w ew.closeEventWorker := by
  have positive : ¬ d ≤ 0 := UInt64.not_le.mpr pos
  have free : locked { ep with destroyConn := ep.destroyConn.tail } = false := handles.free
  rw [inv.step_serveDestroy handles k] at moved
  simp only [destroyWorkers, positive, if_false, free, Bool.false_eq_true] at moved
  split at moved
  case h_1 none =>
    cases moved
    exact .inl ⟨none, rfl⟩
  case h_2 =>
    split at moved
    case h_1 => cases moved
    case h_2 w reached =>
      simp only [Option.map_eq_map, Option.map_eq_some_iff] at moved
      obtain ⟨ew, here, rfl⟩ := moved
      have tied : (ep.tiedTo d)[k]? = some w := reached
      obtain ⟨ew', here', destroyUUID⟩ := mem_tiedTo (List.mem_of_getElem? tied)
      cases here.symm.trans here'
      exact .inr ⟨w, ew, tied, here, destroyUUID, rfl⟩

/-- Every tied worker may come first. -/
theorem Inv.serveDestroy_enabled (inv : Inv ep) (cfg : Config π) (handles : ep.Handles d)
    (pos : 0 < d) (reached : (ep.tiedTo d)[k]? = some w) :
    ∃ ep', ep.step cfg (.serveDestroy k) = some ep' := by
  have positive : ¬ d ≤ 0 := UInt64.not_le.mpr pos
  have free : locked { ep with destroyConn := ep.destroyConn.tail } = false := handles.free
  obtain ⟨ew, here, -⟩ := mem_tiedTo (List.mem_of_getElem? reached)
  have same : ({ ep with destroyConn := ep.destroyConn.tail } : EventProcessor π).tiedTo d =
      ep.tiedTo d := rfl
  rw [inv.step_serveDestroy handles k]
  simp only [destroyWorkers, positive, if_false, free, Bool.false_eq_true, same]
  cases tied : ep.tiedTo d with
  | nil => simp [tied] at reached
  | cons v ws =>
    rw [tied] at reached
    simp [reached, here]

theorem told_set (here : ep.workers[w]? = some ew) (same : ep'.workers = ep.workers.set w ew')
    (v : Nat) : ep'.Told v ↔ v = w ∧ ew'.Told ∨ v ≠ w ∧ ep.Told v := by
  have bound := (List.getElem?_eq_some_iff.mp here).1
  unfold Told
  rw [same]
  by_cases eq : v = w
  · subst eq
    simp [bound]
  · simp [eq, List.getElem?_set_ne (Ne.symm eq)]

/-- Another tied worker than `w` may come first. -/
theorem Inv.exists_other (inv : Inv ep) (two : 1 < (ep.tiedTo d).length) (tied : w ∈ ep.tiedTo d) :
    ∃ k v : Nat, (ep.tiedTo d)[k]? = some v ∧ v ≠ w := by
  obtain ⟨i, bound, rfl⟩ := List.mem_iff_getElem.mp tied
  have other : ∃ k < (ep.tiedTo d).length, k ≠ i := by
    by_cases first : i = 0
    · exact ⟨1, two, by omega⟩
    · exact ⟨0, by omega, fun zero => first zero.symm⟩
  obtain ⟨k, bound', ne⟩ := other
  refine ⟨k, _, List.getElem?_eq_getElem bound', fun same => ne ?_⟩
  exact (inv.nodup_tiedTo d).getElem_inj_iff.mp same

/-- Whatever order the runtime gives the map, the message closes every registered worker of the
socket and leaves the workers of other sockets alone. -/
def Destroys (cfg : Config π) (ep : EventProcessor π) (d : UInt64) : Prop :=
  ∀ (k : Nat) (ep' : EventProcessor π), ep.step cfg (.serveDestroy k) = some ep' →
    (∀ w ∈ ep.tiedTo d, ep'.Told w) ∧
      ∀ (w : Nat) (ew : EventWorker π), ep.workers[w]? = some ew → ew.destroyUUID ≠ d →
        ep'.workers[w]? = some ew

/-- It does so exactly when no more than one worker of the socket is registered, or all of them
have been told before. -/
theorem destroys_iff (cfg : Config π) (reached : (eventProcessor cfg).Reachable ep)
    (handles : ep.Handles d) (pos : 0 < d) :
    Destroys cfg ep d ↔ (ep.tiedTo d).length ≤ 1 ∨ ∀ w ∈ ep.tiedTo d, ep.Told w := by
  have inv := inv_of_reachable reached
  have sockets := eachWorker_of_reachable (EventWorker.invariant_ofSocket cfg) reached
  constructor
  · intro destroys
    by_contra! other
    obtain ⟨two, w, tied, untold⟩ := other
    obtain ⟨k, v, first, ne⟩ := inv.exists_other two tied
    obtain ⟨ep', moved⟩ := inv.serveDestroy_enabled cfg handles pos first
    have told := (destroys k ep' moved).1 w tied
    rcases inv.serveDestroy_cases handles pos moved with ⟨none, -⟩ | ⟨v', ew, first', here, -, same⟩
    · simp [none] at tied
    · cases first.symm.trans first'
      rcases (told_set here same w).mp told with ⟨rfl, -⟩ | ⟨-, before⟩
      · exact ne rfl
      · exact untold before
  · intro few k ep' moved
    rcases inv.serveDestroy_cases handles pos moved with
      ⟨none, same⟩ | ⟨v, ew, first, here, destroyUUID, same⟩
    · refine ⟨by simp [none], fun w ew here _ => ?_⟩
      rw [same]
      exact here
    · have now : ew.closeEventWorker.Told := by
        obtain ⟨life, channel, -⟩ := sockets ew (List.mem_of_getElem? here)
        have tied : ew.destroyUUID ≠ 0 := by
          rw [destroyUUID]
          exact (UInt64.ne_of_lt pos).symm
        obtain ⟨b, open_⟩ := Option.isSome_iff_exists.mp (channel (life.mpr tied))
        simp [EventWorker.Told, EventWorker.closeEventWorker, open_]
      refine ⟨fun w tied => (told_set here same w).mpr ?_, fun w x found other => ?_⟩
      · by_cases eq : w = v
        · exact .inl ⟨eq, now⟩
        · refine .inr ⟨eq, ?_⟩
          rcases few with one | all
          · obtain ⟨i, bound, rfl⟩ := List.mem_iff_getElem.mp tied
            obtain ⟨bound', rfl⟩ := List.getElem?_eq_some_iff.mp first
            obtain rfl : i = k := by omega
            exact absurd rfl eq
          · exact all w tied
      · rw [same, List.getElem?_set_ne, found]
        rintro rfl
        cases here.symm.trans found
        exact other destroyUUID

/-- A worker of a socket that has not been told never leaves. -/
theorem stays_until_told (cfg : Config π) (reached : (eventProcessor cfg).Reachable ep)
    (here : ep.workers[w]? = some ew) (socket : ew.destroyUUID ≠ 0) (untold : ¬ ew.Told) :
    ew.pc.leaving = false := by
  have sockets := eachWorker_of_reachable (EventWorker.invariant_ofSocket cfg) reached
  obtain ⟨life, -, stays⟩ := sockets ew (List.mem_of_getElem? here)
  by_contra left
  exact untold (stays (life.mpr socket) (by simpa using left))

/-- An event of the socket 5. -/
def ofSocket (uuid : Bytes) : Event := { letter 65 with getUUID := uuid }

/-- The event is dispatched to a new worker. -/
def register (e : Event) : List Act := deliver e ++ List.replicate 6 .dispatch

/-- A worker of the socket 5 is registered, and the socket is destroyed. -/
def oneWorker : List Act := register (ofSocket (str "sock:1_5")) ++ [.destroyTest 5, .destroyPush 0]

/-- Two workers of the socket 5 are registered, and the socket is destroyed. -/
def twoWorkers : List Act := register (ofSocket (str "sock:2_5")) ++ oneWorker

theorem destroys_iff_oneWorker :
    ∃ ep, (eventProcessor plainText).Reachable ep ∧ ep.tiedTo 5 = [0] ∧ ¬ ep.Told 0 ∧
      Destroys plainText ep 5 := by
  obtain ⟨ep, ran, tied, untold, select, free, queued⟩ :
      ∃ ep ∈ (eventProcessor plainText).run oneWorker, ep.tiedTo 5 = [0] ∧ ¬ ep.Told 0 ∧
        ep.serve = .select ∧ ep.locked = false ∧ ep.destroyConn.head? = some 5 := by
    decide +kernel
  have reached := Machine.reachable_of_run ran
  refine ⟨ep, reached, tied, untold, ?_⟩
  exact (destroys_iff plainText reached ⟨select, free, queued⟩ (by decide)).mpr
    (.inl (by rw [tied]; decide))

/-- The message has been handled, both workers are registered, and one of them has not been
told. -/
theorem destroys_one_of_two :
    ∃ ep, (eventProcessor plainText).Reachable ep ∧ ep.Handles 5 ∧ ep.tiedTo 5 = [1, 0] ∧
      ∃ ep', ep.step plainText (.serveDestroy 0) = some ep' ∧ ep'.destroyConn = [] ∧
        ep'.tiedTo 5 = [1, 0] ∧ ep'.Told 1 ∧ ¬ ep'.Told 0 := by
  obtain ⟨ep, ran, tied, select, free, queued, left⟩ :
      ∃ ep ∈ (eventProcessor plainText).run twoWorkers, ep.tiedTo 5 = [1, 0] ∧
        ep.serve = .select ∧ ep.locked = false ∧ ep.destroyConn.head? = some 5 ∧
        ∃ ep' ∈ ep.step plainText (.serveDestroy 0), ep'.destroyConn = [] ∧
          ep'.tiedTo 5 = [1, 0] ∧ ep'.Told 1 ∧ ¬ ep'.Told 0 := by
    decide +kernel
  exact ⟨ep, Machine.reachable_of_run ran, ⟨select, free, queued⟩, tied, left⟩

end EventProcessor

end ECapture.Processor
