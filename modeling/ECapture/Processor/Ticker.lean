import ECapture.Processor.EachWorker
import ECapture.Processor.Effect

/-!
# The ticker of a worker

A worker shows what it has gathered only when its ticker goes on: `Close` stops the ticker, and
after an idle flush `Run` starts a new one with the next event. `eventWorker` is one worker among
any surroundings: others write events into its queue, mark it as used and tell it to close, in any
order. A worker at its `select` that holds bytes has a ticker.
-/

namespace ECapture.Processor
open Library

namespace EventWorker

variable {π : Type} (cfg : Config π)

/-! ## A worker among any surroundings -/

/-- What others do to a worker, and what its goroutine does. -/
inductive Happens where
  | used (used : Bool)
  | write (e : Event)
  | told
  | delete
  | move (m : Move)
  | close (order : Nat)

def happen (ew : EventWorker π) : Happens → Option (EventWorker π)
  | .used used => some { ew with used }
  | .write e => some (ew.write e).2
  | .told => some ew.closeEventWorker
  | .delete => if ew.pc = .del then some { ew with pc := .drain true } else none
  | .move m => ew.move cfg m
  | .close order =>
    match ew.pc with
    | .close last => some (ew.close cfg last order).2
    | _ => none

def eventWorker (uuid : Bytes) : Machine (EventWorker π) Happens :=
  ⟨newEventWorker uuid, happen cfg⟩

variable {cfg} {P : EventWorker π → Prop}

/-- What every statement keeps, a worker has among any surroundings. -/
theorem of_reachable (inv : Invariant cfg P) {uuid : Bytes} {ew : EventWorker π}
    (reached : (eventWorker cfg uuid).Reachable ew) : P ew := by
  refine Machine.ReachableBy.invariant (I := P) (inv.new uuid) ?_ reached
  intro ew a ew' kept _ moved
  cases a with
  | used used =>
    cases moved
    exact inv.used ew used kept
  | write e =>
    cases moved
    exact inv.write ew e kept
  | told =>
    cases moved
    exact inv.told ew kept
  | delete =>
    simp only [eventWorker, happen, Option.ite_none_right_eq_some, Option.some.injEq] at moved
    obtain ⟨deleting, rfl⟩ := moved
    exact inv.deleted ew deleting kept
  | move m => exact inv.move ew m ew' moved kept
  | close order =>
    simp only [eventWorker, happen] at moved
    split at moved
    case h_2 => cases moved
    case h_1 last closing =>
      cases moved
      exact inv.close ew last order closing kept

variable (cfg) in
/-- The worker stands where such a worker can stand. -/
def Lives (ew : EventWorker π) : Prop := ∃ uuid, (eventWorker cfg uuid).Reachable ew

theorem Lives.next {ew ew' : EventWorker π} (lives : ew.Lives cfg) (a : Happens)
    (moved : ew.happen cfg a = some ew') : ew'.Lives cfg := by
  obtain ⟨uuid, reached⟩ := lives
  exact ⟨uuid, reached.tail ⟨a, trivial, moved⟩⟩

variable (cfg) in
theorem invariant_lives : Invariant cfg (Lives cfg) where
  new uuid := ⟨uuid, .refl⟩
  used _ used lives := lives.next (.used used) rfl
  write _ e lives := lives.next (.write e) rfl
  told _ lives := lives.next .told rfl
  deleted _ deleting lives := lives.next .delete (if_pos deleting)
  move _ m _ moved lives := lives.next (.move m) moved
  close _ _ order closing lives := lives.next (.close order) (by rw [happen, closing])

/-! ## Gathered bytes are shown -/

/-- At the `select` there is a ticker or the flag that starts one, and a ticker where there are
bytes. -/
structure Attended (ew : EventWorker π) : Prop where
  wakes : ew.pc = .run → ew.ticker = true ∨ ew.tickerRestartFlag = true
  ticking : ew.pc = .run → ew.gathered.payload ≠ [] → ew.ticker = true
  count : ew.tickerCount ≤ maxTickerCount + 1
  flushed : ew.pc = .exited → ew.gathered.payload = []

/-- A change of fields that have nothing to do with the ticker. -/
theorem Attended.of_same {ew ew' : EventWorker π} (h : ew.Attended) (pc : ew'.pc = ew.pc)
    (ticker : ew'.ticker = ew.ticker) (flag : ew'.tickerRestartFlag = ew.tickerRestartFlag)
    (gathered : ew'.gathered = ew.gathered) (count : ew'.tickerCount = ew.tickerCount) :
    ew'.Attended where
  wakes := by rw [pc, ticker, flag]; exact h.wakes
  ticking := by rw [pc, ticker, gathered]; exact h.ticking
  count := by rw [count]; exact h.count
  flushed := by rw [pc, gathered]; exact h.flushed

/-- Away from the `select` nothing waits for the ticker. -/
theorem Attended.goto {ew : EventWorker π} (h : ew.Attended) {pc : WorkerPc} (away : pc ≠ .run)
    (stays : pc ≠ .exited) : Attended { ew with pc } where
  wakes running := absurd running away
  ticking running := absurd running away
  count := h.count
  flushed gone := absurd gone stays

variable (cfg) in
theorem receive_eq (e : Event) (rest : List Event) (ew : EventWorker π) :
    ∃ gathered, ew.receive cfg e rest =
      { ew with gathered, incoming := rest, handled := ew.handled ++ [e] } := by
  obtain ⟨gathered, eq⟩ := writeEvent_eq cfg e ew
  exact ⟨gathered, by rw [receive, eq]⟩

theorem succ_le_of_few {n : UInt8} (few : ¬ maxTickerCount < n) : n + 1 ≤ maxTickerCount + 1 := by
  have ten : maxTickerCount.toNat = 10 := rfl
  have eleven : (maxTickerCount + 1).toNat = 11 := rfl
  have one : (1 : UInt8).toNat = 1 := rfl
  rw [UInt8.lt_iff_toNat_lt] at few
  rw [UInt8.le_iff_toNat_le, UInt8.toNat_add]
  omega

/-- Eleven ticks are counted, and the twelfth is the last. -/
theorem tickerCount_move {ew ew' : EventWorker π} {m : Move}
    (h : ew.tickerCount ≤ maxTickerCount + 1) (moved : ew.move cfg m = some ew') :
    ew'.tickerCount ≤ maxTickerCount + 1 := by
  cases m with
  | tick =>
    simp only [EventWorker.move] at moved
    split at moved
    case isFalse => cases moved
    case isTrue =>
      split at moved
      case isTrue => split at moved <;> cases moved <;> exact h
      case isFalse few =>
        cases moved
        exact succ_le_of_few few
  | recv =>
    simp only [EventWorker.move] at moved
    split at moved <;> cases moved
    case h_1 e rest _ _ =>
      obtain ⟨gathered, eq⟩ := receive_eq cfg e rest { ew with
        ticker := ew.ticker || ew.tickerRestartFlag, tickerRestartFlag := false, tickerCount := 0 }
      rw [eq]
      exact UInt8.zero_le
  | recvClose =>
    simp only [EventWorker.move] at moved
    split at moved <;> cases moved
    exact h
  | drain =>
    simp only [EventWorker.move] at moved
    split at moved <;> cases moved
    case h_1 e rest _ _ =>
      obtain ⟨gathered, eq⟩ := receive_eq cfg e rest ew
      rw [eq]
      exact h
    case h_2 => exact h
  | testUsed =>
    simp only [EventWorker.move] at moved
    split at moved
    case h_2 => cases moved
    case h_1 => split at moved <;> cases moved <;> exact h

theorem Attended.move {ew ew' : EventWorker π} {m : Move} (h : ew.Attended)
    (moved : ew.move cfg m = some ew') : ew'.Attended := by
  have count := tickerCount_move h.count moved
  cases moved_of_move cfg moved with
  | sockTicks | ticksOut | told | drained | held | free => exact h.goto (by simp) (by simp)
  | ticks => exact ⟨h.wakes, h.ticking, count, h.flushed⟩
  | receives e rest running queued =>
    obtain ⟨gathered, eq⟩ := receive_eq cfg e rest { ew with
      ticker := ew.ticker || ew.tickerRestartFlag, tickerRestartFlag := false, tickerCount := 0 }
    rw [eq] at count ⊢
    -- The event starts the ticker that a flush has stopped.
    have started : (ew.ticker || ew.tickerRestartFlag) = true := by
      rw [Bool.or_eq_true]
      exact h.wakes running
    exact ⟨fun _ => .inl started, fun _ _ => started, count, fun gone => by simp [running] at gone⟩
  | drains last e rest draining queued =>
    obtain ⟨gathered, eq⟩ := receive_eq cfg e rest ew
    rw [eq]
    exact ⟨by simp [draining], by simp [draining], h.count, by simp [draining]⟩

variable (cfg) in
theorem payload_display (order : Nat) (ew : EventWorker π) :
    (ew.display cfg order).2.gathered.payload = [] := by
  unfold display
  split
  case isTrue empty => exact empty
  case isFalse => rfl

/-- A flush leaves nothing behind, and `Run` remembers to start the ticker. -/
theorem attended_close (last : Bool) (order : Nat) (ew : EventWorker π) :
    (ew.close cfg last order).2.Attended := by
  have empty := payload_display cfg order { ew with ticker := false }
  unfold EventWorker.close
  cases last with
  | false =>
    exact ⟨fun _ => .inr rfl, fun _ held => absurd empty held, UInt8.zero_le, fun _ => empty⟩
  | true =>
    exact ⟨by simp, fun _ held => absurd empty held, UInt8.zero_le,
      fun _ => empty⟩

variable (cfg) in
theorem invariant_attended : Invariant cfg Attended where
  new _ := ⟨fun _ => .inl rfl, fun _ _ => rfl, UInt8.zero_le, fun _ => rfl⟩
  used _ _ h := h.of_same rfl rfl rfl rfl rfl
  write ew e h := by
    unfold EventWorker.write
    split
    · exact h.of_same rfl rfl rfl rfl rfl
    · exact h
  told _ h := h.of_same rfl rfl rfl rfl rfl
  deleted _ _ h := h.goto (by simp) (by simp)
  move _ _ _ moved h := h.move moved
  close ew last order _ _ := attended_close last order ew

/-- No payload is stranded: a worker at its `select` that holds bytes has a ticker, whose ticks are
counted up to eleven, and a worker that is gone holds nothing. -/
theorem payload_not_stranded (cfg : Config π) {uuid : Bytes} {ew : EventWorker π}
    (reached : (eventWorker cfg uuid).Reachable ew) :
    (ew.pc = .run → ew.gathered.payload ≠ [] → ew.ticker = true) ∧
      ew.tickerCount ≤ maxTickerCount + 1 ∧ (ew.pc = .exited → ew.gathered.payload = []) := by
  have h := of_reachable (invariant_attended cfg) reached
  exact ⟨h.ticking, h.count, h.flushed⟩

/-- An event is flushed after twelve ticks, and another one comes. -/
def flushedOnce : List Happens :=
  [.write (letter 65), .move .recv] ++ List.replicate 12 (.move .tick) ++
    [.move .drain, .move .testUsed, .close 0, .write (letter 66), .move .recv]

theorem payload_not_stranded_flushedOnce :
    ∃ ew, (eventWorker plainText (str "sock:1_5")).Reachable ew ∧ ew.gathered.payload = [66] ∧
      ew.ticker = true := by
  obtain ⟨ew, ran, running, held⟩ :
      ∃ ew ∈ (eventWorker plainText (str "sock:1_5")).run flushedOnce,
        ew.pc = .run ∧ ew.gathered.payload = [66] := by
    decide +kernel
  have reached := Machine.reachable_of_run ran
  exact ⟨ew, reached, held, (payload_not_stranded plainText reached).1 running (by simp [held])⟩

end EventWorker

/-- The workers of a processor are such workers. -/
theorem attended_of_reachable (cfg : Config π) {ep : EventProcessor π}
    (reached : (eventProcessor cfg).Reachable ep) :
    ep.EachWorker fun ew => ew.Lives cfg ∧ ew.Attended := by
  intro ew mem
  exact ⟨EventProcessor.eachWorker_of_reachable (EventWorker.invariant_lives cfg) reached ew mem,
    EventProcessor.eachWorker_of_reachable (EventWorker.invariant_attended cfg) reached ew mem⟩

end ECapture.Processor
