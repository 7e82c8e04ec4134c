import Mathlib.Data.List.Induction
import Mathlib.Data.List.TakeDrop
import ECapture.Processor.Batches
import ECapture.Processor.EachWorker

/-!
# What truncation leaves of a batch

`writeEvent` cuts the payload to the truncate size only when another event arrives after the size
was reached, and it appends an event whole. So a batch is the first `truncateSize` bytes of its
events exactly when these are few enough, or reach the size before the last event.
-/

namespace ECapture.Processor
open Library

variable {π : Type}

/-- The bytes of the events. -/
def total (events : List Event) : Bytes := events.flatMap Event.payload

@[simp] theorem total_nil : total [] = [] := rfl

theorem total_concat (events : List Event) (e : Event) :
    total (events ++ [e]) = total events ++ e.payload := by
  simp [total]

theorem length_total_dropLast_le (events : List Event) :
    (total events.dropLast).length ≤ (total events).length := by
  induction events using List.reverseRecOn with
  | nil => exact Nat.le_refl _
  | append_singleton events e _ =>
    rw [List.dropLast_concat, total_concat, List.length_append]
    exact Nat.le_add_right _ _

/-- The size from which a payload is cut, unless the conversion to `int` makes it negative. -/
theorem tsize_cases (t : UInt64) :
    (t.toNat < 2 ^ 63 ∧ t.toInt64.toInt = t.toNat) ∨
      (2 ^ 63 ≤ t.toNat ∧ t.toInt64.toInt < 0) := by
  have bound := t.toNat_lt
  have signed : t.toInt64.toInt = t.toBitVec.toInt := rfl
  have value : t.toBitVec.toNat = t.toNat := rfl
  rw [signed, BitVec.toInt_eq_toNat_cond, value]
  split
  case isTrue small => exact .inl ⟨by omega, rfl⟩
  case isFalse large => exact .inr ⟨by omega, by omega⟩

section

variable {cfg : Config π}

/-- The size was reached before the last event. -/
def Reached (cfg : Config π) (events : List Event) : Prop :=
  cfg.truncateSize.toNat < 2 ^ 63 ∧
    cfg.truncateSize.toNat ≤ (total events.dropLast).length

instance (cfg : Config π) (events : List Event) : Decidable (Reached cfg events) :=
  inferInstanceAs (Decidable (_ ∧ _))

/-- What `writeEvent` makes of the payload. -/
theorem payload_add (limited : 0 < cfg.truncateSize) (g : Gathered) (e : Event) :
    (g.add cfg e).payload =
      if cfg.truncateSize.toNat < 2 ^ 63 ∧ cfg.truncateSize.toNat ≤ g.payload.length then
        g.payload.take cfg.truncateSize.toNat
      else g.payload ++ e.payload := by
  have pos : 0 < cfg.truncateSize.toNat := by simpa [UInt64.lt_iff_toNat_lt] using limited
  rcases tsize_cases cfg.truncateSize with ⟨small, eq⟩ | ⟨large, negative⟩
  · simp only [Gathered.add, eq, small, true_and, Int.toNat_natCast]
    by_cases full : cfg.truncateSize.toNat ≤ g.payload.length
    · rw [if_pos full, if_pos ⟨by omega, by omega⟩]
      rfl
    · rw [if_neg full, if_neg (by omega)]
      rfl
  · simp only [Gathered.add]
    rw [if_neg (by omega), if_neg (by omega)]
    rfl

/-- A batch is cut exactly when the size was reached before its last event. -/
theorem payload_batch_limited (limited : 0 < cfg.truncateSize) (events : List Event) :
    (batch cfg events).payload =
      if Reached cfg events then (total events).take cfg.truncateSize.toNat else total events := by
  induction events using List.reverseRecOn with
  | nil => simp [batch]
  | append_singleton events e ih =>
    have step : batch cfg (events ++ [e]) = (batch cfg events).add cfg e := by simp [batch]
    have shorter := length_total_dropLast_le events
    rw [step, payload_add limited, ih, total_concat]
    simp only [Reached, List.dropLast_concat]
    by_cases small : cfg.truncateSize.toNat < 2 ^ 63
    · simp only [small, true_and]
      by_cases full : cfg.truncateSize.toNat ≤ (total events).length
      · rw [if_pos full, List.take_append_of_le_length full]
        split
        case isTrue =>
          rw [List.length_take, Nat.min_eq_left full, if_pos (Nat.le_refl _), List.take_take,
            Nat.min_self]
        case isFalse => rfl
      · have early : ¬ cfg.truncateSize.toNat ≤ (total events.dropLast).length := by omega
        rw [if_neg early, if_neg full, if_neg full]
    · simp only [small, false_and, if_false]

end

/-! ## One worker between two flushes -/

/-- A batch that the truncate size bounds: all its bytes fit, or the size was reached before the
last event. -/
def Bounded (cfg : Config π) (events : List Event) : Prop :=
  (total events).length ≤ cfg.truncateSize.toNat ∨ Reached cfg events

instance (cfg : Config π) (events : List Event) : Decidable (Bounded cfg events) :=
  inferInstanceAs (Decidable (_ ∨ _))

variable {cfg : Config π}

namespace EventWorker

/-- A worker that has just been made, or flushed. -/
structure Flushed (ew : EventWorker π) : Prop where
  status : ew.status = .init
  empty : ew.gathered.payload = []

variable {ew : EventWorker π}

theorem flushed_new (uuid : Bytes) : (newEventWorker uuid : EventWorker π).Flushed := ⟨rfl, rfl⟩

theorem payload_gather (flushed : ew.Flushed) (events : List Event) :
    (ew.gather cfg events).gathered.payload = (batch cfg events).payload := by
  rw [gather_of_accepting (.inl flushed.status)]
  exact ((Gathered.same_of_empty flushed.empty rfl).foldl cfg events).1

/-- The payload that `parserEvents` hands to the parser is the first `truncateSize` bytes of what
the worker received since the last flush, and is no longer than that, exactly when the batch is
bounded. -/
theorem truncated_iff (limited : 0 < cfg.truncateSize) (flushed : ew.Flushed)
    (events : List Event) :
    ((ew.gather cfg events).gathered.payload = (total events).take cfg.truncateSize.toNat ↔
      Bounded cfg events) ∧
    ((ew.gather cfg events).gathered.payload.length ≤ cfg.truncateSize.toNat ↔
      Bounded cfg events) := by
  rw [payload_gather flushed, payload_batch_limited limited]
  by_cases reached : Reached cfg events
  · have short := List.length_take_le cfg.truncateSize.toNat (total events)
    simp only [Bounded, reached, if_true, or_true, short, and_self]
  · have whole : total events = (total events).take cfg.truncateSize.toNat ↔
        (total events).length ≤ cfg.truncateSize.toNat := by
      rw [eq_comm, List.take_eq_self_iff]
    simp [Bounded, reached, whole]

/-- One byte is shown. -/
def oneByte : Config Bytes := ⟨false, 1, defaultParser⟩

/-- Two events of a byte each are cut to one byte. -/
theorem truncated_iff_letters :
    ((newEventWorker [97]).gather oneByte [letter 97, letter 98]).gathered.payload = [97] :=
  ((truncated_iff (show 0 < oneByte.truncateSize by decide) (flushed_new [97])
    [letter 97, letter 98]).1.mpr (by decide))

/-- One event of two bytes is not. -/
theorem single_event_not_truncated :
    let e : Event := { letter 97 with payload := [97, 98] }
    ((newEventWorker [97]).gather oneByte [e]).gathered.payload = [97, 98] ∧
      ¬ (((newEventWorker [97]).gather oneByte [e]).gathered.payload =
          (total [e]).take oneByte.truncateSize.toNat) ∧
      ¬ (((newEventWorker [97]).gather oneByte [e]).gathered.payload.length ≤
          oneByte.truncateSize.toNat) := by
  decide

/-! ## The workers of a run -/

/-- The buffer is what the events since the last flush have gathered. -/
structure Gathering (cfg : Config π) (ew : EventWorker π) : Prop where
  status : ew.status = .init
  recent : ∃ events, events <:+ ew.handled ∧ ew.gathered.Same (batch cfg events)

theorem Gathering.of_same {ew' : EventWorker π} (h : ew.Gathering cfg)
    (status : ew'.status = ew.status) (gathered : ew'.gathered = ew.gathered)
    (handled : ew'.handled = ew.handled) : ew'.Gathering cfg :=
  ⟨status.trans h.status, by rw [gathered, handled]; exact h.recent⟩

theorem Gathering.receive (h : ew.Gathering cfg) (e : Event) (rest : List Event) :
    (ew.receive cfg e rest).Gathering cfg := by
  obtain ⟨init, events, ⟨front, handled⟩, same⟩ := h
  have written : ew.writeEvent cfg e = { ew with gathered := ew.gathered.add cfg e } :=
    gather_of_accepting (.inl init) [e]
  have step : batch cfg (events ++ [e]) = (batch cfg events).add cfg e := by simp [batch]
  rw [EventWorker.receive, written]
  refine ⟨init, events ++ [e], ⟨front, ?_⟩, ?_⟩
  · rw [← List.append_assoc, handled]
  · rw [step]
    exact same.add cfg e

theorem Gathering.close (h : ew.Gathering cfg) (last : Bool) (order : Nat) :
    (ew.close cfg last order).2.Gathering cfg := by
  have shown : (({ ew with ticker := false }.display cfg order).2).Gathering cfg := by
    unfold display
    split
    case isTrue => exact h.of_same rfl rfl rfl
    case isFalse => exact ⟨rfl, [], List.nil_suffix, Gathered.same_of_empty rfl rfl⟩
  unfold EventWorker.close
  cases last with
  | false => exact shown.of_same rfl rfl rfl
  | true => exact shown.of_same rfl rfl rfl

theorem Gathering.move {m : Move} {ew' : EventWorker π} (moved : ew.move cfg m = some ew')
    (h : ew.Gathering cfg) : ew'.Gathering cfg := by
  cases moved_of_move cfg moved with
  | receives e rest =>
    have awake : Gathering cfg { ew with
        ticker := ew.ticker || ew.tickerRestartFlag
        tickerRestartFlag := false
        tickerCount := 0 } := h.of_same rfl rfl rfl
    exact awake.receive e rest
  | drains last e rest => exact h.receive e rest
  | _ => exact h.of_same rfl rfl rfl

theorem invariant_gathering (cfg : Config π) : Invariant cfg (Gathering cfg) where
  new _ := ⟨rfl, [], List.nil_suffix, Gathered.same_of_empty rfl rfl⟩
  used _ _ h := h.of_same rfl rfl rfl
  write ew e h := by
    unfold EventWorker.write
    split
    · exact h.of_same rfl rfl rfl
    · exact h
  told _ h := h.of_same rfl rfl rfl
  deleted _ _ h := h.of_same rfl rfl rfl
  move _ _ _ moved h := h.move moved
  close _ last order _ h := h.close last order

end EventWorker

/-- In every run, the payload of a worker is the bytes of the events since its last flush, cut only
when they reached `truncateSize` before the last of them. -/
theorem payload_of_reachable (limited : 0 < cfg.truncateSize) {ep : EventProcessor π}
    (reached : (eventProcessor cfg).Reachable ep) {ew : EventWorker π} (mem : ew ∈ ep.workers) :
    ∃ events, events <:+ ew.handled ∧ ew.gathered.payload =
      if Reached cfg events then (total events).take cfg.truncateSize.toNat else total events := by
  obtain ⟨-, events, recent, same⟩ :=
    EventProcessor.eachWorker_of_reachable (EventWorker.invariant_gathering cfg) reached ew mem
  exact ⟨events, recent, same.1.trans (payload_batch_limited limited events)⟩

end ECapture.Processor
