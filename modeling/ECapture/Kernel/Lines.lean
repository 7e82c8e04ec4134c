import ECapture.Events.ReaderLoop
import ECapture.Kernel.TextMode

/-!
# Lines of calls

What `ECapture.Events.ReaderLoop` says about records, said about the calls that the records describe:
some of the records arrive, in any order and with bytes behind them, and a line is given to the
writer for each call whose record arrives.
-/

namespace ECapture.Kernel
open Library Events.ReaderLoop

/-- A line is the text of an event, if the event has one. -/
def Prints (text : Except Fault Bytes) (line : Bytes) : Prop :=
  ∃ shown, text = .ok shown ∧ line = Ssl.withNewline shown

section Lines

variable {κ ε : Type} {p : Probe ε}

theorem given_of_invalid {e : ε} {err : Error} (invalid : p.validate e = .error err)
    (out : Output) : given p out e = [] := by
  simp only [given, invalid]

/-- The line of a valid event. -/
theorem given_of_valid {e : ε} {out : Output} (valid : p.validate e = .ok ())
    (nonempty : p.text out e ≠ []) : given p out e = [Ssl.withNewline (p.text out e)] := by
  simp only [given, valid, Events.Bash.textOutput, if_neg nonempty, Ssl.withNewline]
  split <;> rfl

theorem flatMap_given {out : Output} {line : ε → Bytes} {events : List ε}
    (gives : ∀ e ∈ events, given p out e = [line e]) :
    events.flatMap (given p out) = events.map line := by
  induction events with
  | nil => rfl
  | cons e events ih =>
    obtain ⟨first, rest⟩ := List.forall_mem_cons.mp gives
    rw [List.flatMap_cons, first, ih rest]
    rfl

variable {Q : κ → Bytes → Prop} {R : κ → ε → Prop}

/-- Records with bytes behind them decode to events of their calls. -/
theorem decoded_of_padded
    (decodes : ∀ k r pad, Q k r → ∃ e, p.decode (r ++ pad) = .ok e ∧ R k e)
    {calls : List κ} {records : List Bytes} (described : List.Forall₂ Q calls records)
    {readings : List Reading}
    (padded : List.Forall₂ (fun record data => ∃ pad, data = record ++ pad) records
      (readings.filterMap Reading.rawSample)) :
    List.Forall₂ R calls (decoded p readings) := by
  have samples : decoded p readings =
      (readings.filterMap Reading.rawSample).filterMap fun raw => (p.decode raw).toOption := by
    rw [decoded, List.filterMap_filterMap]
    rfl
  rw [samples]
  generalize readings.filterMap Reading.rawSample = received at padded
  induction described generalizing received with
  | nil =>
    cases padded
    exact .nil
  | cons first _ ih =>
    cases padded with
    | cons added padded =>
      obtain ⟨pad, rfl⟩ := added
      obtain ⟨e, read, shows⟩ := decodes _ _ pad first
      rw [List.filterMap_cons_some (by rw [read]; rfl)]
      exact .cons shows (ih _ padded)

/-- Each call whose record arrives is dispatched once, as an event of this call. -/
theorem lines_of_records (out : Output) (lag : Option UInt64)
    (decodes : ∀ k r pad, Q k r → ∃ e, p.decode (r ++ pad) = .ok e ∧ R k e)
    {calls : List κ} {records : List Bytes} (described : List.Forall₂ Q calls records)
    {readings : List Reading}
    (arrives : Ssl.Arrives records (readings.filterMap Reading.rawSample)) :
    ∃ (seen : List κ) (events : List ε), seen.Subperm calls ∧
      ((readings.filterMap Reading.rawSample).length = records.length → seen.Perm calls) ∧
      List.Forall₂ R seen events ∧
      (startPerfEventReader p out lag readings).lines =
        taken out.writerOk 0 (events.flatMap (given p out)) := by
  obtain ⟨emitted, part, padded⟩ := arrives
  obtain ⟨kept, sub, made⟩ := exists_subperm_left described part
  obtain ⟨events, perm, _, run⟩ := exists_order p out lag readings
  obtain ⟨seen, order, shows⟩ := exists_perm_left (decoded_of_padded decodes made padded) perm
  refine ⟨seen, events, order.subperm.trans sub, fun all => ?_, shows, ?_⟩
  · have count := made.length_eq.trans padded.length_eq
    have total := described.length_eq
    exact order.trans (sub.perm_of_length_le (by omega))
  · rw [run, foldl_dispatch, List.nil_append]

end Lines

/-! ## A ring that loses nothing -/

@[simp] theorem filterMap_rawSample (records : List Bytes) :
    (records.map Reading.record).filterMap Reading.rawSample = records := by
  rw [List.filterMap_map]
  exact List.filterMap_some

theorem arrives_all (records : List Bytes) :
    Ssl.Arrives records ((records.map Reading.record).filterMap Reading.rawSample) := by
  rw [filterMap_rawSample]
  exact ⟨records, .refl _, List.forall₂_same.mpr fun r _ => ⟨[], (List.append_nil r).symm⟩⟩

/-! ## Calls that emit a record or nothing -/

section Emitting

variable {κ ε : Type} {p : Probe ε} {record : κ → Option Bytes} {event : κ → ε}

theorem flatMap_eq_map_filter {lines : κ → List Bytes} {shown : κ → Bool} {line : κ → Bytes}
    (gives : ∀ k, lines k = if shown k then [line k] else []) (calls : List κ) :
    calls.flatMap lines = (calls.filter shown).map line := by
  induction calls with
  | nil => rfl
  | cons k calls ih =>
    rw [List.flatMap_cons, gives, ih]
    cases isShown : shown k <;> simp [isShown]

/-- A line is given to the writer for each call whose record arrives, if it gives one. -/
theorem lines_of_calls (out : Output) (lag : Option UInt64)
    (decodes : ∀ k r pad, record k = some r → p.decode (r ++ pad) = .ok (event k))
    {shown : κ → Bool} {line : κ → Bytes}
    (gives : ∀ k, given p out (event k) = if shown k then [line k] else [])
    {calls : List κ} {readings : List Reading}
    (arrives : Ssl.Arrives (calls.filterMap record) (readings.filterMap Reading.rawSample)) :
    ∃ seen : List κ, seen.Subperm (calls.filter fun k => (record k).isSome && shown k) ∧
      ((readings.filterMap Reading.rawSample).length = (calls.filterMap record).length →
        seen.Perm (calls.filter fun k => (record k).isSome && shown k)) ∧
      (startPerfEventReader p out lag readings).lines =
        taken out.writerOk 0 (seen.map line) := by
  obtain ⟨seen, events, sub, all, shows, lines⟩ := lines_of_records out lag
    (fun k r pad made => ⟨event k, decodes k r pad made, rfl⟩) (forall₂_filterMap record calls)
    arrives
  have made : seen.map event = events := by
    rw [← List.forall₂_eq_eq_eq]
    exact List.forall₂_map_left_iff.mpr shows
  have both : (calls.filter fun k => (record k).isSome && shown k) =
      (calls.filter fun k => (record k).isSome).filter shown := by
    rw [List.filter_filter]
    simp only [Bool.and_comm]
  rw [both]
  refine ⟨seen.filter shown, sub.filter shown, fun count => (all count).filter shown, ?_⟩
  rw [lines, ← made, List.flatMap_map, flatMap_eq_map_filter gives]

end Emitting

end ECapture.Kernel
