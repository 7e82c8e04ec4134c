import ECapture.Pcap.Delivery

/-!
# Calls that race with Close

`WritePacket` and `WriteKeyLog` do not ask whether the writer is being closed. A call that
`Serve` is past fills a channel that nobody reads any more, and a call after the channels are
closed panics. `InTime` is the call that does neither.
-/

namespace ECapture.Pcap
open Library

/-- A call finds its channel open, and it is accepted only while `Serve` has still to empty
that channel. -/
def InTime (pw : PcapWriter) : Act → Prop
  | .writePacket _ _ =>
    pw.packetClosed = false ∧
      (pw.packetChan.length < packetChanCap → pw.serve = .select ∨ pw.serve = .drainPackets)
  | .writeKeyLog _ =>
    pw.keylogClosed = false ∧
      (pw.keylogChan.length < keylogChanCap →
        pw.serve = .select ∨ pw.serve = .drainPackets ∨ pw.serve = .drainKeylogs)
  | _ => True

instance (pw : PcapWriter) (a : Act) : Decidable (InTime pw a) := by
  cases a <;> unfold InTime <;> infer_instance

variable {pw t : PcapWriter} {a : Act}

/-! ## No panic -/

theorem save_panicked (ng : Nat → Bool) (pw : PcapWriter) :
    (pw.save ng).panicked = pw.panicked := rfl

theorem saveAfterDSB_panicked (ng : Nat → Bool) (pw : PcapWriter) :
    (pw.saveAfterDSB ng).panicked = pw.panicked := by
  unfold PcapWriter.saveAfterDSB
  split
  · rfl
  · exact save_panicked ng pw

theorem onTick_panicked (ng : Nat → Bool) (pw : PcapWriter) :
    (pw.onTick ng).panicked = pw.panicked := by
  unfold PcapWriter.onTick
  split_ifs
  · rfl
  · rfl
  · exact save_panicked ng pw

theorem onPacket_panicked {ng : Nat → Bool} (moved : pw.onPacket ng = some t) :
    t.panicked = pw.panicked := by
  unfold PcapWriter.onPacket at moved
  split at moved
  · cases moved
    rfl
  · split at moved
    · cases moved
      split
      · rfl
      · exact save_panicked ng pw
    · cases moved

theorem onKeylog_panicked {ng : Nat → Bool} (moved : pw.onKeylog ng = some t) :
    t.panicked = pw.panicked := by
  unfold PcapWriter.onKeylog at moved
  split at moved
  · cases moved
  · split at moved
    · cases moved
      apply saveAfterDSB_panicked
    · split at moved
      · cases moved
        rfl
      · cases moved

theorem drain_panicked {ng : Nat → Bool} (moved : pw.drain ng = some t) :
    t.panicked = pw.panicked := by
  unfold PcapWriter.drain at moved
  split at moved
  · split at moved <;> cases moved <;> rfl
  · split at moved <;> cases moved <;> rfl
  · cases moved
    split
    · rfl
    · exact save_panicked ng pw
  · cases moved

theorem flush_panicked (ng : Nat → Bool) (pw : PcapWriter) :
    (pw.flush ng).2.panicked = pw.panicked := by
  unfold PcapWriter.flush
  split <;> rfl

/-- Only a call that sends on a closed channel panics. -/
theorem step_panicked {ng : Nat → Bool} (inTime : InTime pw a) (moved : step ng pw a = some t) :
    t.panicked = pw.panicked := by
  cases (stepped_of_step moved).2 with
  | writePacket data timestamp =>
    simp only [PcapWriter.writePacket, inTime.1, Bool.false_eq_true, if_false]
    split <;> rfl
  | writeKeyLog keylogLine =>
    simp only [PcapWriter.writeKeyLog, inTime.1, Bool.false_eq_true, if_false]
    split_ifs <;> rfl
  | flush => exact flush_panicked ng pw
  | tick => exact onTick_panicked ng pw
  | recvPacket running received => exact onPacket_panicked received
  | recvKeylog running received => exact onKeylog_panicked received
  | drain drained => exact drain_panicked drained
  | closeReturn => exact flush_panicked ng pw
  | deadline => rfl
  | ctxDone => rfl
  | closeAgain => rfl
  | close => rfl
  | closeChans => rfl

/-! ## Nothing is left behind -/

theorem Emptied.accept {p : Places} (h : Emptied p) (packet : TcPacket)
    (at_ : p.serve = .select ∨ p.serve = .drainPackets) :
    Emptied
      { p with packetChan := p.packetChan ++ [packet], accepted := p.accepted ++ [packet] } := by
  obtain ⟨hp, hk, hb⟩ := h
  rcases at_ with at_ | at_ <;> constructor <;> simp [at_]

theorem Emptied.acceptKeylog {p : Places} (h : Emptied p) (k : Bytes)
    (at_ : p.serve = .select ∨ p.serve = .drainPackets ∨ p.serve = .drainKeylogs) :
    Emptied
      { p with keylogChan := p.keylogChan ++ [k], acceptedKeylogs := p.acceptedKeylogs ++ [k] } := by
  obtain ⟨hp, hk, hb⟩ := h
  constructor
  · exact hp
  · rcases at_ with at_ | at_ | at_ <;> simp [at_]
  · exact hb

theorem writePacket_emptied (h : Emptied pw.places) {data : Bytes} {timestamp : Int}
    (inTime : InTime pw (.writePacket data timestamp)) :
    Emptied (pw.writePacket data timestamp).places := by
  unfold PcapWriter.writePacket
  split_ifs with closed room
  · exact h
  · exact h.accept _ (inTime.2 room)
  · exact h

theorem writeKeyLog_emptied (h : Emptied pw.places) {keylogLine : Bytes}
    (inTime : InTime pw (.writeKeyLog keylogLine)) :
    Emptied (pw.writeKeyLog keylogLine).places := by
  unfold PcapWriter.writeKeyLog
  split_ifs with isNil closed room
  · exact h
  · exact h
  · exact h.acceptKeylog _ (inTime.2 room)
  · exact h

/-- Every step but a call leaves empty what is empty. -/
theorem emptied_step (inv : Inv pw) (h : Emptied pw.places) (inTime : InTime pw a)
    (moved : step neverFails pw a = some t) : Emptied t.places := by
  have other (none : accepts pw a = false) : Emptied t.places := by
    have refined : Refines (fun _ => False) pw t := step_refines inv (by simp [none]) moved
    exact h.move False.elim refined.2
  cases (stepped_of_step moved).2 with
  | writePacket data timestamp => exact writePacket_emptied h inTime
  | writeKeyLog keylogLine => exact writeKeyLog_emptied h inTime
  | _ => exact other rfl

/-! ## The guarantee -/

theorem inTime_alive {ng : Nat → Bool} (reached : (pcapWriter ng).ReachableBy InTime pw) :
    pw.panicked = false := by
  apply reached.invariant (I := fun pw => pw.panicked = false) rfl
  intro s a t alive inTime moved
  rw [step_panicked inTime moved, alive]

theorem inTime_delivered (reached : (pcapWriter neverFails).ReachableBy InTime pw)
    (closed : pw.isClosed) :
    packets pw.writer.blocks = pw.accepted ∧ lines pw.writer.blocks = pw.acceptedKeylogs := by
  have kept : Inv pw ∧ Emptied pw.places := by
    apply reached.invariant ⟨inv_newPcapWriter, drained_new.emptied⟩
    rintro s a t ⟨inv, emptied⟩ inTime moved
    have next : Refines (fun _ => True) s t := step_refines inv (fun _ => trivial) moved
    exact ⟨next.1, emptied_step inv emptied inTime moved⟩
  obtain ⟨-, ms⟩ := reachable_refines (fun _ => True) (fun _ _ _ _ => trivial) reached
  exact delivered (run_invariant .move conserved_new ms) kept.2 (kept.1.ended (by simp [closed]))

/-- When every call is in time, none panics, and when `Close` has returned, the file holds
exactly the accepted packets and lines, provided that no write of the file has failed. -/
theorem inTime_calls_emitted {ng : Nat → Bool}
    (reached : (pcapWriter ng).ReachableBy InTime pw) :
    pw.panicked = false ∧
      (ng = neverFails → pw.isClosed →
        packets pw.writer.blocks = pw.accepted ∧
          lines pw.writer.blocks = pw.acceptedKeylogs) := by
  refine ⟨inTime_alive reached, ?_⟩
  rintro rfl closed
  exact inTime_delivered reached closed

/-- A packet and a line are accepted during the shutdown, while `Serve` has still to drain
them. -/
def lastCalls : List Act :=
  [.close, .ctxDone, .writePacket [1] 10, .drain, .drain, .writeKeyLog [7], .drain, .drain,
    .drain, .closeChans, .closeReturn]

theorem inTime_calls_emitted_lastCalls :
    ∃ pw, (pcapWriter neverFails).ReachableBy InTime pw ∧ pw.panicked = false ∧
      pw.isClosed = true ∧ pw.accepted.length = 1 ∧ pw.acceptedKeylogs.length = 1 ∧
      packets pw.writer.blocks = pw.accepted ∧ lines pw.writer.blocks = pw.acceptedKeylogs := by
  obtain ⟨pw, ran, closed, one, line⟩ :
      ∃ pw ∈ (pcapWriter neverFails).runGuarded InTime lastCalls,
        pw.isClosed = true ∧ pw.accepted.length = 1 ∧ pw.acceptedKeylogs.length = 1 := by decide
  have reached := Machine.reachableBy_of_runGuarded ran
  have ⟨alive, emitted⟩ := inTime_calls_emitted reached
  exact ⟨pw, reached, alive, closed, one, line, emitted rfl closed⟩

/-! ## The races -/

/-- The packet comes when `Serve` has drained the packets, the line when it has drained the
lines. -/
def lateCalls : List Act :=
  [.close, .ctxDone, .drain, .writePacket [1] 10, .drain, .writeKeyLog [7], .drain, .closeChans,
    .closeReturn]

/-- Both calls return nil and neither is in the file; one more call panics. -/
theorem lateCalls_lost :
    (∃ pw, (pcapWriter neverFails).Reachable pw ∧ pw.isClosed = true ∧ pw.accepted.length = 1 ∧
      pw.acceptedKeylogs = [[7]] ∧ pw.writer.blocks = []) ∧
    ∃ pw, (pcapWriter neverFails).Reachable pw ∧ pw.panicked = true := by
  refine ⟨?_, ?_⟩
  · obtain ⟨pw, ran, lost⟩ :
        ∃ pw ∈ (pcapWriter neverFails).run lateCalls, pw.isClosed = true ∧
          pw.accepted.length = 1 ∧ pw.acceptedKeylogs = [[7]] ∧ pw.writer.blocks = [] := by decide
    exact ⟨pw, Machine.reachable_of_run ran, lost⟩
  · obtain ⟨pw, ran, panicked⟩ :
        ∃ pw ∈ (pcapWriter neverFails).run (lateCalls ++ [.writePacket [2] 20]),
          pw.panicked = true := by decide
    exact ⟨pw, Machine.reachable_of_run ran, panicked⟩

end ECapture.Pcap
