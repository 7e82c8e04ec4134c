import Mathlib.Data.List.Induction
import ECapture.Pcap.Delivery

/-!
# The packet count of a failing writer

`savePcapng` returns how many packets it has tried, and its callers add that to `packetCount` when
there was no error. So the packets that were written before a later one, or the flush, failed are in
the file and not in the count.
-/

namespace ECapture.Pcap
open Library

variable {ng : Nat → Bool} {pw t : PcapWriter} {a : Act}

/-! ## One save -/

/-- How many of `n` calls succeed, from call `c` on, before the first that fails. -/
def succeeding (ng : Nat → Bool) (c : Nat) : Nat → Nat
  | 0 => 0
  | n + 1 => if ng c then succeeding ng (c + 1) n + 1 else 0

theorem succeeding_le (ng : Nat → Bool) (c n : Nat) : succeeding ng c n ≤ n := by
  induction n generalizing c with
  | zero => exact Nat.le_refl 0
  | succ n ih =>
    rw [succeeding]
    split
    · exact Nat.succ_le_succ (ih (c + 1))
    · exact Nat.zero_le _

theorem succeeding_eq_iff (ng : Nat → Bool) (c n : Nat) :
    succeeding ng c n = n ↔ ∀ j < n, ng (c + j) = true := by
  induction n generalizing c with
  | zero => simp [succeeding]
  | succ n ih =>
    rw [succeeding]
    split
    case isTrue ok =>
      rw [Nat.add_right_cancel_iff, ih]
      constructor
      · intro later j bound
        cases j with
        | zero => exact ok
        | succ j =>
          have := later j (by omega)
          rwa [Nat.add_assoc, Nat.add_comm 1 j] at this
      · intro all j bound
        have := all (j + 1) (by omega)
        rwa [Nat.add_assoc, Nat.add_comm 1 j]
    case isFalse failed =>
      constructor
      · intro eq
        cases eq
      · intro all
        exact absurd (all 0 (Nat.succ_pos n)) failed

theorem succeeding_eq_zero_iff (ng : Nat → Bool) (c n : Nat) :
    succeeding ng c n = 0 ↔ n = 0 ∨ ng c = false := by
  cases n with
  | zero => simp [succeeding]
  | succ n => simp [succeeding]

/-- The packets before the first failure are written; the count is returned without an error when
all are, and the flush succeeds. -/
theorem savePcapng_spec (ng : Nat → Bool) (ps : List TcPacket) (i : Nat) (w : NgWriter) :
    packets (savePcapng ng ps i w).2.blocks =
        packets w.blocks ++ ps.take (succeeding ng w.calls ps.length) ∧
      ((savePcapng ng ps i w).1.2 = true ↔ i + ps.length = 0 ∨
        succeeding ng w.calls ps.length = ps.length ∧ ng (w.calls + ps.length) = true) ∧
      ((savePcapng ng ps i w).1.2 = true → (savePcapng ng ps i w).1.1 = i + ps.length) := by
  induction ps generalizing i w with
  | nil =>
    rw [savePcapng]
    by_cases first : i = 0
    · simp [first]
    · simp [first, succeeding, NgWriter.flush]
  | cons p ps ih =>
    rw [savePcapng, NgWriter.writePacket, NgWriter.emit]
    by_cases ok : ng w.calls
    · obtain ⟨blocks, noError, count⟩ := ih (i + 1) ⟨w.blocks ++ [.packet p], w.calls + 1⟩
      dsimp only at blocks noError
      simp only [ok, if_true, succeeding, List.length_cons, List.take_succ_cons]
      refine ⟨?_, noError.trans ?_, fun done => ?_⟩
      · rw [blocks, packets_append, List.append_assoc]
        rfl
      · have calls : w.calls + 1 + ps.length = w.calls + (ps.length + 1) := by omega
        have none : i + 1 + ps.length = 0 ↔ i + (ps.length + 1) = 0 := by omega
        rw [calls, none, Nat.add_right_cancel_iff]
      · rw [count done]
        omega
    · simp [ok, succeeding]

/-- A save of `n` packets from call `c` on that writes and counts the same number: there is nothing
to save, the first `WritePacket` fails, or no call fails. -/
def SaveExact (ng : Nat → Bool) (c n : Nat) : Prop :=
  n = 0 ∨ ng c = false ∨ ∀ j ≤ n, ng (c + j) = true

/-- The step from `pw` to `t` writes at least as many packets as it counts, and as many exactly
when `exact` holds. -/
def Tallies (exact : Prop) (pw t : PcapWriter) : Prop :=
  ∃ written counted,
    (packets t.writer.blocks).length = (packets pw.writer.blocks).length + written ∧
      t.packetCount = pw.packetCount + counted ∧ counted ≤ written ∧ (counted = written ↔ exact)

theorem Tallies.idle {exact : Prop} (holds : exact)
    (blocks : packets t.writer.blocks = packets pw.writer.blocks)
    (count : t.packetCount = pw.packetCount) : Tallies exact pw t :=
  ⟨0, 0, by rw [blocks]; rfl, count, Nat.le_refl 0, by simp [holds]⟩

theorem tallies_save (pw : PcapWriter) :
    Tallies (SaveExact ng pw.writer.calls pw.tcPackets.length) pw (pw.save ng) := by
  obtain ⟨blocks, noError, count⟩ := savePcapng_spec ng pw.tcPackets 0 pw.writer
  have few := succeeding_le ng pw.writer.calls pw.tcPackets.length
  have all := succeeding_eq_iff ng pw.writer.calls pw.tcPackets.length
  have none := succeeding_eq_zero_iff ng pw.writer.calls pw.tcPackets.length
  have written : (packets (pw.save ng).writer.blocks).length =
      (packets pw.writer.blocks).length + succeeding ng pw.writer.calls pw.tcPackets.length := by
    rw [PcapWriter.save]
    simp only [blocks, List.length_append, List.length_take]
    omega
  by_cases done : (savePcapng ng pw.tcPackets 0 pw.writer).1.2 = true
  · have counted : (pw.save ng).packetCount = pw.packetCount + pw.tcPackets.length := by
      have returned := count done
      rw [Nat.zero_add] at returned
      simp [PcapWriter.save, done, returned]
    refine ⟨_, _, written, counted, ?_⟩
    rcases noError.mp done with empty | ⟨whole, flushed⟩
    · have zero : pw.tcPackets.length = 0 := by omega
      rw [zero]
      exact ⟨Nat.zero_le _, by simp [succeeding, SaveExact]⟩
    · refine ⟨by omega, fun _ => .inr (.inr fun j bound => ?_), fun _ => whole.symm⟩
      rcases Nat.lt_or_eq_of_le bound with before | rfl
      · exact all.mp whole j before
      · exact flushed
  · have counted : (pw.save ng).packetCount = pw.packetCount + 0 := by
      simp [PcapWriter.save, done]
    refine ⟨_, _, written, counted, Nat.zero_le _, ?_⟩
    rw [eq_comm, none]
    refine ⟨fun h => h.imp_right .inl, ?_⟩
    rintro (empty | failed | succeed)
    · exact .inl empty
    · exact .inr failed
    · have whole := all.mpr fun j bound => succeed j (Nat.le_of_lt bound)
      exact absurd (noError.mpr (.inr ⟨whole, succeed _ (Nat.le_refl _)⟩)) done

/-! ## One step -/

/-- The call of the `NgWriter` at which the step begins to save the buffered packets, if it does. -/
def savesAt (pw : PcapWriter) : Act → Option Nat
  | .tick =>
    if pw.i = 0 ∨ pw.tcPackets = [] ∨ !pw.firstDSBWritten && !pw.deadlinePassed then none
    else some pw.writer.calls
  | .recvPacket => if pw.packetChan = [] then some pw.writer.calls else none
  -- behind the DSB and its flush
  | .recvKeylog => if pw.keylogChan = [] then none else some (pw.writer.calls + 2)
  | .drain => if pw.serve = .saveBuffered then some pw.writer.calls else none
  | _ => none

/-- What the step saves is counted. -/
def Exact (ng : Nat → Bool) (pw : PcapWriter) (a : Act) : Prop :=
  ∀ c ∈ savesAt pw a, SaveExact ng c pw.tcPackets.length

/-- A save, and fields that do not matter. -/
theorem Tallies.congr {exact exact' : Prop} {pw' t' : PcapWriter} (h : Tallies exact pw t)
    (same : exact ↔ exact') (blocks : packets pw'.writer.blocks = packets pw.writer.blocks)
    (count : pw'.packetCount = pw.packetCount)
    (nextBlocks : packets t'.writer.blocks = packets t.writer.blocks)
    (nextCount : t'.packetCount = t.packetCount) : Tallies exact' pw' t' := by
  rwa [Tallies, blocks, count, nextBlocks, nextCount, ← same]

/-- A save, when there is something to save. -/
theorem tallies_saveAfterDSB (ng : Nat → Bool) (pw : PcapWriter) :
    Tallies (SaveExact ng pw.writer.calls pw.tcPackets.length) pw (pw.saveAfterDSB ng) := by
  unfold PcapWriter.saveAfterDSB
  split
  case isTrue empty => exact .idle (.inl (by simp [empty])) rfl rfl
  case isFalse => exact (tallies_save pw).congr .rfl rfl rfl rfl rfl

/-- A line is no packet. -/
theorem packets_writeLine (ng : Nat → Bool) (line : Bytes) (w : NgWriter) :
    packets (w.writeDecryptionSecretsBlock ng line).2.blocks = packets w.blocks ∧
      (w.writeDecryptionSecretsBlock ng line).2.calls = w.calls + 1 := by
  unfold NgWriter.writeDecryptionSecretsBlock NgWriter.emit
  split
  · exact ⟨by rw [packets_append]; exact List.append_nil _, rfl⟩
  · exact ⟨rfl, rfl⟩

theorem tallies_onPacket (moved : pw.onPacket ng = some t) :
    Tallies (Exact ng pw .recvPacket) pw t := by
  unfold PcapWriter.onPacket at moved
  split at moved
  case h_1 received =>
    cases moved
    exact .idle (by simp [Exact, savesAt, received]) rfl rfl
  case h_2 empty =>
    have exact : SaveExact ng pw.writer.calls pw.tcPackets.length ↔ Exact ng pw .recvPacket := by
      simp [Exact, savesAt, empty]
    split at moved <;> cases moved
    split
    case isTrue nothing => exact .idle (exact.mp (.inl (by simp [nothing]))) rfl rfl
    case isFalse => exact (tallies_save pw).congr exact rfl rfl rfl rfl

theorem tallies_onKeylog (moved : pw.onKeylog ng = some t) :
    Tallies (Exact ng pw .recvKeylog) pw t := by
  unfold PcapWriter.onKeylog at moved
  split at moved
  · cases moved
  · split at moved
    case h_1 line rest received =>
      cases moved
      obtain ⟨same, calls⟩ := packets_writeLine ng line pw.writer
      have saved := tallies_saveAfterDSB ng
        { pw with
          keylogChan := rest
          writer := ((pw.writer.writeDecryptionSecretsBlock ng line).2.flush ng).2
          firstDSBWritten := true }
      refine saved.congr ?_ same.symm rfl rfl rfl
      simp [Exact, savesAt, received, NgWriter.flush, calls]
    case h_2 empty =>
      split at moved <;> cases moved
      exact .idle (by simp [Exact, savesAt, empty]) rfl rfl

theorem tallies_drain (moved : pw.drain ng = some t) : Tallies (Exact ng pw .drain) pw t := by
  unfold PcapWriter.drain at moved
  split at moved
  case h_1 pc =>
    have exact : Exact ng pw .drain := by simp [Exact, savesAt, pc]
    split at moved <;> cases moved
    · exact .idle exact rfl rfl
    · exact .idle exact rfl rfl
  case h_2 pc =>
    have exact : Exact ng pw .drain := by simp [Exact, savesAt, pc]
    split at moved <;> cases moved
    · exact .idle exact (packets_writeLine ng _ pw.writer).1 rfl
    · exact .idle exact rfl rfl
  case h_3 pc =>
    have exact : SaveExact ng pw.writer.calls pw.tcPackets.length ↔ Exact ng pw .drain := by
      simp [Exact, savesAt, pc]
    cases moved
    split
    case isTrue nothing => exact .idle (exact.mp (.inl (by simp [nothing]))) rfl rfl
    case isFalse => exact (tallies_save pw).congr exact rfl rfl rfl rfl
  case h_4 => cases moved

theorem tallies_flush {exact : Prop} (holds : exact) : Tallies exact pw (pw.flush ng).2 := by
  unfold PcapWriter.flush
  split
  · exact .idle holds rfl rfl
  · exact .idle holds rfl rfl

theorem tallies_step (moved : step ng pw a = some t) : Tallies (Exact ng pw a) pw t := by
  cases (stepped_of_step moved).2 with
  | writePacket data timestamp =>
    unfold PcapWriter.writePacket
    split_ifs <;> exact .idle (by simp [Exact, savesAt]) rfl rfl
  | writeKeyLog keylogLine =>
    unfold PcapWriter.writeKeyLog
    split_ifs <;> exact .idle (by simp [Exact, savesAt]) rfl rfl
  | flush => exact tallies_flush (by simp [Exact, savesAt])
  | tick =>
    unfold PcapWriter.onTick
    split
    case isTrue idle =>
      have none : savesAt pw .tick = none := if_pos (idle.imp_right .inl)
      exact .idle (by simp [Exact, none]) rfl rfl
    case isFalse busy =>
      split
      case isTrue early => exact .idle (by simp [Exact, savesAt, early]) rfl rfl
      case isFalse late =>
        have exact : SaveExact ng pw.writer.calls pw.tcPackets.length ↔ Exact ng pw .tick := by
          simp [Exact, savesAt, busy, late]
        exact (tallies_save pw).congr exact rfl rfl rfl rfl
  | recvPacket running received => exact tallies_onPacket received
  | recvKeylog running received => exact tallies_onKeylog received
  | drain drained => exact tallies_drain drained
  | closeReturn => exact (tallies_flush (by simp [Exact, savesAt])).congr .rfl rfl rfl rfl rfl
  | deadline | ctxDone | closeAgain | close | closeChans =>
    exact .idle (by simp [Exact, savesAt]) rfl rfl

/-- With a writer that never fails every save is counted. -/
theorem Counted.step (h : Counted pw) (moved : step neverFails pw a = some t) : Counted t := by
  obtain ⟨written, counted, blocks, count, -, exact⟩ := tallies_step moved
  have all : Exact neverFails pw a := fun _ _ => .inr (.inr fun _ _ => rfl)
  rw [Counted, blocks, count, h, exact.mpr all]

/-! ## Every run -/

/-- Every step of the schedule that saves packets counts what it writes. -/
def AllExact (ng : Nat → Bool) (as : List Act) : Prop :=
  ∀ before a s, before ++ [a] <+: as → (pcapWriter ng).run before = some s → Exact ng s a

theorem allExact_concat {as : List Act} {s : PcapWriter}
    (ran : (pcapWriter ng).run as = some s) :
    AllExact ng (as ++ [a]) ↔ AllExact ng as ∧ Exact ng s a := by
  constructor
  · intro all
    refine ⟨fun before b u here => all before b u (here.trans (List.prefix_append _ _)), ?_⟩
    exact all as a s List.prefix_rfl ran
  · rintro ⟨earlier, last⟩ before b u here reached
    rcases List.prefix_concat_iff.mp here with whole | here
    · obtain ⟨rfl, same⟩ := List.append_inj' whole rfl
      cases same
      cases ran.symm.trans reached
      exact last
    · exact earlier before b u here reached

/-- The count never exceeds the number of packets in the file, and never catches up. -/
theorem counted_iff_allExact {as : List Act} (ran : (pcapWriter ng).run as = some t) :
    t.packetCount ≤ (packets t.writer.blocks).length ∧ (Counted t ↔ AllExact ng as) := by
  induction as using List.reverseRecOn generalizing t with
  | nil =>
    cases ran
    refine ⟨Nat.le_refl _, fun _ before a s here => ?_, fun _ => rfl⟩
    simp at here
  | append_singleton as a ih =>
    rw [Machine.run_concat, Option.bind_eq_some_iff] at ran
    obtain ⟨s, ran, moved⟩ := ran
    obtain ⟨le, same⟩ := ih ran
    obtain ⟨written, counted, blocks, count, few, exact⟩ := tallies_step moved
    rw [allExact_concat ran, ← same, ← exact, Counted, Counted]
    omega

/-- The error of a `Close` for which there is nothing in the file. -/
def nothingCaptured : Error :=
  .coded .eventNotReady (str "nothing captured, please check your network interface, " ++
    str "see \"ecapture tls -h\" for more information.") none

/-- `Close` returns this error only when nothing has been counted. -/
theorem closeReturn_nothing {u : PcapWriter} (moved : step ng t .closeReturn = some u)
    (result : u.closeResults = t.closeResults ++ [some nothingCaptured]) :
    t.packetCount = 0 ∧ u.writer.blocks = t.writer.blocks := by
  cases (stepped_of_step moved).2 with
  | closeReturn =>
    have kept : (t.flush ng).2.packetCount = t.packetCount ∧
        (t.flush ng).2.writer.blocks = t.writer.blocks ∧
        (t.flush ng).2.closeResults = t.closeResults := by
      unfold PcapWriter.flush
      split <;> exact ⟨rfl, rfl, rfl⟩
    obtain ⟨count, blocks, results⟩ := kept
    refine ⟨?_, blocks⟩
    have next : (t.finishClose ng).closeResults = (t.flush ng).2.closeResults ++
        [if !(t.flush ng).1 then some (.text (str "flush failed"))
          else if (t.flush ng).2.packetCount = 0 then some nothingCaptured else none] := rfl
    rw [next, results] at result
    have reported := List.append_cancel_left result
    rw [List.singleton_inj] at reported
    by_contra counted
    rw [count, if_neg counted] at reported
    split at reported
    · cases reported
    · cases reported

/-- In every run `packetCount` is the number of packets in the file, and a `Close` that returns says
that nothing was captured only when there are none, exactly when every save counts what it
writes. -/
theorem packetCount_iff {as : List Act} (ran : (pcapWriter ng).run as = some t) :
    (t.packetCount = (packets t.writer.blocks).length ∧
      ∀ u, step ng t .closeReturn = some u →
        u.closeResults = t.closeResults ++ [some nothingCaptured] →
          packets u.writer.blocks = []) ↔ AllExact ng as := by
  rw [← (counted_iff_allExact ran).2]
  refine ⟨And.left, fun counted => ⟨counted, fun u moved result => ?_⟩⟩
  obtain ⟨zero, same⟩ := closeReturn_nothing moved result
  rw [same, ← List.length_eq_zero_iff, ← counted, zero]

/-- The first `WritePacket` fails, and what is captured later is saved. -/
def secondSaved : List Act :=
  [.deadline, .writePacket [1] 10, .recvPacket, .tick, .writePacket [2] 20, .recvPacket, .tick]

theorem packetCount_iff_secondSaved :
    ∃ t, (pcapWriter (fun n => n ≠ 0)).run secondSaved = some t ∧ t.packetCount = 1 ∧
      AllExact (fun n => n ≠ 0) secondSaved := by
  obtain ⟨t, ran, count, blocks, idle⟩ : ∃ t ∈ (pcapWriter (fun n => n ≠ 0)).run secondSaved,
      t.packetCount = 1 ∧ (packets t.writer.blocks).length = 1 ∧ t.closer = .idle := by
    decide
  refine ⟨t, ran, count, (packetCount_iff ran).mp ⟨count.trans blocks.symm, fun u moved => ?_⟩⟩
  cases (stepped_of_step moved).2 with
  | closeReturn flushing => cases idle.symm.trans flushing

/-- The flush behind one packet fails, and `Close`. -/
def flushFails : List Act :=
  [.writePacket [1] 10, .recvPacket, .deadline, .tick, .close, .ctxDone, .drain, .drain, .drain,
    .closeChans, .closeReturn]

/-- The packet is in the file, and `Close` says that nothing was captured. -/
theorem captured_packet_not_counted :
    ∃ t ∈ (pcapWriter (fun n => n ≠ 1)).run flushFails,
      (packets t.writer.blocks).length = 1 ∧ t.packetCount = 0 ∧
        t.closeResults = [some nothingCaptured] :=
  ⟨_, rfl, rfl, rfl, rfl⟩

end ECapture.Pcap
