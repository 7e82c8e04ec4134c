import ECapture.Pcap.Writer

/-!
# What the pcapng writer delivers

With an `NgWriter` that never fails, every accepted packet is in exactly one place: emitted,
buffered by `Serve`, or in the channel, in this order; lines likewise. `Effect` says once what
a step does to these places.
-/

namespace ECapture.Pcap
open Library

def packets : List Block → List TcPacket :=
  List.filterMap fun | .packet p => some p | .dsb _ => none

def lines : List Block → List Bytes :=
  List.filterMap fun | .packet _ => none | .dsb k => some k

@[simp] theorem packets_append (a b : List Block) : packets (a ++ b) = packets a ++ packets b :=
  List.filterMap_append

@[simp] theorem lines_append (a b : List Block) : lines (a ++ b) = lines a ++ lines b :=
  List.filterMap_append

@[simp] theorem packets_packet (ps : List TcPacket) : packets (ps.map .packet) = ps := by
  induction ps with
  | nil => rfl
  | cons p ps ih => simp [packets]

@[simp] theorem packets_dsb (ks : List Bytes) : packets (ks.map .dsb) = [] := by
  induction ks with
  | nil => rfl
  | cons k ks ih => simp [packets]

@[simp] theorem lines_packet (ps : List TcPacket) : lines (ps.map .packet) = [] := by
  induction ps with
  | nil => rfl
  | cons p ps ih => simp [lines]

@[simp] theorem lines_dsb (ks : List Bytes) : lines (ks.map .dsb) = ks := by
  induction ks with
  | nil => rfl
  | cons k ks ih => simp [lines]

/-! ## An underlying writer that never fails -/

@[simp] theorem emit_neverFails (b : Block) (w : NgWriter) :
    w.emit neverFails b = (true, ⟨w.blocks ++ [b], w.calls + 1⟩) := rfl

@[simp] theorem flush_blocks (ng : Nat → Bool) (w : NgWriter) :
    (w.flush ng).2.blocks = w.blocks := rfl

theorem savePcapng_blocks (ps : List TcPacket) (i : Nat) (w : NgWriter) :
    (savePcapng neverFails ps i w).2.blocks = w.blocks ++ ps.map .packet := by
  induction ps generalizing i w with
  | nil =>
    rw [savePcapng]
    split <;> simp
  | cons p ps ih => simp [savePcapng, NgWriter.writePacket, ih]

@[simp] theorem save_blocks (pw : PcapWriter) :
    (pw.save neverFails).writer.blocks = pw.writer.blocks ++ pw.tcPackets.map .packet :=
  savePcapng_blocks pw.tcPackets 0 pw.writer

/-! ## What a step does -/

/-- The places a packet or a line can be in, with the control state that guards its moves. -/
structure Places where
  emitted : List Block
  buffer : List TcPacket
  packetChan : List TcPacket
  keylogChan : List Bytes
  accepted : List TcPacket
  acceptedKeylogs : List Bytes
  serve : ServePc
  cancelled : Bool
  deadlinePassed : Bool

def PcapWriter.places (pw : PcapWriter) : Places :=
  ⟨pw.writer.blocks, pw.tcPackets, pw.packetChan, pw.keylogChan, pw.accepted,
    pw.acceptedKeylogs, pw.serve, pw.cancelled, pw.deadlinePassed⟩

/-- The moves between places. `allow` restricts when a call may be accepted. -/
inductive Moves (allow : Places → Prop) (p : Places) : Places → Prop where
  | stay : Moves allow p p
  | accept (packet) (may : allow p) :
    Moves allow p
      { p with packetChan := p.packetChan ++ [packet], accepted := p.accepted ++ [packet] }
  | acceptKeylog (k) (may : allow p) :
    Moves allow p
      { p with keylogChan := p.keylogChan ++ [k], acceptedKeylogs := p.acceptedKeylogs ++ [k] }
  | deadline : Moves allow p { p with deadlinePassed := true }
  | cancel : Moves allow p { p with cancelled := true }
  | take (packet rest) (running : p.serve = .select ∨ p.serve = .drainPackets)
    (head : p.packetChan = packet :: rest) :
    Moves allow p { p with packetChan := rest, buffer := p.buffer ++ [packet] }
  | save (running : p.serve = .select) (due : lines p.emitted ≠ [] ∨ p.deadlinePassed) :
    Moves allow p { p with emitted := p.emitted ++ p.buffer.map .packet, buffer := [] }
  | keylog (k rest) (running : p.serve = .select) (head : p.keylogChan = k :: rest) :
    Moves allow p
      { p with
        keylogChan := rest
        emitted := p.emitted ++ .dsb k :: p.buffer.map .packet
        buffer := [] }
  | ctxDone (running : p.serve = .select) (cancelled : p.cancelled) :
    Moves allow p { p with serve := .drainPackets }
  | drainedPackets (running : p.serve = .drainPackets) (empty : p.packetChan = []) :
    Moves allow p { p with serve := .drainKeylogs }
  | drainKeylog (k rest) (running : p.serve = .drainKeylogs) (head : p.keylogChan = k :: rest) :
    Moves allow p { p with keylogChan := rest, emitted := p.emitted ++ [.dsb k] }
  | drainedKeylogs (running : p.serve = .drainKeylogs) (empty : p.keylogChan = []) :
    Moves allow p { p with serve := .saveBuffered }
  | finish (running : p.serve = .saveBuffered) :
    Moves allow p
      { p with
        emitted := p.emitted ++ p.buffer.map .packet
        buffer := []
        serve := .returned }

/-- What holds between the fields of a writer at every step. -/
structure Inv (pw : PcapWriter) : Prop where
  /-- Channels are closed, and `Close` gets past its wait, only after `Serve`. -/
  ended : pw.packetClosed ∨ pw.keylogClosed ∨ pw.closer = .flush ∨ pw.isClosed →
    pw.serve = .returned
  notNil : pw.keylogNil = false
  counter : pw.serve = .select → pw.i = pw.tcPackets.length
  first : pw.firstDSBWritten → lines pw.writer.blocks ≠ []

theorem inv_newPcapWriter : Inv newPcapWriter := by
  constructor <;> simp [newPcapWriter]

variable {allow : Places → Prop} {pw : PcapWriter}

/-- A step that keeps the invariant and is a move. -/
def Refines (allow : Places → Prop) (s t : PcapWriter) : Prop :=
  Inv t ∧ Moves allow s.places t.places

/-- The call `a` is a `WritePacket` or `WriteKeyLog` that returns nil. -/
def accepts (pw : PcapWriter) : Act → Bool
  | .writePacket _ _ => !pw.packetClosed && pw.packetChan.length < packetChanCap
  | .writeKeyLog _ => !pw.keylogNil && !pw.keylogClosed && pw.keylogChan.length < keylogChanCap
  | _ => false

theorem writePacket_refines (h : Inv pw) (data : Bytes) (timestamp : Int)
    (may : accepts pw (.writePacket data timestamp) → allow pw.places) :
    Refines allow pw (pw.writePacket data timestamp) := by
  unfold PcapWriter.writePacket
  split_ifs with closed room
  · exact ⟨{ h with }, .stay⟩
  · exact ⟨{ h with }, .accept _ (may (by simp [accepts, closed, room]))⟩
  · exact ⟨h, .stay⟩

theorem writeKeyLog_refines (h : Inv pw) (keylogLine : Bytes)
    (may : accepts pw (.writeKeyLog keylogLine) → allow pw.places) :
    Refines allow pw (pw.writeKeyLog keylogLine) := by
  unfold PcapWriter.writeKeyLog
  split_ifs with isNil closed room
  · exact ⟨h, .stay⟩
  · exact ⟨{ h with }, .stay⟩
  · exact ⟨{ h with }, .acceptKeylog _ (may (by simp [accepts, isNil, closed, room]))⟩
  · exact ⟨h, .stay⟩

/-- What emptying the buffer through `save` does. -/
theorem saved_places (pw : PcapWriter) :
    { pw.save neverFails with i := 0, tcPackets := [] }.places =
      { pw.places with emitted := pw.writer.blocks ++ pw.tcPackets.map .packet, buffer := [] } := by
  simp [PcapWriter.places, PcapWriter.save, savePcapng_blocks]

theorem saved_inv (h : Inv pw) : Inv { pw.save neverFails with i := 0, tcPackets := [] } :=
  { ended := h.ended
    notNil := h.notNil
    counter := fun _ => rfl
    first := fun written => by simp [h.first written] }

theorem onTick_refines (h : Inv pw) (running : pw.serve = .select) :
    Refines allow pw (pw.onTick neverFails) := by
  unfold PcapWriter.onTick
  split_ifs with empty early
  · exact ⟨h, .stay⟩
  · exact ⟨h, .stay⟩
  · refine ⟨saved_inv h, ?_⟩
    rw [saved_places]
    apply Moves.save running
    -- the tick was not skipped, so a DSB is out or the deadline has passed
    cases written : pw.firstDSBWritten with
    | true => exact .inl (h.first written)
    | false => exact .inr (by simpa [written, PcapWriter.places] using early)

theorem onPacket_refines {t : PcapWriter} (h : Inv pw) (running : pw.serve = .select)
    (moved : pw.onPacket neverFails = some t) : Refines allow pw t := by
  unfold PcapWriter.onPacket at moved
  split at moved
  case h_1 packet rest head =>
    cases moved
    refine ⟨{ h with counter := ?_ }, .take packet rest (.inl running) head⟩
    simpa using h.counter
  case h_2 empty =>
    -- a closed channel is seen only after `Serve` has returned
    split at moved
    case isTrue closed => simp [h.ended (.inl closed)] at running
    case isFalse => cases moved

theorem saveAfterDSB_refines {written : PcapWriter} (k : Bytes) (rest : List Bytes)
    (running : pw.serve = .select) (head : pw.keylogChan = k :: rest) (h : Inv written)
    (eq : written.places =
      { pw.places with keylogChan := rest, emitted := pw.writer.blocks ++ [.dsb k] }) :
    Refines allow pw (written.saveAfterDSB neverFails) := by
  have move : Moves allow pw.places _ := .keylog k rest running head
  have blocks : written.writer.blocks = pw.writer.blocks ++ [.dsb k] := congrArg Places.emitted eq
  have buffer : written.tcPackets = pw.tcPackets := congrArg Places.buffer eq
  unfold PcapWriter.saveAfterDSB
  split
  case isTrue empty =>
    refine ⟨h, ?_⟩
    rw [eq]
    simpa [PcapWriter.places, ← buffer, empty] using move
  case isFalse =>
    refine ⟨saved_inv h, ?_⟩
    rw [saved_places, eq, blocks, buffer]
    simpa [PcapWriter.places] using move

theorem onKeylog_refines {t : PcapWriter} (h : Inv pw) (running : pw.serve = .select)
    (moved : pw.onKeylog neverFails = some t) : Refines allow pw t := by
  unfold PcapWriter.onKeylog at moved
  split at moved
  case isTrue isNil => cases moved
  case isFalse =>
    split at moved
    case h_1 k rest head =>
      cases moved
      apply saveAfterDSB_refines k rest running head
      · exact { h with first := fun _ => by simp [NgWriter.writeDecryptionSecretsBlock, lines] }
      · rfl
    case h_2 empty =>
      split at moved
      case isTrue closed => simp [h.ended (.inr (.inl closed))] at running
      case isFalse => cases moved

theorem drain_refines {t : PcapWriter} (h : Inv pw) (moved : pw.drain neverFails = some t) :
    Refines allow pw t := by
  unfold PcapWriter.drain at moved
  split at moved
  case h_1 running =>
    split at moved
    case h_1 packet rest head =>
      cases moved
      exact ⟨{ h with counter := by simp [running] }, .take packet rest (.inr running) head⟩
    case h_2 empty =>
      cases moved
      refine ⟨{ h with ended := fun e => ?_, counter := by simp }, .drainedPackets running empty⟩
      simp [h.ended e] at running
  case h_2 running =>
    split at moved
    case h_1 k rest _ head =>
      cases moved
      refine ⟨{ h with first := fun _ => ?_ }, .drainKeylog k rest running head⟩
      simp [NgWriter.writeDecryptionSecretsBlock, lines]
    case h_2 k rest other =>
      cases moved
      have empty : pw.keylogChan = [] := by
        cases head : pw.keylogChan with
        | nil => rfl
        | cons k rest => exact absurd head (other k rest h.notNil)
      refine ⟨{ h with ended := fun e => ?_, counter := by simp }, .drainedKeylogs running empty⟩
      simp [h.ended e] at running
  case h_3 running =>
    cases moved
    have move : Moves allow pw.places _ := .finish running
    split
    case isTrue empty =>
      refine ⟨{ ended := fun _ => rfl, notNil := h.notNil, counter := by simp, first := h.first }, ?_⟩
      simpa [PcapWriter.places, empty] using move
    case isFalse =>
      refine ⟨{ ended := fun _ => rfl, notNil := h.notNil, counter := by simp, first := ?_ }, ?_⟩
      · intro written
        simp [h.first written]
      · simpa [PcapWriter.places, PcapWriter.save, savePcapng_blocks] using move
  case h_4 => cases moved

theorem flush_refines (h : Inv pw) (ng : Nat → Bool) : Refines allow pw (pw.flush ng).2 := by
  unfold PcapWriter.flush
  split <;> exact ⟨{ h with }, .stay⟩

theorem finishClose_refines (h : Inv pw) (flushing : pw.closer = .flush) (ng : Nat → Bool) :
    Refines allow pw (pw.finishClose ng) := by
  have served := h.ended (.inr (.inr (.inl flushing)))
  unfold PcapWriter.finishClose PcapWriter.flush
  simp only [served, if_true]
  exact ⟨{ h with ended := fun _ => rfl, counter := by simp }, by
    simpa [PcapWriter.places, served] using Moves.stay (p := pw.places)⟩

/-- Every step of the writer keeps the invariant and is a move between the places. -/
theorem step_refines {t : PcapWriter} {a : Act} (h : Inv pw)
    (may : accepts pw a → allow pw.places) (moved : step neverFails pw a = some t) :
    Refines allow pw t := by
  cases (stepped_of_step moved).2 with
  | writePacket data timestamp => exact writePacket_refines h data timestamp may
  | writeKeyLog keylogLine => exact writeKeyLog_refines h keylogLine may
  | flush => exact flush_refines h neverFails
  | deadline => exact ⟨{ h with }, .deadline⟩
  | tick running => exact onTick_refines h running
  | recvPacket running received => exact onPacket_refines h running received
  | recvKeylog running received => exact onKeylog_refines h running received
  | ctxDone running cancelled =>
    refine ⟨{ h with ended := fun e => ?_, counter := by simp }, .ctxDone running cancelled⟩
    simp [h.ended e] at running
  | drain drained => exact drain_refines h drained
  | closeAgain => exact ⟨{ h with }, .stay⟩
  | close => exact ⟨{ h with ended := fun e => h.ended (by simp at e; tauto) }, .cancel⟩
  | closeChans waiting served => exact ⟨{ h with ended := fun _ => served }, .stay⟩
  | closeReturn flushing => exact finishClose_refines h flushing neverFails

/-- Every run of the writer is a run of moves. -/
theorem steps_refine {ok : PcapWriter → Act → Prop} {s t : PcapWriter}
    (may : ∀ s a, ok s a → accepts s a → allow s.places) (h : Inv s)
    (steps : Relation.ReflTransGen ((pcapWriter neverFails).Next ok) s t) :
    Inv t ∧ Relation.ReflTransGen (Moves allow) s.places t.places :=
  Machine.steps_simulation (fun s a _ inv allowed moved =>
    step_refines inv (may s a allowed) moved) h steps

theorem reachable_refines {ok : PcapWriter → Act → Prop} (allow : Places → Prop)
    (may : ∀ s a, ok s a → accepts s a → allow s.places)
    (h : (pcapWriter neverFails).ReachableBy ok pw) :
    Inv pw ∧ Relation.ReflTransGen (Moves allow) newPcapWriter.places pw.places :=
  steps_refine may inv_newPcapWriter h

/-! ## Conservation -/

/-- Every accepted packet and line is in exactly one place, in order. -/
structure Conserved (p : Places) : Prop where
  packets : p.accepted = packets p.emitted ++ p.buffer ++ p.packetChan
  keylogs : p.acceptedKeylogs = lines p.emitted ++ p.keylogChan

theorem Conserved.move {p q : Places} (h : Conserved p) (m : Moves allow p q) : Conserved q := by
  obtain ⟨hp, hk⟩ := h
  cases m with
  | stay | deadline | cancel | ctxDone | drainedPackets | drainedKeylogs => exact ⟨hp, hk⟩
  | accept packet => exact ⟨by simp [hp], hk⟩
  | acceptKeylog k => exact ⟨hp, by simp [hk]⟩
  | take packet rest _ head => exact ⟨by simp [hp, head], hk⟩
  | save | finish => exact ⟨by simp [hp], by simp [hk]⟩
  | keylog k rest _ head =>
    refine ⟨?_, ?_⟩
    · simpa [Pcap.packets] using hp
    · simpa [lines, head] using hk
  | drainKeylog k rest _ head =>
    refine ⟨?_, ?_⟩
    · simpa [Pcap.packets] using hp
    · simpa [lines, head] using hk

theorem conserved_new : Conserved newPcapWriter.places := ⟨rfl, rfl⟩

/-! ## Shutdown -/

/-- What the parts of `drainOnShutdown` that are over have emptied. -/
structure Emptied (p : Places) : Prop where
  packets : p.serve ≠ .select → p.serve ≠ .drainPackets → p.packetChan = []
  keylogs : p.serve = .saveBuffered ∨ p.serve = .returned → p.keylogChan = []
  buffer : p.serve = .returned → p.buffer = []

/-- When a call is accepted only while `Serve` is at its `select`, what is empty stays so. -/
theorem Emptied.move {p q : Places} (h : Emptied p) (running : allow p → p.serve = .select)
    (m : Moves allow p q) : Emptied q := by
  obtain ⟨hp, hk, hb⟩ := h
  cases m with
  | stay | deadline | cancel => exact ⟨hp, hk, hb⟩
  | accept packet may => constructor <;> simp [running may]
  | acceptKeylog k may => constructor <;> simp [running may]
  | take packet rest at_ head => constructor <;> grind
  | save at_ | keylog _ _ at_ => constructor <;> simp [at_]
  | ctxDone => constructor <;> simp
  | drainedPackets at_ empty => constructor <;> simp [empty]
  | drainKeylog k rest at_ head => constructor <;> grind
  | drainedKeylogs at_ empty => constructor <;> grind
  | finish at_ => constructor <;> grind

/-- What is empty, when nothing is accepted after the cancellation. -/
structure Drained (p : Places) : Prop where
  cancelled : p.serve ≠ .select → p.cancelled
  packets : p.serve ≠ .select → p.serve ≠ .drainPackets → p.packetChan = []
  keylogs : p.serve = .saveBuffered ∨ p.serve = .returned → p.keylogChan = []
  buffer : p.serve = .returned → p.buffer = []

theorem Drained.emptied {p : Places} (h : Drained p) : Emptied p := { h with }

/-- A call is accepted only before `Close` cancels the context. -/
def beforeClose (p : Places) : Prop := p.cancelled = false

theorem Moves.cancelled {p q : Places} (h : p.serve ≠ .select → p.cancelled)
    (m : Moves allow p q) : q.serve ≠ .select → q.cancelled := by
  cases m with
  | cancel => exact fun _ => rfl
  | ctxDone _ c => exact fun _ => c
  | drainedPackets at_ | drainedKeylogs at_ | finish at_ => exact fun _ => h (by simp [at_])
  | _ => exact h

theorem Drained.move {p q : Places} (h : Drained p) (m : Moves beforeClose p q) : Drained q := by
  -- an accepted call finds `Serve` at its `select`
  have running : beforeClose p → p.serve = .select := by
    intro c
    by_contra stopped
    simp [h.cancelled stopped, beforeClose] at c
  exact { h.emptied.move running m with cancelled := m.cancelled h.cancelled }

theorem drained_new : Drained newPcapWriter.places := by
  constructor <;> simp [newPcapWriter, PcapWriter.places]

theorem delivered {p : Places} (conserved : Conserved p) (emptied : Emptied p)
    (served : p.serve = .returned) :
    packets p.emitted = p.accepted ∧ lines p.emitted = p.acceptedKeylogs := by
  have buffer := emptied.buffer served
  have packetChan := emptied.packets (by simp [served]) (by simp [served])
  have keylogChan := emptied.keylogs (.inr served)
  refine ⟨?_, ?_⟩
  · simp [conserved.packets, buffer, packetChan]
  · simp [conserved.keylogs, keylogChan]

/-- A move only adds blocks. -/
theorem Moves.emitted_prefix {p q : Places} (m : Moves allow p q) : p.emitted <+: q.emitted := by
  cases m <;> first | exact List.prefix_append _ _ | exact List.prefix_rfl

/-- Where no call may be accepted, none is. -/
theorem Moves.accepted_eq {p q : Places} (m : Moves (fun _ => False) p q) :
    q.accepted = p.accepted := by
  cases m <;> first | rfl | contradiction

/-! ## The count -/

/-- `packetCount` is the number of packets in the file. -/
def Counted (pw : PcapWriter) : Prop := pw.packetCount = (packets pw.writer.blocks).length

/-- Calls return nil only before `Close` is called. -/
def WritesBeforeClose (pw : PcapWriter) (a : Act) : Prop :=
  accepts pw a → pw.cancelled = false

instance (pw : PcapWriter) (a : Act) : Decidable (WritesBeforeClose pw a) :=
  inferInstanceAs (Decidable (_ → _))

/-- When `Close` has returned, the file holds exactly the accepted packets and lines, each
once and in order; at every head of the `Serve` loop `i` counts the buffer. -/
theorem close_emits_accepted :
    (∀ pw, (pcapWriter neverFails).ReachableBy WritesBeforeClose pw → pw.isClosed →
      packets pw.writer.blocks = pw.accepted ∧ lines pw.writer.blocks = pw.acceptedKeylogs) ∧
    ∀ pw, (pcapWriter neverFails).Reachable pw → pw.serve = .select →
      pw.i = pw.tcPackets.length := by
  refine ⟨fun pw h closed => ?_, fun pw h => ?_⟩
  · obtain ⟨inv, ms⟩ := reachable_refines beforeClose (fun _ _ ok => ok) h
    exact delivered (run_invariant .move conserved_new ms)
      (run_invariant .move drained_new ms).emptied (inv.ended (by simp [closed]))
  · exact (reachable_refines (fun _ => True) (fun _ _ _ _ => trivial) h).1.counter

/-- Two packets around a line and an early tick, then a packet and a line that `Serve` first
sees while it shuts down. -/
def captureAndClose : List Act :=
  [.writePacket [1] 10, .recvPacket, .tick, .writeKeyLog [7], .recvKeylog, .writePacket [2] 20,
    .recvPacket, .deadline, .tick, .writePacket [3] 30, .writeKeyLog [8], .close, .ctxDone, .drain,
    .drain, .drain, .drain, .drain, .closeChans, .closeReturn]

theorem close_emits_accepted_run :
    (∃ pw, (pcapWriter neverFails).ReachableBy WritesBeforeClose pw ∧ pw.isClosed = true ∧
      pw.accepted.length = 3 ∧ pw.acceptedKeylogs.length = 2 ∧
      packets pw.writer.blocks = pw.accepted ∧ lines pw.writer.blocks = pw.acceptedKeylogs) ∧
    ∃ pw, (pcapWriter neverFails).Reachable pw ∧ pw.serve = .select ∧
      pw.i = 1 ∧ pw.i = pw.tcPackets.length := by
  refine ⟨?_, ?_⟩
  · obtain ⟨pw, ran, closed, three, two⟩ :
        ∃ pw ∈ (pcapWriter neverFails).runGuarded WritesBeforeClose captureAndClose,
          pw.isClosed = true ∧ pw.accepted.length = 3 ∧ pw.acceptedKeylogs.length = 2 := by decide
    have reached := Machine.reachableBy_of_runGuarded ran
    exact ⟨pw, reached, closed, three, two, close_emits_accepted.1 pw reached closed⟩
  · obtain ⟨pw, ran, running, one⟩ :
        ∃ pw ∈ (pcapWriter neverFails).run (captureAndClose.take 3),
          pw.serve = .select ∧ pw.i = 1 := by decide
    have reached := Machine.reachable_of_run ran
    exact ⟨pw, reached, running, one, close_emits_accepted.2 pw reached running⟩

end ECapture.Pcap
