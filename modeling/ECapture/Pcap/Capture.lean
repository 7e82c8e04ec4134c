import ECapture.Events.Packet
import ECapture.Kernel.SslCalls
import ECapture.Pcap.Count
import Mathlib.Data.List.Forall2

/-!
# From the classifier to the file

The way of a packet: `capture_packets` emits a record, the reader of `skb_events` takes the records
in order, the decoder makes an event, `PcapHandler.Handle` gives it to the `PcapWriter`, whose
`Serve` writes blocks. The reader may lose records, the writer's channel may be full and any call of
the `NgWriter` may fail.

Whatever happens, the packets in the file are a subsequence of those the classifiers have emitted:
none is made up, changed, repeated or moved before another. If nothing is lost, `Close` leaves all
of them in the file.
-/

namespace ECapture.Pcap
open Library Kernel.Tc Events

/-! ## The handler -/

/-- `PcapHandler.Handle`. The capture time is `time.Unix(0, int64(ts))`. -/
def handlePacket (event : PacketEvent) (pw : PcapWriter) : PcapWriter :=
  if event.packetData.length = 0 then pw
  else pw.writePacket event.packetData event.timestamp.toInt64.toInt

/-- One record of the ring: `packetEventDecoder.Decode`, then the handler. The dispatcher validates
the event once more before. -/
def deliver (record : Bytes) (pw : PcapWriter) : PcapWriter :=
  match PacketEvent.decode record with
  | .ok event => handlePacket event pw
  | .error _ => pw

/-! ## The system -/

structure Capture where
  net : Net
  /-- The packets that the classifiers have emitted. -/
  captured : List TcPacket
  /-- How many records the reader has seen. -/
  read : Nat
  pw : PcapWriter

inductive CaptureAct where
  | kernel (e : Kernel.Tc.Event)
  /-- The ring was full: a record never gets to the reader. -/
  | lose
  /-- The next record, with what the ring adds to it. -/
  | record (pad : Bytes)
  | writer (a : Act)

variable (b : Build) (c : Kernel.Consts) (filterPcapL2 : Bytes → Bool) (ng : Nat → Bool)

/-- The packet that a program emits, and the sender it has found. -/
def emission (s : Net) (e : Kernel.Tc.Event) : Option (Skb × Option NetCtx) :=
  match e.prog with
  | .tcpSendmsg _ | .udpSendmsg _ => none
  | .ingressClsFunc skb | .egressClsFunc skb =>
    match connId b c filterPcapL2 skb with
    | some id =>
      if (netCtx s id).all fun ctx => !senderRejected c ctx then some (skb, netCtx s id) else none
    | none => none

/-- A packet as the writer keeps it. -/
def tcPacket (ktime : UInt64) (skb : Skb) : TcPacket :=
  ⟨⟨ktime.toInt64.toInt, skb.data.length, skb.data.length, 0⟩, skb.data⟩

/-- `skb->len` is a `u32`. -/
def Sized (e : Kernel.Tc.Event) : Prop :=
  match e.prog with
  | .tcpSendmsg _ | .udpSendmsg _ => True
  | .ingressClsFunc skb | .egressClsFunc skb => skb.data.length < 2 ^ 32

instance (e : Kernel.Tc.Event) : Decidable (Sized e) := by
  unfold Sized
  cases e.prog <;> infer_instance

def captureStep (s : Capture) (a : CaptureAct) : Option Capture :=
  match a with
  | .kernel e =>
    if Sized e then
      some { s with
        net := exec b c filterPcapL2 s.net e
        captured := s.captured ++
          ((emission b c filterPcapL2 s.net e).map fun p => tcPacket e.ctx.ktime p.1).toList }
    else none
  | .lose => if s.read < s.net.skbEvents.length then some { s with read := s.read + 1 } else none
  | .record pad =>
    match s.net.skbEvents[s.read]? with
    | some record =>
      if s.pw.panicked then none
      else some { s with read := s.read + 1, pw := deliver (record ++ pad) s.pw }
    | none => none
  | .writer (.writePacket _ _) => none
  | .writer a => (step ng s.pw a).map fun pw => { s with pw }

def capture : Machine Capture CaptureAct :=
  { init := ⟨.new, [], 0, newPcapWriter⟩, step := captureStep b c filterPcapL2 ng }

/-! ## One record -/

variable {b c filterPcapL2 ng}

theorem exec_skbEvents (s : Net) (e : Kernel.Tc.Event) :
    (exec b c filterPcapL2 s e).skbEvents = s.skbEvents ++
      ((emission b c filterPcapL2 s e).map fun p => skbRecord e.ctx p.1 p.2).toList := by
  have classify : ∀ skb, (capturePackets b c filterPcapL2 skb e.ctx s).skbEvents = s.skbEvents ++
      ((match connId b c filterPcapL2 skb with
        | some id =>
          if (netCtx s id).all fun ctx => !senderRejected c ctx then some (skb, netCtx s id)
          else none
        | none => none : Option (Skb × Option NetCtx)).map
          fun p => skbRecord e.ctx p.1 p.2).toList := by
    intro skb
    rw [capturePackets_eq]
    cases connId b c filterPcapL2 skb with
    | none => simp
    | some id => by_cases passes : (netCtx s id).all fun ctx => !senderRejected c ctx <;> simp [passes]
  obtain ⟨x, prog⟩ := e
  cases prog with
  | tcpSendmsg sk | udpSendmsg sk =>
    simp only [exec, traceSendmsg, emission, Option.map_none, Option.toList_none, List.append_nil]
    split <;> rfl
  | ingressClsFunc skb | egressClsFunc skb => exact classify skb

/-- A packet that is emitted is an Ethernet frame with room for an IP header. -/
theorem length_of_emission {s : Net} {e : Kernel.Tc.Event} {p : Skb × Option NetCtx}
    (emitted : emission b c filterPcapL2 s e = some p) : 34 ≤ p.1.data.length := by
  have seen : ∀ (skb : Skb) (id : Option (Kernel.Ssl.Family × NetId)),
      connId b c filterPcapL2 skb = some id → 34 ≤ skb.data.length := by
    intro skb id found
    have := skb.linear_le
    unfold connId at found
    split at found
    case isTrue => cases found
    case isFalse long =>
      have : ethhdr + iphdr = 34 := rfl
      omega
  have classify : ∀ skb, (match connId b c filterPcapL2 skb with
      | some id =>
        if (netCtx s id).all fun ctx => !senderRejected c ctx then some (skb, netCtx s id) else none
      | none => none : Option (Skb × Option NetCtx)) = some p → 34 ≤ p.1.data.length := by
    intro skb emitted
    cases found : connId b c filterPcapL2 skb with
    | none => simp [found] at emitted
    | some id =>
      simp only [found, Option.ite_none_right_eq_some, Option.some.injEq] at emitted
      obtain ⟨-, rfl⟩ := emitted
      exact seen skb id found
  obtain ⟨x, prog⟩ := e
  cases prog with
  | tcpSendmsg sk | udpSendmsg sk => cases emitted
  | ingressClsFunc skb | egressClsFunc skb => exact classify skb emitted

/-- The record is the packet: whatever the ring adds, the handler writes it. -/
def RecordOf (p : TcPacket) (record : Bytes) : Prop :=
  p = ⟨⟨p.ci.timestamp, p.data.length, p.data.length, 0⟩, p.data⟩ ∧
    ∀ pad pw, deliver (record ++ pad) pw = pw.writePacket p.data p.ci.timestamp

/-- The header that `capture_packets` fills. -/
def skbHeader (x : Kernel.Ssl.Ctx) (skb : Skb) (sender : Option NetCtx) : SkbDataEvent :=
  { ts := x.ktime
    pid := (sender.map NetCtx.pid).getD 0
    comm := (sender.map NetCtx.comm).getD (Kernel.zeros 16)
    len := .ofNat skb.data.length
    ifindex := skb.ifindex }

theorem skbRecord_eq (x : Kernel.Ssl.Ctx) (skb : Skb) (sender : Option NetCtx) :
    skbRecord x skb sender = (skbHeader x skb sender).bytes ++ skb.data := by
  cases sender <;> rfl

theorem recordOf_skbRecord (x : Kernel.Ssl.Ctx) (skb : Skb) (sender : Option NetCtx)
    (sized : skb.data.length < 2 ^ 32) (nonempty : 0 < skb.data.length) :
    RecordOf (tcPacket x.ktime skb) (skbRecord x skb sender) := by
  refine ⟨rfl, fun pad pw => ?_⟩
  have word : (skbHeader x skb sender).len.toNat = skb.data.length :=
    (UInt32.toNat_ofNat' ..).trans (Nat.mod_eq_of_lt sized)
  have read := PacketEvent.decodeFromBytes_append (skbHeader x skb sender) word.symm pad
  have valid : (PacketEvent.ofRecord (skbHeader x skb sender) skb.data).validate = .ok () := by
    refine if_neg fun zero => ?_
    have zero : (skbHeader x skb sender).len = 0 := zero
    rw [zero] at word
    exact Nat.ne_of_gt nonempty word.symm
  have decoded : PacketEvent.decode (skbRecord x skb sender ++ pad) =
      .ok (PacketEvent.ofRecord (skbHeader x skb sender) skb.data) := by
    rw [PacketEvent.decode, skbRecord_eq, read]
    simp only [bind, Except.bind, valid]
    rfl
  rw [deliver, decoded]
  exact if_neg (Nat.ne_of_gt nonempty)

/-! ## The writer, whatever fails -/

/-- The packets the writer has, in order: in the file, in the buffer while `Serve` may still write
it, and in the channel. -/
def PcapWriter.held (pw : PcapWriter) : List TcPacket :=
  packets pw.writer.blocks ++ (if pw.serve = .returned then [] else pw.tcPackets) ++ pw.packetChan

theorem packets_save_sublist (pw : PcapWriter) :
    (packets (pw.save ng).writer.blocks).Sublist (packets pw.writer.blocks ++ pw.tcPackets) := by
  have written := (savePcapng_spec ng pw.tcPackets 0 pw.writer).1
  change (packets (savePcapng ng pw.tcPackets 0 pw.writer).2.blocks).Sublist _
  rw [written]
  exact List.Sublist.append (.refl _) (List.take_sublist _ _)

theorem held_saved (pw : PcapWriter) (running : pw.serve = .select) :
    ({ pw.save ng with i := 0, tcPackets := [] } : PcapWriter).held.Sublist pw.held := by
  have written : (packets (pw.save ng).writer.blocks ++ pw.packetChan).Sublist
      (packets pw.writer.blocks ++ pw.tcPackets ++ pw.packetChan) :=
    (packets_save_sublist pw).append (.refl _)
  simpa [PcapWriter.held, PcapWriter.save, running] using written

variable {pw t : PcapWriter}

theorem held_onTick (running : pw.serve = .select) : (pw.onTick ng).held.Sublist pw.held := by
  unfold PcapWriter.onTick
  split
  · exact .refl _
  · split
    · exact .refl _
    · exact held_saved pw running

theorem held_onPacket (running : pw.serve = .select) (moved : pw.onPacket ng = some t) :
    t.held.Sublist pw.held := by
  unfold PcapWriter.onPacket at moved
  split at moved
  case h_1 packet rest head =>
    cases moved
    simp [PcapWriter.held, running, head]
  case h_2 empty =>
    split at moved
    case isFalse => cases moved
    case isTrue =>
      cases moved
      -- the buffer stays behind, but nothing writes it any more
      split
      · simp [PcapWriter.held, running]
      · simpa [PcapWriter.held, PcapWriter.save, running] using
          (packets_save_sublist pw).append (.refl pw.packetChan)

theorem held_saveAfterDSB (running : pw.serve = .select) :
    (pw.saveAfterDSB ng).held.Sublist pw.held := by
  unfold PcapWriter.saveAfterDSB
  split
  · exact .refl _
  · exact held_saved pw running

theorem held_onKeylog (running : pw.serve = .select) (moved : pw.onKeylog ng = some t) :
    t.held.Sublist pw.held := by
  unfold PcapWriter.onKeylog at moved
  split at moved
  case isTrue => cases moved
  case isFalse =>
    split at moved
    case h_1 k rest head =>
      cases moved
      refine (held_saveAfterDSB (by exact running)).trans ?_
      have same := (packets_writeLine ng k pw.writer).1
      simp [PcapWriter.held, same]
    case h_2 =>
      split at moved
      case isTrue =>
        cases moved
        exact .refl _
      case isFalse => cases moved

theorem held_drain (moved : pw.drain ng = some t) : t.held.Sublist pw.held := by
  unfold PcapWriter.drain at moved
  split at moved
  case h_1 running =>
    split at moved
    case h_1 packet rest head =>
      cases moved
      simp [PcapWriter.held, running, head]
    case h_2 =>
      cases moved
      simp [PcapWriter.held, running]
  case h_2 running =>
    split at moved
    case h_1 k rest _ head =>
      cases moved
      have same := (packets_writeLine ng k pw.writer).1
      simp [PcapWriter.held, same]
    case h_2 =>
      cases moved
      simp [PcapWriter.held, running]
  case h_3 running =>
    cases moved
    split
    case isTrue empty => simp [PcapWriter.held, running, empty]
    case isFalse =>
      simpa [PcapWriter.held, PcapWriter.save, running] using
        (packets_save_sublist pw).append (.refl pw.packetChan)
  case h_4 => cases moved

theorem held_flush (pw : PcapWriter) : (pw.flush ng).2.held = pw.held := by
  unfold PcapWriter.flush
  split <;> rfl

/-- Only `WritePacket` gives the writer a packet. -/
theorem held_step {a : Act} (moved : step ng pw a = some t)
    (other : ∀ data timestamp, a ≠ .writePacket data timestamp) : t.held.Sublist pw.held := by
  cases (stepped_of_step moved).2 with
  | writePacket data timestamp => exact absurd rfl (other data timestamp)
  | writeKeyLog keylogLine =>
    unfold PcapWriter.writeKeyLog
    split_ifs <;> exact .refl _
  | flush =>
    rw [held_flush]
  | deadline | closeAgain | close | closeChans => exact .refl _
  | tick running => exact held_onTick running
  | recvPacket running received => exact held_onPacket running received
  | recvKeylog running received => exact held_onKeylog running received
  | ctxDone running cancelled => simp [PcapWriter.held, running]
  | drain drained => exact held_drain drained
  | closeReturn flushing =>
    change (pw.flush ng).2.held.Sublist pw.held
    rw [held_flush]

theorem held_writePacket (data : Bytes) (timestamp : Int) (pw : PcapWriter) :
    (pw.writePacket data timestamp).held.Sublist
      (pw.held ++ [⟨⟨timestamp, data.length, data.length, 0⟩, data⟩]) := by
  unfold PcapWriter.writePacket
  dsimp only
  split_ifs
  · exact List.sublist_append_left _ _
  · simp [PcapWriter.held]
  · exact List.sublist_append_left _ _

/-! ## Every run -/

/-- The records are those of the captured packets, and what the writer has is among the packets
whose records the reader has seen. -/
structure Kept (s : Capture) : Prop where
  records : List.Forall₂ RecordOf s.captured s.net.skbEvents
  held : s.pw.held.Sublist (s.captured.take s.read)
  read : s.read ≤ s.captured.length

variable {s u : Capture}

theorem Kept.kernel (h : Kept s) (e : Kernel.Tc.Event) (sized : Sized e) :
    Kept { s with
      net := exec b c filterPcapL2 s.net e
      captured := s.captured ++
        ((emission b c filterPcapL2 s.net e).map fun p => tcPacket e.ctx.ktime p.1).toList } where
  records := by
    rw [exec_skbEvents]
    refine List.rel_append h.records ?_
    cases emitted : emission b c filterPcapL2 s.net e with
    | none => exact .nil
    | some p =>
      have long := length_of_emission emitted
      have fits : p.1.data.length < 2 ^ 32 := by
        obtain ⟨x, prog⟩ := e
        cases prog with
        | tcpSendmsg sk | udpSendmsg sk => cases emitted
        | ingressClsFunc skb | egressClsFunc skb =>
          simp only [emission] at emitted
          split at emitted
          · simp only [Option.ite_none_right_eq_some, Option.some.injEq] at emitted
            obtain ⟨-, rfl⟩ := emitted
            exact sized
          · cases emitted
      exact .cons (recordOf_skbRecord e.ctx p.1 p.2 fits (by omega)) .nil
  held := by
    rw [List.take_append_of_le_length h.read]
    exact h.held
  read := Nat.le_trans h.read (by simp)

/-- The next captured packet, for the next record. -/
theorem Kept.next (h : Kept s) {record : Bytes} (here : s.net.skbEvents[s.read]? = some record) :
    ∃ p, s.captured[s.read]? = some p ∧ RecordOf p record := by
  have matched := List.forall₂_iff_get.mp h.records
  obtain ⟨inside, rfl⟩ := List.getElem?_eq_some_iff.mp here
  have inside' : s.read < s.captured.length := by
    rw [matched.1]
    exact inside
  exact ⟨_, List.getElem?_eq_getElem inside', matched.2 s.read inside' inside⟩

theorem Kept.lose (h : Kept s) (more : s.read < s.net.skbEvents.length) :
    Kept { s with read := s.read + 1 } where
  records := h.records
  held := h.held.trans (List.take_sublist_take_left (Nat.le_succ _))
  read := by
    have := h.records.length_eq
    change s.read + 1 ≤ s.captured.length
    omega

theorem Kept.record (h : Kept s) {record : Bytes}
    (here : s.net.skbEvents[s.read]? = some record) (pad : Bytes) :
    Kept { s with read := s.read + 1, pw := deliver (record ++ pad) s.pw } := by
  obtain ⟨p, there, shape, delivered⟩ := h.next here
  obtain ⟨inside, -⟩ := List.getElem?_eq_some_iff.mp here
  refine ⟨h.records, ?_, (h.lose inside).read⟩
  rw [delivered, List.take_add_one, there]
  have added := held_writePacket p.data p.ci.timestamp s.pw
  rw [← shape] at added
  exact added.trans (h.held.append (.refl _))

theorem Kept.step {a : CaptureAct} (h : Kept s) (moved : captureStep b c filterPcapL2 ng s a = some u) :
    Kept u := by
  unfold captureStep at moved
  split at moved
  case h_1 e =>
    simp only [Option.ite_none_right_eq_some, Option.some.injEq] at moved
    obtain ⟨sized, rfl⟩ := moved
    exact h.kernel e sized
  case h_2 =>
    simp only [Option.ite_none_right_eq_some, Option.some.injEq] at moved
    obtain ⟨more, rfl⟩ := moved
    exact h.lose more
  case h_3 pad =>
    split at moved
    case h_1 record here =>
      split at moved
      · cases moved
      · cases moved
        exact h.record here pad
    case h_2 => cases moved
  case h_4 => cases moved
  case h_5 a other =>
    obtain ⟨pw, stepped, rfl⟩ := Option.map_eq_some_iff.mp moved
    exact ⟨h.records, (held_step stepped fun data ts eq => other data ts (by rw [eq])).trans h.held,
      h.read⟩

/-- No record is lost, and the channel takes every packet and line before `Close` is called. -/
def Lossless (s : Capture) (a : CaptureAct) : Prop :=
  match a with
  | .kernel _ => True
  | .lose => False
  | .record _ =>
    s.pw.packetClosed = false ∧ s.pw.packetChan.length < packetChanCap ∧ s.pw.cancelled = false
  | .writer a => WritesBeforeClose s.pw a

theorem accepted_step {a : Act} (moved : step ng pw a = some t)
    (other : ∀ data timestamp, a ≠ .writePacket data timestamp) : t.accepted = pw.accepted := by
  cases (stepped_of_step moved).2 with
  | writePacket data timestamp => exact absurd rfl (other data timestamp)
  | writeKeyLog keylogLine =>
    unfold PcapWriter.writeKeyLog
    split_ifs <;> rfl
  | flush =>
    unfold PcapWriter.flush
    split <;> rfl
  | deadline | closeAgain | close | closeChans | ctxDone => rfl
  | tick running =>
    unfold PcapWriter.onTick
    split_ifs <;> rfl
  | recvPacket running received =>
    unfold PcapWriter.onPacket at received
    split at received
    · cases received
      rfl
    · split at received
      · cases received
        dsimp only
        split <;> rfl
      · cases received
  | recvKeylog running received =>
    unfold PcapWriter.onKeylog PcapWriter.saveAfterDSB at received
    split at received
    · cases received
    · split at received
      · cases received
        split <;> rfl
      · split at received
        · cases received
          rfl
        · cases received
  | drain drained =>
    unfold PcapWriter.drain at drained
    split at drained
    · split at drained <;> cases drained <;> rfl
    · split at drained <;> cases drained <;> rfl
    · cases drained
      split <;> rfl
    · cases drained
  | closeReturn flushing =>
    change (pw.flush ng).2.accepted = _
    unfold PcapWriter.flush
    split <;> rfl

/-- The writer is a writer on its own, and it has accepted what the reader has seen. -/
structure Accepted (s : Capture) : Prop where
  kept : Kept s
  writer : (pcapWriter neverFails).ReachableBy WritesBeforeClose s.pw
  accepted : s.pw.accepted = s.captured.take s.read

theorem Accepted.record (h : Accepted s) {record : Bytes} (calm : s.pw.panicked = false)
    (here : s.net.skbEvents[s.read]? = some record) (pad : Bytes)
    (free : s.pw.packetClosed = false ∧ s.pw.packetChan.length < packetChanCap ∧
      s.pw.cancelled = false) :
    Accepted { s with read := s.read + 1, pw := deliver (record ++ pad) s.pw } := by
  obtain ⟨p, there, shape, delivered⟩ := h.kept.next here
  have moved : step neverFails s.pw (.writePacket p.data p.ci.timestamp) =
      some (deliver (record ++ pad) s.pw) := by
    simp [step, calm, delivered]
  refine ⟨h.kept.record here pad, h.writer.tail ⟨.writePacket p.data p.ci.timestamp, fun _ => free.2.2, moved⟩, ?_⟩
  have taken : s.captured.take (s.read + 1) = s.captured.take s.read ++ [p] := by
    rw [List.take_add_one, there]
    rfl
  have added : (s.pw.writePacket p.data p.ci.timestamp).accepted = s.pw.accepted ++ [p] := by
    simp only [PcapWriter.writePacket, free, Bool.false_eq_true, if_false, if_true, ← shape]
  rw [delivered]
  change _ = s.captured.take (s.read + 1)
  rw [added, taken, h.accepted]

theorem Accepted.step {a : CaptureAct} (h : Accepted s) (allowed : Lossless s a)
    (moved : captureStep b c filterPcapL2 neverFails s a = some u) : Accepted u := by
  have kept := h.kept.step moved
  unfold captureStep at moved
  split at moved
  case h_1 e =>
    simp only [Option.ite_none_right_eq_some, Option.some.injEq] at moved
    obtain ⟨sized, rfl⟩ := moved
    refine ⟨kept, h.writer, ?_⟩
    rw [List.take_append_of_le_length h.kept.read]
    exact h.accepted
  case h_2 => exact False.elim allowed
  case h_3 pad =>
    split at moved
    case h_1 record here =>
      split at moved
      case isTrue => cases moved
      case isFalse calm =>
        cases moved
        exact h.record (by simpa using calm) here pad allowed
    case h_2 => cases moved
  case h_4 => cases moved
  case h_5 a other =>
    obtain ⟨pw, stepped, rfl⟩ := Option.map_eq_some_iff.mp moved
    refine ⟨kept, h.writer.tail ⟨a, allowed, stepped⟩, ?_⟩
    rw [accepted_step stepped fun data ts eq => other data ts (by rw [eq])]
    exact h.accepted

instance (s : Capture) (a : CaptureAct) : Decidable (Lossless s a) := by
  unfold Lossless
  cases a <;> infer_instance

end ECapture.Pcap
