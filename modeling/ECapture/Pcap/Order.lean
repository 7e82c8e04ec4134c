import ECapture.Pcap.Delivery

/-!
# The order of blocks in the file

Wireshark reads a file front to back, so a secret has to stand before the packets it
decrypts. The order is a property of the moves between places: `Led` for a running writer,
`Draining` for one that shuts down. It holds in every run, calls after `Close` included.
-/

namespace ECapture.Pcap
open Library

variable {allow : Places → Prop}

/-- Blocks are only appended. -/
theorem emitted_head_move {p q : Places} (m : Moves allow p q) : p.emitted <+: q.emitted := by
  cases m <;> simp

theorem emitted_head {p q : Places} (ms : Relation.ReflTransGen (Moves allow) p q) :
    p.emitted <+: q.emitted := by
  induction ms with
  | refl => exact List.prefix_rfl
  | tail _ m ih => exact ih.trans (emitted_head_move m)

/-! ## Before the deadline -/

/-- While `Serve` runs and the deadline has not passed, the first block, if there is one, is
a DSB. -/
def Led (p : Places) : Prop :=
  p.serve = .select → p.deadlinePassed = false → ∀ b ∈ p.emitted.head?, ∃ k, b = .dsb k

theorem Led.move {p q : Places} (h : Led p) (m : Moves allow p q) : Led q := by
  cases m with
  | stay | accept | acceptKeylog | cancel | take => exact h
  | deadline =>
    intro _ passed
    cases passed
  | save running due =>
    intro at_ passed b first
    -- the deadline has not passed, so a DSB is out and the first block stays what it was
    have out : lines p.emitted ≠ [] := by simpa [show p.deadlinePassed = false from passed] using due
    have nonempty : p.emitted ≠ [] := by
      rintro empty
      simp [empty, lines] at out
    rw [List.head?_append_of_ne_nil _ nonempty] at first
    exact h running passed b first
  | keylog k rest running head =>
    intro at_ passed b first
    rw [List.head?_append] at first
    cases old : p.emitted.head? with
    | none => exact ⟨k, by simpa [old, eq_comm] using first⟩
    | some b' => exact h running passed b (by simpa [old] using first)
  | ctxDone | drainedPackets | drainedKeylogs | finish =>
    intro running
    cases running
  | drainKeylog k rest running =>
    intro at_
    rw [running] at at_
    cases at_

theorem led_new : Led newPcapWriter.places := by
  intro _ _ b first
  cases first

/-- A packet block of a led file has a DSB before it. -/
theorem Led.before {p : Places} (h : Led p) (running : p.serve = .select)
    (early : p.deadlinePassed = false) {pre post : List Block} {packet : TcPacket}
    (split : p.emitted = pre ++ .packet packet :: post) : lines pre ≠ [] := by
  cases pre with
  | nil =>
    obtain ⟨k, eq⟩ := h running early (.packet packet) (by simp [split])
    cases eq
  | cons b pre =>
    obtain ⟨k, rfl⟩ := h running early b (by simp [split])
    simp [lines]

/-- `Serve` leaves its loop only after the cancellation. -/
def Cancelled (p : Places) : Prop := p.serve ≠ .select → p.cancelled

theorem Cancelled.move {p q : Places} (h : Cancelled p) (m : Moves allow p q) : Cancelled q := by
  cases m with
  | cancel => exact fun _ => rfl
  | ctxDone _ cancelled => exact fun _ => cancelled
  | drainedPackets at_ | drainedKeylogs at_ | finish at_ => exact fun _ => h (by simp [at_])
  | stay | accept | acceptKeylog | deadline | take | save | keylog | drainKeylog => exact h

theorem cancelled_new : Cancelled newPcapWriter.places := fun left => absurd rfl left

/-! ## When a line is taken out -/

/-- The DSB of the line that a move takes out is the next block. -/
theorem dsb_next {p q : Places} {k : Bytes} (m : Moves allow p q)
    (dequeued : p.keylogChan = k :: q.keylogChan) : p.emitted ++ [.dsb k] <+: q.emitted := by
  cases m with
  | keylog k' rest _ head =>
    obtain ⟨rfl, -⟩ := List.cons.inj (dequeued.symm.trans head)
    exact ⟨p.buffer.map .packet, by simp⟩
  | drainKeylog k' rest _ head =>
    obtain ⟨rfl, -⟩ := List.cons.inj (dequeued.symm.trans head)
    exact List.prefix_rfl
  | acceptKeylog k' =>
    have := congrArg List.length dequeued
    simp at this
    omega
  | stay | accept | deadline | cancel | take | save | ctxDone | drainedPackets | drainedKeylogs
  | finish =>
    have := congrArg List.length dequeued
    simp at this

/-! ## Shutdown -/

/-- A shutdown that began in `start` has emitted the lines `ks`, then the packets `ps`. -/
structure Draining (start p : Places) (ks : List Bytes) (ps : List TcPacket) : Prop where
  emitted : p.emitted = start.emitted ++ ks.map .dsb ++ ps.map .packet
  stopped : p.serve ≠ .select
  unsaved : p.serve ≠ .returned → ps = [] ∧
    start.buffer ++ start.packetChan <+: p.buffer ++ p.packetChan
  keylogs : start.keylogChan <+: ks ++ p.keylogChan
  taken : p.serve ≠ .drainPackets → p.serve ≠ .returned →
    start.buffer ++ start.packetChan <+: p.buffer
  written : p.serve = .saveBuffered ∨ p.serve = .returned → start.keylogChan <+: ks
  saved : p.serve = .returned → start.buffer ++ start.packetChan <+: ps

theorem Draining.start {p : Places} :
    Draining p { p with serve := .drainPackets } [] [] := by
  constructor <;> simp

theorem Draining.move {start p q : Places} {ks : List Bytes} {ps : List TcPacket}
    (h : Draining start p ks ps) (m : Moves allow p q) : ∃ ks ps, Draining start q ks ps := by
  obtain ⟨emitted, stopped, unsaved, keylogs, taken, written, saved⟩ := h
  cases m with
  | stay | deadline | cancel =>
    exact ⟨ks, ps, emitted, stopped, unsaved, keylogs, taken, written, saved⟩
  | accept packet =>
    refine ⟨ks, ps, emitted, stopped, fun r => ⟨(unsaved r).1, ?_⟩, keylogs, taken, written, saved⟩
    exact (unsaved r).2.trans ⟨[packet], by simp⟩
  | acceptKeylog k =>
    refine ⟨ks, ps, emitted, stopped, unsaved, ?_, taken, written, saved⟩
    exact keylogs.trans ⟨[k], by simp⟩
  | take packet rest running head =>
    have at_ : p.serve = .drainPackets := running.resolve_left stopped
    refine ⟨ks, ps, emitted, stopped, fun r => ⟨(unsaved r).1, ?_⟩, keylogs, ?_, written, saved⟩
    · simpa [head] using (unsaved r).2
    · exact fun r => absurd at_ r
  | save running | keylog _ _ running | ctxDone running => exact absurd running stopped
  | drainedPackets running empty =>
    have pending := (unsaved (by simp [running])).2
    refine ⟨ks, ps, emitted, by simp, fun _ => unsaved (by simp [running]), keylogs, ?_, by simp,
      by simp⟩
    intro _ _
    simpa [empty] using pending
  | drainKeylog k rest running head =>
    obtain ⟨rfl, pending⟩ := unsaved (by simp [running])
    refine ⟨ks ++ [k], [], by simp [emitted], stopped, fun _ => ⟨rfl, pending⟩, ?_, taken, ?_,
      saved⟩
    · simpa [head] using keylogs
    · simp [running]
  | drainedKeylogs running empty =>
    refine ⟨ks, ps, emitted, by simp, fun _ => unsaved (by simp [running]), keylogs, ?_, ?_, by simp⟩
    · exact fun _ _ => taken (by simp [running]) (by simp [running])
    · intro _
      simpa [empty] using keylogs
  | finish running =>
    obtain ⟨rfl, -⟩ := unsaved (by simp [running])
    refine ⟨ks, p.buffer, by simp [emitted], by simp, by simp, keylogs, by simp, ?_, ?_⟩
    · exact fun _ => written (.inl running)
    · exact fun _ => taken (by simp [running]) (by simp [running])

theorem Draining.moves {start p q : Places} {ks : List Bytes} {ps : List TcPacket}
    (h : Draining start p ks ps) (ms : Relation.ReflTransGen (Moves allow) p q) :
    ∃ ks ps, Draining start q ks ps := by
  induction ms with
  | refl => exact ⟨ks, ps, h⟩
  | tail _ m ih =>
    obtain ⟨_, _, h⟩ := ih
    exact h.move m

/-! ## Runs of the writer -/

/-- `t` can follow `s` in a run, whatever the schedule. -/
def Follows (s t : PcapWriter) : Prop :=
  Relation.ReflTransGen ((pcapWriter neverFails).Next fun _ _ => True) s t

theorem reachable_inv {pw : PcapWriter} (h : (pcapWriter neverFails).Reachable pw) : Inv pw :=
  (reachable_refines (fun _ => True) (fun _ _ _ _ => trivial) h).1

theorem reachable_moves {pw : PcapWriter} (h : (pcapWriter neverFails).Reachable pw) :
    Relation.ReflTransGen (Moves fun _ => True) newPcapWriter.places pw.places :=
  (reachable_refines (fun _ => True) (fun _ _ _ _ => trivial) h).2

theorem Follows.moves {s t : PcapWriter} (inv : Inv s) (h : Follows s t) :
    Relation.ReflTransGen (Moves fun _ => True) s.places t.places :=
  (steps_refine (fun _ _ _ _ => trivial) inv h).2

theorem reachable_step {s t : PcapWriter} {a : Act} (h : (pcapWriter neverFails).Reachable s)
    (moved : step neverFails s a = some t) : Refines (fun _ => True) s t :=
  step_refines (reachable_inv h) (fun _ => trivial) moved

theorem ctxDone_places {s t : PcapWriter} (moved : step neverFails s .ctxDone = some t) :
    t.places = { s.places with serve := .drainPackets } := by
  cases (stepped_of_step moved).2
  rfl

/-- The order of the file. (a) Before the cancellation and the grace deadline, every packet
has a DSB before it. (b) The DSB of a line that is taken out comes next, before the packets
that are accepted and not yet emitted, which are those of the buffer and the channel. (c) A
shutdown emits lines, among them all queued ones, and only then packets. -/
theorem file_order :
    (∀ pw, (pcapWriter neverFails).Reachable pw → pw.cancelled = false →
      pw.deadlinePassed = false → ∀ pre packet post,
        pw.writer.blocks = pre ++ .packet packet :: post → lines pre ≠ []) ∧
    (∀ s a t u k, (pcapWriter neverFails).Reachable s → step neverFails s a = some t →
      s.keylogChan = k :: t.keylogChan → Follows t u →
        s.accepted = packets s.writer.blocks ++ (s.tcPackets ++ s.packetChan) ∧
        ∃ rest, u.writer.blocks = s.writer.blocks ++ .dsb k :: rest) ∧
    ∀ s t u, (pcapWriter neverFails).Reachable s → step neverFails s .ctxDone = some t →
      Follows t u → ∃ ks ps,
        u.writer.blocks = s.writer.blocks ++ ks.map .dsb ++ ps.map .packet ∧
        (ps ≠ [] ∨ u.serve = .returned → s.keylogChan <+: ks) ∧
        (u.serve = .returned → s.tcPackets ++ s.packetChan <+: ps) := by
  refine ⟨?_, ?_, ?_⟩
  · intro pw h running early pre packet post split
    have ms := reachable_moves h
    have at_ : pw.places.serve = .select := by
      by_contra left
      have cancelled : pw.cancelled = true := run_invariant .move cancelled_new ms left
      simp [running] at cancelled
    have led : Led pw.places := run_invariant .move led_new ms
    exact led.before at_ early split
  · intro s a t u k h moved dequeued after
    obtain ⟨inv, m⟩ := reachable_step h moved
    have conserved : Conserved s.places := run_invariant .move conserved_new (reachable_moves h)
    refine ⟨by simpa [PcapWriter.places] using conserved.packets, ?_⟩
    obtain ⟨rest, eq⟩ := (dsb_next m dequeued).trans (emitted_head (after.moves inv))
    exact ⟨rest, by simpa [PcapWriter.places] using eq.symm⟩
  · intro s t u h moved after
    have begun : Draining s.places t.places [] [] := ctxDone_places moved ▸ Draining.start
    obtain ⟨ks, ps, d⟩ := begun.moves (after.moves (reachable_step h moved).1)
    refine ⟨ks, ps, d.emitted, fun late => d.written (.inr ?_), d.saved⟩
    -- packets are saved in the last step of the shutdown
    by_contra running
    simp [(d.unsaved running).1] at late
    exact running late

/-- A packet waits in the buffer for its line; another packet and another line are still
queued when the writer is closed. -/
theorem file_order_run :
    (∃ pw, (pcapWriter neverFails).Reachable pw ∧ ∃ pre packet post,
      pw.writer.blocks = pre ++ .packet packet :: post ∧ lines pre ≠ []) ∧
    (∃ s u k rest, (pcapWriter neverFails).Reachable s ∧ s.tcPackets ≠ [] ∧ Follows s u ∧
      u.writer.blocks = s.writer.blocks ++ .dsb k :: rest) ∧
    ∃ s u ks ps, (pcapWriter neverFails).Reachable s ∧ Follows s u ∧ s.keylogChan ≠ [] ∧
      u.serve = .returned ∧ s.keylogChan <+: ks ∧ s.tcPackets ++ s.packetChan <+: ps ∧
      u.writer.blocks = s.writer.blocks ++ ks.map .dsb ++ ps.map .packet := by
  refine ⟨?_, ?_, ?_⟩
  · obtain ⟨pw, ran, running, early, eq⟩ :
        ∃ pw ∈ (pcapWriter neverFails).run (captureAndClose.take 5), pw.cancelled = false ∧
          pw.deadlinePassed = false ∧
          pw.writer.blocks = [.dsb [7]] ++ .packet ⟨⟨10, 1, 1, 0⟩, [1]⟩ :: [] := by decide
    have reached := Machine.reachable_of_run ran
    exact ⟨pw, reached, _, _, _, eq, file_order.1 pw reached running early _ _ _ eq⟩
  · obtain ⟨s, ran, waiting, t, moved, dequeued⟩ :
        ∃ s ∈ (pcapWriter neverFails).run (captureAndClose.take 4), s.tcPackets ≠ [] ∧
          ∃ t ∈ step neverFails s .recvKeylog, s.keylogChan = [7] :: t.keylogChan := by decide
    have reached := Machine.reachable_of_run ran
    obtain ⟨-, rest, eq⟩ := file_order.2.1 s .recvKeylog t t [7] reached moved dequeued .refl
    exact ⟨s, t, [7], rest, reached, waiting, .single ⟨.recvKeylog, trivial, moved⟩, eq⟩
  · obtain ⟨s, ran, queued, t, moved, u, rest, served⟩ :
        ∃ s ∈ (pcapWriter neverFails).run (captureAndClose.take 12), s.keylogChan ≠ [] ∧
          ∃ t ∈ step neverFails s .ctxDone,
            ∃ u ∈ (pcapWriter neverFails).runFrom t (List.replicate 5 .drain),
              u.serve = .returned := by decide
    have reached := Machine.reachable_of_run ran
    have after : Follows t u := Machine.steps_of_runFrom rest
    obtain ⟨ks, ps, eq, hk, hp⟩ := file_order.2.2 s t u reached moved after
    exact ⟨s, u, ks, ps, reached, .head ⟨.ctxDone, trivial, moved⟩ after, queued, served,
      hk (.inr served), hp served, eq⟩

end ECapture.Pcap
