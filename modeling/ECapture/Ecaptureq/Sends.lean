import ECapture.Ecaptureq.Effect

/-!
# Sends on the channels of the clients

The hub closes the channel of a client that unregisters or is too slow, while the handler still
replays log lines to it, or `writePump`, which alone receives from it, sends its heartbeats. Both
sends panic on the closed channel, and a heartbeat to a full channel is never sent. `Guarded` is
what a schedule has to avoid.
-/

namespace ECapture.Ecaptureq
open Library

variable {marshals : Bytes → Bool}

/-! ## What is to hold -/

/-- `writePump` waits in `Heartbeat` for room that only it could make. -/
def Client.Stuck (c : Client) : Prop := c.writePump = .heartbeat ∧ c.send.cap ≤ c.send.items.length

instance (c : Client) : Decidable c.Stuck := inferInstanceAs (Decidable (_ ∧ _))

/-- No goroutine has sent on a closed channel or closed one twice, and none is stuck. -/
def SendsSafe (s : Server) : Prop := s.panicked = none ∧ ∀ c ∈ s.clients, ¬ c.Stuck

instance (s : Server) : Decidable (SendsSafe s) := inferInstanceAs (Decidable (_ ∧ _))

def Server.AtClient (c : Nat) (P : Client → Prop) (s : Server) : Prop := ∀ cl ∈ s.clients[c]?, P cl

instance (c : Nat) (P : Client → Prop) [DecidablePred P] (s : Server) : Decidable (s.AtClient c P) :=
  inferInstanceAs (Decidable (∀ cl ∈ s.clients[c]?, P cl))

/-- A broadcast leaves room for a heartbeat that is under way; the hub closes a full channel only
when nobody sends on it. -/
def Client.TakesBroadcast (c : Client) : Prop :=
  if c.send.items.length < c.send.cap then
    c.writePump = .heartbeat → c.send.items.length + 1 < c.send.cap
  else c.handler = .serving ∧ c.writePump ≠ .heartbeat

instance (c : Client) : Decidable c.TakesBroadcast := inferInstanceAs (Decidable (ite _ _ _))

/-- `writePump` goes into `Heartbeat` only while its channel is open and has room, the hub does not
close the channel under a heartbeat, and its broadcasts do not get in the way of other sends. -/
def Guarded (s : Server) : Act → Prop
  | .client c .start => s.AtClient c fun cl => cl.send.HasRoom
  | .client c .tick => s.AtClient c fun cl => cl.send.HasRoom
  | .unregister c => c ∈ s.registered → s.AtClient c fun cl => cl.writePump ≠ .heartbeat
  | .visit c => s.AtClient c Client.TakesBroadcast
  | _ => True

instance (s : Server) : (a : Act) → Decidable (Guarded s a)
  | .client c .start => inferInstanceAs (Decidable (s.AtClient c fun cl => cl.send.HasRoom))
  | .client c .tick => inferInstanceAs (Decidable (s.AtClient c fun cl => cl.send.HasRoom))
  | .unregister c => inferInstanceAs (Decidable (c ∈ s.registered → s.AtClient c _))
  | .visit c => inferInstanceAs (Decidable (s.AtClient c Client.TakesBroadcast))
  | .client _ .snapshot => isTrue trivial
  | .client _ .replay => isTrue trivial
  | .client _ .heartbeat => isTrue trivial
  | .client _ .receive => isTrue trivial
  | .client _ (.sent _) => isTrue trivial
  | .client _ (.read _) => isTrue trivial
  | .connect => isTrue trivial
  | .register _ => isTrue trivial
  | .writeLog _ _ => isTrue trivial
  | .writeEvent _ _ => isTrue trivial
  | .finish => isTrue trivial

/-! ## The invariant -/

/-- Until its handler serves, the channel of a client is open and its pumps have not started; and a
heartbeat that is under way has room. -/
structure Client.Good (c : Client) : Prop where
  early : c.handler ≠ .serving → c.send.closed = false ∧ c.writePump = .idle ∧ c.readPump = .idle
  beating : c.writePump = .heartbeat → c.send.HasRoom

theorem good_newClient : newClient.Good := ⟨fun _ => ⟨rfl, rfl, rfl⟩, nofun⟩

variable {c c' : Client} {logbuff : List Message} {m : Client.Move}

theorem Client.Good.serving_of_writePump {pc : WritePumpPc} (good : c.Good)
    (here : c.writePump = pc) (started : pc ≠ .idle) : c.handler = .serving := by
  by_contra early
  exact started (here.symm.trans (good.early early).2.1)

theorem Client.Good.serving_of_readPump {pc : ReadPumpPc} (good : c.Good)
    (here : c.readPump = pc) (started : pc ≠ .idle) : c.handler = .serving := by
  by_contra early
  exact started (here.symm.trans (good.early early).2.2)

/-- The sends of a client's own goroutines find its channel open. -/
theorem Client.Good.open_ (good : c.Good)
    (sending : (∃ log rest, c.handler = .replaying (log :: rest)) ∨ c.writePump = .heartbeat) :
    c.send.closed = false := by
  rcases sending with ⟨log, rest, here⟩ | here
  · exact (good.early (by rw [here]; nofun)).1
  · exact (good.beating here).1

/-- A move keeps the invariant, if `writePump` does not begin a heartbeat without room. -/
theorem Client.Good.move (good : c.Good) (room : m = .start ∨ m = .tick → c.send.HasRoom)
    (moved : Client.Moved logbuff c m c') : c'.Good := by
  cases moved with
  | snapshot here => exact ⟨fun _ => good.early (by rw [here]; nofun), good.beating⟩
  | replay here =>
    have waiting := good.early (by rw [here]; nofun)
    exact ⟨fun _ => waiting, fun beats => absurd (waiting.2.1.symm.trans beats) nofun⟩
  | start => exact ⟨fun h => absurd rfl h, fun _ => room (.inl rfl)⟩
  | heartbeat here =>
    exact ⟨fun h => absurd (good.serving_of_writePump here nofun) h, nofun⟩
  | receive here =>
    exact ⟨fun h => absurd (good.serving_of_writePump here nofun) h, nofun⟩
  | receiveClosed here =>
    exact ⟨fun h => absurd (good.serving_of_writePump here nofun) h, nofun⟩
  | sent ok here =>
    refine ⟨fun h => absurd (good.serving_of_writePump here nofun) h, fun beats => ?_⟩
    cases ok <;> cases beats
  | tick here =>
    exact ⟨fun h => absurd (good.serving_of_writePump here nofun) h, fun _ => room (.inr rfl)⟩
  | read ok here =>
    exact ⟨fun h => absurd (good.serving_of_readPump here nofun) h, good.beating⟩

/-- What guarded runs keep, besides the invariant of all runs. -/
structure Sound (s : Server) : Prop where
  sane : Sane s
  calm : s.panicked = none
  good : ∀ cl ∈ s.clients, cl.Good

theorem sound_new : Sound newServer := ⟨sane_new, rfl, nofun⟩

theorem good_set {clients : List Client} {i : Nat} (good : ∀ cl ∈ clients, cl.Good) (here : c.Good) :
    ∀ cl ∈ clients.set i c, cl.Good := by
  intro cl mem
  rcases List.mem_or_eq_of_mem_set mem with mem | rfl
  · exact good cl mem
  · exact here

/-- A guarded step keeps the invariant. -/
theorem Sound.step {s t : Server} {a : Act} (sound : Sound s) (guarded : Guarded s a)
    (moved : (ecaptureq marshals).step s a = some t) : Sound t := by
  have sane := sound.sane.step moved
  obtain ⟨calm, effect⟩ := sound.sane.effect moved
  have goods : ∀ {i : Nat} {cl : Client}, s.clients[i]? = some cl → cl.Good :=
    fun found => sound.good _ (List.mem_of_getElem? found)
  cases effect with
  | connect =>
    refine ⟨sane, calm, fun cl mem => ?_⟩
    rcases List.mem_append.mp mem with mem | last
    · exact sound.good cl mem
    · rw [List.mem_singleton.mp last]
      exact good_newClient
  | register => exact ⟨sane, calm, good_set sound.good ⟨fun _ => ⟨rfl, rfl, rfl⟩, nofun⟩⟩
  | move found done =>
    refine ⟨sane, calm, good_set sound.good ((goods found).move ?_ done)⟩
    rintro (rfl | rfl) <;> exact guarded _ found
  | panic found closed sending =>
    rw [(goods found).open_ sending] at closed
    cases closed
  | unregister found hub leaving mem =>
    have serving := (goods found).serving_of_readPump leaving nofun
    have quiet := guarded mem _ found
    exact ⟨sane, calm, good_set sound.good
      ⟨fun h => absurd serving h, fun beats => absurd beats quiet⟩⟩
  | unregisterAgain found leaving =>
    have serving := (goods found).serving_of_readPump leaving nofun
    exact ⟨sane, calm, good_set sound.good ⟨fun h => absurd serving h, (goods found).beating⟩⟩
  | visit found hub mem room =>
    have guard : Client.TakesBroadcast _ := guarded _ found
    rw [Client.TakesBroadcast, if_pos room.2] at guard
    refine ⟨sane, calm, good_set sound.good ⟨(goods found).early, fun beats => ⟨room.1, ?_⟩⟩⟩
    show (_ ++ [_]).length < _
    rw [List.length_append]
    exact guard beats
  | evict found hub mem full =>
    have guard : Client.TakesBroadcast _ := guarded _ found
    rw [Client.TakesBroadcast, if_neg (Nat.not_lt.mpr full)] at guard
    exact ⟨sane, calm, good_set sound.good
      ⟨fun h => absurd guard.1 h, fun beats => absurd beats guard.2⟩⟩
  | keep => exact ⟨sane, calm, sound.good⟩
  | writeLog => exact ⟨sane, calm, sound.good⟩
  | loseLog => exact ⟨sane, calm, sound.good⟩
  | writeEvent => exact ⟨sane, calm, sound.good⟩
  | loseEvent => exact ⟨sane, calm, sound.good⟩
  | finish => exact ⟨sane, calm, sound.good⟩

/-- In a run of guarded steps no send panics, no channel is closed twice, and no `writePump` waits
for itself. -/
theorem sendsSafe_of_guarded {s : Server} (reached : (ecaptureq marshals).ReachableBy Guarded s) :
    SendsSafe s := by
  have sound := reached.invariant sound_new fun _ _ _ sound guarded moved =>
    sound.step guarded moved
  refine ⟨sound.calm, fun cl mem stuck => ?_⟩
  have room := (sound.good cl mem).beating stuck.1
  exact absurd room.2 (Nat.not_lt.mpr stuck.2)

/-- A client connects. -/
def joins : List Act :=
  [.connect, .register 0, .client 0 .snapshot, .client 0 .start]

/-- It is sent a heartbeat and an event, and leaves. -/
def quietRun : List Act := joins ++
  [.client 0 .heartbeat, .client 0 .receive, .writeEvent [1] true, .visit 0, .finish,
    .client 0 (.sent true), .client 0 .receive, .client 0 (.read false), .unregister 0]

theorem sendsSafe_quietRun :
    ∃ s, (ecaptureq fun _ => true).ReachableBy Guarded s ∧
      (∃ c ∈ s.clients, c.send.closed ∧ c.delivered = [.heartbeat 0, .event [1]]) ∧ SendsSafe s := by
  have ran : ∃ s ∈ (ecaptureq fun _ => true).runGuarded Guarded quietRun,
      ∃ c ∈ s.clients, c.send.closed ∧ c.delivered = [.heartbeat 0, .event [1]] := by decide
  obtain ⟨s, ran, left⟩ := ran
  have reached := Machine.reachableBy_of_runGuarded ran
  exact ⟨s, reached, left, sendsSafe_of_guarded reached⟩

/-- The connection is lost, and the timer fires before `writePump` sees the closed channel. -/
def lostRun : List Act := joins ++
  [.client 0 .heartbeat, .client 0 (.read false), .unregister 0, .client 0 .tick,
    .client 0 .heartbeat]

def broadcasts (n : Nat) : List Act :=
  (List.replicate n [.writeEvent [1] true, .visit 0, .finish]).flatten

/-- Events fill the channel before the client's log lines are replayed to it, and one more closes
it. -/
def slowReplayRun : List Act :=
  [.writeLog [2] true, .connect, .register 0, .client 0 .snapshot] ++ broadcasts 257 ++
    [.client 0 .replay]

/-- Events fill the channel before `writePump` starts. -/
def slowStartRun : List Act :=
  [.connect, .register 0, .client 0 .snapshot] ++ broadcasts 256 ++ [.client 0 .start]

theorem not_sendsSafe_of_panicked {s : Server} {p : Panic} (panicked : s.panicked = some p) :
    ¬ SendsSafe s := by
  intro safe
  rw [safe.1] at panicked
  cases panicked

theorem sends_unsafe :
    (∃ s, (ecaptureq fun _ => true).run lostRun = some s ∧
      s.panicked = some .sendOnClosed ∧ ¬ SendsSafe s) ∧
    (∃ s, (ecaptureq fun _ => true).run slowReplayRun = some s ∧
      s.panicked = some .sendOnClosed ∧ ¬ SendsSafe s) ∧
    ∃ s, (ecaptureq fun _ => true).run slowStartRun = some s ∧
      (∃ c ∈ s.clients, c.Stuck) ∧ ¬ SendsSafe s := by
  refine ⟨?_, ?_, ?_⟩
  · have ran : ∃ s ∈ (ecaptureq fun _ => true).run lostRun, s.panicked = some .sendOnClosed := by
      decide +kernel
    obtain ⟨s, ran, panicked⟩ := ran
    exact ⟨s, ran, panicked, not_sendsSafe_of_panicked panicked⟩
  · have ran : ∃ s ∈ (ecaptureq fun _ => true).run slowReplayRun,
        s.panicked = some .sendOnClosed := by decide +kernel
    obtain ⟨s, ran, panicked⟩ := ran
    exact ⟨s, ran, panicked, not_sendsSafe_of_panicked panicked⟩
  · have ran : ∃ s ∈ (ecaptureq fun _ => true).run slowStartRun, ∃ c ∈ s.clients, c.Stuck := by
      decide +kernel
    obtain ⟨s, ran, c, mem, stuck⟩ := ran
    exact ⟨s, ran, ⟨c, mem, stuck⟩, fun safe => safe.2 c mem stuck⟩

end ECapture.Ecaptureq
