import ECapture.Ecaptureq.Effect

/-!
# Log lines

`WriteLog` keeps the first lines for clients to come and broadcasts the later ones to those that are
there. A client takes what is kept after it has registered. A line that is kept after that never
gets to it, and a broadcast before the replay is over comes between the lines kept. `Timely` says
when neither happens.
-/

namespace ECapture.Ecaptureq
open Library

variable {marshals : Bytes → Bool}

/-- The log lines among messages. -/
def linesOf (messages : List Message) : List Bytes :=
  messages.filterMap fun
    | .runLog data => some data
    | _ => none

@[simp] theorem linesOf_nil : linesOf [] = [] := rfl

@[simp] theorem linesOf_append (a b : List Message) : linesOf (a ++ b) = linesOf a ++ linesOf b :=
  List.filterMap_append

@[simp] theorem linesOf_runLog (data : Bytes) : linesOf [.runLog data] = [data] := rfl
@[simp] theorem linesOf_heartbeat (count : Nat) : linesOf [.heartbeat count] = [] := rfl
@[simp] theorem linesOf_event (payload : Bytes) : linesOf [.event payload] = [] := rfl

theorem linesOf_cons (m : Message) (ms : List Message) :
    linesOf (m :: ms) = linesOf [m] ++ linesOf ms :=
  linesOf_append [m] ms

/-- Everything that was put into the channel of the client. -/
def Client.received (c : Client) : List Message := c.delivered ++ c.send.items

/-- The lines that the handler has yet to replay. -/
def Client.toReplay (c : Client) : List Message :=
  match c.handler with
  | .replaying rest => rest
  | _ => []

/-! ## Lines in time -/

/-- The hub is ready for every line that is broadcast to it. -/
def HubReady : Act → Prop
  | .writeLog _ ready => ready = true
  | _ => True

/-- While client `c` is registered, lines that do not fit into the buffer come after its replay, and
lines that do come before it takes what is kept. -/
def Timely (marshals : Bytes → Bool) (c : Nat) (s : Server) : Act → Prop
  | .writeLog data _ => c ∈ s.registered → marshals data = true ∧
      ∀ cl ∈ s.clients[c]?,
        if s.logbuff.length ≤ logBuffLen then cl.handler = .registered
        else cl.handler ≠ .registered ∧ cl.toReplay = []
  | _ => True

instance : (a : Act) → Decidable (HubReady a)
  | .writeLog _ ready => inferInstanceAs (Decidable (ready = true))
  | .connect => isTrue trivial
  | .register _ => isTrue trivial
  | .client _ _ => isTrue trivial
  | .unregister _ => isTrue trivial
  | .writeEvent _ _ => isTrue trivial
  | .visit _ => isTrue trivial
  | .finish => isTrue trivial

instance (c : Nat) (s : Server) : (a : Act) → Decidable (Timely marshals c s a)
  | .writeLog data _ => inferInstanceAs (Decidable (c ∈ s.registered → marshals data = true ∧
      ∀ cl ∈ s.clients[c]?,
        if s.logbuff.length ≤ logBuffLen then cl.handler = .registered
        else cl.handler ≠ .registered ∧ cl.toReplay = []))
  | .connect => isTrue trivial
  | .register _ => isTrue trivial
  | .client _ _ => isTrue trivial
  | .unregister _ => isTrue trivial
  | .writeEvent _ _ => isTrue trivial
  | .visit _ => isTrue trivial
  | .finish => isTrue trivial

/-! ## Where the lines are -/

/-- The message that the hub is about to put into the channel of client `c`. -/
def HubPc.pending (c : Nat) : HubPc → List Message
  | .select => []
  | .broadcasting message todo => if c ∈ todo then [message] else []

/-- Where the lines for a client are: still in the buffer, or in its channel, in its handler and in
the hub, in this order. -/
def Tracks (c : Nat) (s : Server) (cl : Client) (lines : List Bytes) : Prop :=
  (cl.handler = .registered ∧ linesOf cl.received = [] ∧ linesOf (s.hub.pending c) = [] ∧
    linesOf s.logbuff = lines) ∨
  (cl.handler ≠ .registered ∧
    linesOf (cl.received ++ cl.toReplay ++ s.hub.pending c) = lines ∧
    (linesOf cl.toReplay = [] ∨ linesOf (s.hub.pending c) = []))

/-- For client `c`: `kept` are the lines kept when the client registered, and `n` is the number of
lines written until then. -/
structure Tracked (c n : Nat) (kept : List Bytes) (s : Server) : Prop where
  there : ∃ cl, s.clients[c]? = some cl ∧ cl.handler ≠ .connecting ∧
    (c ∈ s.registered → Tracks c s cl (kept ++ s.written.drop n))
  counted : n ≤ s.written.length

variable {c n : Nat} {kept lines : List Bytes} {s t : Server} {cl cl' : Client}
  {m : Client.Move}

/-- A move that neither takes the kept lines nor replays one leaves the lines of a client where they
are. -/
theorem lines_moved (moved : Client.Moved s.logbuff cl m cl') (snapshot : m ≠ .snapshot)
    (replay : m ≠ .replay) : linesOf cl'.received = linesOf cl.received ∧
      cl'.toReplay = cl.toReplay ∧ (cl'.handler = .registered ↔ cl.handler = .registered) := by
  cases moved with
  | snapshot => exact absurd rfl snapshot
  | replay => exact absurd rfl replay
  | start here => simp [Client.received, Client.toReplay, here]
  | heartbeat => simp [Client.received, Client.push, Client.toReplay]
  | receive here items => simp [Client.received, Client.toReplay, items]
  | receiveClosed => exact ⟨rfl, rfl, Iff.rfl⟩
  | sent => exact ⟨rfl, rfl, Iff.rfl⟩
  | tick => exact ⟨rfl, rfl, Iff.rfl⟩
  | read => exact ⟨rfl, rfl, Iff.rfl⟩

/-- A move of the client itself. -/
theorem Tracks.moved (tracks : Tracks c s cl lines) (moved : Client.Moved s.logbuff cl m cl') :
    Tracks c s cl' lines := by
  by_cases snapshot : m = .snapshot
  · subst snapshot
    cases moved with
    | snapshot here =>
      rcases tracks with ⟨-, empty, quiet, kept⟩ | ⟨taken, -⟩
      · refine .inr ⟨nofun, ?_, .inr quiet⟩
        rw [Client.received, linesOf_append, List.append_eq_nil_iff] at empty
        simp [Client.received, Client.toReplay, quiet, kept, empty]
      · exact absurd here taken
  by_cases replay : m = .replay
  · subst replay
    cases moved with
    | @replay log rest here room =>
      rcases tracks with ⟨not_, -⟩ | ⟨-, eq, order⟩
      · exact absurd (here.symm.trans not_) nofun
      · rw [Client.toReplay, here] at eq order
        refine .inr ⟨nofun, ?_, ?_⟩
        · simpa [Client.received, Client.push, Client.toReplay, linesOf_cons log rest] using eq
        · refine order.imp_left fun none_ => ?_
          rw [linesOf_cons] at none_
          exact (List.append_eq_nil_iff.mp none_).2
  · obtain ⟨received, toReplay, handler⟩ := lines_moved moved snapshot replay
    rcases tracks with ⟨here, empty, quiet, kept⟩ | ⟨taken, eq, order⟩
    · exact .inl ⟨handler.mpr here, received.trans empty, quiet, kept⟩
    · refine .inr ⟨fun h => taken (handler.mp h), ?_, toReplay ▸ order⟩
      rw [← eq, toReplay]
      simp only [linesOf_append, received]

theorem handler_moved (early : cl.handler ≠ .connecting)
    (moved : Client.Moved s.logbuff cl m cl') : cl'.handler ≠ .connecting := by
  cases moved <;> first | exact early | nofun

/-- A step that is no business of the client. -/
theorem Tracked.frame (tracked : Tracked c n kept s) (client : t.clients[c]? = s.clients[c]?)
    (registered : c ∈ t.registered → c ∈ s.registered)
    (pending : linesOf (t.hub.pending c) = linesOf (s.hub.pending c))
    (logbuff : t.logbuff = s.logbuff) (written : t.written = s.written) : Tracked c n kept t := by
  obtain ⟨⟨cl, found, early, tracks⟩, counted⟩ := tracked
  refine ⟨⟨cl, client.trans found, early, fun mem => ?_⟩, written ▸ counted⟩
  have before := tracks (registered mem)
  simp only [Tracks, linesOf_append] at before ⊢
  rwa [pending, logbuff, written]

/-- A step of the client. -/
theorem Tracked.set (tracked : Tracked c n kept s) (found : s.clients[c]? = some cl)
    (clients : t.clients = s.clients.set c cl') (written : t.written = s.written)
    (early : cl.handler ≠ .connecting → cl'.handler ≠ .connecting)
    (registered : c ∈ t.registered → c ∈ s.registered)
    (tracks : c ∈ t.registered → ∀ lines, Tracks c s cl lines → Tracks c t cl' lines) :
    Tracked c n kept t := by
  obtain ⟨⟨cl₀, found₀, early₀, tracks₀⟩, counted⟩ := tracked
  obtain rfl := Option.some.inj (found.symm.trans found₀)
  have inside := (List.getElem?_eq_some_iff.mp found).1
  refine ⟨⟨cl', ?_, early early₀, fun mem => ?_⟩, written ▸ counted⟩
  · rw [clients, List.getElem?_set_self inside]
  · rw [written]
    exact tracks mem _ (tracks₀ (registered mem))

theorem set_other {clients : List Client} {d : Nat} (other : d ≠ c) :
    (clients.set d cl)[c]? = clients[c]? :=
  List.getElem?_set_ne other

@[simp] theorem received_push (message : Message) (cl : Client) :
    (cl.push message).received = cl.received ++ [message] :=
  (List.append_assoc _ _ _).symm

@[simp] theorem toReplay_push (message : Message) (cl : Client) :
    (cl.push message).toReplay = cl.toReplay := rfl

/-- The hub puts its message into the channel of the client. -/
theorem Tracks.push {message : Message} {todo : List Nat} (tracks : Tracks c s cl lines)
    (hub : s.hub = .broadcasting message todo) (mem : c ∈ todo)
    (after : t.hub.pending c = []) (logbuff : t.logbuff = s.logbuff) :
    Tracks c t (cl.push message) lines := by
  have pending : s.hub.pending c = [message] := by
    rw [hub, HubPc.pending, if_pos mem]
  rw [Tracks, pending] at tracks
  rw [Tracks, after, logbuff]
  rcases tracks with ⟨here, empty, quiet, kept⟩ | ⟨taken, eq, order⟩
  · refine .inl ⟨here, ?_, rfl, kept⟩
    rw [received_push, linesOf_append, empty, quiet]
    rfl
  · refine .inr ⟨taken, ?_, .inr rfl⟩
    rw [← eq]
    -- the message passes the lines to replay: one of the two has no lines
    simp only [received_push, toReplay_push, linesOf_append]
    rcases order with none_ | none_ <;> simp only [none_, List.append_nil, linesOf_nil]

theorem pending_filter {message : Message} {todo : List Nat} {d : Nat} (other : d ≠ c) :
    (HubPc.broadcasting message (todo.filter (· ≠ d))).pending c =
      (HubPc.broadcasting message todo).pending c := by
  simp [HubPc.pending, Ne.symm other]

/-- A line is written. -/
theorem Tracked.write {data : Bytes} (tracked : Tracked c n kept s)
    (clients : t.clients = s.clients) (registered : t.registered = s.registered)
    (written : t.written = s.written ++ [data])
    (tracks : c ∈ s.registered → ∀ cl ∈ s.clients[c]?, ∀ lines, Tracks c s cl lines →
      Tracks c t cl (lines ++ [data])) : Tracked c n kept t := by
  obtain ⟨⟨cl, found, early, tracks₀⟩, counted⟩ := tracked
  refine ⟨⟨cl, clients ▸ found, early, fun mem => ?_⟩, ?_⟩
  · rw [registered] at mem
    rw [written, List.drop_append_of_le_length counted, ← List.append_assoc]
    exact tracks mem cl found _ (tracks₀ mem)
  · rw [written, List.length_append]
    omega

theorem Tracked.step {a : Act} (sane : Sane s) (tracked : Tracked c n kept s) (ready : HubReady a)
    (timely : Timely marshals c s a) (moved : (ecaptureq marshals).step s a = some t) :
    Tracked c n kept t := by
  cases (sane.effect moved).2 with
  | connect =>
    obtain ⟨cl, found, -⟩ := tracked.there
    refine tracked.frame ?_ id rfl rfl rfl
    exact List.getElem?_append_left (List.getElem?_eq_some_iff.mp found).1
  | @register d found hub =>
    have other : d ≠ c := by
      rintro rfl
      obtain ⟨cl, there, early, -⟩ := tracked.there
      obtain rfl := Option.some.inj (found.symm.trans there)
      exact early rfl
    refine tracked.frame (set_other other) (fun mem => ?_) rfl rfl rfl
    exact (List.mem_cons.mp mem).resolve_left (Ne.symm other)
  | @move d cl cl' m found done =>
    by_cases same : d = c
    · subst same
      exact tracked.set found rfl rfl (fun early => handler_moved early done) id
        fun _ lines tracks => tracks.moved done
    · exact tracked.frame (set_other same) id rfl rfl rfl
  | panic => exact tracked.frame rfl id rfl rfl rfl
  | @unregister d cl found hub leaving mem =>
    by_cases same : d = c
    · subst same
      have out : ∀ {P : Prop}, d ∈ s.without d → P := fun mem => absurd rfl (mem_without.mp mem).2
      exact tracked.set found rfl rfl id out fun mem => out mem
    · exact tracked.frame (set_other same) (fun mem => (mem_without.mp mem).1) rfl rfl rfl
  | @unregisterAgain d cl found leaving out =>
    by_cases same : d = c
    · subst same
      exact tracked.set found rfl rfl id id fun mem => absurd mem out
    · exact tracked.frame (set_other same) id rfl rfl rfl
  | keep room =>
    refine tracked.write rfl rfl rfl fun mem cl found lines tracks => ?_
    obtain ⟨valid, there⟩ := timely mem
    have waiting := there cl found
    rw [if_pos room] at waiting
    rcases tracks with ⟨here, empty, quiet, kept⟩ | ⟨taken, -⟩
    · refine .inl ⟨here, empty, quiet, ?_⟩
      rw [if_pos valid, linesOf_append, kept]
      rfl
    · exact absurd waiting taken
  | writeLog full hub =>
    refine tracked.write rfl rfl rfl fun mem cl found lines tracks => ?_
    obtain ⟨valid, there⟩ := timely mem
    have served := there cl found
    rw [if_neg full] at served
    rcases tracks with ⟨here, -⟩ | ⟨taken, eq, -⟩
    · exact absurd here served.1
    · rw [hub, served.2] at eq
      refine .inr ⟨taken, ?_, .inl (by rw [served.2]; rfl)⟩
      rw [served.2, HubPc.pending, if_pos mem, if_pos valid, ← eq]
      simp [HubPc.pending]
  | loseLog full => cases ready
  | writeEvent hub =>
    refine tracked.frame rfl id ?_ rfl rfl
    rw [hub]
    simp only [HubPc.pending]
    split <;> rfl
  | loseEvent => exact tracked
  | @visit d cl message todo found hub mem room =>
    by_cases same : d = c
    · subst same
      refine tracked.set found rfl rfl id id fun _ lines tracks => tracks.push hub mem ?_ rfl
      simp [HubPc.pending]
    · refine tracked.frame (set_other same) id ?_ rfl rfl
      rw [hub, pending_filter same]
  | @evict d cl message todo found hub mem full =>
    by_cases same : d = c
    · subst same
      have out : ∀ {P : Prop}, d ∈ s.without d → P := fun mem => absurd rfl (mem_without.mp mem).2
      exact tracked.set found rfl rfl id out fun mem => out mem
    · refine tracked.frame (set_other same) (fun mem => (mem_without.mp mem).1) ?_ rfl rfl
      rw [hub, pending_filter same]
  | finish hub =>
    refine tracked.frame rfl id ?_ rfl rfl
    rw [hub]
    rfl

/-- The buffer holds the first lines that marshal. -/
structure Kept (marshals : Bytes → Bool) (s : Server) : Prop where
  lines : linesOf s.logbuff = (s.written.filter marshals).take (logBuffLen + 1)
  only : (linesOf s.logbuff).length = s.logbuff.length

theorem Kept.step {a : Act} (sane : Sane s) (kept : Kept marshals s)
    (moved : (ecaptureq marshals).step s a = some t) : Kept marshals t := by
  obtain ⟨lines, only⟩ := kept
  have length : s.logbuff.length = min (logBuffLen + 1) (s.written.filter marshals).length := by
    rw [← only, lines, List.length_take]
  -- a full buffer has its lines already
  have late : ∀ data, ¬ s.logbuff.length ≤ logBuffLen → linesOf s.logbuff =
      ((s.written ++ [data]).filter marshals).take (logBuffLen + 1) := by
    intro data full
    rw [lines, List.filter_append, List.take_append_of_le_length (by omega)]
  cases (sane.effect moved).2 with
  | @keep data ready room =>
    have short : (s.written.filter marshals).length ≤ logBuffLen := by omega
    rw [List.take_of_length_le (by omega)] at lines
    constructor
    · simp only [List.filter_append]
      split
      case isTrue valid =>
        rw [linesOf_append, lines, List.filter_cons_of_pos valid, List.filter_nil,
          List.take_of_length_le (by rw [List.length_append, List.length_singleton]; omega)]
        rfl
      case isFalse invalid =>
        rw [lines, List.filter_cons_of_neg invalid, List.filter_nil, List.append_nil,
          List.take_of_length_le (by omega)]
    · dsimp only
      split
      · rw [linesOf_append, List.length_append, List.length_append, only]
        rfl
      · exact only
  | @writeLog data full => exact ⟨late data full, only⟩
  | @loseLog data full => exact ⟨late data full, only⟩
  | connect => exact ⟨lines, only⟩
  | register => exact ⟨lines, only⟩
  | move => exact ⟨lines, only⟩
  | panic => exact ⟨lines, only⟩
  | unregister => exact ⟨lines, only⟩
  | unregisterAgain => exact ⟨lines, only⟩
  | writeEvent => exact ⟨lines, only⟩
  | loseEvent => exact ⟨lines, only⟩
  | visit => exact ⟨lines, only⟩
  | evict => exact ⟨lines, only⟩
  | finish => exact ⟨lines, only⟩

end ECapture.Ecaptureq
