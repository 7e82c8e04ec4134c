import ECapture.Library.Bytes
import ECapture.Library.Channel
import ECapture.Library.Steps

/-!
# The hub and its clients

`Server`, `Hub` and `Client` of `pkg/ecaptureq`. A connection has three goroutines: its handler
registers the client and replays the stored log lines, then `writePump` sends what is in the
client's channel to the connection and `readPump` waits for the connection to fail. The hub puts
every broadcast into the channels of the registered clients and closes a channel that is full. The
goroutines interleave at their channel operations; a panic in one of them ends the process.

`WriteLog` calls do not overlap. `written` records their lines, and `delivered` what `writePump`
has received, in order.
-/

namespace ECapture.Ecaptureq
open Library

/-- A `LogEntry` in its encoded form; `nothing` is what a failed `proto.Marshal` returns. -/
inductive Message where
  | runLog (data : Bytes)
  | event (payload : Bytes)
  | heartbeat (count : Nat)
  | nothing
  deriving DecidableEq

/-! ## Clients -/

/-- `handleWebSocket`: at the send to `register`, before the loop of `sendLogBuff`, in the loop
with what is left of the lines, and at `<-s.ctx.Done()`. -/
inductive HandlerPc where
  | connecting
  | registered
  | replaying (rest : List Message)
  | serving
  deriving DecidableEq

/-- `writePump`: not started, in `Heartbeat`, at the `select`, in `websocket.Message.Send`. -/
inductive WritePumpPc where
  | idle
  | heartbeat
  | select
  | sending (message : Message)
  | returned
  deriving DecidableEq

/-- `readPump`: not started, in `websocket.Message.Receive`, at the send to `unregister`. -/
inductive ReadPumpPc where
  | idle
  | receiving
  | leaving
  | returned
  deriving DecidableEq

structure Client where
  send : Chan Message
  heartBeatCount : Nat
  handler : HandlerPc
  writePump : WritePumpPc
  readPump : ReadPumpPc
  delivered : List Message
  deriving DecidableEq

def sendCap : Nat := 256

def newClient : Client :=
  { send := .make Message sendCap, heartBeatCount := 0, handler := .connecting, writePump := .idle,
    readPump := .idle, delivered := [] }

namespace Client

/-- Steps of the goroutines of a client that do not meet the hub. -/
inductive Move where
  /-- The handler evaluates `range s.logbuff`. -/
  | snapshot
  | replay
  | start
  | heartbeat
  | receive
  /-- `websocket.Message.Send` returns. -/
  | sent (ok : Bool)
  /-- The `select` takes `hbTimer.C`. -/
  | tick
  /-- `websocket.Message.Receive` returns. -/
  | read (ok : Bool)
  deriving DecidableEq

def snapshot (logbuff : List Message) (c : Client) : Attempt Client :=
  match c.handler with
  | .registered => .done { c with handler := .replaying logbuff }
  | _ => .block

def replay (c : Client) : Attempt Client :=
  match c.handler with
  | .replaying (log :: rest) =>
    (c.send.send log).map fun send => { c with send, handler := .replaying rest }
  | _ => .block

def start (c : Client) : Attempt Client :=
  match c.handler with
  | .replaying [] =>
    .done { c with handler := .serving, writePump := .heartbeat, readPump := .receiving }
  | _ => .block

/-- The send in `Heartbeat`. -/
def heartbeat (c : Client) : Attempt Client :=
  match c.writePump with
  | .heartbeat => (c.send.send (.heartbeat c.heartBeatCount)).map fun send =>
      { c with send, heartBeatCount := c.heartBeatCount + 1, writePump := .select }
  | _ => .block

/-- The `select` of `writePump` receives from the channel. -/
def receive (c : Client) : Attempt Client :=
  match c.writePump with
  | .select => c.send.receive.map fun
      | (some message, send) =>
        { c with send, writePump := .sending message, delivered := c.delivered ++ [message] }
      | (none, send) => { c with send, writePump := .returned }
  | _ => .block

def sent (ok : Bool) (c : Client) : Attempt Client :=
  match c.writePump with
  | .sending _ => .done { c with writePump := if ok then .select else .returned }
  | _ => .block

def tick (c : Client) : Attempt Client :=
  match c.writePump with
  | .select => .done { c with writePump := .heartbeat }
  | _ => .block

def read (ok : Bool) (c : Client) : Attempt Client :=
  match c.readPump with
  | .receiving => .done { c with readPump := if ok then .receiving else .leaving }
  | _ => .block

def move (logbuff : List Message) (c : Client) : Move → Attempt Client
  | .snapshot => c.snapshot logbuff
  | .replay => c.replay
  | .start => c.start
  | .heartbeat => c.heartbeat
  | .receive => c.receive
  | .sent ok => c.sent ok
  | .tick => c.tick
  | .read ok => c.read ok

/-- The client with a message put into its channel. -/
def push (message : Message) (c : Client) : Client :=
  { c with send := { c.send with items := c.send.items ++ [message] } }

/-- The moves that are done, and what they make of the client. -/
inductive Moved (logbuff : List Message) (c : Client) : Move → Client → Prop where
  | snapshot (here : c.handler = .registered) :
      Moved logbuff c .snapshot { c with handler := .replaying logbuff }
  | replay {log : Message} {rest : List Message} (here : c.handler = .replaying (log :: rest))
      (room : c.send.HasRoom) :
      Moved logbuff c .replay { c.push log with handler := .replaying rest }
  | start (here : c.handler = .replaying []) : Moved logbuff c .start
      { c with handler := .serving, writePump := .heartbeat, readPump := .receiving }
  | heartbeat (here : c.writePump = .heartbeat) (room : c.send.HasRoom) :
      Moved logbuff c .heartbeat { c.push (.heartbeat c.heartBeatCount) with
        heartBeatCount := c.heartBeatCount + 1, writePump := .select }
  | receive {message : Message} {rest : List Message} (here : c.writePump = .select)
      (items : c.send.items = message :: rest) : Moved logbuff c .receive
      { c with
        send := { c.send with items := rest }
        writePump := .sending message
        delivered := c.delivered ++ [message] }
  | receiveClosed (here : c.writePump = .select) (closed : c.send.closed = true) :
      Moved logbuff c .receive { c with writePump := .returned }
  | sent {message : Message} (ok : Bool) (here : c.writePump = .sending message) :
      Moved logbuff c (.sent ok) { c with writePump := if ok then .select else .returned }
  | tick (here : c.writePump = .select) : Moved logbuff c .tick { c with writePump := .heartbeat }
  | read (ok : Bool) (here : c.readPump = .receiving) :
      Moved logbuff c (.read ok) { c with readPump := if ok then .receiving else .leaving }

variable {logbuff : List Message} {c c' : Client} {m : Move} {p : Panic}

theorem moved_of_done (h : c.move logbuff m = .done c') : Moved logbuff c m c' := by
  cases m with
  | snapshot =>
    simp only [move, snapshot] at h
    split at h <;> cases h
    exact .snapshot (by assumption)
  | replay =>
    simp only [move, replay] at h
    split at h
    case h_1 log rest here =>
      simp only [Attempt.map_eq_done, Chan.send_eq_done] at h
      obtain ⟨-, ⟨room, rfl⟩, rfl⟩ := h
      exact .replay here room
    case h_2 => cases h
  | start =>
    simp only [move, start] at h
    split at h <;> cases h
    exact .start (by assumption)
  | heartbeat =>
    simp only [move, heartbeat] at h
    split at h
    case h_1 here =>
      simp only [Attempt.map_eq_done, Chan.send_eq_done] at h
      obtain ⟨-, ⟨room, rfl⟩, rfl⟩ := h
      exact .heartbeat here room
    case h_2 => cases h
  | receive =>
    simp only [move, receive] at h
    split at h
    case h_1 here =>
      simp only [Attempt.map_eq_done] at h
      obtain ⟨⟨o, send⟩, received, rfl⟩ := h
      rcases Chan.receive_eq_done.mp received with ⟨message, rest, items, rfl, rfl⟩ |
        ⟨-, closed, rfl, rfl⟩
      · exact .receive here items
      · exact .receiveClosed here closed
    case h_2 => cases h
  | sent ok =>
    simp only [move, sent] at h
    split at h <;> cases h
    exact .sent ok (by assumption)
  | tick =>
    simp only [move, tick] at h
    split at h <;> cases h
    exact .tick (by assumption)
  | read ok =>
    simp only [move, read] at h
    split at h <;> cases h
    exact .read ok (by assumption)

/-- Only the two sends panic. -/
theorem closed_of_panic (h : c.move logbuff m = .panic p) : c.send.closed = true ∧
    ((∃ log rest, c.handler = .replaying (log :: rest)) ∨ c.writePump = .heartbeat) := by
  cases m with
  | replay =>
    simp only [move, replay] at h
    split at h
    case h_1 log rest here =>
      simp only [Attempt.map_eq_panic, Chan.send_eq_panic] at h
      exact ⟨h.1, .inl ⟨log, rest, here⟩⟩
    case h_2 => cases h
  | heartbeat =>
    simp only [move, heartbeat] at h
    split at h
    case h_1 here =>
      simp only [Attempt.map_eq_panic, Chan.send_eq_panic] at h
      exact ⟨h.1, .inr here⟩
    case h_2 => cases h
  | receive =>
    simp only [move, receive] at h
    split at h
    case h_1 here =>
      rw [Attempt.map_eq_panic] at h
      exact absurd h Chan.receive_ne_panic
    case h_2 => cases h
  | snapshot =>
    simp only [move, snapshot] at h
    split at h <;> cases h
  | start =>
    simp only [move, start] at h
    split at h <;> cases h
  | sent ok =>
    simp only [move, sent] at h
    split at h <;> cases h
  | tick =>
    simp only [move, tick] at h
    split at h <;> cases h
  | read ok =>
    simp only [move, read] at h
    split at h <;> cases h

end Client

/-! ## The server -/

/-- `Hub.run`: at its `select`, or in the loop over the clients with those not yet visited. -/
inductive HubPc where
  | select
  | broadcasting (message : Message) (todo : List Nat)
  deriving DecidableEq

/-- The server with its hub. A client is named by its place in the list of all connections. -/
structure Server where
  logbuff : List Message
  /-- The map `Hub.clients`. -/
  registered : List Nat
  hub : HubPc
  clients : List Client
  panicked : Option Panic
  written : List Bytes
  deriving DecidableEq

def logBuffLen : Nat := 128

def newServer : Server :=
  { logbuff := [], registered := [], hub := .select, clients := [], panicked := none, written := [] }

namespace Server

/-- Store what has become of client `c`. -/
def settle (c : Nat) (s : Server) : Attempt Client → Option Server
  | .done client => some { s with clients := s.clients.set c client }
  | .block => none
  | .panic p => some { s with panicked := some p }

theorem settle_eq_some {c : Nat} {s t : Server} {attempt : Attempt Client} :
    s.settle c attempt = some t ↔
      (∃ client, attempt = .done client ∧ t = { s with clients := s.clients.set c client }) ∨
        ∃ p, attempt = .panic p ∧ t = { s with panicked := some p } := by
  cases attempt <;> simp [settle, eq_comm]

/-- The hub closes the channel of a client that it has taken out of its map. -/
def drop (c : Nat) (client : Client) (s : Server) : Option Server :=
  { s with registered := s.registered.filter (· ≠ c) }.settle c
    (client.send.close.map fun send => { client with send })

/-- `broadcastMessage`: the hub receives the message if it is ready, else the message is lost. -/
def broadcastMessage (message : Message) (ready : Bool) (s : Server) : Option Server :=
  if ready then
    match s.hub with
    | .select => some { s with hub := .broadcasting message s.registered }
    | .broadcasting _ _ => none
  else some s

theorem broadcastMessage_eq_some {message : Message} {ready : Bool} {s t : Server} :
    s.broadcastMessage message ready = some t ↔
      (ready = true ∧ s.hub = .select ∧ t = { s with hub := .broadcasting message s.registered }) ∨
        (ready = false ∧ t = s) := by
  unfold broadcastMessage
  grind

/-- The `select` in the hub's loop over its clients, for client `c`. -/
def visit (c : Nat) (s : Server) : Option Server := do
  let client ← s.clients[c]?
  match s.hub with
  | .select => none
  | .broadcasting message todo =>
    if c ∈ todo then
      let s := { s with hub := .broadcasting message (todo.filter (· ≠ c)) }
      match client.send.send message with
      | .block => s.drop c client
      | attempt => s.settle c (attempt.map fun send => { client with send })
    else none

/-- The hub receives from `register`. -/
def register (c : Nat) (s : Server) : Option Server := do
  let client ← s.clients[c]?
  if s.hub = .select ∧ client.handler = .connecting then
    some { s with
      registered := c :: s.registered
      clients := s.clients.set c { client with handler := .registered } }
  else none

/-- The hub receives from `unregister`. -/
def unregister (c : Nat) (s : Server) : Option Server := do
  let client ← s.clients[c]?
  if s.hub = .select ∧ client.readPump = .leaving then
    let client := { client with readPump := .returned }
    if c ∈ s.registered then s.drop c client
    else some { s with clients := s.clients.set c client }
  else none

/-- `WriteLog`; `marshals` says for which lines `proto.Marshal` succeeds. -/
def writeLog (marshals : Bytes → Bool) (data : Bytes) (ready : Bool) (s : Server) :
    Option Server :=
  let s := { s with written := s.written ++ [data] }
  if s.logbuff.length ≤ logBuffLen then
    some { s with logbuff := if marshals data then s.logbuff ++ [.runLog data] else s.logbuff }
  else s.broadcastMessage (if marshals data then .runLog data else .nothing) ready

/-- The hub's loop over its clients ends. -/
def finish (s : Server) : Option Server :=
  match s.hub with
  | .broadcasting _ [] => some { s with hub := .select }
  | _ => none

end Server

/-! ## Steps -/

inductive Act where
  /-- A new connection: its handler runs up to the send to `register`. -/
  | connect
  | register (c : Nat)
  | client (c : Nat) (m : Client.Move)
  | unregister (c : Nat)
  | writeLog (data : Bytes) (ready : Bool)
  | writeEvent (payload : Bytes) (ready : Bool)
  | visit (c : Nat)
  | finish
  deriving DecidableEq

def perform (marshals : Bytes → Bool) (s : Server) : Act → Option Server
  | .connect => some { s with clients := s.clients ++ [newClient] }
  | .register c => s.register c
  | .client c m => do s.settle c ((← s.clients[c]?).move s.logbuff m)
  | .unregister c => s.unregister c
  | .writeLog data ready => s.writeLog marshals data ready
  | .writeEvent payload ready => s.broadcastMessage (.event payload) ready
  | .visit c => s.visit c
  | .finish => s.finish

def step (marshals : Bytes → Bool) (s : Server) (a : Act) : Option Server :=
  if s.panicked.isSome then none else perform marshals s a

def ecaptureq (marshals : Bytes → Bool) : Machine Server Act :=
  { init := newServer, step := step marshals }

end ECapture.Ecaptureq
