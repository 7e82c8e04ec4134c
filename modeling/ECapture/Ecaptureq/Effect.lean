import ECapture.Library.Pointwise
import ECapture.Ecaptureq.Hub

/-!
# What a step of the server can do

In every run the channels of registered clients are open and clients that have not registered are
as they were made. Under this invariant only the sends of a client's own goroutines can panic;
`Effect` lists what each step makes of the server, and `Sane.effect` reads it off the step function.
-/

namespace ECapture.Ecaptureq
open Library

variable {marshals : Bytes → Bool}

/-! ## The invariant -/

/-- `registered` says whether the client is in the hub's map. -/
structure Client.Sane (registered : Prop) (c : Client) : Prop where
  registered : registered → c.send.closed = false ∧ c.handler ≠ .connecting
  fresh : c.handler = .connecting → c = newClient

/-- The clients in the hub's map that it has not yet visited. -/
def HubPc.todo : HubPc → List Nat
  | .select => []
  | .broadcasting _ todo => todo

structure Sane (s : Server) : Prop where
  clients : ∀ c (cl : Client), s.clients[c]? = some cl → cl.Sane (c ∈ s.registered)
  todo : ∀ c ∈ s.hub.todo, c ∈ s.registered
  known : ∀ c ∈ s.registered, c < s.clients.length

theorem sane_new : Sane newServer := ⟨nofun, nofun, nofun⟩

/-! ## Effects -/

def Client.close (c : Client) : Client := { c with send := { c.send with closed := true } }

/-- The client has left the hub's map. -/
def Server.without (c : Nat) (s : Server) : List Nat := s.registered.filter (· ≠ c)

inductive Effect (marshals : Bytes → Bool) (s : Server) : Act → Server → Prop where
  | connect : Effect marshals s .connect { s with clients := s.clients ++ [newClient] }
  | register {c : Nat} (found : s.clients[c]? = some newClient) (hub : s.hub = .select) :
      Effect marshals s (.register c) { s with
        registered := c :: s.registered
        clients := s.clients.set c { newClient with handler := .registered } }
  | move {c : Nat} {cl cl' : Client} {m : Client.Move} (found : s.clients[c]? = some cl)
      (moved : Client.Moved s.logbuff cl m cl') :
      Effect marshals s (.client c m) { s with clients := s.clients.set c cl' }
  | panic {c : Nat} {cl : Client} {m : Client.Move} {p : Panic} (found : s.clients[c]? = some cl)
      (closed : cl.send.closed = true)
      (sending : (∃ log rest, cl.handler = .replaying (log :: rest)) ∨ cl.writePump = .heartbeat) :
      Effect marshals s (.client c m) { s with panicked := some p }
  | unregister {c : Nat} {cl : Client} (found : s.clients[c]? = some cl) (hub : s.hub = .select)
      (leaving : cl.readPump = .leaving) (mem : c ∈ s.registered) :
      Effect marshals s (.unregister c) { s with
        registered := s.without c
        clients := s.clients.set c { cl.close with readPump := .returned } }
  | unregisterAgain {c : Nat} {cl : Client} (found : s.clients[c]? = some cl)
      (leaving : cl.readPump = .leaving) (out : c ∉ s.registered) :
      Effect marshals s (.unregister c)
        { s with clients := s.clients.set c { cl with readPump := .returned } }
  | keep {data : Bytes} {ready : Bool} (room : s.logbuff.length ≤ logBuffLen) :
      Effect marshals s (.writeLog data ready) { s with
        written := s.written ++ [data]
        logbuff := if marshals data then s.logbuff ++ [.runLog data] else s.logbuff }
  | writeLog {data : Bytes} (full : ¬ s.logbuff.length ≤ logBuffLen) (hub : s.hub = .select) :
      Effect marshals s (.writeLog data true) { s with
        written := s.written ++ [data]
        hub := .broadcasting (if marshals data then .runLog data else .nothing) s.registered }
  | loseLog {data : Bytes} (full : ¬ s.logbuff.length ≤ logBuffLen) :
      Effect marshals s (.writeLog data false) { s with written := s.written ++ [data] }
  | writeEvent {payload : Bytes} (hub : s.hub = .select) :
      Effect marshals s (.writeEvent payload true)
        { s with hub := .broadcasting (.event payload) s.registered }
  | loseEvent {payload : Bytes} : Effect marshals s (.writeEvent payload false) s
  | visit {c : Nat} {cl : Client} {message : Message} {todo : List Nat}
      (found : s.clients[c]? = some cl) (hub : s.hub = .broadcasting message todo) (mem : c ∈ todo)
      (room : cl.send.HasRoom) :
      Effect marshals s (.visit c) { s with
        hub := .broadcasting message (todo.filter (· ≠ c))
        clients := s.clients.set c (cl.push message) }
  | evict {c : Nat} {cl : Client} {message : Message} {todo : List Nat}
      (found : s.clients[c]? = some cl) (hub : s.hub = .broadcasting message todo) (mem : c ∈ todo)
      (full : cl.send.cap ≤ cl.send.items.length) :
      Effect marshals s (.visit c) { s with
        hub := .broadcasting message (todo.filter (· ≠ c))
        registered := s.without c
        clients := s.clients.set c cl.close }
  | finish {message : Message} (hub : s.hub = .broadcasting message []) :
      Effect marshals s .finish { s with hub := .select }

/-- An open channel is closed when its client is dropped. -/
theorem drop_eq_some {c : Nat} {cl : Client} {s t : Server} (open_ : cl.send.closed = false)
    (moved : s.drop c cl = some t) :
    t = { s with registered := s.without c, clients := s.clients.set c cl.close } := by
  rcases Server.settle_eq_some.mp moved with ⟨cl', done, rfl⟩ | ⟨p, panic, -⟩
  · rw [Attempt.map_eq_done] at done
    obtain ⟨send, closed, rfl⟩ := done
    obtain ⟨-, rfl⟩ := Chan.close_eq_done.mp closed
    rfl
  · rw [Attempt.map_eq_panic, Chan.close_eq_panic, open_] at panic
    cases panic.1

variable {s t : Server} {a : Act} {c : Nat}

theorem Sane.unregister_effect (sane : Sane s) (moved : s.unregister c = some t) :
    Effect marshals s (.unregister c) t := by
  obtain ⟨cl, found, moved⟩ := Option.bind_eq_some_iff.mp moved
  split at moved
  case isFalse => cases moved
  case isTrue here =>
    dsimp only at moved
    split at moved
    case isTrue mem =>
      have open_ := ((sane.clients c cl found).registered mem).1
      obtain rfl := drop_eq_some (by exact open_) moved
      have left : Effect marshals s (.unregister c) { s with
          registered := s.without c
          clients := s.clients.set c { cl.close with readPump := .returned } } :=
        .unregister found here.1 here.2 mem
      exact left
    case isFalse out =>
      cases moved
      exact .unregisterAgain found here.2 out

theorem Sane.visit_effect (sane : Sane s) (moved : s.visit c = some t) :
    Effect marshals s (.visit c) t := by
  obtain ⟨cl, found, moved⟩ := Option.bind_eq_some_iff.mp moved
  split at moved
  case h_1 => cases moved
  case h_2 message todo hub =>
    split at moved
    case isFalse => cases moved
    case isTrue here =>
      have open_ := ((sane.clients c cl found).registered (sane.todo c (by rwa [hub]))).1
      dsimp only at moved
      split at moved
      case h_1 full =>
        obtain rfl := drop_eq_some open_ moved
        exact .evict found hub here (Chan.send_eq_block.mp full).2
      case h_2 =>
        rcases Server.settle_eq_some.mp moved with ⟨cl', done, rfl⟩ | ⟨p, panic, -⟩
        · simp only [Attempt.map_eq_done, Chan.send_eq_done] at done
          obtain ⟨-, ⟨room, rfl⟩, rfl⟩ := done
          exact .visit found hub here room
        · rw [Attempt.map_eq_panic, Chan.send_eq_panic, open_] at panic
          cases panic.1

theorem writeLog_effect {data : Bytes} {ready : Bool}
    (moved : s.writeLog marshals data ready = some t) :
    Effect marshals s (.writeLog data ready) t := by
  unfold Server.writeLog at moved
  dsimp only at moved
  split at moved
  case isTrue room =>
    cases moved
    exact .keep room
  case isFalse full =>
    rcases Server.broadcastMessage_eq_some.mp moved with ⟨rfl, hub, rfl⟩ | ⟨rfl, rfl⟩
    · exact .writeLog full hub
    · exact .loseLog full

theorem writeEvent_effect {payload : Bytes} {ready : Bool}
    (moved : s.broadcastMessage (.event payload) ready = some t) :
    Effect marshals s (.writeEvent payload ready) t := by
  rcases Server.broadcastMessage_eq_some.mp moved with ⟨rfl, hub, rfl⟩ | ⟨rfl, rfl⟩
  · exact .writeEvent hub
  · exact .loseEvent

theorem Sane.register_effect (sane : Sane s) (moved : s.register c = some t) :
    Effect marshals s (.register c) t := by
  obtain ⟨cl, found, moved⟩ := Option.bind_eq_some_iff.mp moved
  split at moved
  case isFalse => cases moved
  case isTrue here =>
    cases moved
    obtain rfl := (sane.clients c cl found).fresh here.2
    exact .register found here.1

theorem client_effect {m : Client.Move}
    (moved : ((s.clients[c]?).bind fun cl => s.settle c (cl.move s.logbuff m)) = some t) :
    Effect marshals s (.client c m) t := by
  obtain ⟨cl, found, moved⟩ := Option.bind_eq_some_iff.mp moved
  rcases Server.settle_eq_some.mp moved with ⟨cl', done, rfl⟩ | ⟨p, panic, rfl⟩
  · exact .move found (Client.moved_of_done done)
  · obtain ⟨closed, sending⟩ := Client.closed_of_panic panic
    exact .panic found closed sending

/-- What a step has done. -/
theorem Sane.effect (sane : Sane s) (moved : (ecaptureq marshals).step s a = some t) :
    s.panicked = none ∧ Effect marshals s a t := by
  change (if s.panicked.isSome then none else perform marshals s a) = some t at moved
  split at moved
  case isTrue => cases moved
  case isFalse calm =>
    refine ⟨by simpa using calm, ?_⟩
    cases a with
    | connect =>
      cases moved
      exact .connect
    | register c => exact sane.register_effect moved
    | client c m => exact client_effect moved
    | unregister c => exact sane.unregister_effect moved
    | writeLog data ready => exact writeLog_effect moved
    | writeEvent payload ready => exact writeEvent_effect moved
    | visit c => exact sane.visit_effect moved
    | finish =>
      change s.finish = some t at moved
      unfold Server.finish at moved
      split at moved <;> cases moved
      exact .finish (by assumption)

/-! ## The invariant is kept -/

theorem getElem?_connect {cl : Client} {clients : List Client}
    (found : (clients ++ [newClient])[c]? = some cl) :
    clients[c]? = some cl ∨ c = clients.length ∧ cl = newClient := by
  rw [List.getElem?_append] at found
  split at found
  · exact .inl found
  · have last := (List.getElem?_eq_some_iff.mp found).1
    rw [List.length_singleton] at last
    rw [show c - clients.length = 0 by omega] at found
    exact .inr ⟨by omega, (Option.some.inj found).symm⟩

theorem mem_without {d : Nat} : d ∈ s.without c ↔ d ∈ s.registered ∧ d ≠ c := by
  simp [Server.without]

theorem Client.Sane.move {registered : Prop} {logbuff : List Message} {m : Client.Move}
    {cl cl' : Client} (sane : cl.Sane registered) (moved : Client.Moved logbuff cl m cl') :
    cl'.Sane registered := by
  -- a client that has not registered does not move
  have early : cl.handler ≠ .connecting := by
    intro connecting
    obtain rfl := sane.fresh connecting
    cases moved <;> contradiction
  have closed : cl'.send.closed = cl.send.closed := by
    cases moved <;> rfl
  have late : cl'.handler ≠ .connecting := by
    cases moved <;> first | exact early | nofun
  exact ⟨fun h => ⟨closed.trans (sane.registered h).1, late⟩, fun h => absurd h late⟩

/-- The rule for a step that changes one client and its place in the map. -/
theorem Sane.set {cl cl' : Client} (sane : Sane s) (found : s.clients[c]? = some cl)
    (clients : t.clients = s.clients.set c cl')
    (others : ∀ d, d ≠ c → (d ∈ t.registered ↔ d ∈ s.registered))
    (here : cl'.Sane (c ∈ t.registered)) (todo : ∀ d ∈ t.hub.todo, d ∈ t.registered) : Sane t := by
  refine ⟨fun d cl'' there => ?_, todo, fun d mem => ?_⟩
  · rw [clients] at there
    rcases getElem?_set_cases there with ⟨rfl, rfl⟩ | ⟨other, there⟩
    · exact here
    · rw [others d other]
      exact sane.clients d cl'' there
  · rw [clients, List.length_set]
    by_cases same : d = c
    · rw [same]
      exact (List.getElem?_eq_some_iff.mp found).1
    · exact sane.known d ((others d same).mp mem)

theorem Sane.step (sane : Sane s) (moved : (ecaptureq marshals).step s a = some t) : Sane t := by
  have left : ∀ {c d : Nat}, d ≠ c → (d ∈ s.without c ↔ d ∈ s.registered) :=
    fun other => mem_without.trans (and_iff_left other)
  cases (sane.effect moved).2 with
  | connect =>
    refine ⟨fun c cl found => ?_, sane.todo, fun c mem => ?_⟩
    · rcases getElem?_connect found with found | ⟨rfl, rfl⟩
      · exact sane.clients c cl found
      · exact ⟨fun mem => absurd (sane.known _ mem) (Nat.lt_irrefl _), fun _ => rfl⟩
    · rw [List.length_append]
      exact Nat.lt_add_right 1 (sane.known c mem)
  | register found hub =>
    refine sane.set found rfl (fun d other => by simp [other]) ⟨fun _ => ⟨rfl, ?_⟩, ?_⟩
      fun d mem => ?_
    · nofun
    · nofun
    · exact List.mem_cons_of_mem _ (sane.todo d mem)
  | move found done =>
    exact sane.set found rfl (fun _ _ => Iff.rfl) ((sane.clients _ _ found).move done) sane.todo
  | panic found closed sending => exact ⟨sane.clients, sane.todo, sane.known⟩
  | unregister found hub leaving mem =>
    have here := (sane.clients _ _ found).registered mem
    refine sane.set found rfl (fun d => left)
      ⟨fun h => absurd rfl (mem_without.mp h).2, fun h => absurd h here.2⟩ fun d mem => ?_
    simp [hub, HubPc.todo] at mem
  | unregisterAgain found leaving out =>
    refine sane.set found rfl (fun _ _ => Iff.rfl) ⟨fun mem => absurd mem out, fun h => ?_⟩ sane.todo
    rw [(sane.clients _ _ found).fresh h] at leaving
    cases leaving
  | keep room => exact ⟨sane.clients, sane.todo, sane.known⟩
  | writeLog full hub => exact ⟨sane.clients, fun c mem => mem, sane.known⟩
  | loseLog full => exact ⟨sane.clients, sane.todo, sane.known⟩
  | writeEvent hub => exact ⟨sane.clients, fun c mem => mem, sane.known⟩
  | loseEvent => exact sane
  | visit found hub mem room =>
    have here := (sane.clients _ _ found).registered (sane.todo _ (by rwa [hub]))
    refine sane.set found rfl (fun _ _ => Iff.rfl) ⟨fun _ => here, fun h => absurd h here.2⟩
      fun d mem => sane.todo d ?_
    rw [hub]
    exact List.mem_of_mem_filter mem
  | evict found hub mem full =>
    have here := (sane.clients _ _ found).registered (sane.todo _ (by rwa [hub]))
    refine sane.set found rfl (fun d => left)
      ⟨fun h => absurd rfl (mem_without.mp h).2, fun h => absurd h here.2⟩ fun d mem => ?_
    obtain ⟨mem, other⟩ := List.mem_filter.mp mem
    exact mem_without.mpr ⟨sane.todo d (by rwa [hub]), of_decide_eq_true other⟩
  | finish hub => exact ⟨sane.clients, nofun, sane.known⟩

end ECapture.Ecaptureq
