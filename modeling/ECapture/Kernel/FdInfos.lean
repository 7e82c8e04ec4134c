import ECapture.Kernel.ConnTuple
import ECapture.Library.Pointwise
import ECapture.Library.Steps

/-!
# The sockets of calls in progress

`tcp_fd_infos` has an entry for each thread that is in `connect` or in `accept4`: `probe_connect`
makes it for either call, the two probes in the protocol put the socket in, and the return probe of
the call takes the entry out and reports the connection. The `tracer` runs them beside the calls
that the threads are in. An `accept4` that fails returns before its entry is taken out.
-/

namespace ECapture.Kernel.Ssl
open Library

/-! ## Calls -/

inductive Syscall where
  | connect
  | accept4

/-- A call in progress: its first argument, and the last socket the protocol was asked about. -/
structure OpenCall where
  syscall : Syscall
  fd : UInt64
  sock : Option UInt64

/-- What a program reads, where nothing can be read at the null pointer. -/
structure Mapped where
  ctx : Ctx
  null : ctx.kmem.socketSk 0 = 0

/-- `id` of the current task. -/
abbrev Mapped.thread (x : Mapped) : UInt64 := x.ctx.task.pidTgid

/-- A call that has returned, and the records of its return. -/
structure ReturnedCall where
  call : OpenCall
  rc : UInt64
  ctx : Ctx
  sent : List Bytes

structure Connections where
  maps : Maps
  opened : UInt64 → Option OpenCall
  returned : List ReturnedCall

inductive Probe where
  | enter (syscall : Syscall) (fd : UInt64)
  | inetStreamConnect (sock : UInt64)
  | inetAccept (newsock : UInt64)
  | leave (rc : UInt64)

/-- The program on the return of the call. -/
def retprobe (c : Consts) : Syscall → UInt64 → Ctx → Maps → Maps
  | .connect, _ => retprobeConnect c
  | .accept4, rc => retprobeAccept4 c rc

namespace Connections

def enter (s : Connections) (x : Mapped) (syscall : Syscall) (fd : UInt64) : Connections :=
  { s with
    maps := probeConnect fd x.ctx s.maps
    opened := Function.update s.opened x.thread (some ⟨syscall, fd, none⟩) }

/-- The protocol is asked about a socket. -/
def inet (s : Connections) (x : Mapped) (sock : UInt64) : Connections :=
  { s with
    maps := probeInet sock x.ctx s.maps
    opened := Function.update s.opened x.thread
      ((s.opened x.thread).map ({ · with sock := some sock })) }

def leave (c : Consts) (s : Connections) (x : Mapped) (call : OpenCall) (rc : UInt64) :
    Connections :=
  let maps := retprobe c call.syscall rc x.ctx s.maps
  { maps
    opened := Function.update s.opened x.thread none
    returned := s.returned ++ [⟨call, rc, x.ctx, emitted s.maps maps⟩] }

end Connections

/-- A thread is in one call at a time. The protocol is asked about sockets at any time. -/
def connectionStep (c : Consts) (s : Connections) : Mapped × Probe → Option Connections
  | (x, .enter syscall fd) =>
    match s.opened x.thread with
    | some _ => none
    | none => some (s.enter x syscall fd)
  | (x, .inetStreamConnect sock) | (x, .inetAccept sock) => some (s.inet x sock)
  | (x, .leave rc) => (s.opened x.thread).map fun call => s.leave c x call rc

def connections (c : Consts) : Machine Connections (Mapped × Probe) :=
  { init := ⟨.new, fun _ => none, []⟩, step := connectionStep c }

/-! ## What the map is for -/

/-- The descriptor of the connection: the argument of `connect`, the result of `accept4`. -/
def ReturnedCall.fd (r : ReturnedCall) : UInt32 :=
  match r.call.syscall with
  | .connect => r.call.fd.toUInt32
  | .accept4 => r.rc.toUInt32

/-- Every record is of the descriptor of the call and of the last socket seen in it. -/
def ReturnedCall.Matched (r : ReturnedCall) : Prop :=
  ∀ record ∈ r.sent, ∃ e : ConnectEvent, record = e.bytes ∧ e.fd = r.fd ∧
    ∃ sock, r.call.sock = some sock ∧ e.sock = r.ctx.kmem.socketSk sock

/-- A thread outside of the calls has no entry. -/
def NoEntry (s : Connections) : Prop :=
  ∀ thread, s.opened thread = none → s.maps.tcpFdInfos.lookup thread = none

/-- A thread outside of the calls has no entry, and the records of each return are those of its
call. -/
structure Settled (s : Connections) : Prop where
  noEntry : NoEntry s
  matched : ∀ r ∈ s.returned, r.Matched

/-- A call of `accept4` that fails has left no entry: there was no room for one. -/
def Clears (s : Connections) : Mapped × Probe → Prop
  | (x, .leave rc) =>
    (∃ fd sock, s.opened x.thread = some ⟨.accept4, fd, sock⟩) → rc.toUInt32.toInt32 < 0 →
      s.maps.tcpFdInfos.lookup x.thread = none
  | _ => True

/-! ## One return -/

theorem mem_emitted_kretprobeConnect {c : Consts} {fd : UInt32} {skPtr : UInt64} {active : Bool}
    {x : Ctx} {s : Maps} {record : Bytes}
    (mem : record ∈ emitted s (kretprobeConnect c fd skPtr active x s)) :
    ∃ e : ConnectEvent, record = e.bytes ∧ e.fd = fd ∧ e.sock = skPtr := by
  unfold kretprobeConnect emitted at mem
  split at mem
  · simp at mem
  · split at mem
    · simp at mem
    · split at mem
      · simp at mem
      · simp only [List.drop_left, List.mem_singleton] at mem
        exact ⟨_, mem, rfl, rfl⟩

/-- Without an entry nothing happens; else it is taken out, and the records are of its socket. -/
theorem finishConnect_cases (c : Consts) (fd : TcpFdInfo → UInt32) (active : Bool) (x : Ctx)
    (s : Maps) :
    s.tcpFdInfos.lookup x.task.pidTgid = none ∧ finishConnect c fd active x s = s ∨
      ∃ info, s.tcpFdInfos.lookup x.task.pidTgid = some info ∧
        (finishConnect c fd active x s).tcpFdInfos = s.tcpFdInfos.delete x.task.pidTgid ∧
        ∀ record ∈ emitted s (finishConnect c fd active x s),
          x.kmem.socketSk info.sock ≠ 0 ∧ ∃ e : ConnectEvent, record = e.bytes ∧
            e.fd = fd info ∧ e.sock = x.kmem.socketSk info.sock := by
  unfold finishConnect
  cases found : s.tcpFdInfos.lookup x.task.pidTgid with
  | none => exact .inl ⟨rfl, rfl⟩
  | some info =>
    refine .inr ⟨info, rfl, ?_⟩
    dsimp only
    split
    case isTrue sk =>
      let s' := { s with tcpFdInfos := s.tcpFdInfos.delete x.task.pidTgid }
      obtain ⟨out, eq⟩ := kretprobeConnect_eq c (fd info) (x.kmem.socketSk info.sock) active x s'
      refine ⟨by rw [eq], fun record mem => ⟨sk, ?_⟩⟩
      exact mem_emitted_kretprobeConnect (s := s') mem
    case isFalse => exact ⟨rfl, by simp [emitted]⟩

/-- The program on a return, unless it is the one on `accept4` and the call has failed. -/
theorem retprobe_eq (c : Consts) (syscall : Syscall) (rc : UInt64) (x : Ctx) (s : Maps) :
    (∃ fd active, retprobe c syscall rc x s = finishConnect c fd active x s ∧
      ∀ info : TcpFdInfo, fd info =
        match syscall with
        | .connect => info.fd
        | .accept4 => rc.toUInt32) ∨
      (syscall = .accept4 ∧ rc.toUInt32.toInt32 < 0 ∧ retprobe c syscall rc x s = s) := by
  cases syscall with
  | connect => exact .inl ⟨_, _, rfl, fun _ => rfl⟩
  | accept4 =>
    by_cases failed : rc.toUInt32.toInt32 < 0
    · exact .inr ⟨rfl, failed, if_pos failed⟩
    · exact .inl ⟨_, _, if_neg failed, fun _ => rfl⟩

/-! ## Runs -/

/-- The entry of a thread that is in a call has what the call has. -/
structure Tracks (s : Connections) : Prop where
  stored : ∀ thread call info, s.opened thread = some call →
    s.maps.tcpFdInfos.lookup thread = some info →
      info.fd = call.fd.toUInt32 ∧ info.sock = call.sock.getD 0
  matched : ∀ r ∈ s.returned, r.Matched

variable {c : Consts} {s t : Connections}

theorem connectionStep_cases {x : Mapped} {probe : Probe}
    (moved : connectionStep c s (x, probe) = some t) :
    (∃ syscall fd, probe = .enter syscall fd ∧ s.opened x.thread = none ∧
      t = s.enter x syscall fd) ∨
    (∃ sock, (probe = .inetStreamConnect sock ∨ probe = .inetAccept sock) ∧ t = s.inet x sock) ∨
    ∃ rc call, probe = .leave rc ∧ s.opened x.thread = some call ∧ t = s.leave c x call rc := by
  cases probe with
  | enter syscall fd =>
    simp only [connectionStep] at moved
    split at moved
    case h_1 => cases moved
    case h_2 free =>
      cases moved
      exact .inl ⟨syscall, fd, rfl, free, rfl⟩
  | inetStreamConnect sock =>
    cases moved
    exact .inr (.inl ⟨sock, .inl rfl, rfl⟩)
  | inetAccept sock =>
    cases moved
    exact .inr (.inl ⟨sock, .inr rfl, rfl⟩)
  | leave rc =>
    obtain ⟨call, opened, rfl⟩ := Option.map_eq_some_iff.mp moved
    exact .inr (.inr ⟨rc, call, rfl, opened, rfl⟩)

theorem probeInet_lookup (sock : UInt64) (x : Ctx) (s : Maps) (thread : UInt64) :
    (probeInet sock x s).tcpFdInfos.lookup thread =
      if thread = x.task.pidTgid then
        (s.tcpFdInfos.lookup thread).map ({ · with sock })
      else s.tcpFdInfos.lookup thread := by
  unfold probeInet
  split
  case h_1 info found =>
    rw [Table.lookup_update (Table.hasRoom_of_lookup found)]
    split
    case isTrue same => rw [same, found, Option.map_some]
    case isFalse => rfl
  case h_2 missing =>
    split
    case isTrue same => rw [same, missing, Option.map_none]
    case isFalse => rfl

theorem retprobe_lookup_of_ne (c : Consts) (syscall : Syscall) (rc : UInt64) (x : Ctx) (s : Maps)
    {thread : UInt64} (other : thread ≠ x.task.pidTgid) :
    (retprobe c syscall rc x s).tcpFdInfos.lookup thread = s.tcpFdInfos.lookup thread := by
  rcases retprobe_eq c syscall rc x s with ⟨fd, active, eq, -⟩ | ⟨-, -, eq⟩
  · rw [eq]
    rcases finishConnect_cases c fd active x s with ⟨-, same⟩ | ⟨info, -, deleted, -⟩
    · rw [same]
    · rw [deleted, Table.lookup_delete_of_ne other]
  · rw [eq]

/-! ### Threads of a step -/

namespace Connections

variable {x : Mapped} {thread : UInt64}

@[simp] theorem opened_enter_self (syscall : Syscall) (fd : UInt64) :
    (s.enter x syscall fd).opened x.thread = some ⟨syscall, fd, none⟩ :=
  Function.update_self _ _ _

theorem opened_enter_of_ne (syscall : Syscall) (fd : UInt64) (other : thread ≠ x.thread) :
    (s.enter x syscall fd).opened thread = s.opened thread :=
  Function.update_of_ne other _ _

@[simp] theorem opened_inet_self (sock : UInt64) :
    (s.inet x sock).opened x.thread = (s.opened x.thread).map ({ · with sock := some sock }) :=
  Function.update_self _ _ _

theorem opened_inet_of_ne (sock : UInt64) (other : thread ≠ x.thread) :
    (s.inet x sock).opened thread = s.opened thread :=
  Function.update_of_ne other _ _

@[simp] theorem lookup_inet_self (sock : UInt64) :
    (s.inet x sock).maps.tcpFdInfos.lookup x.thread =
      (s.maps.tcpFdInfos.lookup x.thread).map ({ · with sock }) :=
  (probeInet_lookup sock x.ctx s.maps x.thread).trans (if_pos rfl)

theorem lookup_inet_of_ne (sock : UInt64) (other : thread ≠ x.thread) :
    (s.inet x sock).maps.tcpFdInfos.lookup thread = s.maps.tcpFdInfos.lookup thread :=
  (probeInet_lookup sock x.ctx s.maps thread).trans (if_neg other)

variable (call : OpenCall) (rc : UInt64)

@[simp] theorem opened_leave_self : (s.leave c x call rc).opened x.thread = none :=
  Function.update_self _ _ _

theorem opened_leave_of_ne (other : thread ≠ x.thread) :
    (s.leave c x call rc).opened thread = s.opened thread :=
  Function.update_of_ne other _ _

theorem lookup_leave_of_ne (other : thread ≠ x.thread) :
    (s.leave c x call rc).maps.tcpFdInfos.lookup thread = s.maps.tcpFdInfos.lookup thread :=
  retprobe_lookup_of_ne c call.syscall rc x.ctx s.maps other

end Connections

theorem Tracks.enter (h : Tracks s) {x : Mapped} (syscall : Syscall) (fd : UInt64)
    (free : s.opened x.thread = none) : Tracks (s.enter x syscall fd) := by
  refine ⟨fun thread call info opened found => ?_, h.matched⟩
  rcases Table.lookup_update_cases found with ⟨rfl, rfl⟩ | ⟨other, found⟩
  · rcases update_some_cases opened with ⟨-, rfl⟩ | before
    · exact ⟨rfl, rfl⟩
    · rw [free] at before
      cases before
  · rcases update_some_cases opened with ⟨rfl, -⟩ | before
    · exact absurd rfl other
    · exact h.stored thread call info before found

/-- The socket goes into the entry and into the call. -/
theorem Tracks.inet (h : Tracks s) (x : Mapped) (sock : UInt64) : Tracks (s.inet x sock) := by
  refine ⟨fun thread call info opened found => ?_, h.matched⟩
  by_cases same : thread = x.thread
  · subst same
    rw [Connections.opened_inet_self] at opened
    rw [Connections.lookup_inet_self] at found
    obtain ⟨before, was, rfl⟩ := Option.map_eq_some_iff.mp opened
    obtain ⟨entry, there, rfl⟩ := Option.map_eq_some_iff.mp found
    exact ⟨(h.stored _ before entry was there).1, rfl⟩
  · rw [Connections.opened_inet_of_ne sock same] at opened
    rw [Connections.lookup_inet_of_ne sock same] at found
    exact h.stored thread call info opened found

/-- The records of a return are of the call. -/
theorem Tracks.matches (h : Tracks s) {x : Mapped} {call : OpenCall} (rc : UInt64)
    (opened : s.opened x.thread = some call) :
    ReturnedCall.Matched ⟨call, rc, x.ctx,
      emitted s.maps (retprobe c call.syscall rc x.ctx s.maps)⟩ := by
  have nothing : emitted s.maps s.maps = [] := by simp [emitted]
  intro record mem
  dsimp only at mem
  rcases retprobe_eq c call.syscall rc x.ctx s.maps with ⟨fd, active, eq, fdOf⟩ | ⟨-, -, eq⟩
  · rw [eq] at mem
    rcases finishConnect_cases c fd active x.ctx s.maps with ⟨-, same⟩ | ⟨info, found, -, records⟩
    · rw [same, nothing] at mem
      cases mem
    · obtain ⟨sk, e, bytes, isFd, isSock⟩ := records record mem
      obtain ⟨infoFd, infoSock⟩ := h.stored _ call info opened found
      refine ⟨e, bytes, ?_, ?_⟩
      · rw [isFd, fdOf, ReturnedCall.fd]
        dsimp only
        split
        · rw [infoFd]
        · rfl
      · cases seen : call.sock with
        | none =>
          rw [infoSock, seen] at sk
          exact absurd x.null sk
        | some sock =>
          rw [seen] at infoSock
          exact ⟨sock, rfl, by rw [isSock, infoSock]; rfl⟩
  · rw [eq, nothing] at mem
    cases mem

theorem Tracks.leave (h : Tracks s) {x : Mapped} {call : OpenCall} (rc : UInt64)
    (opened : s.opened x.thread = some call) : Tracks (s.leave c x call rc) := by
  refine ⟨fun thread call' info opened' found => ?_, fun r mem => ?_⟩
  · obtain ⟨other, before⟩ := of_update_none opened'
    rw [Connections.lookup_leave_of_ne call rc other] at found
    exact h.stored thread call' info before found
  · rcases List.mem_append.mp mem with old | new
    · exact h.matched r old
    · rw [List.mem_singleton.mp new]
      exact h.matches rc opened

theorem Tracks.step (h : Tracks s) {a : Mapped × Probe} (moved : connectionStep c s a = some t) :
    Tracks t := by
  rcases connectionStep_cases moved with
    ⟨syscall, fd, -, free, rfl⟩ | ⟨sock, -, rfl⟩ | ⟨rc, call, -, opened, rfl⟩
  · exact h.enter syscall fd free
  · exact h.inet _ sock
  · exact h.leave rc opened

theorem Tracks.of_passes {as pre : List (Mapped × Probe)}
    (passes : (connections c).Passes as pre s) : Tracks s := by
  refine passes.induction (I := fun _ => Tracks) ⟨?_, ?_⟩ ?_
  · intro thread call info opened
    cases opened
  · intro r mem
    cases mem
  · exact fun _ _ _ _ taken h => h.step taken.2.2

theorem finishConnect_lookup (c : Consts) (fd : TcpFdInfo → UInt32) (active : Bool) (x : Ctx)
    (s : Maps) : (finishConnect c fd active x s).tcpFdInfos.lookup x.task.pidTgid = none := by
  rcases finishConnect_cases c fd active x s with ⟨missing, same⟩ | ⟨info, -, deleted, -⟩
  · rw [same, missing]
  · rw [deleted, Table.lookup_delete_self]

/-- No entry of a call that returns is left, unless its program has returned before. -/
theorem retprobe_lookup (c : Consts) (syscall : Syscall) (rc : UInt64) (x : Ctx) (s : Maps) :
    (retprobe c syscall rc x s).tcpFdInfos.lookup x.task.pidTgid = none ↔
      (syscall = .accept4 → rc.toUInt32.toInt32 < 0 →
        s.tcpFdInfos.lookup x.task.pidTgid = none) := by
  cases syscall with
  | connect => simp [retprobe, retprobeConnect, finishConnect_lookup]
  | accept4 =>
    by_cases failed : rc.toUInt32.toInt32 < 0
    · simp [retprobe, retprobeAccept4, failed]
    · simp [retprobe, retprobeAccept4, failed, finishConnect_lookup]

theorem NoEntry.enter (h : NoEntry s) (x : Mapped) (syscall : Syscall) (fd : UInt64) :
    NoEntry (s.enter x syscall fd) := by
  intro thread out
  by_cases same : thread = x.thread
  · subst same
    rw [Connections.opened_enter_self] at out
    cases out
  · rw [Connections.opened_enter_of_ne syscall fd same] at out
    exact (Table.lookup_update_of_ne same _ _).trans (h thread out)

theorem NoEntry.inet (h : NoEntry s) (x : Mapped) (sock : UInt64) : NoEntry (s.inet x sock) := by
  intro thread out
  by_cases same : thread = x.thread
  · subst same
    rw [Connections.opened_inet_self, Option.map_eq_none_iff] at out
    rw [Connections.lookup_inet_self, h _ out, Option.map_none]
  · rw [Connections.opened_inet_of_ne sock same] at out
    rw [Connections.lookup_inet_of_ne sock same, h thread out]

theorem noEntry_leave_iff (h : NoEntry s) {x : Mapped} {call : OpenCall} (rc : UInt64)
    (opened : s.opened x.thread = some call) :
    NoEntry (s.leave c x call rc) ↔ Clears s (x, .leave rc) := by
  have own := retprobe_lookup c call.syscall rc x.ctx s.maps
  constructor
  · rintro after ⟨fd, sock, same⟩ failed
    obtain rfl : call = ⟨.accept4, fd, sock⟩ := Option.some.inj (opened.symm.trans same)
    exact own.mp (after x.thread (Connections.opened_leave_self _ rc)) rfl failed
  · intro clears thread out
    by_cases same : thread = x.thread
    · rw [same]
      refine own.mpr fun accept failed => clears ⟨call.fd, call.sock, ?_⟩ failed
      rw [opened, ← accept]
    · rw [Connections.opened_leave_of_ne call rc same] at out
      rw [Connections.lookup_leave_of_ne call rc same, h thread out]

/-- A step keeps threads outside of the calls without an entry exactly if it clears. -/
theorem noEntry_step_iff (h : NoEntry s) {a : Mapped × Probe}
    (moved : connectionStep c s a = some t) : NoEntry t ↔ Clears s a := by
  obtain ⟨x, probe⟩ := a
  rcases connectionStep_cases moved with
    ⟨syscall, fd, rfl, -, rfl⟩ | ⟨sock, rfl | rfl, rfl⟩ | ⟨rc, call, rfl, opened, rfl⟩
  · exact iff_of_true (h.enter x syscall fd) trivial
  · exact iff_of_true (h.inet x sock) trivial
  · exact iff_of_true (h.inet x sock) trivial
  · exact noEntry_leave_iff h rc opened

/-- A run leaves no entry behind and matches all returns with their calls, in each of its states,
exactly if each failing `accept4` of it finds no entry. -/
theorem settled_iff (c : Consts) (as : List (Mapped × Probe)) :
    (∀ pre s, (connections c).Passes as pre s → Settled s) ↔
      ∀ pre s a t, (connections c).Takes as pre s a t → Clears s a := by
  constructor
  · intro settled pre s a t taken
    have before := (settled pre s taken.before).noEntry
    exact (noEntry_step_iff before taken.2.2).mp (settled _ t taken.after).noEntry
  · intro clears pre s passes
    refine ⟨passes.induction (I := fun _ => NoEntry) ?_ ?_, (Tracks.of_passes passes).matched⟩
    · exact fun thread _ => Table.lookup_empty 10240 thread
    · intro pre s a t taken h
      exact (noEntry_step_iff h taken.2.2).mpr (clears pre s a t taken)

/-! ## Nobody connects -/

/-- A thread with nothing readable around it. -/
def waiting : Mapped where
  ctx :=
    { task := { pidTgid := 0x100000002, uidGid := 0, cgroupId := 0, comm := zeros 16 }
      cpu := 0
      ktime := 1
      mem := ⟨fun _ _ => none⟩
      kmem := ⟨fun _ => 0, fun _ => ⟨zeros 4, zeros 4, zeros 2, 0, 0, zeros 16, zeros 16⟩⟩ }
  null := rfl

/-- An `accept4` on the descriptor 3 that returns `-EAGAIN`. -/
def acceptsNothing : List (Mapped × Probe) :=
  [(waiting, .enter .accept4 3), (waiting, .leave (0 - 11))]

theorem entry_left_behind :
    ∃ s, (connections .unfiltered).Passes acceptsNothing acceptsNothing s ∧
      s.opened waiting.thread = none ∧
      s.maps.tcpFdInfos.lookup waiting.thread = some ⟨0, 3⟩ ∧ ¬ Settled s := by
  obtain ⟨s, ran, out, left⟩ : ∃ s, (connections .unfiltered).run acceptsNothing = some s ∧
      s.opened waiting.thread = none ∧
      s.maps.tcpFdInfos.lookup waiting.thread = some ⟨0, 3⟩ :=
    ⟨_, rfl, rfl, rfl⟩
  refine ⟨s, ⟨List.prefix_rfl, ran⟩, out, left, fun settled => ?_⟩
  have gone := settled.noEntry _ out
  rw [left] at gone
  cases gone

end ECapture.Kernel.Ssl
