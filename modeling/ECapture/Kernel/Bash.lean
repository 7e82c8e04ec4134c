import ECapture.Events.Bash
import ECapture.Kernel.Filter
import ECapture.Library.Steps
import ECapture.Library.Table

/-!
# The errno filter of the bash probe

`kern/bash_kern.c` with the Go side of the probe: a line is stored when `readline` returns and the
command is sent when `execute_command` returns. The option `errnumber` is applied twice. The kernel
program sends a command with another return value as 128, and the decoder leaves out the commands
whose value is the configured number, where it should leave out those with 128.

A record is decoded when it is emitted: the ring keeps their order.
-/

namespace ECapture.Kernel.Bash
open Library Events.Bash

/-! ## Structs and programs -/

/-- `struct event`. -/
structure BashEvent where
  type : UInt32
  pid : UInt32
  uid : UInt32
  line : Vector UInt8 maxDataSizeBash
  retval : UInt32
  comm : Vector UInt8 16

def BashEvent.bytes (e : BashEvent) : Bytes :=
  leBytes 4 e.type.toNat ++ (leBytes 4 e.pid.toNat ++ (leBytes 4 e.uid.toNat ++ (e.line.toList ++
    (leBytes 4 e.retval.toNat ++ e.comm.toList))))

/-- The map `events_t`. -/
abbrev EventsT := Table UInt32 BashEvent

structure Ctx where
  task : Task
  mem : UserMemory

/-- The line that `readline` returns at this address. -/
def readlineEvent (rc : UInt64) (x : Ctx) : BashEvent :=
  { type := bashEventTypeReadline
    pid := x.task.pid
    uid := x.task.uid
    line := (x.mem.probeRead rc maxDataSizeBash).2
    retval := 0
    comm := x.task.comm }

/-- The programs return what they have emitted. -/
def uretprobeBashReadline (c : Consts) (rc : UInt64) (x : Ctx) (eventsT : EventsT) :
    EventsT × List Bytes :=
  if !passesFilter c x.task then (eventsT, [])
  else
    let event := readlineEvent rc x
    (eventsT.update x.task.pid event, [event.bytes])

/-- The value that is sent for a return value. -/
def sentRetval (c : Consts) (retval : Int32) : UInt32 :=
  if c.less52 ≠ 1 ∧ c.targetErrno ≠ bashErrnoDefault ∧ c.targetErrno ≠ retval.toInt64.toUInt64 then
    bashErrnoDefault.toUInt32
  else retval.toUInt32

/-- Both branches send the stored event and delete it. -/
def uretprobeBashRetval (c : Consts) (rc : UInt64) (x : Ctx) (eventsT : EventsT) :
    EventsT × List Bytes :=
  if !passesFilter c x.task then (eventsT, [])
  else
    match eventsT.lookup x.task.pid with
    | none => (eventsT, [])
    | some event =>
      let event :=
        { event with retval := sentRetval c rc.toUInt32.toInt32, type := bashEventTypeRetval }
      (eventsT.delete x.task.pid, [event.bytes])

/-- `send_bash_exit_event`, of `exec` and `exit`: without the filter and without the map. -/
def sendBashExitEvent (x : Ctx) (eventsT : EventsT) : EventsT × List Bytes :=
  let event : BashEvent :=
    { type := bashEventTypeExitOrExec
      pid := x.task.pid
      uid := x.task.uid
      line := zeros _
      retval := 0
      comm := x.task.comm }
  (eventsT, [event.bytes])

inductive Prog where
  | readline (rc : UInt64)
  | retval (rc : UInt64)
  | exitOrExec

structure Event where
  ctx : Ctx
  prog : Prog

def exec (c : Consts) (e : Event) (eventsT : EventsT) : EventsT × List Bytes :=
  match e.prog with
  | .readline rc => uretprobeBashReadline c rc e.ctx eventsT
  | .retval rc => uretprobeBashRetval c rc e.ctx eventsT
  | .exitOrExec => sendBashExitEvent e.ctx eventsT

/-! ## The whole probe -/

/-- The options of the probe. -/
structure Config where
  pid : UInt64
  uid : UInt64
  errNo : Int64
  useHex : Bool

/-- The constant editors of `getManagerOptions`, from Linux 5.2 on. -/
def Config.consts (cfg : Config) : Consts :=
  { less52 := 0
    targetPid := cfg.pid
    targetUid := cfg.uid
    targetErrno := cfg.errNo.toUInt64
    targetCgroupId := 0 }

/-- Lines typed since the last command of a shell has completed. -/
structure Typed where
  uid : UInt32
  comm : Vector UInt8 16
  lines : List Bytes

def Typed.text (t : Typed) : Bytes := t.lines.foldl joinLine []

/-- The two sides of the probe, and beside them what is typed in each process. -/
structure Session where
  eventsT : EventsT
  lineMap : LineMap
  output : List Bytes
  typed : UInt32 → Option Typed

def Session.start : Session := ⟨.empty _ _ 1024, fun _ => [], [], fun _ => none⟩

section

variable (cfg : Config)

def consumeAll : List Bytes → LineMap → List Bytes × LineMap
  | [], lineMap => ([], lineMap)
  | data :: rest, lineMap =>
    let (lines, lineMap) := consume cfg.errNo cfg.useHex data lineMap
    let (lines', lineMap) := consumeAll rest lineMap
    (lines ++ lines', lineMap)

/-- What is typed after an event, in the processes that pass the filter. -/
def typedAfter (typed : UInt32 → Option Typed) (e : Event) : UInt32 → Option Typed :=
  let task := e.ctx.task
  if !passesFilter cfg.consts task then typed
  else
    match e.prog with
    | .readline rc =>
      let line := Events.commToString (e.ctx.mem.probeRead rc maxDataSizeBash).2.toList
      Function.update typed task.pid <|
        match typed task.pid with
        | some t => some { t with lines := t.lines ++ [line] }
        | none => some ⟨task.uid, task.comm, [line]⟩
    | .retval _ => Function.update typed task.pid none
    | .exitOrExec => typed

/-- The lines that are printed at an event. -/
def printed (s : Session) (e : Event) : List Bytes :=
  (consumeAll cfg (exec cfg.consts e s.eventsT).2 s.lineMap).1

def sessionStep (s : Session) (e : Event) : Option Session :=
  let (eventsT, records) := exec cfg.consts e s.eventsT
  let (lines, lineMap) := consumeAll cfg records s.lineMap
  some ⟨eventsT, lineMap, s.output ++ lines, typedAfter cfg s.typed e⟩

def session : Machine Session Event := { init := .start, step := sessionStep cfg }

/-- A step of a run of `readline` and `execute_command` returns: the map has room for a line that
passes the filter, and a shell keeps its user and its name, and with them the verdict of the filter,
while a command is typed. -/
def Steady (s : Session) (e : Event) : Prop :=
  let task := e.ctx.task
  (passesFilter cfg.consts task = true ∨ s.typed task.pid = none) ∧
    match e.prog with
    | .readline _ => passesFilter cfg.consts task = true → s.eventsT.HasRoom task.pid ∧
      ∀ t, s.typed task.pid = some t → t.uid = task.uid ∧ t.comm = task.comm
    | .retval _ => True
    | .exitOrExec => False

/-! ## What the option promises -/

/-- The line of a command with this return value. -/
def commandLine (pid : UInt32) (t : Typed) (retvalue : Bytes) : List Bytes :=
  let header := Events.Bash.Event.header pid t.uid t.comm retvalue
  textOutput (if cfg.useHex then header ++ str ", Line(hex):\n" ++ hex t.text
    else header ++ str ", Line:\n" ++ t.text)

end

/-! ## One record -/

theorem decode_bashEvent (e : BashEvent) :
    Events.Bash.Event.decodeFromBytes.run e.bytes =
      .ok { bashType := e.type, pid := e.pid, uid := e.uid, line := e.line, returnValue := e.retval,
            comm := e.comm, allLines := [] } := by
  have comm := readFull_append e.comm []
  rw [List.append_nil] at comm
  unfold Reader.run Events.Bash.Event.decodeFromBytes BashEvent.bytes
  rw [Reader.bind_ok (Events.field_ok (readU32_leBytes e.type _)),
    Reader.bind_ok (Events.field_ok (readU32_leBytes e.pid _)),
    Reader.bind_ok (Events.field_ok (readU32_leBytes e.uid _)),
    Reader.bind_ok (Events.field_ok (readFull_append e.line _)),
    Reader.bind_ok (Events.field_ok (readU32_leBytes e.retval _)),
    Reader.bind_ok (Events.field_ok comm)]
  rfl

/-- A line only goes to the map. -/
theorem consume_readline (errNo : Int64) (useHex : Bool) {e : BashEvent}
    (type : e.type = bashEventTypeReadline) (lineMap : LineMap) :
    consume errNo useHex e.bytes lineMap =
      ([], Function.update lineMap (Event.uuid e.pid e.uid e.comm)
        (joinLine (lineMap (Event.uuid e.pid e.uid e.comm))
          (Events.commToString e.line.toList))) := by
  unfold consume decode
  rw [decode_bashEvent]
  cases useHex <;> simp [handleEvent, type, Event.string, Event.stringHex, textOutput]

theorem lineMap_consume_retval (errNo : Int64) (useHex : Bool) {e : BashEvent}
    (type : e.type = bashEventTypeRetval) (lineMap : LineMap) :
    (consume errNo useHex e.bytes lineMap).2 =
      Function.update lineMap (Event.uuid e.pid e.uid e.comm) [] := by
  have notReadline : bashEventTypeRetval ≠ bashEventTypeReadline := by decide
  unfold consume decode
  rw [decode_bashEvent]
  simp only [handleEvent, type, if_neg notReadline, if_true]
  grind

/-! ## The two sides know the typed lines -/

structure Inv (s : Session) : Prop where
  stored : ∀ pid t, s.typed pid = some t →
    ∃ e, s.eventsT.lookup pid = some e ∧ e.pid = pid ∧ e.uid = t.uid ∧ e.comm = t.comm
  absent : ∀ pid, s.typed pid = none → s.eventsT.lookup pid = none
  lines : ∀ pid t, s.typed pid = some t → s.lineMap (Event.uuid pid t.uid t.comm) = t.text
  clean : ∀ pid uid comm,
    (∀ t, s.typed pid = some t → Event.uuid pid uid comm ≠ Event.uuid pid t.uid t.comm) →
    s.lineMap (Event.uuid pid uid comm) = []

theorem Inv.init : Inv Session.start where
  stored _ _ typed := by cases typed
  absent _ _ := rfl
  lines _ _ typed := by cases typed
  clean _ _ _ _ := rfl

/-- The keys of different processes differ. -/
theorem uuid_ne {pid pid' : UInt32} (other : pid' ≠ pid) (uid uid' : UInt32)
    (comm comm' : Vector UInt8 16) : Event.uuid pid' uid' comm' ≠ Event.uuid pid uid comm :=
  fun same => other (Event.uuid_pid same)

/-- What the invariant says of one process. -/
structure InvAt (pid : UInt32) (s : Session) : Prop where
  stored : ∀ t, s.typed pid = some t →
    ∃ e, s.eventsT.lookup pid = some e ∧ e.pid = pid ∧ e.uid = t.uid ∧ e.comm = t.comm
  absent : s.typed pid = none → s.eventsT.lookup pid = none
  lines : ∀ t, s.typed pid = some t → s.lineMap (Event.uuid pid t.uid t.comm) = t.text
  clean : ∀ uid comm,
    (∀ t, s.typed pid = some t → Event.uuid pid uid comm ≠ Event.uuid pid t.uid t.comm) →
    s.lineMap (Event.uuid pid uid comm) = []

theorem inv_of_at {s : Session} (each : ∀ pid, InvAt pid s) : Inv s where
  stored pid := (each pid).stored
  absent pid := (each pid).absent
  lines pid := (each pid).lines
  clean pid := (each pid).clean

theorem Inv.at {s : Session} (inv : Inv s) (pid : UInt32) : InvAt pid s :=
  ⟨inv.stored pid, inv.absent pid, inv.lines pid, inv.clean pid⟩

/-- The two sides have the same for a process before and after. -/
structure SameAt (pid : UInt32) (s t : Session) : Prop where
  typed : t.typed pid = s.typed pid
  stored : t.eventsT.lookup pid = s.eventsT.lookup pid
  lines : ∀ uid comm, t.lineMap (Event.uuid pid uid comm) = s.lineMap (Event.uuid pid uid comm)

theorem InvAt.frame {pid : UInt32} {s t : Session} (inv : InvAt pid s) (same : SameAt pid s t) :
    InvAt pid t where
  stored typed found := by
    rw [same.typed] at found
    rw [same.stored]
    exact inv.stored typed found
  absent none := by
    rw [same.typed] at none
    rw [same.stored]
    exact inv.absent none
  lines typed found := by
    rw [same.typed] at found
    rw [same.lines]
    exact inv.lines typed found
  clean uid comm other := by
    rw [same.typed] at other
    rw [same.lines]
    exact inv.clean uid comm other

/-- A step of one shell writes its entry, its lines and what it has typed: the others keep theirs. -/
theorem Inv.write {s : Session} {pid uid : UInt32} {comm : Vector UInt8 16} {eventsT : EventsT}
    {text : Bytes} {output : List Bytes} {typed : Option Typed} (inv : Inv s)
    (entries : ∀ pid' ≠ pid, eventsT.lookup pid' = s.eventsT.lookup pid')
    (own : InvAt pid ⟨eventsT, Function.update s.lineMap (Event.uuid pid uid comm) text, output,
      Function.update s.typed pid typed⟩) :
    Inv ⟨eventsT, Function.update s.lineMap (Event.uuid pid uid comm) text, output,
      Function.update s.typed pid typed⟩ := by
  apply inv_of_at
  intro pid'
  by_cases isOwn : pid' = pid
  · rw [isOwn]
    exact own
  · apply (inv.at pid').frame
    refine ⟨Function.update_of_ne isOwn _ _, entries pid' isOwn, ?_⟩
    intro uid' comm'
    exact Function.update_of_ne (uuid_ne isOwn _ _ _ _) _ _

/-- The lines of one shell grow. -/
theorem Inv.add {s : Session} {pid : UInt32} {t : Typed} {e : BashEvent} {output : List Bytes}
    (inv : Inv s) (room : s.eventsT.HasRoom pid)
    (event : e.pid = pid ∧ e.uid = t.uid ∧ e.comm = t.comm)
    (same : ∀ old, s.typed pid = some old → old.uid = t.uid ∧ old.comm = t.comm) :
    Inv ⟨s.eventsT.update pid e, Function.update s.lineMap (Event.uuid pid t.uid t.comm) t.text, output,
      Function.update s.typed pid (some t)⟩ := by
  apply inv.write
  · intro pid' other
    exact Table.lookup_update_of_ne other _ _
  · refine ⟨?_, ?_, ?_, ?_⟩ <;> simp only [Function.update_self]
    · intro t' found
      cases found
      exact ⟨e, Table.lookup_update_self room e, event⟩
    · intro none
      cases none
    · intro t' found
      cases found
      exact Function.update_self _ _ _
    · intro uid comm other
      have key := other t rfl
      rw [Function.update_of_ne key]
      apply inv.clean
      intro old found
      rw [(same old found).1, (same old found).2]
      exact key

/-- The lines of one shell are taken. -/
theorem Inv.complete {s : Session} {pid : UInt32} {t : Typed} {output : List Bytes} (inv : Inv s)
    (typed : s.typed pid = some t) :
    Inv ⟨s.eventsT.delete pid, Function.update s.lineMap (Event.uuid pid t.uid t.comm) [], output,
      Function.update s.typed pid none⟩ := by
  apply inv.write
  · intro pid' other
    exact Table.lookup_delete_of_ne other _
  · refine ⟨?_, ?_, ?_, ?_⟩ <;> simp only [Function.update_self]
    · intro t' found
      cases found
    · intro _
      exact Table.lookup_delete_self _ _
    · intro t' found
      cases found
    · intro uid comm _
      by_cases key : Event.uuid pid uid comm = Event.uuid pid t.uid t.comm
      · rw [key, Function.update_self]
      · rw [Function.update_of_ne key]
        apply inv.clean
        intro old found
        cases typed.symm.trans found
        exact key

variable {cfg : Config}

theorem printed_step {s t : Session} {e : Event} (moved : sessionStep cfg s e = some t) :
    t = ⟨(exec cfg.consts e s.eventsT).1, (consumeAll cfg (exec cfg.consts e s.eventsT).2 s.lineMap).2,
      s.output ++ printed cfg s e, typedAfter cfg s.typed e⟩ := by
  cases moved
  rfl

theorem consumeAll_singleton (data : Bytes) (lineMap : LineMap) :
    consumeAll cfg [data] lineMap = consume cfg.errNo cfg.useHex data lineMap := by
  simp [consumeAll]

/-- The typed lines after one more line, as the line map has them. -/
theorem Inv.typed_readline {s : Session} {x : Ctx} (inv : Inv s) (rc : UInt64)
    (passes : passesFilter cfg.consts x.task = true)
    (same : ∀ t, s.typed x.task.pid = some t → t.uid = x.task.uid ∧ t.comm = x.task.comm) :
    ∃ t, typedAfter cfg s.typed ⟨x, .readline rc⟩ = Function.update s.typed x.task.pid (some t) ∧
      t.uid = x.task.uid ∧ t.comm = x.task.comm ∧
      t.text = joinLine (s.lineMap (Event.uuid x.task.pid x.task.uid x.task.comm))
        (Events.commToString (readlineEvent rc x).line.toList) := by
  cases typed : s.typed x.task.pid with
  | some t =>
    obtain ⟨uid, comm⟩ := same t typed
    refine ⟨{ t with lines := t.lines ++ [Events.commToString (readlineEvent rc x).line.toList] },
      ?_, uid, comm, ?_⟩
    · simp only [typedAfter, passes, typed]
      rfl
    · rw [← uid, ← comm, inv.lines _ t typed, Typed.text, List.foldl_append]
      rfl
  | none =>
    refine ⟨⟨x.task.uid, x.task.comm, [Events.commToString (readlineEvent rc x).line.toList]⟩, ?_, rfl,
      rfl, ?_⟩
    · simp only [typedAfter, passes, typed]
      rfl
    · rw [inv.clean _ _ _ (by simp [typed])]
      rfl

/-- What a completed command is sent as. -/
def BashEvent.completed (cfg : Config) (rc : UInt64) (e : BashEvent) : BashEvent :=
  { e with retval := sentRetval cfg.consts rc.toUInt32.toInt32, type := bashEventTypeRetval }

theorem exec_retval {x : Ctx} {rc : UInt64} {eventsT : EventsT} {e : BashEvent}
    (passes : passesFilter cfg.consts x.task = true) (found : eventsT.lookup x.task.pid = some e) :
    exec cfg.consts ⟨x, .retval rc⟩ eventsT =
      (eventsT.delete x.task.pid, [(e.completed cfg rc).bytes]) := by
  simp only [exec, uretprobeBashRetval, passes, found]
  rfl

theorem Inv.step_readline {s : Session} {x : Ctx} {rc : UInt64} (inv : Inv s)
    (passes : passesFilter cfg.consts x.task = true) (room : s.eventsT.HasRoom x.task.pid)
    (same : ∀ t, s.typed x.task.pid = some t → t.uid = x.task.uid ∧ t.comm = x.task.comm)
    (output : List Bytes) :
    Inv ⟨(exec cfg.consts ⟨x, .readline rc⟩ s.eventsT).1,
      (consumeAll cfg (exec cfg.consts ⟨x, .readline rc⟩ s.eventsT).2 s.lineMap).2, output,
      typedAfter cfg s.typed ⟨x, .readline rc⟩⟩ := by
  obtain ⟨typed, after, uid, comm, text⟩ := inv.typed_readline rc passes same
  have ran : exec cfg.consts ⟨x, .readline rc⟩ s.eventsT =
      (s.eventsT.update x.task.pid (readlineEvent rc x), [(readlineEvent rc x).bytes]) := by
    simp only [exec, uretprobeBashReadline, passes]
    rfl
  have consumed := @consume_readline cfg.errNo cfg.useHex (readlineEvent rc x) rfl s.lineMap
  have lineMap : (consumeAll cfg [(readlineEvent rc x).bytes] s.lineMap).2 =
      Function.update s.lineMap (Event.uuid x.task.pid typed.uid typed.comm) typed.text := by
    rw [consumeAll_singleton, consumed, uid, comm, text]
    rfl
  rw [ran, after, lineMap]
  apply inv.add room ⟨rfl, uid.symm, comm.symm⟩
  intro old found
  rw [uid, comm]
  exact same old found

theorem Inv.step_retval {s : Session} {x : Ctx} {rc : UInt64} (inv : Inv s)
    (passes : passesFilter cfg.consts x.task = true) (output : List Bytes) :
    Inv ⟨(exec cfg.consts ⟨x, .retval rc⟩ s.eventsT).1,
      (consumeAll cfg (exec cfg.consts ⟨x, .retval rc⟩ s.eventsT).2 s.lineMap).2, output,
      typedAfter cfg s.typed ⟨x, .retval rc⟩⟩ := by
  cases typed : s.typed x.task.pid with
  | none =>
    have ran : exec cfg.consts ⟨x, .retval rc⟩ s.eventsT = (s.eventsT, []) := by
      simp only [exec, uretprobeBashRetval, inv.absent _ typed, ite_self]
    have after : typedAfter cfg s.typed ⟨x, .retval rc⟩ = s.typed := by
      simp only [typedAfter, passes]
      exact Function.update_eq_self_iff.mpr typed.symm
    rw [ran, after]
    exact ⟨inv.stored, inv.absent, inv.lines, inv.clean⟩
  | some t =>
    obtain ⟨e, found, pid, uid, comm⟩ := inv.stored _ t typed
    have lineMap := @lineMap_consume_retval cfg.errNo cfg.useHex (e.completed cfg rc) rfl s.lineMap
    rw [exec_retval passes found, consumeAll_singleton, lineMap]
    have key : Event.uuid (e.completed cfg rc).pid (e.completed cfg rc).uid (e.completed cfg rc).comm =
        Event.uuid x.task.pid t.uid t.comm := by
      change Event.uuid e.pid e.uid e.comm = _
      rw [pid, uid, comm]
    have after : typedAfter cfg s.typed ⟨x, .retval rc⟩ = Function.update s.typed x.task.pid none := by
      simp only [typedAfter, passes]
      rfl
    rw [key, after]
    exact inv.complete typed

/-- A shell that does not pass the filter leaves no trace. -/
theorem Inv.step_rejected {s : Session} {e : Event} (inv : Inv s)
    (rejected : passesFilter cfg.consts e.ctx.task = false) (notExit : e.prog ≠ .exitOrExec)
    (output : List Bytes) :
    Inv ⟨(exec cfg.consts e s.eventsT).1,
      (consumeAll cfg (exec cfg.consts e s.eventsT).2 s.lineMap).2, output,
      typedAfter cfg s.typed e⟩ := by
  have after : typedAfter cfg s.typed e = s.typed := by
    simp [typedAfter, rejected]
  have ran : exec cfg.consts e s.eventsT = (s.eventsT, []) := by
    unfold exec
    split
    · simp [uretprobeBashReadline, rejected]
    · simp [uretprobeBashRetval, rejected]
    · contradiction
  rw [ran, after]
  exact ⟨inv.stored, inv.absent, inv.lines, inv.clean⟩

theorem Inv.step {s t : Session} {e : Event} (inv : Inv s) (steady : Steady cfg s e)
    (moved : sessionStep cfg s e = some t) : Inv t := by
  rw [printed_step moved]
  cases passes : passesFilter cfg.consts e.ctx.task with
  | false =>
    apply inv.step_rejected passes
    intro isExit
    have := steady.2
    simp only [isExit] at this
  | true =>
    obtain ⟨x, prog⟩ := e
    cases prog with
    | readline rc =>
      obtain ⟨room, same⟩ := steady.2 passes
      exact inv.step_readline passes room same _
    | retval rc => exact inv.step_retval passes _
    | exitOrExec => exact steady.2.elim

/-! ## The composition of the two filters -/

/-- What the two filters leave of a completed command. -/
def shown (cfg : Config) (pid : UInt32) (t : Typed) (r : Int32) : List Bytes :=
  if sentRetval cfg.consts r = cfg.errNo.toUInt64.toUInt32 then []
  else commandLine cfg pid t (dec (sentRetval cfg.consts r).toNat)

/-- A shell of process 1 where `w` is typed. -/
def shell : Ctx :=
  { task := { pidTgid := 0x100000001, uidGid := 0, cgroupId := 0, comm := zeros 16 }
    mem := ⟨fun _ _ => some (Vector.ofFn fun i => if i.val = 0 then 119 else 0)⟩ }

end ECapture.Kernel.Bash
