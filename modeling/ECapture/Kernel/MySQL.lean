import ECapture.Kernel.Ssl
import ECapture.Library.Pointwise
import ECapture.Library.Steps

/-!
# The kernel programs of the MySQL probe

`kern/mysqld_kern.c`: the probes on `dispatch_command`, one pair for 5.6 and MariaDB and one pair for
5.7 and 8.0. The entry probe stores a COM_QUERY under the id of the process; the return probe of any
command sends what it finds there, and leaves it there.

The `tracer` runs them beside the calls that the server threads are in. The records are those of the
COM_QUERY calls as long as a process has one command at a time that the probes look at.
-/

namespace ECapture.Kernel.MySQL
open Library Ssl

/-! ## Structs and maps -/

/-- `MAX_DATA_SIZE_MYSQL`. -/
abbrev maxDataSizeMysql : Nat := 256

def comQuery : UInt64 := 3

/-- `struct data_t`. -/
structure DataT where
  pid : UInt64
  timestamp : UInt64
  query : Vector UInt8 maxDataSizeMysql
  alllen : UInt64
  len : UInt64
  comm : Vector UInt8 16
  retval : Int8
  deriving DecidableEq

/-- `sql_hash` and the ring `events`. -/
structure Maps where
  sqlHash : Table UInt32 DataT
  events : List DataT

def Maps.new : Maps := ⟨.empty _ _ 1024, []⟩

/-- The two pairs of programs. -/
inductive Version where
  | v56
  | v57

/-- What a program reads. `query` is the address of the local variable of that name, on the stack of
the program. -/
structure Ctx where
  task : Task
  ktime : UInt64
  mem : UserMemory
  query : UInt64

/-- The four argument registers at an entry. -/
structure Regs where
  parm1 : UInt64
  parm2 : UInt64
  parm3 : UInt64
  parm4 : UInt64

def Regs.command (r : Regs) : Version → UInt64
  | .v56 => r.parm1
  | .v57 => r.parm3

/-! ## The programs -/

/-- `data.len`. -/
def queryLen (len : UInt64) : UInt64 := if len < 256 then len &&& (256 - 1) else 256

/-- What `mysql56_query` stores. -/
def data56 (r : Regs) (x : Ctx) : DataT :=
  { pid := x.task.pid.toUInt64
    timestamp := x.ktime
    query := overwrite (zeros _) (x.mem.probeRead r.parm3 (queryLen r.parm4).toNat).2
    alllen := r.parm4
    len := queryLen r.parm4
    comm := x.task.comm
    retval := -1 }

/-- What `mysql57_query` stores. The length is read as if the local `query` were user memory. -/
def data57 (r : Regs) (x : Ctx) : DataT :=
  let query := (x.mem.probeRead r.parm2 16).2
  let alllen := (x.mem.probeReadU64 (x.query + 8)).2
  { pid := x.task.pid.toUInt64
    timestamp := x.ktime
    query := (x.mem.probeRead (UInt64.ofNat (leNat (query.toList.take 8))) maxDataSizeMysql).2
    alllen
    len := queryLen alllen
    comm := x.task.comm
    retval := 0 }

def entryData : Version → Regs → Ctx → DataT
  | .v56 => data56
  | .v57 => data57

/-- `mysql56_query` and `mysql57_query`. -/
def query (v : Version) (c : Consts) (r : Regs) (x : Ctx) (s : Maps) : Maps :=
  if r.command v ≠ comQuery then s
  else if !passesFilter c x.task then s
  else { s with sqlHash := s.sqlHash.update x.task.pid (entryData v r x) }

/-- `DISPATCH_COMMAND_V57_FAILED`. -/
def dispatchCommandV57Failed : Int8 := -2

/-- The return value in a record. -/
def retval (v : Version) (rc : UInt64) : Int8 :=
  match v with
  | .v56 => rc.toUInt8.toInt8
  | .v57 => if rc.toUInt8 = 1 then dispatchCommandV57Failed else rc.toUInt8.toInt8

/-- `mysql56_query_return` and `mysql57_query_return`: the value in the map is changed in place. -/
def queryReturn (v : Version) (c : Consts) (rc : UInt64) (x : Ctx) (s : Maps) : Maps :=
  if !passesFilter c x.task then s
  else
    match s.sqlHash.lookup x.task.pid with
    | none => s
    | some data =>
      let data := { data with retval := retval v rc }
      { sqlHash := s.sqlHash.update x.task.pid data, events := s.events ++ [data] }

/-! ## Calls -/

/-- A call of `dispatch_command` at its entry. -/
structure Entry where
  regs : Regs
  ctx : Ctx

structure Call where
  entry : Entry
  ret : Ctx
  rc : UInt64

/-- A COM_QUERY of a process that is traced. -/
def Entry.traced (v : Version) (c : Consts) (e : Entry) : Prop :=
  e.regs.command v = comQuery ∧ passesFilter c e.ctx.task = true

instance (v : Version) (c : Consts) (e : Entry) : Decidable (e.traced v c) :=
  inferInstanceAs (Decidable (_ ∧ _))

/-- The record that a call should give: its own entry with its own return value. -/
def Call.record (v : Version) (k : Call) : DataT :=
  { entryData v k.entry.regs k.entry.ctx with retval := retval v k.rc }

inductive Event where
  | entry (regs : Regs) (ctx : Ctx)
  | ret (rc : UInt64) (ctx : Ctx)

structure Traced where
  maps : Maps
  opened : UInt64 → Option Entry
  returned : List Call

section

variable (v : Version) (c : Consts)

/-- A thread enters the function when it is not in it, and returns when it is. -/
def trace (s : Traced) : Event → Option Traced
  | .entry regs x =>
    match s.opened x.task.pidTgid with
    | some _ => none
    | none =>
      some { s with
        maps := query v c regs x s.maps
        opened := Function.update s.opened x.task.pidTgid (some ⟨regs, x⟩) }
  | .ret rc x =>
    match s.opened x.task.pidTgid with
    | none => none
    | some entry =>
      some { maps := queryReturn v c rc x s.maps
             opened := Function.update s.opened x.task.pidTgid none
             returned := s.returned ++ [⟨entry, x, rc⟩] }

def tracer : Machine Traced Event := { init := ⟨.new, fun _ => none, []⟩, step := trace v c }

/-- One record for each returned COM_QUERY call, with its own data, and none for other calls. -/
def RecordsMatch (s : Traced) : Prop :=
  s.maps.events = (s.returned.filter fun k => k.entry.traced v c).map (Call.record v)

/-- One command at a time: when a COM_QUERY is entered its process has no other COM_QUERY open and
the map has room; when one returns the filter says what it said at the entry; and another command
returns only in a process that has never been in a COM_QUERY. -/
def Sequential (s : Traced) : Event → Prop
  | .entry regs x =>
    Entry.traced v c ⟨regs, x⟩ → s.maps.sqlHash.HasRoom x.task.pid ∧
      ∀ thread e, s.opened thread = some e → e.ctx.task.pid = x.task.pid → ¬e.traced v c
  | .ret _ x =>
    ∀ e, s.opened x.task.pidTgid = some e →
      if e.regs.command v = comQuery then
        passesFilter c x.task = passesFilter c e.ctx.task
      else passesFilter c x.task = true → s.maps.sqlHash.lookup x.task.pid = none

end

/-! ## The invariant -/

variable {v : Version} {c : Consts}

structure Inv (v : Version) (c : Consts) (s : Traced) : Prop where
  owner : ∀ thread e, s.opened thread = some e → e.ctx.task.pidTgid = thread
  alone : ∀ thread e thread' e', s.opened thread = some e → s.opened thread' = some e' →
    e.ctx.task.pid = e'.ctx.task.pid → e.traced v c → e'.traced v c → thread = thread'
  /-- The process of an open COM_QUERY has its data in the map. -/
  stored : ∀ thread e, s.opened thread = some e → e.traced v c →
    s.maps.sqlHash.lookup e.ctx.task.pid = some (entryData v e.regs e.ctx)
  records : RecordsMatch v c s

theorem Inv.init : Inv v c (tracer v c).init where
  owner _ _ found := by cases found
  alone _ _ _ _ found := by cases found
  stored _ _ found := by cases found
  records := rfl

theorem query_traced {regs : Regs} {x : Ctx} (s : Maps) (h : Entry.traced v c ⟨regs, x⟩) :
    query v c regs x s = { s with sqlHash := s.sqlHash.update x.task.pid (entryData v regs x) } := by
  rw [query, if_neg (not_not.mpr h.1), if_neg (by simpa using h.2)]

theorem query_untraced {regs : Regs} {x : Ctx} (s : Maps) (h : ¬Entry.traced v c ⟨regs, x⟩) :
    query v c regs x s = s := by
  unfold query
  unfold Entry.traced at h
  grind

theorem Inv.entry {s : Traced} {regs : Regs} {x : Ctx} (inv : Inv v c s)
    (sequential : Sequential v c s (.entry regs x)) :
    Inv v c { s with
      maps := query v c regs x s.maps
      opened := Function.update s.opened x.task.pidTgid (some ⟨regs, x⟩) } := by
  refine ⟨?_, ?_, ?_, ?_⟩
  · intro thread e found
    rcases update_some_cases found with ⟨rfl, rfl⟩ | found
    · rfl
    · exact inv.owner thread e found
  · intro thread e thread' e' found found' samePid traced traced'
    rcases update_some_cases found with ⟨rfl, rfl⟩ | found <;>
      rcases update_some_cases found' with ⟨rfl, rfl⟩ | found'
    · rfl
    · exact absurd traced' ((sequential traced).2 thread' e' found' samePid.symm)
    · exact absurd traced ((sequential traced').2 thread e found samePid)
    · exact inv.alone thread e thread' e' found found' samePid traced traced'
  · intro thread e found traced
    rcases update_some_cases found with ⟨rfl, rfl⟩ | found
    · rw [query_traced _ traced]
      exact Table.lookup_update_self (sequential traced).1 _
    · by_cases entering : Entry.traced v c ⟨regs, x⟩
      · have other : e.ctx.task.pid ≠ x.task.pid := fun samePid =>
          (sequential entering).2 thread e found samePid traced
        rw [query_traced _ entering]
        dsimp only
        rw [Table.lookup_update_of_ne other]
        exact inv.stored thread e found traced
      · rw [query_untraced _ entering]
        exact inv.stored thread e found traced
  · by_cases entering : Entry.traced v c ⟨regs, x⟩
    · rw [query_traced _ entering]
      exact inv.records
    · rw [query_untraced _ entering]
      exact inv.records

/-- The return of a call that is not traced does nothing. -/
theorem queryReturn_untraced {s : Traced} {rc : UInt64} {x : Ctx} {e : Entry}
    (sequential : Sequential v c s (.ret rc x)) (found : s.opened x.task.pidTgid = some e)
    (untraced : ¬e.traced v c) : queryReturn v c rc x s.maps = s.maps := by
  have allowed := sequential e found
  unfold Entry.traced at untraced
  unfold queryReturn
  grind

/-- The return of a traced call sends its own data. -/
theorem Inv.queryReturn_traced {s : Traced} {rc : UInt64} {x : Ctx} {e : Entry} (inv : Inv v c s)
    (sequential : Sequential v c s (.ret rc x)) (found : s.opened x.task.pidTgid = some e)
    (traced : e.traced v c) :
    queryReturn v c rc x s.maps =
      { sqlHash := s.maps.sqlHash.update x.task.pid (Call.record v ⟨e, x, rc⟩)
        events := s.maps.events ++ [Call.record v ⟨e, x, rc⟩] } := by
  have passes : passesFilter c x.task = true := by
    have allowed := sequential e found
    rw [if_pos traced.1] at allowed
    rw [allowed]
    exact traced.2
  have process : e.ctx.task.pid = x.task.pid :=
    congrArg (fun id : UInt64 => (id >>> 32).toUInt32) (inv.owner _ e found)
  have stored := inv.stored _ e found traced
  rw [process] at stored
  rw [queryReturn, passes, stored]
  rfl

theorem Inv.ret {s : Traced} {rc : UInt64} {x : Ctx} {e : Entry} (inv : Inv v c s)
    (sequential : Sequential v c s (.ret rc x)) (found : s.opened x.task.pidTgid = some e) :
    Inv v c { maps := queryReturn v c rc x s.maps
              opened := Function.update s.opened x.task.pidTgid none
              returned := s.returned ++ [⟨e, x, rc⟩] } := by
  have process : e.ctx.task.pid = x.task.pid :=
    congrArg (fun id : UInt64 => (id >>> 32).toUInt32) (inv.owner _ e found)
  refine ⟨?_, ?_, ?_, ?_⟩
  · intro thread e' open'
    exact inv.owner thread e' (of_update_none open').2
  · intro thread e' thread' e'' open' open''
    exact inv.alone thread e' thread' e'' (of_update_none open').2 (of_update_none open'').2
  · intro thread e' open' traced'
    obtain ⟨other, open'⟩ := of_update_none open'
    by_cases traced : e.traced v c
    · have otherPid : e'.ctx.task.pid ≠ x.task.pid := by
        intro samePid
        exact other (inv.alone thread e' _ e open' found (samePid.trans process.symm) traced' traced)
      rw [inv.queryReturn_traced sequential found traced]
      dsimp only
      rw [Table.lookup_update_of_ne otherPid]
      exact inv.stored thread e' open' traced'
    · rw [queryReturn_untraced sequential found traced]
      exact inv.stored thread e' open' traced'
  · have records := inv.records
    unfold RecordsMatch at records ⊢
    by_cases traced : e.traced v c
    · rw [inv.queryReturn_traced sequential found traced]
      simp [records, traced]
    · rw [queryReturn_untraced sequential found traced]
      simp [records, traced]

theorem Inv.step {s t : Traced} {e : Event} (inv : Inv v c s) (sequential : Sequential v c s e)
    (moved : trace v c s e = some t) : Inv v c t := by
  cases e with
  | entry regs x =>
    simp only [trace] at moved
    split at moved
    case h_1 => cases moved
    case h_2 =>
      cases moved
      exact inv.entry sequential
  | ret rc x =>
    simp only [trace] at moved
    split at moved
    case h_1 => cases moved
    case h_2 e found =>
      cases moved
      exact inv.ret sequential found

/-- A thread of process 1 at a time. -/
def serverThread (tid ktime : UInt64) : Ctx :=
  { task := { pidTgid := 0x100000000 + tid, uidGid := 0, cgroupId := 0, comm := zeros 16 }
    ktime
    mem := ⟨fun _ _ => none⟩
    query := 0 }

def returns (tid ktime : UInt64) : Event := .ret 0 (serverThread tid ktime)

end ECapture.Kernel.MySQL
