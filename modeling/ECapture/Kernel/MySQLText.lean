import ECapture.Kernel.Lines
import ECapture.Kernel.MySQLLength
import ECapture.Library.Calls

/-!
# The text of MySQL queries

Text mode of the MySQL probe from end to end. A record is kept under its process, so that the queries
of a server with several threads may be mixed up, but never those of two servers. When a server has
one command at a time, there is one line for each query.
-/

namespace ECapture.Kernel.MySQL
open Library Ssl Events.ReaderLoop

/-! ## The probe -/

/-- `String` of an event whose query is as long as it says; `StringHex` is the same. -/
def text (e : Events.MySQL.Event) : Bytes :=
  str "MySQL Query[PID=" ++ dec e.pid.toNat ++ str ", Comm=" ++
    Events.commToString e.comm.toList ++ str ", Len=" ++ dec e.len.toNat ++ str "/" ++
    dec e.alllen.toNat ++ str ", Status=" ++ Events.MySQL.Event.status e.retval ++ str "]: " ++
    Events.commToString (e.query.toList.take e.len.toNat)

def probe : Probe Events.MySQL.Event :=
  { decode := Events.MySQL.Event.decodeFromBytes.run
    validate := Events.MySQL.Event.validate
    string := text
    stringHex := text
    perfMonoNs := some Events.MySQL.Event.timestamp }

theorem decode_bytes (d : DataT) (pad : Bytes) : probe.decode (d.bytes ++ pad) = .ok d.event := by
  have retval : readI8 (leBytes 1 d.retval.toUInt8.toNat ++ ((zeros 7).toList ++ pad)) =
      .ok (d.retval, (zeros 7).toList ++ pad) := by
    rw [readI8, Reader.map_ok (readU8_leBytes _ _)]
    simp
  simp only [probe, Reader.run, Events.MySQL.Event.decodeFromBytes, DataT.bytes, List.append_assoc]
  rw [Reader.bind_ok (Events.MySQL.Event.field_ok (readU64_leBytes d.pid _)),
    Reader.bind_ok (Events.MySQL.Event.field_ok (readU64_leBytes d.timestamp _)),
    Reader.bind_ok (Events.MySQL.Event.field_ok (readFull_append d.query _)),
    Reader.bind_ok (Events.MySQL.Event.field_ok (readU64_leBytes d.alllen _)),
    Reader.bind_ok (Events.MySQL.Event.field_ok (readU64_leBytes d.len _)),
    Reader.bind_ok (Events.MySQL.Event.field_ok (readFull_append d.comm _)),
    Reader.bind_ok (Events.MySQL.Event.field_ok retval)]
  rfl

/-- The length of a record is that of its query, as far as there is room. -/
def Bounded (d : DataT) : Prop := d.len = queryLen d.alllen

/-- What a return program is given. -/
structure Return where
  rc : UInt64
  ctx : Ctx

/-- The two programs, which name a call by its process. -/
def probes (v : Version) (c : Consts) : CallProbes UInt32 Entry Return Maps where
  init := .new
  caller e := e.ctx.task.pid
  returner y := y.ctx.task.pid
  entry e := query v c e.regs e.ctx
  ret y := queryReturn v c y.rc y.ctx

/-- Data without the return value, which a return changes in place. -/
def DataT.core (d : DataT) : DataT := { d with retval := 0 }

/-- What the entry program stores. -/
def stored (v : Version) (c : Consts) (x : Entry) : Option DataT :=
  if x.traced v c then some (entryData v x.regs x.ctx).core else none

theorem lookup_query_of_ne (v : Version) (c : Consts) {x : Entry} (s : Maps) {k : UInt32}
    (other : k ≠ x.ctx.task.pid) :
    (query v c x.regs x.ctx s).sqlHash.lookup k = s.sqlHash.lookup k := by
  by_cases traced : x.traced v c
  · rw [query_traced s traced]
    exact Table.lookup_update_of_ne other _ _
  · rw [query_untraced s traced]

theorem lookup_queryReturn (v : Version) (c : Consts) (y : Return) (s : Maps) (k : UInt32) :
    ((queryReturn v c y.rc y.ctx s).sqlHash.lookup k).map DataT.core =
      (s.sqlHash.lookup k).map DataT.core := by
  unfold queryReturn
  split
  · rfl
  · cases found : s.sqlHash.lookup y.ctx.task.pid with
    | none => rfl
    | some d =>
      by_cases same : k = y.ctx.task.pid
      · subst same
        simp [Table.lookup_update_self (Table.hasRoom_of_lookup found), found, DataT.core]
      · simp only [Table.lookup_update_of_ne same]

/-- The data of a query is handed over under the process of its server. -/
def handover (v : Version) (c : Consts) : (probes v c).Handover DataT DataT where
  held s k := (s.sqlHash.lookup k).map DataT.core
  records := Maps.events
  Sound _ := True
  store := stored v c
  Room x s := s.sqlHash.HasRoom x.ctx.task.pid
  Evicts _ _ := False
  emits y _ := passesFilter c y.ctx.task
  Describes y d r := r = { d with retval := retval v y.rc }
  init_sound := trivial
  init_held k := by
    change (Maps.new.sqlHash.lookup k).map DataT.core = none
    rw [Maps.new, Table.lookup_empty]
    rfl
  init_records := rfl
  entry_sound _ _ _ := trivial
  entry_records x s := by
    change (query v c x.regs x.ctx s).events = s.events
    unfold query
    split
    · rfl
    · split <;> rfl
  entry_other x s k other _ := congrArg (Option.map DataT.core) (lookup_query_of_ne v c s other)
  entry_evicts x s k d other held :=
    (congrArg (Option.map DataT.core) (lookup_query_of_ne v c s other)).symm.trans held
  entry_turned_away x s turned_away := by
    refine query_untraced s fun traced => ?_
    simp [stored, traced] at turned_away
  entry_self x s d isStored room := by
    change ((query v c x.regs x.ctx s).sqlHash.lookup x.ctx.task.pid).map DataT.core = some d
    by_cases traced : x.traced v c
    · rw [query_traced s traced]
      dsimp only
      rw [Table.lookup_update_self room]
      simpa [stored, traced] using isStored
    · simp [stored, traced] at isStored
  entry_only x s d held := by
    change ((query v c x.regs x.ctx s).sqlHash.lookup x.ctx.task.pid).map DataT.core = some d
      at held
    by_cases traced : x.traced v c
    · rw [query_traced s traced] at held
      dsimp only at held
      obtain ⟨d', found, rfl⟩ := Option.map_eq_some_iff.mp held
      rcases Table.lookup_update_cases found with ⟨-, rfl⟩ | ⟨other, -⟩
      · exact .inl (by simp [stored, traced])
      · exact absurd rfl other
    · rw [query_untraced s traced] at held
      exact .inr held
  ret_sound _ _ _ := trivial
  ret_other y s k _ := lookup_queryReturn v c y s k
  ret_only y s d held := by
    rwa [← lookup_queryReturn v c y s]
  ret_emits y s d _ held emits := by
    obtain ⟨d', found, rfl⟩ := Option.map_eq_some_iff.mp held
    refine ⟨_, rfl, ?_⟩
    change (queryReturn v c y.rc y.ctx s).events = _
    rw [queryReturn, emits]
    have found : s.sqlHash.lookup y.ctx.task.pid = some d' := found
    simp [found, DataT.core]
  ret_silent y s silent := by
    change (queryReturn v c y.rc y.ctx s).events = s.events
    unfold queryReturn
    cases passes : passesFilter c y.ctx.task with
    | false => rfl
    | true =>
      cases found : s.sqlHash.lookup y.ctx.task.pid with
      | none => rfl
      | some d =>
        have quiet := silent d.core (by
          change (s.sqlHash.lookup y.ctx.task.pid).map DataT.core = _
          rw [found]
          rfl)
        rw [passes] at quiet
        cases quiet

/-- The line of a record. -/
def DataT.line (d : DataT) : Bytes := withNewline (text d.event)

section Lines

variable {κ : Type} {record : κ → DataT}

end Lines

end ECapture.Kernel.MySQL
