import ECapture.Kernel.GnuTLS
import ECapture.Kernel.SslCalls
import ECapture.Library.Calls

/-!
# Handshakes of GnuTLS and BoringSSL

The two pairs of programs that wait for the end of a handshake: on `gnutls_handshake`
(`kern/gnutls_masterkey.h`) and on `SSL_do_handshake` (`kern/boringssl_masterkey.h`). The entry
program keeps the session under the thread, the return program reads the secrets out of it.
GnuTLS never removes what it has kept; BoringSSL does when the handshake has succeeded.

The sessions are kept in an LRU map. An update of it always takes effect and may remove elements
of other keys, which the kernel chooses.
-/

namespace ECapture.Kernel
open Library

/-! ## LRU maps -/

/-- `BPF_MAP_TYPE_LRU_HASH`. -/
abbrev LruHash (κ ν : Type) := κ → Option ν

namespace LruHash

variable {κ ν : Type} [DecidableEq κ]

/-- An update during which the kernel removes the elements that are `evicted`. -/
def update (evicted : κ → Bool) (k : κ) (v : ν) (m : LruHash κ ν) : LruHash κ ν :=
  Function.update (fun k' => if evicted k' then none else m k') k (some v)

def delete (k : κ) (m : LruHash κ ν) : LruHash κ ν := Function.update m k none

@[simp] theorem update_self (evicted : κ → Bool) (k : κ) (v : ν) (m : LruHash κ ν) :
    m.update evicted k v k = some v :=
  Function.update_self ..

theorem update_of_ne {k k' : κ} (other : k' ≠ k) (evicted : κ → Bool) (v : ν) (m : LruHash κ ν) :
    m.update evicted k v k' = if evicted k' then none else m k' :=
  Function.update_of_ne other ..

@[simp] theorem delete_self (k : κ) (m : LruHash κ ν) : m.delete k k = none :=
  Function.update_self ..

theorem delete_of_ne {k k' : κ} (other : k' ≠ k) (m : LruHash κ ν) : m.delete k k' = m k' :=
  Function.update_of_ne other ..

end LruHash

namespace Handshakes

/-- `gnutls_session_maps` or `bssl_do_handshake_map`, and `mastersecret_gnutls_events` or
`mastersecret_events`. -/
structure Maps where
  sessions : LruHash UInt64 UInt64
  events : List Bytes

/-! ## The programs -/

structure Entry where
  ctx : Ssl.Ctx
  /-- The first argument: the session. -/
  parm1 : UInt64
  /-- What the kernel removes if the program updates the map. -/
  evicted : UInt64 → Bool

structure Return where
  ctx : Ssl.Ctx
  rc : UInt64

def uprobeGnutlsMasterKey (c : Consts) (x : Entry) (s : Maps) : Maps :=
  if !passesFilter c x.ctx.task then s
  else { s with sessions := s.sessions.update x.evicted x.ctx.task.pidTgid x.parm1 }

def uretprobeGnutlsMasterKey (c : Consts) (off : GnuTLS.GnutlsOffsets) (y : Return) (s : Maps) :
    Maps :=
  match GnuTLS.uretprobeGnutlsMasterKey off y.ctx.mem (passesFilter c y.ctx.task) y.rc
    (s.sessions y.ctx.task.pidTgid) with
  | some r => { s with events := s.events ++ [r.bytes] }
  | none => s

def uprobeBsslDoHandshake (c : Consts) (x : Entry) (s : Maps) : Maps :=
  if !passesFilter c x.ctx.task then s
  else { s with sessions := s.sessions.update x.evicted x.ctx.task.pidTgid (untagPtr x.parm1) }

/-- The element is deleted once it has been found, before any memory is read. -/
def uretprobeBsslDoHandshake (c : Consts) (off : BsslOffsets) (y : Return) (s : Maps) : Maps :=
  let passes := passesFilter c y.ctx.task
  let retVal := y.rc.toUInt32.toInt32
  let record := Kernel.uretprobeBsslDoHandshake off y.ctx.mem passes retVal
    (s.sessions y.ctx.task.pidTgid)
  let sessions := if passes ∧ retVal = 1 then s.sessions.delete y.ctx.task.pidTgid else s.sessions
  { sessions, events := s.events ++ (record.map MastersecretBssl.bytes).toList }

/-- What the two pairs have in common. -/
structure Pair where
  /-- What is kept of the argument. -/
  keeps : UInt64 → UInt64
  /-- The record for a session. -/
  record : Return → UInt64 → Option Bytes
  forgets : Return → Bool

def Pair.entry (p : Pair) (c : Consts) (x : Entry) (s : Maps) : Maps :=
  if !passesFilter c x.ctx.task then s
  else { s with sessions := s.sessions.update x.evicted x.ctx.task.pidTgid (p.keeps x.parm1) }

def Pair.ret (p : Pair) (y : Return) (s : Maps) : Maps :=
  { sessions := if p.forgets y then s.sessions.delete y.ctx.task.pidTgid else s.sessions
    events := s.events ++ ((s.sessions y.ctx.task.pidTgid).bind (p.record y)).toList }

def gnutls (c : Consts) (off : GnuTLS.GnutlsOffsets) : Pair :=
  { keeps := id
    record := fun y session => (GnuTLS.uretprobeGnutlsMasterKey off y.ctx.mem
      (passesFilter c y.ctx.task) y.rc (some session)).map GnuTLS.GnutlsMastersecret.bytes
    forgets := fun _ => false }

def boringssl (c : Consts) (off : BsslOffsets) : Pair :=
  { keeps := untagPtr
    record := fun y session => (Kernel.uretprobeBsslDoHandshake off y.ctx.mem
      (passesFilter c y.ctx.task) y.rc.toUInt32.toInt32 (some session)).map MastersecretBssl.bytes
    forgets := fun y => decide (passesFilter c y.ctx.task ∧ y.rc.toUInt32.toInt32 = 1) }

theorem uprobeGnutlsMasterKey_eq (c : Consts) (off : GnuTLS.GnutlsOffsets) :
    uprobeGnutlsMasterKey c = (gnutls c off).entry c := rfl

theorem uprobeBsslDoHandshake_eq (c : Consts) (off : BsslOffsets) :
    uprobeBsslDoHandshake c = (boringssl c off).entry c := rfl

/-- Without a session there is no record. -/
theorem uretprobeGnutlsMasterKey_none (off : GnuTLS.GnutlsOffsets) (mem : UserMemory) (p : Bool)
    (rc : UInt64) : GnuTLS.uretprobeGnutlsMasterKey off mem p rc none = none := by
  unfold GnuTLS.uretprobeGnutlsMasterKey
  split <;> rfl

theorem uretprobeBsslDoHandshake_none (off : BsslOffsets) (mem : UserMemory) (p : Bool)
    (retVal : Int32) : Kernel.uretprobeBsslDoHandshake off mem p retVal none = none := by
  unfold Kernel.uretprobeBsslDoHandshake
  split <;> rfl

theorem uretprobeGnutlsMasterKey_eq (c : Consts) (off : GnuTLS.GnutlsOffsets) :
    uretprobeGnutlsMasterKey c off = (gnutls c off).ret := by
  funext y s
  unfold uretprobeGnutlsMasterKey Pair.ret gnutls
  cases s.sessions y.ctx.task.pidTgid with
  | none => simp [uretprobeGnutlsMasterKey_none]
  | some session =>
    cases made : GnuTLS.uretprobeGnutlsMasterKey off y.ctx.mem (passesFilter c y.ctx.task) y.rc
      (some session) <;> simp [made]

theorem uretprobeBsslDoHandshake_eq (c : Consts) (off : BsslOffsets) :
    uretprobeBsslDoHandshake c off = (boringssl c off).ret := by
  funext y s
  unfold uretprobeBsslDoHandshake Pair.ret boringssl
  cases s.sessions y.ctx.task.pidTgid with
  | none => simp [uretprobeBsslDoHandshake_none]
  | some session => simp

/-! ## Records and handshakes -/

def probes (p : Pair) (c : Consts) : CallProbes UInt64 Entry Return Maps :=
  { init := ⟨fun _ => none, []⟩
    caller := fun x => x.ctx.task.pidTgid
    returner := fun y => y.ctx.task.pidTgid
    entry := p.entry c
    ret := p.ret }

/-- The record is what the return program reads from this session. -/
def Describes (p : Pair) (y : Return) (session : UInt64) (record : Bytes) : Prop :=
  p.record y session = some record

def store (p : Pair) (c : Consts) (x : Entry) : Option UInt64 :=
  if passesFilter c x.ctx.task then some (p.keeps x.parm1) else none

theorem store_eq_some {p : Pair} {c : Consts} {x : Entry} {session : UInt64}
    (stored : store p c x = some session) :
    passesFilter c x.ctx.task = true ∧ session = p.keeps x.parm1 := by
  unfold store at stored
  split at stored
  case isTrue passes => exact ⟨passes, (Option.some.inj stored).symm⟩
  case isFalse => cases stored

theorem entry_of_store {p : Pair} {c : Consts} {x : Entry} {session : UInt64}
    (stored : store p c x = some session) (s : Maps) :
    p.entry c x s =
      { s with sessions := s.sessions.update x.evicted x.ctx.task.pidTgid session } := by
  obtain ⟨passes, rfl⟩ := store_eq_some stored
  simp [Pair.entry, passes]

theorem entry_of_store_none {p : Pair} {c : Consts} {x : Entry} (turned_away : store p c x = none)
    (s : Maps) : p.entry c x s = s := by
  have rejects : passesFilter c x.ctx.task = false := by
    by_contra passes
    simp [store, passes] at turned_away
  simp [Pair.entry, rejects]

theorem sessions_entry (p : Pair) (c : Consts) (x : Entry) (s : Maps) {k : UInt64}
    (other : k ≠ x.ctx.task.pidTgid) :
    (p.entry c x s).sessions k = s.sessions k ∨
      x.evicted k = true ∧ (p.entry c x s).sessions k = none := by
  cases stored : store p c x with
  | none => exact .inl (by rw [entry_of_store_none stored])
  | some session =>
    simp only [entry_of_store stored, LruHash.update_of_ne other]
    cases evicted : x.evicted k with
    | true => exact .inr ⟨rfl, rfl⟩
    | false => exact .inl rfl

theorem sessions_ret (p : Pair) (y : Return) (s : Maps) {k : UInt64}
    (other : k ≠ y.ctx.task.pidTgid) : (p.ret y s).sessions k = s.sessions k := by
  unfold Pair.ret
  dsimp only
  split
  · exact LruHash.delete_of_ne other _
  · rfl

def handover (p : Pair) (c : Consts) : (probes p c).Handover UInt64 Bytes where
  held s k := s.sessions k
  records := Maps.events
  Sound _ := True
  store := store p c
  Room _ _ := True
  Evicts x k := x.evicted k = true
  emits y session := (p.record y session).isSome
  Describes := Describes p
  init_sound := trivial
  init_held _ := rfl
  init_records := rfl
  entry_sound _ _ _ := trivial
  entry_records x s := by
    cases stored : store p c x with
    | none =>
      change (p.entry c x s).events = s.events
      rw [entry_of_store_none stored]
    | some session =>
      change (p.entry c x s).events = s.events
      rw [entry_of_store stored]
  entry_other x s k other kept := by
    rcases sessions_entry p c x s other with same | ⟨evicted, -⟩
    · exact same
    · exact absurd evicted kept
  entry_evicts x s k session other held := by
    rcases sessions_entry p c x s other with same | ⟨-, gone⟩
    · rw [← same]
      exact held
    · have held : (p.entry c x s).sessions k = some session := held
      rw [gone] at held
      cases held
  entry_turned_away x s turned_away := entry_of_store_none turned_away s
  entry_self x s session stored _ := by
    change (p.entry c x s).sessions x.ctx.task.pidTgid = some session
    simp [entry_of_store stored]
  entry_only x s session held := by
    have held : (p.entry c x s).sessions x.ctx.task.pidTgid = some session := held
    cases stored : store p c x with
    | none => exact .inr (by rwa [entry_of_store_none stored] at held)
    | some kept => exact .inl (by simpa [entry_of_store stored] using held)
  ret_sound _ _ _ := trivial
  ret_other y s k other := sessions_ret p y s other
  ret_only y s session held := by
    have held : (p.ret y s).sessions y.ctx.task.pidTgid = some session := held
    change s.sessions y.ctx.task.pidTgid = some session
    cases forgets : p.forgets y with
    | true => simp [Pair.ret, forgets] at held
    | false => simpa [Pair.ret, forgets] using held
  ret_emits y s session _ held emitted := by
    have held : s.sessions y.ctx.task.pidTgid = some session := held
    obtain ⟨record, made⟩ := Option.isSome_iff_exists.mp emitted
    refine ⟨record, made, ?_⟩
    change (p.ret y s).events = s.events ++ [record]
    simp [Pair.ret, held, made]
  ret_silent y s silent := by
    change (p.ret y s).events = s.events
    cases held : s.sessions y.ctx.task.pidTgid with
    | none => simp [Pair.ret, held]
    | some session =>
      have none : p.record y session = none := by simpa using silent session held
      simp [Pair.ret, held, none]

/-! ## The two libraries -/

inductive Tls where
  | gnutls (off : GnuTLS.GnutlsOffsets)
  | boringssl (off : BsslOffsets)

namespace Tls

def pair (c : Consts) : Tls → Pair
  | gnutls off => Handshakes.gnutls c off
  | boringssl off => Handshakes.boringssl c off

def probes (c : Consts) (t : Tls) : CallProbes UInt64 Entry Return Maps :=
  { init := ⟨fun _ => none, []⟩
    caller := fun x => x.ctx.task.pidTgid
    returner := fun y => y.ctx.task.pidTgid
    entry :=
      match t with
      | gnutls _ => uprobeGnutlsMasterKey c
      | boringssl _ => uprobeBsslDoHandshake c
    ret :=
      match t with
      | gnutls off => uretprobeGnutlsMasterKey c off
      | boringssl off => uretprobeBsslDoHandshake c off }

theorem probes_eq (c : Consts) (t : Tls) : t.probes c = Handshakes.probes (t.pair c) c := by
  cases t with
  | gnutls off => simp only [probes, uretprobeGnutlsMasterKey_eq]; rfl
  | boringssl off => simp only [probes, uretprobeBsslDoHandshake_eq]; rfl

/-- What the return program emits for a session. -/
def record (c : Consts) (t : Tls) (y : Return) (session : UInt64) : Option Bytes :=
  (t.pair c).record y session

/-- What the entry program keeps of the session: BoringSSL removes the tag of the pointer. -/
def keeps : Tls → UInt64 → UInt64
  | gnutls _, session => session
  | boringssl _, session => untagPtr session

theorem keeps_pair (c : Consts) (t : Tls) : (t.pair c).keeps = t.keeps := by
  cases t <;> rfl

/-- The record of a handshake that both probes look at: read, when it returns, from the session
that it was given. -/
def handshakeRecord (c : Consts) (t : Tls) (k : Entry × Return) : Option Bytes :=
  if passesFilter c k.1.ctx.task then t.record c k.2 (t.keeps k.1.parm1) else none

end Tls

/-- The kernel does not remove the session of a thread that is inside a handshake, and the return
of a handshake is not let through when its entry was turned away. -/
def Steady (c : Consts) (s : CallProbes.Traced UInt64 Entry Return Maps)
    (e : CallProbes.Event Entry Return) : Prop :=
  match e with
  | .entry x => ∀ thread, x.evicted thread = true → s.opened thread = none
  | .ret y => ∀ x, s.opened y.ctx.task.pidTgid = some x →
      passesFilter c y.ctx.task = true → passesFilter c x.ctx.task = true

/-- The return programs look at nothing when the filter turns them away. -/
theorem record_of_rejected {c : Consts} {y : Return} (rejects : passesFilter c y.ctx.task = false)
    (t : Tls) (session : UInt64) : t.record c y session = none := by
  cases t with
  | gnutls off =>
    simp [Tls.record, Tls.pair, gnutls, GnuTLS.uretprobeGnutlsMasterKey, rejects]
  | boringssl off =>
    simp [Tls.record, Tls.pair, boringssl, Kernel.uretprobeBsslDoHandshake, rejects]

/-- A thread enters a handshake, another one enters and fails, and the first one succeeds. -/
def twoHandshakes : List (CallProbes.Event Entry Return) :=
  let first := { Ssl.threadIn 3 with mem := GnuTLS.tls12Memory }
  let second := { first with task := { first.task with pidTgid := 0x100000003 } }
  [.entry ⟨first, 0x1000, fun _ => false⟩, .entry ⟨second, 0x5000, fun _ => false⟩,
    .ret ⟨second, 1⟩, .ret ⟨first, 0⟩]

/-- Whatever the order of the probes, the answers of the filter and the elements that the kernel
removes, a record is read from a session that an earlier handshake of the same thread was given. -/
theorem handshake_records_own_thread (c : Consts) (t : Tls)
    (es : List (CallProbes.Event Entry Return)) :
    ∀ record ∈ ((t.probes c).execAll es).events, ∃ x y,
      [CallProbes.Event.entry x, .ret y].Sublist es ∧
      x.ctx.task.pidTgid = y.ctx.task.pidTgid ∧ passesFilter c y.ctx.task = true ∧
      t.handshakeRecord c (x, y) = some record := by
  intro record mem
  rw [Tls.probes_eq] at mem
  obtain ⟨x, y, session, order, caller, stored, -, made⟩ :=
    (handover (t.pair c) c).records_own es record mem
  obtain ⟨entered, rfl⟩ := store_eq_some stored
  have made : t.record c y ((t.pair c).keeps x.parm1) = some record := made
  refine ⟨x, y, order, caller, ?_, ?_⟩
  · by_contra rejects
    rw [record_of_rejected (by simpa using rejects)] at made
    cases made
  · rw [Tls.handshakeRecord, if_pos entered, ← Tls.keeps_pair c]
    exact made

theorem handshake_records_own_thread_two :
    ∃ record ∈
        (((Tls.gnutls GnuTLS.gnutls387).probes .unfiltered).execAll twoHandshakes).events,
      ∃ x y, [CallProbes.Event.entry x, .ret y].Sublist twoHandshakes ∧
        x.ctx.task.pidTgid = y.ctx.task.pidTgid ∧
        (Tls.gnutls GnuTLS.gnutls387).handshakeRecord .unfiltered (x, y) = some record := by
  have one : (((Tls.gnutls GnuTLS.gnutls387).probes .unfiltered).execAll
      twoHandshakes).events.length = 1 := by decide
  obtain ⟨record, mem⟩ := List.exists_mem_of_length_pos (one ▸ Nat.one_pos)
  obtain ⟨x, y, order, thread, -, made⟩ :=
    handshake_records_own_thread .unfiltered (.gnutls GnuTLS.gnutls387) twoHandshakes record mem
  exact ⟨record, mem, x, y, order, thread, made⟩

end Handshakes

end ECapture.Kernel
