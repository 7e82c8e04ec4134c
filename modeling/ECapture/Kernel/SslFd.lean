import ECapture.Kernel.Ssl
import ECapture.Library.Steps

/-!
# The fd of an SSL object

`ssl_st_fd` gives the fd of an SSL object whose BIO does not know it: `SSL_set_fd` stores under the
address of the object, and the entry probes of `SSL_read` and `SSL_write` look there. Addresses
belong to processes and are used again, the map knows neither, so it holds the fd that any process
has last set at that address.

The history lists what the processes have done, the last action first. It has the allocations of
SSL objects, which no program sees.
-/

namespace ECapture.Kernel.Ssl
open Library

inductive SslAct where
  | alloc (pid : UInt32) (ssl : UInt64)
  | free (pid : UInt32) (ssl : UInt64)
  | probe (e : Event)

/-- The process that acts. -/
def SslAct.pid : SslAct → UInt32
  | .alloc pid _ => pid
  | .free pid _ => pid
  | .probe e => e.ctx.task.pid

structure FdState where
  maps : Maps
  history : List SslAct

def fdStep (c : Consts) (off : Offsets) (s : FdState) (a : SslAct) : Option FdState :=
  some { maps := match a with
           | .probe e => exec c off s.maps e
           | _ => s.maps
         history := a :: s.history }

def fdMachine (c : Consts) (off : Offsets) : Machine FdState SslAct :=
  { init := ⟨.new, []⟩, step := fdStep c off }

/-! ## Which fd is meant -/

/-- The fd set last for the object at this address since it was allocated, or 0, when the actions of
one process are given. -/
def fdSince (ssl : UInt64) : List SslAct → UInt32
  | [] => 0
  | .probe ⟨_, .setFd a fd⟩ :: rest => if a = ssl then fd.toUInt32 else fdSince ssl rest
  | .alloc _ a :: rest => if a = ssl then 0 else fdSince ssl rest
  | _ :: rest => fdSince ssl rest

/-- The fd that a process means by an address: its own actions decide. -/
def ownFd (pid : UInt32) (ssl : UInt64) (history : List SslAct) : UInt32 :=
  fdSince ssl (history.filter fun a => a.pid = pid)

/-- The last fd set at an address, by whatever process. -/
def lastFd (ssl : UInt64) : List SslAct → Option UInt64
  | [] => none
  | .probe ⟨_, .setFd a fd⟩ :: rest => if a = ssl then some fd else lastFd ssl rest
  | _ :: rest => lastFd ssl rest

/-- The last fd at this address was set by this process after it has allocated the object there; or
no process has set one. -/
def SetByOwner (pid : UInt32) (ssl : UInt64) : List SslAct → Prop
  | [] => True
  | .probe ⟨x, .setFd a _⟩ :: rest =>
    if a = ssl then x.task.pid = pid else SetByOwner pid ssl rest
  | .alloc p a :: rest =>
    if p = pid ∧ a = ssl then lastFd ssl rest = none else SetByOwner pid ssl rest
  | _ :: rest => SetByOwner pid ssl rest

/-- `bio->num`, if the reads succeed. -/
def bioNum (off : Offsets) (mem : UserMemory) (f : SslFn) (ssl : UInt64) : Option UInt32 :=
  let (ok, bio) := mem.probeReadU64 (ssl + off.bio f)
  let (ok', num) := mem.probeReadU64 (bio + off.bioStNum)
  if ok ∧ ok' then some num.toUInt32 else none

/-- A step at which the map can be relied on: it has room for a new address, and an entry probe that
falls back on it finds the fd of its own process and object. -/
def Attributed (off : Offsets) (s : FdState) : SslAct → Prop
  | .probe ⟨_, .setFd ssl _⟩ => s.maps.sslStFd.HasRoom ssl
  | .probe ⟨x, .entrySSL f ssl _⟩ =>
    bioNum off x.mem f ssl = some 0 → SetByOwner x.task.pid ssl s.history
  | _ => True

/-- An entry probe that finds no fd in the BIO stores the fd that its process means. -/
def StoresOwnFd (c : Consts) (off : Offsets) (s : FdState) (x : Ctx) (f : SslFn)
    (ssl buf : UInt64) : Prop :=
  bioNum off x.mem f ssl = some 0 → passesFilter c x.task = true →
    (s.maps.args f).HasRoom x.task.pidTgid →
    ∃ a, ((exec c off s.maps ⟨x, .entrySSL f ssl buf⟩).args f).lookup x.task.pidTgid = some a ∧
      a.fd = ownFd x.task.pid ssl s.history

/-! ## The map follows the history -/

theorem sslStFd_exec {c : Consts} {off : Offsets} {s : Maps} {e : Event}
    (other : ∀ ssl fd, e.prog ≠ .setFd ssl fd) : (exec c off s e).sslStFd = s.sslStFd := by
  have cases := exec_cases c off s e
  obtain ⟨x, prog⟩ := e
  cases prog with
  | entrySSL f ssl buf =>
    simp only [exec, probeEntrySSL]
    split
    · rfl
    · simp
  | retSSL f rc =>
    simp only [exec, probeRetSSL]
    split
    · rfl
    · rw [Maps.setArgs_sslStFd]
      split
      case h_1 a _ =>
        obtain ⟨heap, out, eq⟩ := processSSLData_eq f a rc x s
        rw [eq]
      case h_2 => rfl
  | setFd ssl fd => exact absurd rfl (other ssl fd)
  | _ =>
    simp only [reduceCtorEq, exists_false, false_or] at cases
    obtain ⟨infos, out, eq⟩ := cases
    rw [eq]

def Follows (s : FdState) : Prop := ∀ ssl, s.maps.sslStFd.lookup ssl = lastFd ssl s.history

theorem Follows.step {c : Consts} {off : Offsets} {s t : FdState} {a : SslAct} (follows : Follows s)
    (attributed : Attributed off s a) (moved : fdStep c off s a = some t) : Follows t := by
  intro ssl
  cases moved
  cases a with
  | alloc pid a => exact follows ssl
  | free pid a => exact follows ssl
  | probe e =>
    obtain ⟨x, prog⟩ := e
    cases prog with
    | setFd a fd =>
      have room : s.maps.sslStFd.HasRoom a := attributed
      change (s.maps.sslStFd.update a fd).lookup ssl = if a = ssl then some fd else _
      rw [Table.lookup_update room, follows ssl]
      simp only [eq_comm]
    | _ =>
      dsimp only
      rw [sslStFd_exec (by simp)]
      exact follows ssl

theorem bioNum_fst {off : Offsets} {mem : UserMemory} {f : SslFn} {ssl : UInt64}
    (zero : bioNum off mem f ssl = some 0) (fds : Table UInt64 UInt64) :
    (processSSLBio off mem fds ssl (off.bio f)).1 = fallbackFd fds ssl 0 := by
  unfold bioNum at zero
  unfold processSSLBio
  grind

/-- Under the condition, what any process has set last is what this process has set. -/
theorem lastFd_of_setByOwner {pid : UInt32} {ssl : UInt64} {history : List SslAct}
    (owner : SetByOwner pid ssl history) :
    ((lastFd ssl history).map UInt64.toUInt32).getD 0 = ownFd pid ssl history := by
  induction history with
  | nil => rfl
  | cons a rest ih =>
    unfold ownFd at ih ⊢
    cases a with
    | alloc p a => grind [fdSince, SetByOwner, SslAct.pid, lastFd]
    | free p a => grind [fdSince, SetByOwner, SslAct.pid, lastFd]
    | probe e =>
      obtain ⟨x, prog⟩ := e
      cases prog <;> grind [fdSince, SetByOwner, SslAct.pid, lastFd]

/-! ## Every run -/

/-- In every run whose steps can rely on the map, every entry probe that falls back on it stores
the fd that its own process has set for that object, or 0. -/
theorem stored_fd_is_own (c : Consts) (off : Offsets) {s : FdState}
    (h : (fdMachine c off).ReachableBy (Attributed off) s) (x : Ctx) (f : SslFn) (ssl buf : UInt64)
    (attributed : Attributed off s (.probe ⟨x, .entrySSL f ssl buf⟩)) :
    StoresOwnFd c off s x f ssl buf := by
  intro zero passes room
  have follows : Follows s :=
    h.invariant (fun ssl => rfl) fun _ _ _ follows attributed moved =>
      follows.step attributed moved
  refine ⟨activeSslBuf off x.mem s.maps.sslStFd f ssl buf, ?_, ?_⟩
  · simp only [exec, probeEntrySSL, passes, Bool.not_true, Bool.false_eq_true, if_false,
      Maps.args_setArgs_self]
    exact Table.lookup_update_self room _
  · have fd : (activeSslBuf off x.mem s.maps.sslStFd f ssl buf).fd =
        fallbackFd s.maps.sslStFd ssl 0 := bioNum_fst zero _
    rw [fd, ← lastFd_of_setByOwner (attributed zero), fallbackFd, if_pos rfl, follows ssl]
    cases lastFd ssl s.history <;> rfl

/-! ## Two processes with one address -/

/-- A thread whose BIOs hold no fd: all its memory is 0. -/
def zeroMemoryThread (pidTgid : UInt64) : Ctx :=
  { task := { pidTgid, uidGid := 0, cgroupId := 0, comm := zeros 16 }
    cpu := 0
    ktime := 1
    mem := ⟨fun _ n => some (zeros n)⟩
    kmem := ⟨fun _ => 0, fun _ => ⟨zeros 4, zeros 4, zeros 2, 0, 0, zeros 16, zeros 16⟩⟩ }

def zeroOffsets : Offsets := ⟨none, 0, 0, 0, 0, 0⟩

/-- Process 1 allocates an SSL object at 0x1000 and sets its fd to 5. -/
def firstSets : List SslAct :=
  [.alloc 1 0x1000, .probe ⟨zeroMemoryThread 0x100000001, .setFd 0x1000 5⟩]

theorem stored_fd_is_own_first_process :
    ∃ s, (fdMachine .unfiltered zeroOffsets).ReachableBy (Attributed zeroOffsets) s ∧
      ownFd 1 0x1000 s.history = 5 ∧
      StoresOwnFd .unfiltered zeroOffsets s (zeroMemoryThread 0x100000001) .read 0x1000 0x2000 := by
  have reached : ∃ s, (fdMachine .unfiltered zeroOffsets).ReachableBy (Attributed zeroOffsets) s ∧
      ownFd 1 0x1000 s.history = 5 ∧
      Attributed zeroOffsets s
        (.probe ⟨zeroMemoryThread 0x100000001, .entrySSL .read 0x1000 0x2000⟩) := by
    refine ⟨_, .tail (.tail .refl ⟨.alloc 1 0x1000, trivial, rfl⟩)
      ⟨.probe ⟨zeroMemoryThread 0x100000001, .setFd 0x1000 5⟩, ?_, rfl⟩, ?_, fun _ => ?_⟩
    · exact .inr (by decide)
    · decide
    · rfl
  obtain ⟨s, reached, own, attributed⟩ := reached
  exact ⟨s, reached, own, stored_fd_is_own _ _ reached _ _ _ _ attributed⟩

/-- Process 2 has allocated its object at the same address and has set no fd: its call gets the fd
of process 1. And process 1 itself gets the old fd for a new object at the address of a freed one. -/
theorem fd_of_other_object :
    (∃ s, (fdMachine .unfiltered zeroOffsets).Reachable s ∧ ownFd 2 0x1000 s.history = 0 ∧
      ¬StoresOwnFd .unfiltered zeroOffsets s (zeroMemoryThread 0x200000001) .read 0x1000 0x2000) ∧
    ∃ s, (fdMachine .unfiltered zeroOffsets).Reachable s ∧ ownFd 1 0x1000 s.history = 0 ∧
      ¬StoresOwnFd .unfiltered zeroOffsets s (zeroMemoryThread 0x100000001) .read 0x1000 0x2000 := by
  constructor
  · have ran : (fdMachine .unfiltered zeroOffsets).run (firstSets ++ [.alloc 2 0x1000]) = some _ :=
      rfl
    refine ⟨_, Machine.reachable_of_run ran, by decide, fun stores => ?_⟩
    obtain ⟨a, found, fd⟩ := stores (by decide) (by decide) (by decide)
    have : a.fd = 5 := by cases found; decide
    rw [this] at fd
    exact absurd fd (by decide)
  · have ran : (fdMachine .unfiltered zeroOffsets).run
        (firstSets ++ [.free 1 0x1000, .alloc 1 0x1000]) = some _ := rfl
    refine ⟨_, Machine.reachable_of_run ran, by decide, fun stores => ?_⟩
    obtain ⟨a, found, fd⟩ := stores (by decide) (by decide) (by decide)
    have : a.fd = 5 := by cases found; decide
    rw [this] at fd
    exact absurd fd (by decide)

end ECapture.Kernel.Ssl
