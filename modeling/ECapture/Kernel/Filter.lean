import ECapture.Kernel.Secrets

/-!
# The process filter of the kernel programs

The constants of `kern/common.h`, which the loader patches from the configuration, and
`filter_rejects_base`, `filter_rejects` and `passes_filter` of `kern/ecapture.h`. A task is what
the helpers report about the current task while a program runs, so the user and the cgroup of one
thread may differ between two runs.
-/

namespace ECapture.Kernel

/-- The `const volatile` words of `common.h`. -/
structure Consts where
  less52 : UInt64
  targetPid : UInt64
  targetUid : UInt64
  targetErrno : UInt64
  targetCgroupId : UInt64
  deriving DecidableEq

/-- `BASH_ERRNO_DEFAULT`. -/
def bashErrnoDefault : UInt64 := 128

/-- Nothing is filtered. -/
def Consts.unfiltered : Consts := ⟨0, 0, 0, bashErrnoDefault, 0⟩

/-- The current task: `bpf_get_current_pid_tgid`, `bpf_get_current_uid_gid`,
`bpf_get_current_cgroup_id` and `bpf_get_current_comm`. -/
structure Task where
  pidTgid : UInt64
  uidGid : UInt64
  cgroupId : UInt64
  comm : Vector UInt8 16
  deriving DecidableEq

namespace Task

/-- `current_pid_tgid >> 32`: the process. -/
def pid (t : Task) : UInt32 := (t.pidTgid >>> 32).toUInt32

/-- The low word: the thread. -/
def tid (t : Task) : UInt32 := t.pidTgid.toUInt32

def uid (t : Task) : UInt32 := t.uidGid.toUInt32

end Task

def filterRejectsBase (c : Consts) (pid uid : UInt32) : Bool :=
  if c.less52 = 1 then false
  else if c.targetPid ≠ 0 ∧ c.targetPid ≠ pid.toUInt64 then true
  else if c.targetUid ≠ 0 ∧ c.targetUid ≠ uid.toUInt64 then true
  else false

def filterRejects (c : Consts) (t : Task) : Bool :=
  if filterRejectsBase c t.pid t.uid then true
  else if c.targetCgroupId ≠ 0 then
    if t.cgroupId ≠ c.targetCgroupId then true else false
  else false

def passesFilter (c : Consts) (t : Task) : Bool :=
  if c.less52 = 1 then true
  else if filterRejects c t then false
  else true

/-- A pid, uid or cgroup is targeted. -/
def Consts.FilterSet (c : Consts) : Prop :=
  c.targetPid ≠ 0 ∨ c.targetUid ≠ 0 ∨ c.targetCgroupId ≠ 0

instance (c : Consts) : Decidable c.FilterSet := inferInstanceAs (Decidable (_ ∨ _ ∨ _))

end ECapture.Kernel
