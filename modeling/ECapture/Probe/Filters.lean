import ECapture.Kernel.Bash
import ECapture.Probe.KernelVersion

/-!
# The filters of the probes

From the options of a probe to the process filter of its kernel programs: `EnableGlobalVar` of
`internal/config/base_config.go`, `GetCgroupIdFromPath` of `pkg/util/ebpf`, the constant editors
that `getManagerOptions` of seven probes sets, and the constants of `kern/common.h` as they are
loaded. The version of the kernel is asked for twice, and the second answer may come from the
package variable of `pkg/util/kernel`.
-/

namespace ECapture.Probe.Filters
open Library Kernel KernelVersion

/-! ## The host -/

/-- What the calls on a control group's path give. -/
structure Cgroups where
  /-- `Statfs`: whether the file system is `CGROUP2_SUPER_MAGIC`. -/
  isCgroup2 : Runes → Option Bool
  /-- `NameToHandleAt`: the bytes of the handle. -/
  handle : Runes → Option Bytes

/-- `GetCgroupIdFromPath`; `none` is an error. -/
def getCgroupIdFromPath (g : Cgroups) (cgroupPath : Runes) : Option UInt64 :=
  if cgroupPath = [] then some 0
  else
    match g.isCgroup2 cgroupPath with
    | some true =>
      match g.handle cgroupPath with
      | some fh => if fh.length ≠ 8 then none else some (UInt64.ofNat (leNat fh))
      | none => none
    | _ => none

/-- The fields of a configuration that the filters come from. -/
structure Config where
  pid : UInt64
  uid : UInt64
  cgroupPath : Runes
  errNo : Int64

/-- `VersionCode(5, 2, 0)` -/
def linux52 : UInt32 := versionCode 5 2 0

/-- `EnableGlobalVar`, and the package variable afterwards. -/
def enableGlobalVar (host : Host) (cached : UInt32) : Bool × UInt32 :=
  match hostVersion host cached with
  | (none, cached) => (true, cached)
  | (some kv, cached) => (decide (linux52 ≤ kv), cached)

/-! ## Constant editors -/

inductive Constant where
  | targetPid
  | targetUid
  | targetErrno
  | less52
  | targetCgroupId
  deriving DecidableEq

structure ConstantEditor where
  name : Constant
  value : UInt64

/-- The part that the probes share: where global variables are enabled, the process and the user,
then what is `before` and `after` the version. -/
def constantEditors (before after : List ConstantEditor) (host : Host) (cached : UInt32)
    (cfg : Config) : List ConstantEditor :=
  match enableGlobalVar host cached with
  | (false, _) => []
  | (true, cached) =>
    -- an error leaves the version zero
    let kv := (hostVersion host cached).1.getD 0
    let kernelLess52 : UInt64 := if kv < linux52 then 1 else 0
    [⟨.targetPid, cfg.pid⟩, ⟨.targetUid, cfg.uid⟩] ++ before ++ [⟨.less52, kernelLess52⟩] ++ after

/-- The control group of the OpenSSL and GoTLS probes; an error switches its filter off. -/
def cgroupEditor (g : Cgroups) (cfg : Config) : ConstantEditor :=
  ⟨.targetCgroupId,
    if cfg.cgroupPath = [] then 0 else (getCgroupIdFromPath g cfg.cgroupPath).getD 0⟩

def errnoEditor (cfg : Config) : ConstantEditor := ⟨.targetErrno, cfg.errNo.toUInt64⟩

inductive ProbeType where
  | openssl
  | gotls
  | nspr
  | mysql
  | postgres
  | bash
  | zsh

/-- The constant editors of each `getManagerOptions`. -/
def ProbeType.editors (g : Cgroups) (host : Host) (cached : UInt32) (cfg : Config) :
    ProbeType → List ConstantEditor
  | openssl | gotls => constantEditors [] [cgroupEditor g cfg] host cached cfg
  | nspr => constantEditors [] [⟨.targetCgroupId, 0⟩] host cached cfg
  | mysql | postgres => constantEditors [] [] host cached cfg
  | bash | zsh => constantEditors [errnoEditor cfg] [] host cached cfg

/-! ## Loading -/

/-- The initial values of `common.h`. -/
def common : Consts :=
  { less52 := 1
    targetPid := 0
    targetUid := 0
    targetErrno := bashErrnoDefault
    targetCgroupId := 0 }

def edit (c : Consts) (e : ConstantEditor) : Consts :=
  match e.name with
  | .targetPid => { c with targetPid := e.value }
  | .targetUid => { c with targetUid := e.value }
  | .targetErrno => { c with targetErrno := e.value }
  | .less52 => { c with less52 := e.value }
  | .targetCgroupId => { c with targetCgroupId := e.value }

/-- The constants of the programs once the probe has loaded them. -/
def ProbeType.loaded (g : Cgroups) (host : Host) (cached : UInt32) (cfg : Config)
    (probe : ProbeType) : Consts :=
  (probe.editors g host cached cfg).foldl edit common

/-! ## The package variable -/

/-- The package variable is unset or what the host would say. -/
def Remembers (host : Host) (cached : UInt32) : Prop :=
  cached = 0 ∨ currentKernelVersion host = some cached

theorem Remembers.start (host : Host) : Remembers host 0 := .inl rfl

/-- The answer does not depend on what has been asked before. -/
theorem hostVersion_eq {host : Host} {cached : UInt32} (remembers : Remembers host cached) :
    (hostVersion host cached).1 = currentKernelVersion host ∧
      Remembers host (hostVersion host cached).2 := by
  unfold hostVersion
  by_cases unset : cached = 0
  · rw [if_neg (by simpa using unset)]
    cases found : currentKernelVersion host with
    | none => exact ⟨rfl, remembers⟩
    | some kv => exact ⟨rfl, .inr found⟩
  · rw [if_pos unset]
    have known := remembers.resolve_left unset
    exact ⟨known.symm, .inr known⟩

/-- The version is known and at least this one. -/
def AtLeast (v : UInt32) (host : Host) : Prop := ∃ kv ∈ currentKernelVersion host, v ≤ kv

instance (v : UInt32) (host : Host) : Decidable (AtLeast v host) :=
  match found : currentKernelVersion host with
  | none => isFalse (by simp [AtLeast, found])
  | some kv => decidable_of_iff (v ≤ kv) (by simp [AtLeast, found])

def AtLeast52 (host : Host) : Prop := AtLeast linux52 host

instance (host : Host) : Decidable (AtLeast52 host) := inferInstanceAs (Decidable (AtLeast _ _))

theorem enableGlobalVar_eq {host : Host} {cached : UInt32} (remembers : Remembers host cached) :
    ((enableGlobalVar host cached).1 = true ↔
        currentKernelVersion host = none ∨ AtLeast52 host) ∧
      Remembers host (enableGlobalVar host cached).2 := by
  obtain ⟨same, later⟩ := hostVersion_eq remembers
  unfold enableGlobalVar AtLeast52 AtLeast
  rw [← same]
  revert later
  obtain ⟨answer, cached'⟩ := hostVersion host cached
  intro later
  cases answer with
  | none => exact ⟨by simp, later⟩
  | some kv => exact ⟨by simp, later⟩

/-- What the editors are, once the version is known. -/
theorem constantEditors_eq (before after : List ConstantEditor) {host : Host} {cached : UInt32}
    (remembers : Remembers host cached) (cfg : Config) :
    constantEditors before after host cached cfg =
      if AtLeast52 host then
        [⟨.targetPid, cfg.pid⟩, ⟨.targetUid, cfg.uid⟩] ++ before ++ [⟨.less52, 0⟩] ++ after
      else if currentKernelVersion host = none then
        [⟨.targetPid, cfg.pid⟩, ⟨.targetUid, cfg.uid⟩] ++ before ++ [⟨.less52, 1⟩] ++ after
      else [] := by
  obtain ⟨enabled, later⟩ := enableGlobalVar_eq remembers
  have again := (hostVersion_eq later).1
  unfold constantEditors
  revert enabled again
  obtain ⟨global, cached'⟩ := enableGlobalVar host cached
  intro enabled again
  cases global with
  | false =>
    obtain ⟨known, old⟩ := not_or.mp (mt enabled.mpr Bool.false_ne_true)
    rw [if_neg old, if_neg known]
  | true =>
    dsimp only at again ⊢
    rw [again]
    rcases enabled.mp rfl with unknown | new
    · have old : ¬ AtLeast52 host := by simp [AtLeast52, AtLeast, unknown]
      rw [if_neg old, if_pos unknown, unknown, Option.getD_none, if_pos (by decide)]
    · obtain ⟨kv, known, le⟩ := id new
      rw [if_pos new, known, Option.getD_some, if_neg (UInt32.not_lt.mpr le)]

/-! ## The filter in effect -/

/-- The control group that a probe filters on, zero for none. -/
def ProbeType.cgroupId (g : Cgroups) (cfg : Config) : ProbeType → UInt64
  | openssl | gotls => (cgroupEditor g cfg).value
  | nspr | mysql | postgres | bash | zsh => 0

/-- What a probe lets through where its filter works. -/
def ProbeType.Targets (g : Cgroups) (cfg : Config) (probe : ProbeType) (t : Task) : Prop :=
  (cfg.pid = 0 ∨ cfg.pid = t.pid.toUInt64) ∧ (cfg.uid = 0 ∨ cfg.uid = t.uid.toUInt64) ∧
    (probe.cgroupId g cfg = 0 ∨ t.cgroupId = probe.cgroupId g cfg)

theorem passesFilter_iff {c : Consts} {t : Task} :
    passesFilter c t = true ↔ c.less52 = 1 ∨
      (c.targetPid = 0 ∨ c.targetPid = t.pid.toUInt64) ∧
      (c.targetUid = 0 ∨ c.targetUid = t.uid.toUInt64) ∧
      (c.targetCgroupId = 0 ∨ t.cgroupId = c.targetCgroupId) := by
  unfold passesFilter filterRejects filterRejectsBase
  split_ifs <;> grind

/-- The constants of the programs: all defaults, or the options and the version. -/
theorem loaded_eq (g : Cgroups) {host : Host} {cached : UInt32} (remembers : Remembers host cached)
    (cfg : Config) (probe : ProbeType) :
    (¬ AtLeast52 host → (probe.loaded g host cached cfg).less52 = 1) ∧
      (AtLeast52 host → (probe.loaded g host cached cfg).less52 = 0 ∧
        (probe.loaded g host cached cfg).targetPid = cfg.pid ∧
        (probe.loaded g host cached cfg).targetUid = cfg.uid ∧
        (probe.loaded g host cached cfg).targetCgroupId = probe.cgroupId g cfg) := by
  constructor
  · intro old
    cases probe
    all_goals
      rw [ProbeType.loaded, ProbeType.editors, constantEditors_eq _ _ remembers, if_neg old]
      split <;> rfl
  · intro new
    cases probe
    all_goals
      rw [ProbeType.loaded, ProbeType.editors, constantEditors_eq _ _ remembers, if_pos new]
      exact ⟨rfl, rfl, rfl, rfl⟩

/-- A process passes the programs of a probe iff the options let it through or the kernel is not
known to be at least 5.2. -/
theorem passesFilter_loaded (g : Cgroups) {host : Host} {cached : UInt32}
    (remembers : Remembers host cached) (cfg : Config) (probe : ProbeType) (t : Task) :
    passesFilter (probe.loaded g host cached cfg) t = true ↔
      (AtLeast52 host → probe.Targets g cfg t) := by
  obtain ⟨unfiltered, filtered⟩ := loaded_eq g remembers cfg probe
  rw [passesFilter_iff]
  by_cases new : AtLeast52 host
  · obtain ⟨less52, pid, uid, cgroupId⟩ := filtered new
    rw [less52, pid, uid, cgroupId, ProbeType.Targets]
    simp [new]
  · simp [unfiltered new, new]

/-- Where the filter works, the bash probe loads the constants that its errno filter is about. -/
theorem loaded_bash (g : Cgroups) {host : Host} {cached : UInt32}
    (remembers : Remembers host cached) (cfg : Config) (new : AtLeast52 host) (useHex : Bool) :
    ProbeType.bash.loaded g host cached cfg =
      Bash.Config.consts ⟨cfg.pid, cfg.uid, cfg.errNo, useHex⟩ := by
  rw [ProbeType.loaded, ProbeType.editors, constantEditors_eq _ _ remembers, if_pos new]
  rfl

/-! ## The release of uname -/

/-- `runtime.GOARCH` -/
inductive Goarch where
  | amd64
  | arm64
  | other (name : Runes)

/-- `Version.String` -/
def versionString (v : UInt32) : Bytes :=
  dec (v >>> 16).toNat ++ str "." ++ dec ((v >>> 8) &&& 0xff).toNat ++ str "." ++
    dec (v &&& 0xff).toNat

/-- `detectKernel` of `cli/cmd/env_detection.go`, with the text of its error. -/
def detectKernel (arch : Goarch) (host : Host) (cached : UInt32) : Except Bytes Unit :=
  let tooOld (kv : UInt32) (machine least : String) : Bytes :=
    str "the Linux/Android Kernel version " ++ versionString kv ++ str " (" ++ str machine ++
      str ") is not supported. Requires a version greater than " ++ str least
  match (hostVersion host cached).1 with
  | none => .error (str "failed to get the host kernel version")
  | some kv =>
    match arch with
    | .amd64 => if kv < versionCode 4 18 0 then .error (tooOld kv "x86_64" "4.18") else .ok ()
    | .arm64 => if kv < versionCode 5 5 0 then .error (tooOld kv "aarch64" "5.5") else .ok ()
    | .other name =>
      .error (str "unsupported CPU arch:" ++ name.map fun c => UInt8.ofNat c.toNat)

theorem detectKernel_ok {host : Host} {cached : UInt32} (remembers : Remembers host cached)
    (arch : Goarch) :
    detectKernel arch host cached = .ok () ↔
      match arch with
      | .amd64 => AtLeast (versionCode 4 18 0) host
      | .arm64 => AtLeast (versionCode 5 5 0) host
      | .other _ => False := by
  obtain ⟨same, -⟩ := hostVersion_eq remembers
  rw [detectKernel, same]
  cases found : currentKernelVersion host with
  | none => cases arch <;> simp [AtLeast, found]
  | some kv =>
    cases arch with
    | amd64 => simp [AtLeast, found]
    | arm64 => simp [AtLeast, found]
    | other name => simp

/-- A host with a release but no file that names the distribution. -/
def linux515 : Host := ⟨none, none, some "5.15.0-125-generic".toList⟩

/-- Once eCapture has started, a process passes the programs of a probe iff the options let it
through, except on amd64 before Linux 5.2, where everything passes. Only the OpenSSL and GoTLS
probes filter by control group, and not when its id cannot be read. -/
theorem filter_once_started (g : Cgroups) {arch : Goarch} {host : Host} {cached cached' : UInt32}
    (remembers : Remembers host cached) (started : detectKernel arch host cached = .ok ())
    (remembers' : Remembers host cached') (cfg : Config) (probe : ProbeType) (t : Task) :
    passesFilter (probe.loaded g host cached' cfg) t = true ↔
      probe.Targets g cfg t ∨ arch = .amd64 ∧ ¬ AtLeast52 host := by
  rw [passesFilter_loaded g remembers']
  have starts := (detectKernel_ok remembers arch).mp started
  cases arch with
  | amd64 =>
    by_cases new : AtLeast52 host
    · simp [new]
    · simp [new]
  | arm64 =>
    obtain ⟨kv, known, le⟩ := starts
    have above : linux52 ≤ versionCode 5 5 0 := by decide
    have new : AtLeast52 host := ⟨kv, known, UInt32.le_trans above le⟩
    simp [new]
  | other name => exact starts.elim

/-- A task of process 7 outside every control group of interest. -/
def task7 : Task := ⟨0x700000007, 1000, 5, Kernel.zeros 16⟩

/-- The control group with the id 1 is not that of the task. -/
def oneCgroup : Cgroups := ⟨fun _ => some true, fun _ => some [1, 0, 0, 0, 0, 0, 0, 0]⟩

def process7InOne : Config := ⟨7, 0, "/one".toList, 0⟩

theorem filter_once_started_two_probes :
    passesFilter (ProbeType.mysql.loaded oneCgroup linux515 0 process7InOne) task7 = true ∧
      passesFilter (ProbeType.openssl.loaded oneCgroup linux515 0 process7InOne) task7 ≠ true := by
  have fresh := Remembers.start linux515
  have started : detectKernel .amd64 linux515 0 = .ok () :=
    (detectKernel_ok fresh .amd64).mpr (by decide)
  have new : AtLeast52 linux515 := by decide
  constructor
  · exact (filter_once_started oneCgroup fresh started fresh process7InOne .mysql task7).mpr
      (.inl ⟨by decide, by decide, by decide⟩)
  · intro passes
    rcases (filter_once_started oneCgroup fresh started fresh process7InOne .openssl task7).mp
      passes with ⟨-, -, cgroup⟩ | ⟨-, old⟩
    · exact absurd cgroup (by decide)
    · exact old new

end ECapture.Probe.Filters
