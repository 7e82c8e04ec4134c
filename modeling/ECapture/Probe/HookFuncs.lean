import ECapture.Errors
import ECapture.Probe.Downgrade

/-!
# The hook functions of a configuration

`getSslBpfFile` of `internal/probe/openssl/config.go` over the two variables of its package: the
default list of hook functions, which a configuration takes by reference, and the table of bytecode.
A reload validates another configuration in the same process.

The library is seen through a `Host`. The orders in which Go goes through the table do not matter.
-/

namespace ECapture.Probe
open Library

/-! ## The package and a configuration -/

def masterKeyHookFuncOpenSSL : Bytes := str "SSL_write"
def masterKeyHookFuncBoringSSL : Bytes := str "SSL_do_handshake"
def masterKeyHookFuncSSLBefore : Bytes := str "SSL_in_before"
def masterKeyHookFuncSSLState : Bytes := str "SSL_state"
def androidDefaultFilename : Bytes := str "android_default"

def masterKeyHookFuncs : List Bytes :=
  [str "SSL_get_wbio", masterKeyHookFuncOpenSSL, masterKeyHookFuncSSLBefore,
    str "SSL_do_handshake"]

/-- The variables of the package. -/
structure Pkg where
  masterKeyHookFuncs : List Bytes
  sslVersionBpfMap : BpfMap

/-- The package after `init`. -/
def Pkg.init : Pkg := ⟨ECapture.Probe.masterKeyHookFuncs, ECapture.Probe.sslVersionBpfMap⟩

/-- A slice of hook functions: with an array of its own, or the array of the package. -/
inductive HookFuncs where
  | own (funcs : List Bytes)
  | package

/-- What the slice reads. -/
def HookFuncs.read (pkg : Pkg) : HookFuncs → List Bytes
  | own funcs => funcs
  | package => pkg.masterKeyHookFuncs

/-- The fields that `getSslBpfFile` reads or sets. -/
structure SslConfig where
  opensslPath : Bytes
  sslVersion : Bytes
  sslBpfFile : Bytes
  isBoringSSL : Bool
  masterHookFuncs : HookFuncs
  isAndroid : Bool
  androidVer : Bytes

/-- `detectOpenssl`, where a version that is not found is `none`, and `getImpNeeded`. -/
structure Host where
  detectOpenssl : Bytes → Except Error (Option Bytes)
  getImpNeeded : Bytes → Option (List Bytes)

/-! ## The version in the library -/

/-- `strings.Replace(s, old, new, 1)`. -/
def replaceFirst (old new : Bytes) : Bytes → Bytes
  | [] => if old = [] then new else []
  | b :: s =>
    if old.isPrefixOf (b :: s) then new ++ (b :: s).drop old.length
    else b :: replaceFirst old new s

/-- The name of the library that has the version of `libssl.so.3`. -/
def libcryptoName (h : Host) (soPath : Bytes) : Bytes :=
  match h.getImpNeeded soPath with
  | none => str "libcrypto.so.3"
  | some imd =>
    (imd.find? fun im => decide (str "libcrypto.so" <:+: im)).getD (str "libcrypto.so.3")

/-- The version, empty when there is none, and the path that it was last looked for in. -/
def detectVersion (h : Host) (soPath : Bytes) : Except Error (Bytes × Bytes) :=
  match h.detectOpenssl soPath with
  | .error err => .error err
  | .ok (some verString) => .ok (verString, soPath)
  | .ok none =>
    if str "libssl.so.3" <:+: soPath then
      let soPath := replaceFirst (str "libssl.so.3") (libcryptoName h soPath) soPath
      match h.detectOpenssl soPath with
      | .error err => .error err
      | .ok verString => .ok (verString.getD [], soPath)
    else .ok ([], soPath)

/-! ## The bytecode -/

/-- `downgradeOpensslVersion` on a table. -/
def downgradeIn (m : BpfMap) (order : Nat → List Bytes) (sslVersion ver soPath : Bytes) :
    Downgrade :=
  match search stringLe order (fun libKey => isVersionLessOrEqual libKey ver) ver
      (ver.length - 1) with
  | some libKey => { bpfFile := m.get libKey, found := true, sslVersion }
  | none =>
    if str "libssl.so.3" <:+: soPath then
      { bpfFile := m.get linuxDefaultFilename30, found := false,
        sslVersion := linuxDefaultFilename30 }
    else
      { bpfFile := m.get linuxDefaultFilename111, found := false,
        sslVersion := linuxDefaultFilename111 }

theorem downgradeIn_sslVersionBpfMap :
    downgradeIn sslVersionBpfMap = downgradeOpensslVersion := rfl

/-- `fmt.Sprintf("boringssl_a_%s", androidVer)`. -/
def androidKey (androidVer : Bytes) : Bytes := str "boringssl_a_" ++ androidVer

/-- `autoDetectBytecode`, with the assignment of its result. -/
def autoDetectBytecode (m : BpfMap) (order : Nat → List Bytes) (ver soPath : Bytes)
    (c : SslConfig) : SslConfig :=
  if c.isAndroid then
    let c := { c with sslVersion := androidDefaultFilename }
    match if c.androidVer ≠ [] then m.lookup (androidKey c.androidVer) else none with
    | some bpfFile => { c with sslBpfFile := bpfFile }
    | none => { c with sslBpfFile := m.get androidDefaultFilename }
  else
    let d := downgradeIn m order c.sslVersion ver soPath
    { c with sslVersion := d.sslVersion, sslBpfFile := d.bpfFile }

/-- `getSslBpfFile` from the version in the library on. -/
def selectDetected (m : BpfMap) (order : Nat → List Bytes) (verString soPath sslVersion : Bytes)
    (c : SslConfig) : SslConfig :=
  if verString ≠ [] then
    let c := { c with sslVersion := verString }
    let bpfFileKey := if c.isAndroid then androidKey c.androidVer else verString
    match m.lookup bpfFileKey with
    | some bpfFile => { c with sslBpfFile := bpfFile }
    | none => autoDetectBytecode m order bpfFileKey soPath c
  else autoDetectBytecode m order sslVersion soPath c

/-- `getSslBpfFile` without its deferred function. -/
def selectBpfFile (h : Host) (m : BpfMap) (order : Nat → List Bytes) (soPath sslVersion : Bytes)
    (c : SslConfig) : Option Error × SslConfig :=
  match if sslVersion ≠ [] then m.lookup sslVersion else none with
  | some bpfFile => (none, { c with sslBpfFile := bpfFile })
  | none =>
    match detectVersion h soPath with
    | .error err => (some err, c)
    | .ok (verString, soPath) => (none, selectDetected m order verString soPath sslVersion c)

/-! ## The hook functions -/

/-- The loop that replaces a function, which assigns to the elements of the slice. -/
def replaceSSLBefore (funcs : List Bytes) : List Bytes :=
  funcs.map fun hookFunc =>
    if hookFunc = masterKeyHookFuncSSLBefore then masterKeyHookFuncSSLState else hookFunc

/-- The branch of the deferred function for BoringSSL. -/
def hookBoringSSL (c : SslConfig) : SslConfig :=
  if str "boringssl" <:+: c.sslBpfFile then
    { c with isBoringSSL := true, masterHookFuncs := .own [masterKeyHookFuncBoringSSL] }
  else c

/-- Its default. -/
def hookDefault (pkg : Pkg) (c : SslConfig) : SslConfig :=
  if (c.masterHookFuncs.read pkg).length = 0 then { c with masterHookFuncs := .package } else c

/-- Its branch for versions that have no `SSL_in_before`. -/
def hookOld (c : SslConfig) (pkg : Pkg) : SslConfig × Pkg :=
  if str " 1.0." <:+: c.sslVersion then
    match c.masterHookFuncs with
    | .own funcs => ({ c with masterHookFuncs := .own (replaceSSLBefore funcs) }, pkg)
    | .package => (c, { pkg with masterKeyHookFuncs := replaceSSLBefore pkg.masterKeyHookFuncs })
  else (c, pkg)

/-- The deferred function of `getSslBpfFile`. -/
def setHookFuncs (c : SslConfig) (pkg : Pkg) : SslConfig × Pkg :=
  hookOld (hookDefault pkg (hookBoringSSL c)) pkg

/-- `getSslBpfFile`: its error, the configuration and the package after it. -/
def getSslBpfFile (h : Host) (order : Nat → List Bytes) (soPath sslVersion : Bytes)
    (c : SslConfig) (pkg : Pkg) : Option Error × SslConfig × Pkg :=
  let (err, c) := selectBpfFile h pkg.sslVersionBpfMap order soPath sslVersion c
  (err, setHookFuncs c pkg)

/-- An order in which Go may go through the table, round by round. -/
def MapOrder := { order : Nat → List Bytes // Ranges order }

/-- A configuration that is validated, on its host and with the orders of its loops. -/
structure Validation where
  host : Host
  order : MapOrder
  config : SslConfig

/-- The call of `Validate`. -/
def Validation.run (v : Validation) (pkg : Pkg) : Option Error × SslConfig × Pkg :=
  getSslBpfFile v.host v.order.1 v.config.opensslPath v.config.sslVersion v.config pkg

/-- The package after configurations have been validated one after another. -/
def validateAll (vs : List Validation) (pkg : Pkg) : Pkg :=
  vs.foldl (fun pkg v => (v.run pkg).2.2) pkg

/-! ## What is selected -/

/-- Bytecode of a BoringSSL. -/
def IsBoring (bpfFile : Bytes) : Prop := str "boringssl" <:+: bpfFile

/-- A version of the family that has no `SSL_in_before`. -/
def IsOld (version : Bytes) : Prop := str " 1.0." <:+: version

instance (s : Bytes) : Decidable (IsBoring s) := inferInstanceAs (Decidable (_ <:+: _))
instance (s : Bytes) : Decidable (IsOld s) := inferInstanceAs (Decidable (_ <:+: _))

/-- The table has the version, or a version not above it that begins with the same letter. -/
def Serves (v key : Bytes) : Prop :=
  key ∈ sslVersionBpfMap.keys ∧
    (key = v ∨ v ∉ sslVersionBpfMap.keys ∧ 2 ≤ v.length ∧ v.take 1 <+: key ∧
      isVersionLessOrEqual key v = true)

theorem BpfMap.lookup_eq (m : BpfMap) (key : Bytes) :
    m.lookup key = if key ∈ m.keys then some (m.get key) else none := by
  split
  case isTrue listed =>
    obtain ⟨pair, mem, rfl⟩ := List.mem_map.mp listed
    cases found : m.lookup pair.1 with
    | none => simpa using List.lookup_eq_none_iff.mp found pair mem
    | some bpfFile => rw [BpfMap.get, found, Option.getD_some]
  case isFalse absent =>
    rw [List.lookup_eq_none_iff]
    intro pair mem
    rw [bne_iff_ne]
    exact fun same => absent (List.mem_map.mpr ⟨pair, mem, same.symm⟩)

theorem BpfMap.get_mem {m : BpfMap} {key : Bytes} (mem : key ∈ m.keys) : (key, m.get key) ∈ m := by
  have found := m.lookup_eq key
  rw [if_pos mem] at found
  obtain ⟨front, rest, split, -⟩ := List.lookup_eq_some_iff.mp found
  have mem : (key, m.get key) ∈ front ++ (key, m.get key) :: rest :=
    List.mem_append_right _ List.mem_cons_self
  rwa [← split] at mem

/-- The letters that the keys of BoringSSL bytecode begin with. -/
theorem isBoring_entry : ∀ entry ∈ sslVersionBpfMap,
    IsBoring entry.2 ↔ entry.1.take 1 = [97] ∨ entry.1.take 1 = [98] := by
  decide +kernel

theorem isBoring_get {key : Bytes} (mem : key ∈ sslVersionBpfMap.keys) :
    IsBoring (sslVersionBpfMap.get key) ↔ key.take 1 = [97] ∨ key.take 1 = [98] :=
  isBoring_entry _ (BpfMap.get_mem mem)

theorem isBoring_default : ¬ IsBoring (sslVersionBpfMap.get linuxDefaultFilename30) ∧
    ¬ IsBoring (sslVersionBpfMap.get linuxDefaultFilename111) ∧
    IsBoring (sslVersionBpfMap.get androidDefaultFilename) := by
  decide +kernel

theorem isBoring_get_of_take {a b : Bytes} (ha : a ∈ sslVersionBpfMap.keys)
    (hb : b ∈ sslVersionBpfMap.keys) (same : a.take 1 = b.take 1) :
    IsBoring (sslVersionBpfMap.get a) ↔ IsBoring (sslVersionBpfMap.get b) := by
  rw [isBoring_get ha, isBoring_get hb, same]

theorem stringLe_antisymm (a b : Bytes) (hab : stringLe a b = true) (hba : stringLe b a = true) :
    a = b := by
  rw [stringLe, decide_eq_true_eq] at *
  exact List.le_antisymm hab hba

theorem downgradeIn_congr {order order' : Nat → List Bytes} (ranges : Ranges order)
    (ranges' : Ranges order') (m : BpfMap) (sslVersion ver soPath : Bytes) :
    downgradeIn m order sslVersion ver soPath = downgradeIn m order' sslVersion ver soPath := by
  rw [downgradeIn, search_congr stringLe_trans stringLe_total stringLe_antisymm
    (fun i => (ranges i).2) (fun i => (ranges' i).2), downgradeIn]

theorem take_one_of_prefix {v key : Bytes} (long : 1 ≤ v.length) (h : v.take 1 <+: key) :
    key.take 1 = v.take 1 := by
  obtain ⟨rest, rfl⟩ := h
  have one : 1 ≤ (v.take 1).length := by
    rw [List.length_take]
    exact Nat.le_min.mpr ⟨Nat.le_refl 1, long⟩
  rw [List.take_append_of_le_length one, List.take_take, Nat.min_self]

/-- Of a version that the table does not have: a downgrade takes bytecode of the kind of every key
that serves, and keeps the version; without such a key it takes a default. -/
theorem downgradeIn_spec {order : Nat → List Bytes} (ranges : Ranges order) {v : Bytes}
    (absent : v ∉ sslVersionBpfMap.keys) (sslVersion soPath : Bytes) :
    (∃ key, Serves v key ∧ downgradeIn sslVersionBpfMap order sslVersion v soPath =
        { bpfFile := sslVersionBpfMap.get key, found := true, sslVersion }) ∨
    (∀ key, ¬ Serves v key) ∧
      ¬ IsBoring (downgradeIn sslVersionBpfMap order sslVersion v soPath).bpfFile ∧
      ¬ IsOld (downgradeIn sslVersionBpfMap order sslVersion v soPath).sslVersion := by
  have same : ∀ i k, k ∈ order i ↔ k ∈ sslVersionBpfMap.keys := fun i => (ranges i).2
  have serves : ∀ key, Serves v key ↔ 2 ≤ v.length ∧ Matches
      (fun k => k ∈ sslVersionBpfMap.keys ∧ isVersionLessOrEqual k v) v 1 key := by
    intro key
    rw [Serves, Matches]
    constructor
    · rintro ⟨mem, rfl | ⟨-, long, front, le⟩⟩
      · exact absurd mem absent
      · exact ⟨long, ⟨mem, le⟩, front⟩
    · rintro ⟨long, ⟨mem, le⟩, front⟩
      exact ⟨mem, .inr ⟨absent, long, front, le⟩⟩
  unfold downgradeIn
  cases found : search stringLe order (fun libKey => isVersionLessOrEqual libKey v) v
      (v.length - 1) with
  | some key =>
    obtain ⟨j, pos, le, here⟩ := matches_of_search same found
    exact .inl ⟨key, (serves key).mpr ⟨by omega, here.shorter pos⟩, rfl⟩
  | none =>
    refine .inr ⟨?_, ?_⟩
    · intro key serving
      obtain ⟨long, here⟩ := (serves key).mp serving
      have round : 1 ≤ v.length - 1 := by omega
      obtain ⟨k, taken, -⟩ :=
        exists_search stringLe_trans stringLe_total same Nat.one_pos round here
      rw [found] at taken
      cases taken
    · dsimp only
      split
      · exact ⟨isBoring_default.1, by decide⟩
      · exact ⟨isBoring_default.2.1, by decide⟩

/-- The version that bytecode is taken for: that of the library, or the one that is asked for. -/
def SslConfig.wanted (c : SslConfig) (verString : Bytes) : Bytes :=
  if verString = [] then c.sslVersion else verString

/-- The configuration gets bytecode of a BoringSSL. -/
def PicksBoring (h : Host) (c : SslConfig) : Prop :=
  if c.sslVersion ∈ sslVersionBpfMap.keys then IsBoring (sslVersionBpfMap.get c.sslVersion)
  else
    match detectVersion h c.opensslPath with
    | .error _ => IsBoring c.sslBpfFile
    | .ok (verString, _) =>
      c.isAndroid ∨
        ∃ key, Serves (c.wanted verString) key ∧ IsBoring (sslVersionBpfMap.get key)

/-- The configuration, without bytecode of a BoringSSL, gets an old version. -/
def PicksOld (h : Host) (c : SslConfig) : Prop :=
  if c.sslVersion ∈ sslVersionBpfMap.keys then IsOld c.sslVersion
  else
    match detectVersion h c.opensslPath with
    | .error _ => IsOld c.sslVersion
    | .ok (verString, _) =>
      ¬ c.isAndroid ∧ IsOld (c.wanted verString) ∧ ∃ key, Serves (c.wanted verString) key

theorem isBoring_of_lookup {androidVer bpfFile : Bytes}
    (found : sslVersionBpfMap.lookup (androidKey androidVer) = some bpfFile) :
    IsBoring bpfFile := by
  rw [BpfMap.lookup_eq] at found
  split at found
  case isTrue mem =>
    cases found
    exact (isBoring_get mem).mpr (.inr rfl)
  case isFalse => cases found

theorem Serves.take_one {v key : Bytes} (h : Serves v key) : key.take 1 = v.take 1 := by
  obtain ⟨-, rfl | ⟨-, long, front, -⟩⟩ := h
  · rfl
  · exact take_one_of_prefix (by omega) front

/-- The keys that serve a version have bytecode of one kind. -/
theorem Serves.isBoring_iff {v key : Bytes} (h : Serves v key) :
    IsBoring (sslVersionBpfMap.get key) ↔
      ∃ other, Serves v other ∧ IsBoring (sslVersionBpfMap.get other) := by
  constructor
  · exact fun boring => ⟨key, h, boring⟩
  · rintro ⟨other, serves, boring⟩
    exact (isBoring_get_of_take serves.1 h.1 (serves.take_one.trans h.take_one.symm)).mp boring

theorem autoDetectBytecode_android {c : SslConfig} (android : c.isAndroid = true)
    (order : Nat → List Bytes) (ver soPath : Bytes) :
    IsBoring (autoDetectBytecode sslVersionBpfMap order ver soPath c).sslBpfFile := by
  rw [autoDetectBytecode, if_pos android]
  dsimp only
  split
  case h_1 bpfFile found =>
    split at found
    · exact isBoring_of_lookup found
    · cases found
  case h_2 =>
    dsimp only
    exact isBoring_default.2.2

theorem autoDetectBytecode_linux {order : Nat → List Bytes} (ranges : Ranges order)
    {c : SslConfig} (linux : ¬ c.isAndroid = true) (absent : c.sslVersion ∉ sslVersionBpfMap.keys)
    (soPath : Bytes) :
    (IsBoring (autoDetectBytecode sslVersionBpfMap order c.sslVersion soPath c).sslBpfFile ↔
      ∃ key, Serves c.sslVersion key ∧ IsBoring (sslVersionBpfMap.get key)) ∧
    (IsOld (autoDetectBytecode sslVersionBpfMap order c.sslVersion soPath c).sslVersion ↔
      IsOld c.sslVersion ∧ ∃ key, Serves c.sslVersion key) := by
  rw [autoDetectBytecode, if_neg linux]
  dsimp only
  rcases downgradeIn_spec ranges absent c.sslVersion soPath with
    ⟨key, serves, result⟩ | ⟨none_, modern, recent⟩
  · rw [result]
    exact ⟨serves.isBoring_iff, ⟨fun old => ⟨old, key, serves⟩, And.left⟩⟩
  · constructor
    · exact iff_of_false modern fun ⟨key, serves, _⟩ => none_ key serves
    · exact iff_of_false recent fun ⟨_, key, serves⟩ => none_ key serves

theorem selectDetected_android {c : SslConfig} (android : c.isAndroid = true)
    (order : Nat → List Bytes) (verString soPath sslVersion : Bytes) :
    IsBoring (selectDetected sslVersionBpfMap order verString soPath sslVersion c).sslBpfFile := by
  rw [selectDetected]
  by_cases empty : verString = []
  · rw [if_neg (not_not.mpr empty)]
    exact autoDetectBytecode_android android ..
  · rw [if_pos empty]
    dsimp only
    rw [if_pos android]
    split
    case h_1 bpfFile found => exact isBoring_of_lookup found
    case h_2 =>
      let c' : SslConfig := { c with sslVersion := verString }
      have android : c'.isAndroid = true := android
      exact autoDetectBytecode_android android ..

theorem selectDetected_linux {order : Nat → List Bytes} (ranges : Ranges order) {c : SslConfig}
    (linux : ¬ c.isAndroid = true) (absent : c.sslVersion ∉ sslVersionBpfMap.keys)
    (verString soPath : Bytes) :
    (IsBoring
        (selectDetected sslVersionBpfMap order verString soPath c.sslVersion c).sslBpfFile ↔
      ∃ key, Serves (c.wanted verString) key ∧ IsBoring (sslVersionBpfMap.get key)) ∧
    (IsOld (selectDetected sslVersionBpfMap order verString soPath c.sslVersion c).sslVersion ↔
      IsOld (c.wanted verString) ∧ ∃ key, Serves (c.wanted verString) key) := by
  rw [selectDetected, SslConfig.wanted]
  by_cases empty : verString = []
  · rw [if_neg (not_not.mpr empty), if_pos empty]
    exact autoDetectBytecode_linux ranges linux absent soPath
  · rw [if_pos empty, if_neg empty]
    dsimp only
    rw [if_neg linux, BpfMap.lookup_eq]
    by_cases listed : verString ∈ sslVersionBpfMap.keys
    · have serves : Serves verString verString := ⟨listed, .inl rfl⟩
      rw [if_pos listed]
      exact ⟨serves.isBoring_iff, fun old => ⟨old, verString, serves⟩, And.left⟩
    · let c' : SslConfig := { c with sslVersion := verString }
      have linux : ¬ c'.isAndroid = true := linux
      rw [if_neg listed]
      exact autoDetectBytecode_linux ranges linux listed soPath

/-- The kind of bytecode and the age of the version that a configuration gets. -/
theorem selectBpfFile_spec {order : Nat → List Bytes} (ranges : Ranges order) (h : Host)
    (c : SslConfig) :
    (IsBoring (selectBpfFile h sslVersionBpfMap order c.opensslPath c.sslVersion c).2.sslBpfFile ↔
      PicksBoring h c) ∧
    (¬ PicksBoring h c →
      (IsOld (selectBpfFile h sslVersionBpfMap order c.opensslPath c.sslVersion c).2.sslVersion ↔
        PicksOld h c)) := by
  rw [PicksBoring, PicksOld, selectBpfFile, BpfMap.lookup_eq]
  by_cases asked : c.sslVersion ∈ sslVersionBpfMap.keys
  · have some_ : c.sslVersion ≠ [] := by
      intro empty
      rw [empty] at asked
      revert asked
      decide +kernel
    rw [if_pos some_, if_pos asked, if_pos asked, if_pos asked]
    exact ⟨Iff.rfl, fun _ => Iff.rfl⟩
  · rw [if_neg asked, ite_self, if_neg asked, if_neg asked]
    cases detectVersion h c.opensslPath with
    | error err => exact ⟨Iff.rfl, fun _ => Iff.rfl⟩
    | ok detected =>
      obtain ⟨verString, soPath⟩ := detected
      by_cases android : c.isAndroid = true
      · refine ⟨iff_of_true ?_ (.inl android), fun other => absurd (.inl android) other⟩
        exact selectDetected_android android ..
      · obtain ⟨boring, old⟩ := selectDetected_linux ranges android asked verString soPath
        dsimp only
        rw [or_iff_right android, and_iff_right android]
        exact ⟨boring, fun _ => old⟩

theorem selectBpfFile_congr {order order' : Nat → List Bytes} (ranges : Ranges order)
    (ranges' : Ranges order') (h : Host) (m : BpfMap) (soPath sslVersion : Bytes)
    (c : SslConfig) :
    selectBpfFile h m order soPath sslVersion c = selectBpfFile h m order' soPath sslVersion c := by
  have same : autoDetectBytecode m order = autoDetectBytecode m order' := by
    funext ver soPath c
    rw [autoDetectBytecode, downgradeIn_congr ranges ranges', autoDetectBytecode]
  have detected : selectDetected m order = selectDetected m order' := by
    funext verString soPath sslVersion c
    rw [selectDetected, same, selectDetected]
  rw [selectBpfFile, detected, selectBpfFile]

theorem autoDetectBytecode_masterHookFuncs (m : BpfMap) (order : Nat → List Bytes)
    (ver soPath : Bytes) (c : SslConfig) :
    (autoDetectBytecode m order ver soPath c).masterHookFuncs = c.masterHookFuncs := by
  rw [autoDetectBytecode]
  split
  · dsimp only
    split
    · rfl
    · rfl
  · rfl

theorem selectDetected_masterHookFuncs (m : BpfMap) (order : Nat → List Bytes)
    (verString soPath sslVersion : Bytes) (c : SslConfig) :
    (selectDetected m order verString soPath sslVersion c).masterHookFuncs = c.masterHookFuncs := by
  rw [selectDetected]
  split
  · dsimp only
    split
    · rfl
    · exact autoDetectBytecode_masterHookFuncs ..
  · exact autoDetectBytecode_masterHookFuncs ..

theorem selectBpfFile_masterHookFuncs (h : Host) (m : BpfMap) (order : Nat → List Bytes)
    (soPath sslVersion : Bytes) (c : SslConfig) :
    (selectBpfFile h m order soPath sslVersion c).2.masterHookFuncs = c.masterHookFuncs := by
  rw [selectBpfFile]
  split
  · rfl
  · split
    · rfl
    · exact selectDetected_masterHookFuncs ..

/-! ## The hook functions that are taken -/

/-- The slice is empty or already that of the package. -/
def HookFuncs.TakesDefault : HookFuncs → Prop
  | own funcs => funcs = []
  | package => True

variable {c : SslConfig} {pkg : Pkg}

theorem hookBoringSSL_of_boring (boring : IsBoring c.sslBpfFile) :
    hookBoringSSL c =
      { c with isBoringSSL := true, masterHookFuncs := .own [masterKeyHookFuncBoringSSL] } :=
  if_pos boring

theorem hookBoringSSL_of_other (other : ¬ IsBoring c.sslBpfFile) : hookBoringSSL c = c :=
  if_neg other

theorem hookOld_own {funcs : List Bytes} (own : c.masterHookFuncs = .own funcs) :
    ∃ funcs', ∀ pkg, hookOld c pkg = ({ c with masterHookFuncs := .own funcs' }, pkg) := by
  unfold hookOld
  rw [own]
  split
  · exact ⟨replaceSSLBefore funcs, fun _ => rfl⟩
  · exact ⟨funcs, fun _ => by rw [← own]⟩

theorem setHookFuncs_of_boring (boring : IsBoring c.sslBpfFile) (pkg : Pkg) :
    setHookFuncs c pkg = ({ c with
      isBoringSSL := true, masterHookFuncs := .own [masterKeyHookFuncBoringSSL] }, pkg) := by
  have kept : replaceSSLBefore [masterKeyHookFuncBoringSSL] = [masterKeyHookFuncBoringSSL] := by
    decide
  have some_ : ¬ [masterKeyHookFuncBoringSSL].length = 0 := by decide
  rw [setHookFuncs, hookBoringSSL_of_boring boring, hookDefault, HookFuncs.read, if_neg some_,
    hookOld]
  dsimp only
  rw [kept, ite_self]

theorem setHookFuncs_of_default (other : ¬ IsBoring c.sslBpfFile)
    (default_ : c.masterHookFuncs.TakesDefault) (some_ : pkg.masterKeyHookFuncs ≠ []) :
    setHookFuncs c pkg =
      ({ c with masterHookFuncs := .package },
        if IsOld c.sslVersion then
          { pkg with masterKeyHookFuncs := replaceSSLBefore pkg.masterKeyHookFuncs }
        else pkg) := by
  have taken : hookDefault pkg c = { c with masterHookFuncs := .package } := by
    rw [hookDefault]
    cases hooks : c.masterHookFuncs with
    | own funcs =>
      rw [hooks] at default_
      exact if_pos (congrArg List.length default_)
    | package =>
      rw [HookFuncs.read, if_neg (mt List.length_eq_zero_iff.mp some_), ← hooks]
  rw [setHookFuncs, hookBoringSSL_of_other other, taken]
  by_cases old : IsOld c.sslVersion
  · rw [if_pos old]
    exact if_pos old
  · rw [if_neg old]
    exact if_neg old

theorem setHookFuncs_of_own (other : ¬ IsBoring c.sslBpfFile)
    (own : ¬ c.masterHookFuncs.TakesDefault) :
    ∃ funcs, ∀ pkg, setHookFuncs c pkg = ({ c with masterHookFuncs := .own funcs }, pkg) := by
  cases hooks : c.masterHookFuncs with
  | package =>
    rw [hooks] at own
    exact absurd trivial own
  | own funcs =>
    rw [hooks] at own
    have kept : ∀ pkg, hookDefault pkg c = c := by
      intro pkg
      rw [hookDefault, hooks, HookFuncs.read, if_neg (mt List.length_eq_zero_iff.mp own)]
    obtain ⟨funcs', result⟩ := hookOld_own hooks
    refine ⟨funcs', fun pkg => ?_⟩
    rw [setHookFuncs, hookBoringSSL_of_other other, kept, result]

/-! ## Runs -/

/-- The package after the default list has been edited. -/
def Pkg.edited : Pkg :=
  { Pkg.init with masterKeyHookFuncs := replaceSSLBefore Pkg.init.masterKeyHookFuncs }

inductive Pkg.Reached : Pkg → Prop where
  | init : Reached .init
  | edited : Reached .edited

theorem Pkg.Reached.table (h : pkg.Reached) :
    pkg.sslVersionBpfMap = ECapture.Probe.sslVersionBpfMap := by
  cases h with
  | init => rfl
  | edited => rfl

theorem Pkg.Reached.some_ (h : pkg.Reached) : pkg.masterKeyHookFuncs ≠ [] := by
  cases h with
  | init => exact List.cons_ne_nil _ _
  | edited => exact List.cons_ne_nil _ _

/-- Editing the list once more changes nothing. -/
theorem Pkg.Reached.replaced (h : pkg.Reached) :
    { pkg with masterKeyHookFuncs := replaceSSLBefore pkg.masterKeyHookFuncs } = Pkg.edited := by
  have twice : replaceSSLBefore Pkg.edited.masterKeyHookFuncs = Pkg.edited.masterKeyHookFuncs := by
    decide
  cases h with
  | init => rfl
  | edited => rw [twice]

theorem Pkg.edited_ne_init : Pkg.edited.masterKeyHookFuncs ≠ Pkg.init.masterKeyHookFuncs := by
  decide

/-- The configuration takes the default list, for something else than BoringSSL. -/
def Validation.Default (v : Validation) : Prop :=
  v.config.masterHookFuncs.TakesDefault ∧ ¬ PicksBoring v.host v.config

/-- The configuration takes the default list for an old version. -/
def Validation.Edits (v : Validation) : Prop := v.Default ∧ PicksOld v.host v.config

/-- What is selected for the configuration, which the package has no part in. -/
def Validation.selected (v : Validation) : Option Error × SslConfig :=
  selectBpfFile v.host sslVersionBpfMap v.order.1 v.config.opensslPath v.config.sslVersion v.config

variable {v : Validation}

theorem Validation.run_eq (v : Validation) (h : pkg.Reached) :
    v.run pkg = (v.selected.1, setHookFuncs v.selected.2 pkg) := by
  rw [Validation.run, getSslBpfFile, h.table]
  rfl

theorem Validation.Default.run (default_ : v.Default) (h : pkg.Reached) :
    v.run pkg = (v.selected.1, { v.selected.2 with masterHookFuncs := .package },
      if IsOld v.selected.2.sslVersion then Pkg.edited else pkg) := by
  have takes : v.selected.2.masterHookFuncs.TakesDefault := by
    rw [Validation.selected, selectBpfFile_masterHookFuncs]
    exact default_.1
  have other : ¬ IsBoring v.selected.2.sslBpfFile :=
    fun boring => default_.2 ((selectBpfFile_spec v.order.2 v.host v.config).1.mp boring)
  rw [v.run_eq h, setHookFuncs_of_default other takes h.some_, h.replaced]

theorem Validation.run_of_edits (edits : v.Edits) (h : pkg.Reached) :
    (v.run pkg).2.2 = Pkg.edited := by
  obtain ⟨default_, old⟩ := edits
  have old := ((selectBpfFile_spec v.order.2 v.host v.config).2 default_.2).mpr old
  rw [default_.run h]
  exact if_pos old

/-- A configuration that does not take the list gets functions of its own. -/
theorem Validation.run_of_not_default (own : ¬ v.Default) :
    ∃ c funcs, c.masterHookFuncs = .own funcs ∧
      ∀ pkg : Pkg, pkg.Reached → v.run pkg = (v.selected.1, c, pkg) := by
  by_cases boring : IsBoring v.selected.2.sslBpfFile
  · let funcs := [masterKeyHookFuncBoringSSL]
    refine ⟨{ v.selected.2 with isBoringSSL := true, masterHookFuncs := .own funcs }, funcs, rfl,
      fun pkg h => ?_⟩
    rw [v.run_eq h, setHookFuncs_of_boring boring]
  · have other : ¬ PicksBoring v.host v.config :=
      fun picks => boring ((selectBpfFile_spec v.order.2 v.host v.config).1.mpr picks)
    have own : ¬ v.selected.2.masterHookFuncs.TakesDefault := by
      rw [Validation.selected, selectBpfFile_masterHookFuncs]
      exact fun takes => own ⟨takes, other⟩
    obtain ⟨funcs, result⟩ := setHookFuncs_of_own boring own
    refine ⟨{ v.selected.2 with masterHookFuncs := .own funcs }, funcs, rfl, ?_⟩
    intro pkg h
    rw [v.run_eq h, result]

/-- What one validation does to the package. -/
theorem Validation.run_of_not_edits (keeps : ¬ v.Edits) (h : pkg.Reached) :
    (v.run pkg).2.2 = pkg := by
  by_cases default_ : v.Default
  · have recent : ¬ IsOld v.selected.2.sslVersion := fun old => keeps
      ⟨default_, ((selectBpfFile_spec v.order.2 v.host v.config).2 default_.2).mp old⟩
    rw [default_.run h]
    exact if_neg recent
  · obtain ⟨c, funcs, -, result⟩ := Validation.run_of_not_default default_
    rw [result pkg h]

theorem validateAll_of_not_edits {vs : List Validation} (keep : ∀ v ∈ vs, ¬ v.Edits)
    (reached : pkg.Reached) : validateAll vs pkg = pkg := by
  induction vs with
  | nil => rfl
  | cons v vs ih =>
    rw [List.forall_mem_cons] at keep
    rw [validateAll, List.foldl_cons, Validation.run_of_not_edits keep.1 reached]
    exact ih keep.2

/-- One configuration that edits the list is enough, wherever it comes. -/
theorem validateAll_of_edits {vs : List Validation} (edit : ∃ v ∈ vs, v.Edits)
    (reached : pkg.Reached) : validateAll vs pkg = Pkg.edited := by
  induction vs generalizing pkg with
  | nil =>
    obtain ⟨v, mem, -⟩ := edit
    cases mem
  | cons v vs ih =>
    rw [validateAll, List.foldl_cons]
    by_cases later : ∃ v ∈ vs, v.Edits
    · refine ih later ?_
      by_cases here : v.Edits
      · rw [Validation.run_of_edits here reached]
        exact .edited
      · rwa [Validation.run_of_not_edits here reached]
    · have here : v.Edits := by
        obtain ⟨w, mem, edits⟩ := edit
        rcases List.mem_cons.mp mem with rfl | mem
        · exact edits
        · exact absurd ⟨w, mem, edits⟩ later
      rw [Validation.run_of_edits here reached]
      exact validateAll_of_not_edits (fun w mem edits => later ⟨w, mem, edits⟩) .edited

theorem validateAll_reached (vs : List Validation) : (validateAll vs Pkg.init).Reached := by
  by_cases edit : ∃ v ∈ vs, v.Edits
  · rw [validateAll_of_edits edit .init]
    exact .edited
  · rw [validateAll_of_not_edits (fun v mem edits => edit ⟨v, mem, edits⟩) .init]
    exact .init

/-- What a validation computes. -/
structure Computed where
  masterHookFuncs : List Bytes
  sslBpfFile : Bytes
  isBoringSSL : Bool
  deriving DecidableEq

def Validation.computed (v : Validation) (pkg : Pkg) : Computed :=
  let (_, c, pkg) := v.run pkg
  { masterHookFuncs := c.masterHookFuncs.read pkg, sslBpfFile := c.sslBpfFile,
    isBoringSSL := c.isBoringSSL }

theorem Validation.computed_order (v : Validation) (order : MapOrder) (h : pkg.Reached) :
    ({ v with order } : Validation).computed pkg = v.computed pkg := by
  have same : ({ v with order } : Validation).selected = v.selected :=
    selectBpfFile_congr order.2 v.order.2 ..
  rw [Validation.computed, Validation.run_eq _ h, same, ← v.run_eq h, Validation.computed]

/-- When a configuration gets the same after the list has been edited. -/
theorem Validation.computed_edited_iff (v : Validation) :
    v.computed .edited = v.computed .init ↔ v.Default → PicksOld v.host v.config := by
  by_cases default_ : v.Default
  · have old := (selectBpfFile_spec v.order.2 v.host v.config).2 default_.2
    rw [forall_prop_of_true default_, ← old, Validation.computed, Validation.computed,
      default_.run .edited, default_.run .init]
    by_cases here : IsOld v.selected.2.sslVersion
    · rw [if_pos here, if_pos here]
      exact iff_of_true rfl here
    · rw [if_neg here, if_neg here]
      refine iff_of_false (fun same => ?_) here
      exact Pkg.edited_ne_init (congrArg Computed.masterHookFuncs same)
  · obtain ⟨c, funcs, own, result⟩ := Validation.run_of_not_default default_
    refine iff_of_true ?_ (absurd · default_)
    rw [Validation.computed, Validation.computed, result _ .edited, result _ .init]
    dsimp only
    rw [own, HookFuncs.read, HookFuncs.read]

theorem Validation.computed_bytecode (v : Validation) (h : pkg.Reached) :
    (v.computed pkg).sslBpfFile = (v.computed .init).sslBpfFile ∧
      (v.computed pkg).isBoringSSL = (v.computed .init).isBoringSSL := by
  by_cases default_ : v.Default
  · rw [Validation.computed, Validation.computed, default_.run h, default_.run .init]
    exact ⟨rfl, rfl⟩
  · obtain ⟨c, funcs, own, result⟩ := Validation.run_of_not_default default_
    rw [Validation.computed, Validation.computed, result _ h, result _ .init]
    exact ⟨rfl, rfl⟩

/-- The bytecode, its kind and the table are not touched by what was validated before. -/
theorem computed_bytecode_alone (earlier : List Validation) (last : Validation) :
    (last.computed (validateAll earlier .init)).sslBpfFile = (last.computed .init).sslBpfFile ∧
      (last.computed (validateAll earlier .init)).isBoringSSL =
        (last.computed .init).isBoringSSL ∧
      (validateAll earlier .init).sslVersionBpfMap = sslVersionBpfMap := by
  have reached := validateAll_reached earlier
  obtain ⟨bpfFile, boring⟩ := last.computed_bytecode reached
  exact ⟨bpfFile, boring, reached.table⟩

/-- When the last of the configurations that are validated in one process gets what it would get
alone, and when the package is left as it was. -/
theorem computed_alone_iff (earlier : List Validation) (last : Validation) (order : MapOrder) :
    (last.computed (validateAll earlier .init) = ({ last with order } : Validation).computed .init ↔
      (∃ v ∈ earlier, v.Edits) → last.Default → PicksOld last.host last.config) ∧
    (validateAll (earlier ++ [last]) .init = .init ↔ ∀ v ∈ earlier ++ [last], ¬ v.Edits) := by
  constructor
  · rw [last.computed_order order .init]
    by_cases edit : ∃ v ∈ earlier, v.Edits
    · rw [validateAll_of_edits edit .init, last.computed_edited_iff, forall_prop_of_true edit]
    · rw [validateAll_of_not_edits (fun v mem edits => edit ⟨v, mem, edits⟩) .init]
      exact iff_of_true rfl (absurd · edit)
  · constructor
    · intro same v mem edits
      rw [validateAll_of_edits ⟨v, mem, edits⟩ .init] at same
      exact Pkg.edited_ne_init (congrArg Pkg.masterKeyHookFuncs same)
    · exact fun keep => validateAll_of_not_edits keep .init

/-- A host whose library has no version, and a configuration that names one. -/
def named (sslVersion : String) : Validation where
  host := { detectOpenssl := fun _ => .ok none, getImpNeeded := fun _ => none }
  order := ⟨anyOrder, ranges_anyOrder⟩
  config :=
    { opensslPath := str "/lib/x86_64-linux-gnu/libssl.so.3", sslVersion := str sslVersion,
      sslBpfFile := [], isBoringSSL := false, masterHookFuncs := .own [], isAndroid := false,
      androidVer := [] }

/-- After version 1.0.2u, version 3.0.0 gets `SSL_state` in the place of `SSL_in_before`. -/
theorem reload_edits_masterKeyHookFuncs :
    ((named "openssl 3.0.0").computed .init).masterHookFuncs =
      [str "SSL_get_wbio", str "SSL_write", str "SSL_in_before", str "SSL_do_handshake"] ∧
    ((named "openssl 3.0.0").computed
        (validateAll [named "openssl 1.0.2u"] .init)).masterHookFuncs =
      [str "SSL_get_wbio", str "SSL_write", str "SSL_state", str "SSL_do_handshake"] ∧
    (named "openssl 3.0.0").computed (validateAll [named "openssl 1.0.2u"] .init) ≠
      (named "openssl 3.0.0").computed .init ∧
    validateAll [named "openssl 1.0.2u"] .init ≠ .init := by
  refine ⟨by decide +kernel, by decide +kernel, by decide +kernel, fun same => ?_⟩
  have list := congrArg Pkg.masterKeyHookFuncs same
  revert list
  decide +kernel

end ECapture.Probe
