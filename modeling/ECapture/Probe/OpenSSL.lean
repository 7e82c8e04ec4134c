import ECapture.Errors

/-!
# Setup of the OpenSSL probe in pcap mode

`setupManagerPcapNG` of `internal/probe/openssl/openssl_probe.go`: which programs the manager is
told to attach and to what, and which handlers are registered with the dispatcher. The manager
attaches the listed programs and no others.
-/

namespace ECapture.Probe
open Library

/-- What the configuration says. An unset option is the empty string. -/
structure Config where
  opensslPath : String
  ifname : String
  pcapFile : String
  keylogFile : String
  isBoringSSL : Bool
  masterHookFuncs : List String

inductive NetworkDirection where
  | ingress
  | egress

/-- `manager.Probe`. -/
structure ManagerProbe where
  sectionName : String
  ebpfFuncName : String
  attachToFuncName : String
  binaryPath : String
  uid : String
  ifname : String
  networkDirection : Option NetworkDirection

structure Manager where
  probes : List ManagerProbe
  maps : List String

/-- A handler that is registered with the dispatcher, by the file it writes to. -/
inductive HandlerSpec where
  | keylog (path : String)
  | pcapng (path : String)
  | pcapKeylog (path : String)

/-- What the operating system answers: the error of opening a file, if there is one, and the error of
`NewPcapHandler`, which writes the section header and the interfaces. -/
structure Os where
  openError : String → Option String
  pcapHandlerError : Option String

def tcFuncNameIngress : String := "ingress_cls_func"
def tcFuncNameEgress : String := "egress_cls_func"

/-- A classifier on the configured interface. -/
def classifier (cfg : Config) (name : String) (direction : NetworkDirection) : ManagerProbe :=
  { sectionName := "classifier"
    ebpfFuncName := name
    attachToFuncName := ""
    binaryPath := ""
    uid := ""
    ifname := cfg.ifname
    networkDirection := some direction }

/-- A program on one of the functions that see the master secret. -/
def masterProbe (cfg : Config) (sectionName name uid masterFunc : String) : ManagerProbe :=
  { sectionName
    ebpfFuncName := name
    attachToFuncName := masterFunc
    binaryPath := cfg.opensslPath
    uid := uid ++ masterFunc
    ifname := ""
    networkDirection := none }

def masterProbes (cfg : Config) : List ManagerProbe :=
  if cfg.isBoringSSL then
    cfg.masterHookFuncs.flatMap fun masterFunc =>
      [masterProbe cfg "uprobe/bssl_do_handshake" "uprobe_bssl_do_handshake" "uprobe_bssl_hs_"
          masterFunc,
        masterProbe cfg "uretprobe/bssl_do_handshake" "uretprobe_bssl_do_handshake"
          "uretprobe_bssl_hs_" masterFunc]
  else
    cfg.masterHookFuncs.map
      (masterProbe cfg "uprobe/SSL_write_key" "probe_ssl_master_key" "uprobe_smk_")

def pcapProbes (cfg : Config) : List ManagerProbe :=
  classifier cfg tcFuncNameIngress .ingress :: classifier cfg tcFuncNameEgress .egress ::
    masterProbes cfg

def pcapMaps (cfg : Config) : List String :=
  ["mastersecret_events", "skb_events", "skb_data_buffer_heap", "network_map"] ++
    if cfg.isBoringSSL then ["bssl_do_handshake_map"] else []

/-- The key log file is optional, and a file that cannot be opened is only logged. -/
def keylogFileHandler (os : Os) (cfg : Config) : List HandlerSpec :=
  if cfg.keylogFile ≠ "" ∧ (os.openError cfg.keylogFile).isNone then [.keylog cfg.keylogFile]
  else []

/-- The handlers it has registered, and the manager or an error. -/
def setupManagerPcapNG (os : Os) (cfg : Config) :
    List HandlerSpec × Except Error Manager :=
  if cfg.ifname = "" then
    ([], .error (.new .configuration (str "ifname is required for pcap mode")))
  else
    let keylog := keylogFileHandler os cfg
    if cfg.pcapFile = "" then (keylog, .error (.text (str "pcap mode requires pcap file path")))
    else
      match os.openError cfg.pcapFile, os.pcapHandlerError with
      | some err, _ =>
        (keylog, .error (.text (str "failed to create pcap writer: failed to open file " ++
          str cfg.pcapFile ++ str ": " ++ str err)))
      | none, some err => (keylog, .error (.text (str "failed to create pcap handler: " ++ str err)))
      | none, none =>
        (keylog ++ [.pcapng cfg.pcapFile, .pcapKeylog cfg.pcapFile],
          .ok ⟨pcapProbes cfg, pcapMaps cfg⟩)

/-! ## Attached programs -/

def Manager.attaches (m : Manager) (name : String) : Bool :=
  m.probes.any fun p => p.ebpfFuncName == name

theorem setupManagerPcapNG_ok {os : Os} {cfg : Config} {handlers : List HandlerSpec}
    {m : Manager} (setup : setupManagerPcapNG os cfg = (handlers, .ok m)) :
    m = ⟨pcapProbes cfg, pcapMaps cfg⟩ ∧
      handlers = keylogFileHandler os cfg ++
        [.pcapng cfg.pcapFile, .pcapKeylog cfg.pcapFile] := by
  unfold setupManagerPcapNG at setup
  grind

/-- A program that is neither a classifier nor about master secrets is not attached. -/
theorem attaches_pcapProbes (cfg : Config) (maps : List String) {name : String}
    (attached : (⟨pcapProbes cfg, maps⟩ : Manager).attaches name = true) :
    name = tcFuncNameIngress ∨ name = tcFuncNameEgress ∨ name = "uprobe_bssl_do_handshake" ∨
      name = "uretprobe_bssl_do_handshake" ∨ name = "probe_ssl_master_key" := by
  simp only [Manager.attaches, pcapProbes, masterProbes, List.any_cons, Bool.or_eq_true,
    beq_iff_eq, List.any_eq_true] at attached
  rcases attached with same | same | ⟨p, mem, same⟩
  · exact .inl same.symm
  · exact .inr (.inl same.symm)
  · split at mem
    · obtain ⟨f, -, mem⟩ := List.mem_flatMap.mp mem
      simp only [List.mem_cons, List.not_mem_nil, or_false] at mem
      rcases mem with rfl | rfl
      · exact .inr (.inr (.inl same.symm))
      · exact .inr (.inr (.inr (.inl same.symm)))
    · obtain ⟨f, -, rfl⟩ := List.mem_map.mp mem
      exact .inr (.inr (.inr (.inr same.symm)))

end ECapture.Probe
