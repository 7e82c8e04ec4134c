import ECapture.Kernel.Filter
import ECapture.Library.Table

/-!
# The kernel programs of the OpenSSL probe

`kern/openssl.h`: the uprobes on `SSL_read`, `SSL_write` and `SSL_set_fd`, and the kprobes that
follow `connect`, `accept4` and the destruction of a socket. `setupManagerText` attaches all of
them.

A program runs to its end before another one runs on the same CPU, so one run of a program is one
step on the maps. What it reads from outside (the current task, the CPU, the clock, the memory of
the process and of the kernel, the registers) comes with the step. Integers are little-endian in
memory, as on the architectures the programs are built for.
-/

namespace ECapture.Kernel.Ssl
open Library

/-! ## Structs and maps -/

/-- `MAX_DATA_SIZE_OPENSSL`. -/
abbrev maxDataSizeOpenssl : Nat := 1024 * 16

def defaultBioType : UInt32 := 0

/-- `struct ssl_data_event_t`. `hole` is the alignment before `timestamp_ns`. -/
structure SslDataEvent where
  type : UInt32
  hole : UInt32
  timestampNs : UInt64
  pid : UInt32
  tid : UInt32
  data : Vector UInt8 maxDataSizeOpenssl
  dataLen : Int32
  comm : Vector UInt8 16
  fd : UInt32
  version : Int32
  bioType : UInt32

def SslDataEvent.zero : SslDataEvent := ⟨0, 0, 0, 0, 0, zeros _, 0, zeros _, 0, 0, 0⟩

/-- The memory of the struct, which is what `bpf_perf_event_output` copies. -/
def SslDataEvent.bytes (e : SslDataEvent) : Bytes :=
  leBytes 4 e.type.toNat ++ (leBytes 4 e.hole.toNat ++ (leBytes 8 e.timestampNs.toNat ++
    (leBytes 4 e.pid.toNat ++ (leBytes 4 e.tid.toNat ++ (e.data.toList ++
    (leBytes 4 e.dataLen.toUInt32.toNat ++ (e.comm.toList ++ (leBytes 4 e.fd.toNat ++
    (leBytes 4 e.version.toUInt32.toNat ++ leBytes 4 e.bioType.toNat)))))))))

/-- `struct connect_event_t`, packed. The addresses are 128-bit numbers. -/
structure ConnectEvent where
  saddr : Nat
  daddr : Nat
  comm : Vector UInt8 16
  timestampNs : UInt64
  sock : UInt64
  pid : UInt32
  tid : UInt32
  fd : UInt32
  family : UInt16
  sport : UInt16
  dport : UInt16
  isDestroy : UInt8

def ConnectEvent.zero : ConnectEvent := ⟨0, 0, zeros _, 0, 0, 0, 0, 0, 0, 0, 0, 0⟩

def ConnectEvent.bytes (e : ConnectEvent) : Bytes :=
  leBytes 16 e.saddr ++ (leBytes 16 e.daddr ++ (e.comm.toList ++ (leBytes 8 e.timestampNs.toNat ++
    (leBytes 8 e.sock.toNat ++ (leBytes 4 e.pid.toNat ++ (leBytes 4 e.tid.toNat ++
    (leBytes 4 e.fd.toNat ++ (leBytes 2 e.family.toNat ++ (leBytes 2 e.sport.toNat ++
    (leBytes 2 e.dport.toNat ++ (leBytes 1 e.isDestroy.toNat ++ List.replicate 7 0)))))))))))

/-- `struct active_ssl_buf`. -/
structure ActiveSslBuf where
  version : Int32
  fd : UInt32
  bioType : UInt32
  buf : UInt64
  deriving DecidableEq

/-- `struct tcp_fd_info`. -/
structure TcpFdInfo where
  sock : UInt64
  fd : UInt32
  deriving DecidableEq

/-- The two traced functions, each with its map. -/
inductive SslFn where
  | read
  | write
  deriving DecidableEq

/-- `kSSLRead` and `kSSLWrite`. -/
def SslFn.eventType : SslFn → UInt32
  | .read => 0
  | .write => 1

/-- The maps and the two perf rings. -/
structure Maps where
  activeSslReadArgsMap : Table UInt64 ActiveSslBuf
  activeSslWriteArgsMap : Table UInt64 ActiveSslBuf
  /-- One element for each CPU. -/
  dataBufferHeap : Nat → SslDataEvent
  sslStFd : Table UInt64 UInt64
  tcpFdInfos : Table UInt64 TcpFdInfo
  tlsEvents : List Bytes
  connectEvents : List Bytes

def Maps.new : Maps :=
  { activeSslReadArgsMap := .empty _ _ 1024
    activeSslWriteArgsMap := .empty _ _ 1024
    dataBufferHeap := fun _ => .zero
    sslStFd := .empty _ _ 10240
    tcpFdInfos := .empty _ _ 10240
    tlsEvents := []
    connectEvents := [] }

namespace Maps

/-- The map a program on `f` is given. -/
def args (s : Maps) : SslFn → Table UInt64 ActiveSslBuf
  | .read => s.activeSslReadArgsMap
  | .write => s.activeSslWriteArgsMap

def setArgs (f : SslFn) (t : Table UInt64 ActiveSslBuf) (s : Maps) : Maps :=
  match f with
  | .read => { s with activeSslReadArgsMap := t }
  | .write => { s with activeSslWriteArgsMap := t }

end Maps

/-! ## What a run reads -/

/-- The fields of `struct sock` that are read. Addresses and `skc_dport` are in network byte
order, as bytes; `skc_num` is a host number. -/
structure Sock where
  skcDaddr : Vector UInt8 4
  skcRcvSaddr : Vector UInt8 4
  skcDport : Vector UInt8 2
  skcNum : UInt16
  skcFamily : UInt16
  skcV6Daddr : Vector UInt8 16
  skcV6RcvSaddr : Vector UInt8 16

/-- Kernel memory: `sock->sk` of a `struct socket`, and the fields of a `struct sock`. A read that
fails gives zeros. -/
structure KernelMemory where
  socketSk : UInt64 → UInt64
  sock : UInt64 → Sock

structure Ctx where
  task : Task
  cpu : Nat
  ktime : UInt64
  mem : UserMemory
  kmem : KernelMemory

/-- The offsets of one OpenSSL or BoringSSL build. `sslStVersion` is `none` where
`SSL_SESSION_ST_SSL_VERSION` is defined. -/
structure Offsets where
  sslStVersion : Option UInt64
  sslStRbio : UInt64
  sslStWbio : UInt64
  bioStNum : UInt64
  bioStMethod : UInt64
  bioMethodStType : UInt64

def Offsets.bio (off : Offsets) : SslFn → UInt64
  | .read => off.sslStRbio
  | .write => off.sslStWbio

/-! ## SSL_read and SSL_write -/

def processBIOType (off : Offsets) (mem : UserMemory) (sslBioAddr : UInt64) : UInt32 :=
  let (ok, methodAddr) := mem.probeReadU64 (sslBioAddr + off.bioStMethod)
  if !ok then defaultBioType
  else
    let (ok, bioType) := mem.probeRead (methodAddr + off.bioMethodStType) 4
    if !ok then defaultBioType else UInt32.ofNat (leNat bioType.toList)

/-- The fd of an SSL object whose BIO does not know it. -/
def fallbackFd (sslStFd : Table UInt64 UInt64) (ssl : UInt64) (fd : UInt32) : UInt32 :=
  if fd = 0 then
    match sslStFd.lookup ssl with
    | some set => set.toUInt32
    | none => fd
  else fd

/-- `process_SSL_bio`: what it leaves in `*fd` and `*bio_type`, which start at 0. -/
def processSSLBio (off : Offsets) (mem : UserMemory) (sslStFd : Table UInt64 UInt64)
    (ssl bioOffset : UInt64) : UInt32 × UInt32 :=
  let (ok, sslBioAddr) := mem.probeReadU64 (ssl + bioOffset)
  if !ok then (0, 0)
  else
    let bioType := processBIOType off mem sslBioAddr
    let (ok, num) := mem.probeReadU64 (sslBioAddr + off.bioStNum)
    if !ok then (0, bioType)
    else (fallbackFd sslStFd ssl num.toUInt32, bioType)

/-- What the entry probe stores. -/
def activeSslBuf (off : Offsets) (mem : UserMemory) (sslStFd : Table UInt64 UInt64) (f : SslFn)
    (ssl buf : UInt64) : ActiveSslBuf :=
  let sslVersion :=
    match off.sslStVersion with
    | some offset => (mem.probeReadU64 (ssl + offset)).2
    | none => 0
  let (fd, bioType) := processSSLBio off mem sslStFd ssl (off.bio f)
  { version := sslVersion.toUInt32.toInt32, fd, bioType, buf }

def probeEntrySSL (c : Consts) (off : Offsets) (f : SslFn) (ssl buf : UInt64) (x : Ctx)
    (s : Maps) : Maps :=
  if !passesFilter c x.task then s
  else
    s.setArgs f ((s.args f).update x.task.pidTgid (activeSslBuf off x.mem s.sslStFd f ssl buf))

/-- The element of the heap after `create_ssl_data_event`. -/
def createSslDataEvent (x : Ctx) (s : Maps) : SslDataEvent :=
  { s.dataBufferHeap x.cpu with
    timestampNs := x.ktime
    pid := x.task.pid
    tid := x.task.tid
    fd := 0
    bioType := defaultBioType }

/-- A read into the front of a buffer; the bytes behind it stay. -/
def overwrite {n k : Nat} (dst : Vector UInt8 n) (src : Vector UInt8 k) : Vector UInt8 n :=
  ⟨((src.toList ++ dst.toList.drop k).take n).toArray, by simp; omega⟩

/-- `event->data_len`, with the mask that keeps the verifier happy. -/
def dataLen (len : Int32) : Int32 :=
  if len < 16384 then len &&& (16384 - 1) else 16384

/-- The event `process_SSL_data` emits. -/
def sslDataEvent (f : SslFn) (a : ActiveSslBuf) (len : Int32) (x : Ctx) (s : Maps) : SslDataEvent :=
  let event := createSslDataEvent x s
  { event with
    type := f.eventType
    fd := a.fd
    bioType := a.bioType
    version := a.version
    dataLen := dataLen len
    data := overwrite event.data (x.mem.probeRead a.buf (dataLen len).toInt.toNat).2
    comm := x.task.comm }

def processSSLData (f : SslFn) (a : ActiveSslBuf) (rc : UInt64) (x : Ctx) (s : Maps) : Maps :=
  let len := rc.toUInt32.toInt32
  if len < 0 then s
  else
    let event := sslDataEvent f a len x s
    { s with
      dataBufferHeap := Function.update s.dataBufferHeap x.cpu event
      tlsEvents := s.tlsEvents ++ [event.bytes] }

def probeRetSSL (c : Consts) (f : SslFn) (rc : UInt64) (x : Ctx) (s : Maps) : Maps :=
  if !passesFilter c x.task then s
  else
    let s :=
      match (s.args f).lookup x.task.pidTgid with
      | some a => processSSLData f a rc x s
      | none => s
    s.setArgs f ((s.args f).delete x.task.pidTgid)

/-! ## Connections -/

def afInet : UInt16 := 2
def afInet6 : UInt16 := 10

inductive Family where
  | inet
  | inet6

def Family.number : Family → UInt16
  | .inet => afInet
  | .inet6 => afInet6

/-- Bytes of an address. -/
def Family.size : Family → Nat
  | .inet => 4
  | .inet6 => 16

/-- `bpf_ntohs`. -/
def ntohs (x : UInt16) : UInt16 := (x <<< 8) ||| (x >>> 8)

/-- A port as the two bytes of a header. -/
def netPort (port : UInt16) : Vector UInt8 2 := #v[(port >>> 8).toUInt8, port.toUInt8]

/-- `skc_addrpair` and `skc_portpair`: two fields read as one number. -/
def Sock.addrpair (sk : Sock) : UInt64 :=
  UInt64.ofNat (leNat (sk.skcDaddr.toList ++ sk.skcRcvSaddr.toList))

def Sock.portpair (sk : Sock) : UInt32 :=
  UInt32.ofNat (leNat (sk.skcDport.toList ++ leBytes 2 sk.skcNum.toNat))

/-- `saddr` and `daddr` of `kretprobe_connect`, for the two families it knows. -/
def Sock.addrs (sk : Sock) : Option (Nat × Nat) :=
  if sk.skcFamily = afInet then
    some ((sk.addrpair >>> 32).toUInt32.toNat, sk.addrpair.toUInt32.toNat)
  else if sk.skcFamily = afInet6 then
    some (leNat sk.skcV6RcvSaddr.toList, leNat sk.skcV6Daddr.toList)
  else none

/-- The event of `kretprobe_connect`, once the socket has ports and addresses. -/
def connectEvent (fd : UInt32) (skPtr : UInt64) (active : Bool) (x : Ctx) (saddr daddr : Nat) :
    ConnectEvent :=
  let sk := x.kmem.sock skPtr
  let near := (sk.portpair >>> 16).toUInt16
  let far := ntohs sk.portpair.toUInt16
  { saddr := if active then saddr else daddr
    daddr := if active then daddr else saddr
    comm := x.task.comm
    timestampNs := x.ktime
    sock := skPtr
    pid := x.task.pid
    tid := x.task.tid
    fd
    family := sk.skcFamily
    sport := if active then near else far
    dport := if active then far else near
    isDestroy := 0 }

def kretprobeConnect (c : Consts) (fd : UInt32) (skPtr : UInt64) (active : Bool) (x : Ctx)
    (s : Maps) : Maps :=
  if !passesFilter c x.task then s
  else
    match (x.kmem.sock skPtr).addrs with
    | none => s
    | some (saddr, daddr) =>
      if (x.kmem.sock skPtr).portpair = 0 ∨ saddr = 0 ∨ daddr = 0 then s
      else
        { s with
          connectEvents :=
            s.connectEvents ++ [(connectEvent fd skPtr active x saddr daddr).bytes] }

/-- `probe_connect`, attached to `__sys_connect` and to `__sys_accept4`. -/
def probeConnect (fd : UInt64) (x : Ctx) (s : Maps) : Maps :=
  { s with tcpFdInfos := s.tcpFdInfos.update x.task.pidTgid ⟨0, fd.toUInt32⟩ }

/-- `probe_inet_stream_connect` and `probe_inet_accept`, which differ in the register. -/
def probeInet (sock : UInt64) (x : Ctx) (s : Maps) : Maps :=
  match s.tcpFdInfos.lookup x.task.pidTgid with
  | some info => { s with tcpFdInfos := s.tcpFdInfos.update x.task.pidTgid { info with sock } }
  | none => s

/-- `lookup_and_delete_fd_info`, then `kretprobe_connect` if the socket has a `struct sock`. -/
def finishConnect (c : Consts) (fd : TcpFdInfo → UInt32) (active : Bool) (x : Ctx) (s : Maps) :
    Maps :=
  match s.tcpFdInfos.lookup x.task.pidTgid with
  | some info =>
    let s := { s with tcpFdInfos := s.tcpFdInfos.delete x.task.pidTgid }
    if x.kmem.socketSk info.sock ≠ 0 then
      kretprobeConnect c (fd info) (x.kmem.socketSk info.sock) active x s
    else s
  | none => s

def retprobeConnect (c : Consts) (x : Ctx) (s : Maps) : Maps :=
  finishConnect c TcpFdInfo.fd true x s

def retprobeAccept4 (c : Consts) (rc : UInt64) (x : Ctx) (s : Maps) : Maps :=
  if rc.toUInt32.toInt32 < 0 then s else finishConnect c (fun _ => rc.toUInt32) false x s

/-- `probe_tcp_v4_destroy_sock`: no filter here. -/
def probeTcpV4DestroySock (skPtr : UInt64) (s : Maps) : Maps :=
  { s with
    connectEvents :=
      s.connectEvents ++ [{ ConnectEvent.zero with sock := skPtr, isDestroy := 1 }.bytes] }

/-! ## SSL_set_fd -/

/-- `probe_SSL_set_fd`, attached to `SSL_set_fd`, `SSL_set_rfd` and `SSL_set_wfd`. -/
def probeSSLSetFd (ssl fd : UInt64) (s : Maps) : Maps :=
  { s with sslStFd := s.sslStFd.update ssl fd }

/-! ## Runs -/

/-- A program with the registers it reads. -/
inductive Prog where
  | entrySSL (f : SslFn) (ssl buf : UInt64)
  | retSSL (f : SslFn) (rc : UInt64)
  | connect (fd : UInt64)
  | inetStreamConnect (sock : UInt64)
  | retConnect
  | inetAccept (newsock : UInt64)
  | retAccept4 (rc : UInt64)
  | tcpV4DestroySock (sk : UInt64)
  | setFd (ssl fd : UInt64)

structure Event where
  ctx : Ctx
  prog : Prog

def exec (c : Consts) (off : Offsets) (s : Maps) (e : Event) : Maps :=
  match e.prog with
  | .entrySSL f ssl buf => probeEntrySSL c off f ssl buf e.ctx s
  | .retSSL f rc => probeRetSSL c f rc e.ctx s
  | .connect fd => probeConnect fd e.ctx s
  | .inetStreamConnect sock => probeInet sock e.ctx s
  | .retConnect => retprobeConnect c e.ctx s
  | .inetAccept newsock => probeInet newsock e.ctx s
  | .retAccept4 rc => retprobeAccept4 c rc e.ctx s
  | .tcpV4DestroySock sk => probeTcpV4DestroySock sk s
  | .setFd ssl fd => probeSSLSetFd ssl fd s

/-- The maps after the programs have run in this order. -/
def execAll (c : Consts) (off : Offsets) (s : Maps) (es : List Event) : Maps :=
  es.foldl (exec c off) s

/-! ## Ports -/

theorem leNat_netPort (port : UInt16) :
    leNat (netPort port).toList = port.toNat / 256 + 256 * (port.toNat % 256) := by
  have bound := port.toNat_lt
  have high : (port >>> 8).toUInt8.toNat = port.toNat / 256 := by
    rw [UInt16.toNat_toUInt8, UInt16.toNat_shiftRight, Nat.shiftRight_eq_div_pow]
    change (_ / 2 ^ 8) % 2 ^ 8 = _
    omega
  have low : port.toUInt8.toNat = port.toNat % 256 := UInt16.toNat_toUInt8 port
  change (port >>> 8).toUInt8.toNat + 256 * (port.toUInt8.toNat + 256 * 0) = _
  rw [high, low, Nat.mul_zero, Nat.add_zero]

theorem ntohs_of_bytes {x port : UInt16}
    (swapped : x.toNat = port.toNat / 256 + 256 * (port.toNat % 256)) : ntohs x = port := by
  have bound := port.toNat_lt
  apply UInt16.toNat_inj.mp
  have high : (x <<< 8).toNat = (port.toNat / 256) <<< 8 := by
    rw [UInt16.toNat_shiftLeft, swapped, Nat.shiftLeft_eq, Nat.shiftLeft_eq]
    change _ * 2 ^ 8 % 2 ^ 16 = _
    omega
  have low : (x >>> 8).toNat = port.toNat % 256 := by
    rw [UInt16.toNat_shiftRight, swapped, Nat.shiftRight_eq_div_pow]
    change _ / 2 ^ 8 = _
    omega
  rw [ntohs, UInt16.toNat_or, high, low, ← Nat.shiftLeft_add_eq_or_of_lt (by omega),
    Nat.shiftLeft_eq]
  omega

/-! ## Access to the argument maps -/

namespace Maps

@[simp] theorem args_setArgs_self (s : Maps) (f : SslFn) (t : Table UInt64 ActiveSslBuf) :
    (s.setArgs f t).args f = t := by
  cases f <;> rfl

theorem args_setArgs_of_ne (s : Maps) {f g : SslFn} (other : g ≠ f)
    (t : Table UInt64 ActiveSslBuf) : (s.setArgs f t).args g = s.args g := by
  cases f <;> cases g <;> first | rfl | exact absurd rfl other

@[simp] theorem setArgs_tlsEvents (s : Maps) (f : SslFn) (t : Table UInt64 ActiveSslBuf) :
    (s.setArgs f t).tlsEvents = s.tlsEvents := by
  cases f <;> rfl

@[simp] theorem setArgs_connectEvents (s : Maps) (f : SslFn) (t : Table UInt64 ActiveSslBuf) :
    (s.setArgs f t).connectEvents = s.connectEvents := by
  cases f <;> rfl

@[simp] theorem setArgs_dataBufferHeap (s : Maps) (f : SslFn) (t : Table UInt64 ActiveSslBuf) :
    (s.setArgs f t).dataBufferHeap = s.dataBufferHeap := by
  cases f <;> rfl

@[simp] theorem setArgs_sslStFd (s : Maps) (f : SslFn) (t : Table UInt64 ActiveSslBuf) :
    (s.setArgs f t).sslStFd = s.sslStFd := by
  cases f <;> rfl

@[simp] theorem setArgs_tcpFdInfos (s : Maps) (f : SslFn) (t : Table UInt64 ActiveSslBuf) :
    (s.setArgs f t).tcpFdInfos = s.tcpFdInfos := by
  cases f <;> rfl

end Maps

/-! ## What a program can do -/

theorem processSSLData_eq (f : SslFn) (a : ActiveSslBuf) (rc : UInt64) (x : Ctx) (s : Maps) :
    ∃ heap out, processSSLData f a rc x s =
      { s with dataBufferHeap := heap, tlsEvents := s.tlsEvents ++ out } := by
  unfold processSSLData
  dsimp only
  split
  · exact ⟨s.dataBufferHeap, [], by simp⟩
  · exact ⟨_, _, rfl⟩

theorem kretprobeConnect_eq (c : Consts) (fd : UInt32) (sk : UInt64) (active : Bool) (x : Ctx)
    (s : Maps) : ∃ out, kretprobeConnect c fd sk active x s =
      { s with connectEvents := s.connectEvents ++ out } := by
  unfold kretprobeConnect
  split
  · exact ⟨[], by simp⟩
  · split
    · exact ⟨[], by simp⟩
    · split
      · exact ⟨[], by simp⟩
      · exact ⟨_, rfl⟩

theorem finishConnect_eq (c : Consts) (fd : TcpFdInfo → UInt32) (active : Bool) (x : Ctx)
    (s : Maps) : ∃ infos out, finishConnect c fd active x s =
      { s with tcpFdInfos := infos, connectEvents := s.connectEvents ++ out } := by
  unfold finishConnect
  split
  · dsimp only
    split
    · obtain ⟨out, eq⟩ := kretprobeConnect_eq c _ _ active x
        { s with tcpFdInfos := s.tcpFdInfos.delete x.task.pidTgid }
      exact ⟨_, out, eq⟩
    · exact ⟨s.tcpFdInfos.delete x.task.pidTgid, [], by simp⟩
  · exact ⟨s.tcpFdInfos, [], by simp⟩

/-- The programs on connections have `tcp_fd_infos` and `connect_events` to themselves. -/
theorem exec_cases (c : Consts) (off : Offsets) (s : Maps) (e : Event) :
    (∃ f ssl buf, e.prog = .entrySSL f ssl buf) ∨ (∃ f rc, e.prog = .retSSL f rc) ∨
      (∃ ssl fd, e.prog = .setFd ssl fd) ∨
      ∃ infos out, exec c off s e =
        { s with tcpFdInfos := infos, connectEvents := s.connectEvents ++ out } := by
  obtain ⟨x, prog⟩ := e
  cases prog with
  | entrySSL f ssl buf => exact .inl ⟨f, ssl, buf, rfl⟩
  | retSSL f rc => exact .inr (.inl ⟨f, rc, rfl⟩)
  | setFd ssl fd => exact .inr (.inr (.inl ⟨ssl, fd, rfl⟩))
  | connect fd => exact .inr (.inr (.inr ⟨_, [], by rw [List.append_nil]; rfl⟩))
  | inetStreamConnect sock | inetAccept newsock =>
    refine .inr (.inr (.inr ?_))
    simp only [exec, probeInet]
    split
    · exact ⟨_, [], by rw [List.append_nil]⟩
    · exact ⟨s.tcpFdInfos, [], by rw [List.append_nil]⟩
  | retConnect => exact .inr (.inr (.inr (finishConnect_eq c _ true x s)))
  | retAccept4 rc =>
    refine .inr (.inr (.inr ?_))
    simp only [exec, retprobeAccept4]
    split
    · exact ⟨s.tcpFdInfos, [], by simp⟩
    · exact finishConnect_eq c _ false x s
  | tcpV4DestroySock sk => exact .inr (.inr (.inr ⟨s.tcpFdInfos, _, rfl⟩))

end ECapture.Kernel.Ssl
