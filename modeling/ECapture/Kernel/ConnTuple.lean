import ECapture.Events.OpenSSL
import ECapture.Kernel.Ssl

/-!
# The tuple of a connection

Both ends of a TCP connection report it: the connecting end when `connect` returns, the accepting end
when `accept4` returns. Each socket names its own end first, so the accepting end turns its
addresses and ports around. After `DecodeFromBytes` the two records have the same text, client first.
-/

namespace ECapture.Kernel.Ssl
open Library

/-! ## Connections and their sockets -/

/-- An address as Go prints it. -/
def Family.text : Family → Bytes → Bytes
  | .inet => Events.ipv4Text
  | .inet6 => Events.addrFrom16Text

/-- A connection between two sockets of one family; the addresses are in network byte order. -/
structure Connection where
  family : Family
  client : Vector UInt8 family.size
  server : Vector UInt8 family.size
  clientPort : UInt16
  serverPort : UInt16
  clientPort_ne : clientPort ≠ 0
  serverPort_ne : serverPort ≠ 0

/-- `[src]:sport->[dst]:dport`. -/
def Family.tuple (family : Family) (src dst : Vector UInt8 family.size) (sport dport : UInt16) :
    Bytes :=
  str "[" ++ family.text src.toList ++ str "]:" ++ dec sport.toNat ++ str "->[" ++
    family.text dst.toList ++ str "]:" ++ dec dport.toNat

def Connection.tuple (k : Connection) : Bytes :=
  k.family.tuple k.client k.server k.clientPort k.serverPort

/-- The addresses a socket of this family has for its own end and for the other end. -/
def Sock.nearAddr (sk : Sock) : Family → Bytes
  | .inet => sk.skcRcvSaddr.toList
  | .inet6 => sk.skcV6RcvSaddr.toList

def Sock.farAddr (sk : Sock) : Family → Bytes
  | .inet => sk.skcDaddr.toList
  | .inet6 => sk.skcV6Daddr.toList

/-- A socket of a connection, with its own end first. The fields of the other family may hold
anything. -/
structure Sock.Joins (sk : Sock) (family : Family) (near far : Vector UInt8 family.size)
    (nearPort farPort : UInt16) : Prop where
  number : sk.skcFamily = family.number
  near : sk.nearAddr family = near.toList
  far : sk.farAddr family = far.toList
  nearPort : sk.skcNum = nearPort
  farPort : sk.skcDport = netPort farPort

def Connection.ClientSock (k : Connection) (sk : Sock) : Prop :=
  sk.Joins k.family k.client k.server k.clientPort k.serverPort

def Connection.ServerSock (k : Connection) (sk : Sock) : Prop :=
  sk.Joins k.family k.server k.client k.serverPort k.clientPort

/-- Neither address is all zeros, which an established connection has not. -/
def Connection.Addressed (k : Connection) : Prop :=
  (∃ b ∈ k.client.toList, b ≠ 0) ∧ ∃ b ∈ k.server.toList, b ≠ 0

/-- The thread has left a socket in `tcp_fd_infos`, and this is its `struct sock`. -/
def LooksAt (x : Ctx) (s : Maps) (sk : Sock) : Prop :=
  ∃ info, s.tcpFdInfos.lookup x.task.pidTgid = some info ∧ x.kmem.socketSk info.sock ≠ 0 ∧
    x.kmem.sock (x.kmem.socketSk info.sock) = sk

/-- What a program has added to `connect_events`. -/
def emitted (before after : Maps) : List Bytes :=
  after.connectEvents.drop before.connectEvents.length

def HasTuple (record tuple : Bytes) : Prop :=
  ∃ e, Events.OpenSSL.ConnDataEvent.decodeFromBytes record = .ok (.ok e) ∧ e.tuple = tuple

/-! ## Addresses and ports -/

theorem Sock.addrs_eq {sk : Sock} {family : Family} (h : sk.skcFamily = family.number) :
    sk.addrs = some (leNat (sk.nearAddr family), leNat (sk.farAddr family)) := by
  cases family with
  | inet =>
    have near := leNat_lt sk.skcRcvSaddr.toList
    have far := leNat_lt sk.skcDaddr.toList
    rw [Vector.length_toList] at near far
    have pair : sk.addrpair.toNat =
        leNat sk.skcDaddr.toList + 2 ^ 32 * leNat sk.skcRcvSaddr.toList := by
      rw [Sock.addrpair, leNat_append, UInt64.toNat_ofNat', Vector.length_toList]
      omega
    have high : (sk.addrpair >>> 32).toUInt32.toNat = leNat sk.skcRcvSaddr.toList := by
      rw [UInt64.toNat_toUInt32, UInt64.toNat_shiftRight, pair, Nat.shiftRight_eq_div_pow]
      change (_ / 2 ^ 32) % 2 ^ 32 = _
      omega
    have low : sk.addrpair.toUInt32.toNat = leNat sk.skcDaddr.toList := by
      rw [UInt64.toNat_toUInt32, pair]
      omega
    have v4 : sk.skcFamily = afInet := h
    rw [Sock.addrs, if_pos v4, high, low]
    rfl
  | inet6 =>
    have other : sk.skcFamily ≠ afInet := by
      rw [h]
      decide
    have v6 : sk.skcFamily = afInet6 := h
    rw [Sock.addrs, if_neg other, if_pos v6]
    rfl

theorem Sock.toNat_portpair (sk : Sock) :
    sk.portpair.toNat = leNat sk.skcDport.toList + 2 ^ 16 * sk.skcNum.toNat := by
  have far := leNat_lt sk.skcDport.toList
  have near := sk.skcNum.toNat_lt
  rw [Vector.length_toList] at far
  rw [Sock.portpair, leNat_append, leNat_leBytes, UInt32.toNat_ofNat', Vector.length_toList]
  omega

theorem Sock.near_port (sk : Sock) : (sk.portpair >>> 16).toUInt16 = sk.skcNum := by
  have far := leNat_lt sk.skcDport.toList
  have near := sk.skcNum.toNat_lt
  rw [Vector.length_toList] at far
  apply UInt16.toNat_inj.mp
  rw [UInt32.toNat_toUInt16, UInt32.toNat_shiftRight, sk.toNat_portpair, Nat.shiftRight_eq_div_pow]
  change (_ / 2 ^ 16) % 2 ^ 16 = _
  omega

theorem Sock.far_port {sk : Sock} {port : UInt16} (h : sk.skcDport = netPort port) :
    ntohs sk.portpair.toUInt16 = port := by
  have bound := port.toNat_lt
  apply ntohs_of_bytes
  have bytes : leNat sk.skcDport.toList = port.toNat / 256 + 256 * (port.toNat % 256) := by
    rw [h, leNat_netPort]
  rw [UInt32.toNat_toUInt16, sk.toNat_portpair, bytes]
  omega

/-! ## The decoded record -/

/-- A 128-bit field of the record, as the bytes the Go side reads. -/
def addrField (addr : Nat) : Vector UInt8 16 := ⟨(leBytes 16 addr).toArray, by simp⟩

@[simp] theorem toList_addrField (addr : Nat) : (addrField addr).toList = leBytes 16 addr := by
  simp [addrField, Vector.toList]

theorem readFull_addrField (addr : Nat) (rest : Bytes) :
    readFull 16 (leBytes 16 addr ++ rest) = .ok (addrField addr, rest) := by
  rw [← toList_addrField]
  exact readFull_append _ _

theorem decodeFields_connectEvent (e : ConnectEvent) :
    Events.OpenSSL.ConnDataEvent.decodeFields.run e.bytes =
      .ok { saddr := addrField e.saddr, daddr := addrField e.daddr, comm := e.comm,
            timestampNs := e.timestampNs, sock := e.sock, pid := e.pid, tid := e.tid, fd := e.fd,
            family := e.family, sport := e.sport, dport := e.dport, isDestroy := e.isDestroy,
            tuple := [] } := by
  unfold Reader.run Events.OpenSSL.ConnDataEvent.decodeFields ConnectEvent.bytes
  rw [Reader.bind_ok (Events.field_ok (readFull_addrField e.saddr _)),
    Reader.bind_ok (Events.field_ok (readFull_addrField e.daddr _)),
    Reader.bind_ok (Events.field_ok (readFull_append e.comm _)),
    Reader.bind_ok (Events.field_ok (readU64_leBytes e.timestampNs _)),
    Reader.bind_ok (Events.field_ok (readU64_leBytes e.sock _)),
    Reader.bind_ok (Events.field_ok (readU32_leBytes e.pid _)),
    Reader.bind_ok (Events.field_ok (readU32_leBytes e.tid _)),
    Reader.bind_ok (Events.field_ok (readU32_leBytes e.fd _)),
    Reader.bind_ok (Events.field_ok (readU16_leBytes e.family _)),
    Reader.bind_ok (Events.field_ok (readU16_leBytes e.sport _)),
    Reader.bind_ok (Events.field_ok (readU16_leBytes e.dport _)),
    Reader.bind_ok (Events.field_ok (readU8_leBytes e.isDestroy _))]
  rfl

/-- An IPv4 address fills the first four bytes of its field, an IPv6 address all of it. -/
theorem leBytes_addr {family : Family} (a : Vector UInt8 family.size) :
    leBytes 16 (leNat a.toList) =
      a.toList ++ leBytes (16 - family.size) (leNat a.toList / 256 ^ family.size) := by
  have back := leBytes_leNat a.toList
  rw [Vector.length_toList] at back
  have split := leBytes_add family.size (16 - family.size) (leNat a.toList)
  rw [back] at split
  rw [← split]
  cases family <;> rfl

theorem tupleText_addrField {family : Family} (a b : Vector UInt8 family.size)
    (sport dport : UInt16) :
    Events.OpenSSL.ConnDataEvent.tupleText (addrField (leNat a.toList))
        (addrField (leNat b.toList)) family.number sport dport =
      .ok (family.tuple a b sport dport) := by
  unfold Events.OpenSSL.ConnDataEvent.tupleText
  simp only [toList_addrField, leBytes_addr]
  cases family with
  | inet =>
    have front : ∀ (v : Vector UInt8 Family.inet.size) (rest : Bytes),
        sliceTo 4 (v.toList ++ rest) = .ok v.toList := fun v rest => by
      have length : v.toList.length = 4 := v.length_toList
      rw [sliceTo_of_le (by simp [length]), List.take_left' length]
    have v4 : Family.inet.number = Events.OpenSSL.ConnDataEvent.afInet := rfl
    rw [if_pos v4, if_pos v4, front a, front b]
    rfl
  | inet6 =>
    have v6 : Family.inet6.number ≠ Events.OpenSSL.ConnDataEvent.afInet := by decide
    rw [if_neg v6, if_neg v6]
    simp only [Family.size, Nat.sub_self, leBytes, List.append_nil]
    rfl

theorem hasTuple_bytes {e : ConnectEvent} {family : Family} {a b : Vector UInt8 family.size}
    (saddr : e.saddr = leNat a.toList) (daddr : e.daddr = leNat b.toList)
    (number : e.family = family.number) : HasTuple e.bytes (family.tuple a b e.sport e.dport) := by
  unfold HasTuple Events.OpenSSL.ConnDataEvent.decodeFromBytes
  rw [decodeFields_connectEvent]
  dsimp only
  rw [saddr, daddr, number, tupleText_addrField]
  exact ⟨_, rfl, rfl⟩

/-! ## The two ends -/

/-- What `kretprobe_connect` adds for a socket of a known family. -/
theorem emitted_kretprobeConnect {c : Consts} {fd : UInt32} {skPtr : UInt64} {active : Bool}
    {x : Ctx} {s : Maps} {family : Family}
    (known : (x.kmem.sock skPtr).skcFamily = family.number) :
    emitted s (kretprobeConnect c fd skPtr active x s) =
      if passesFilter c x.task = true ∧ (x.kmem.sock skPtr).portpair ≠ 0 ∧
          leNat ((x.kmem.sock skPtr).nearAddr family) ≠ 0 ∧
          leNat ((x.kmem.sock skPtr).farAddr family) ≠ 0
      then [(connectEvent fd skPtr active x (leNat ((x.kmem.sock skPtr).nearAddr family))
        (leNat ((x.kmem.sock skPtr).farAddr family))).bytes]
      else [] := by
  unfold emitted kretprobeConnect
  rw [Sock.addrs_eq known]
  cases passes : passesFilter c x.task with
  | false => simp
  | true =>
    simp only [Bool.not_true, Bool.false_eq_true, if_false]
    split
    case isTrue empty => rw [if_neg (by tauto), List.drop_length]
    case isFalse full => rw [if_pos (by tauto), List.drop_left]

theorem emitted_finishConnect (c : Consts) (fd : TcpFdInfo → UInt32) (active : Bool) {x : Ctx}
    {s : Maps} {sk : Sock} (looks : LooksAt x s sk) :
    ∃ fd' skPtr s', x.kmem.sock skPtr = sk ∧
      emitted s (finishConnect c fd active x s) =
        emitted s' (kretprobeConnect c fd' skPtr active x s') := by
  obtain ⟨info, found, sock, rfl⟩ := looks
  refine ⟨fd info, _, { s with tcpFdInfos := s.tcpFdInfos.delete x.task.pidTgid }, rfl, ?_⟩
  unfold finishConnect
  rw [found]
  dsimp only
  rw [if_pos sock]
  rfl

/-- The event of a socket: as the socket has it on the connecting end, turned around on the other. -/
theorem hasTuple_connectEvent {fd : UInt32} {skPtr : UInt64} {x : Ctx} {family : Family}
    {near far : Vector UInt8 family.size} {nearPort farPort : UInt16} (active : Bool)
    (joins : (x.kmem.sock skPtr).Joins family near far nearPort farPort) :
    HasTuple (connectEvent fd skPtr active x (leNat near.toList) (leNat far.toList)).bytes
      (if active then family.tuple near far nearPort farPort
        else family.tuple far near farPort nearPort) := by
  have nearPort := (Sock.near_port _).trans joins.nearPort
  have farPort := Sock.far_port joins.farPort
  cases active with
  | true =>
    have tuple : HasTuple (connectEvent fd skPtr true x (leNat near.toList) _).bytes
        (family.tuple near far _ _) := hasTuple_bytes rfl rfl joins.number
    simpa only [connectEvent, if_true, nearPort, farPort] using tuple
  | false =>
    have tuple : HasTuple (connectEvent fd skPtr false x (leNat near.toList) _).bytes
        (family.tuple far near _ _) := hasTuple_bytes rfl rfl joins.number
    simpa only [connectEvent, Bool.false_eq_true, if_false, nearPort, farPort] using tuple

/-- Every record of an end has this tuple, and a socket with addresses gives one record. -/
theorem finishConnect_spec (c : Consts) (fd : TcpFdInfo → UInt32) (active : Bool) {x : Ctx}
    {s : Maps} {sk : Sock} {family : Family} {near far : Vector UInt8 family.size}
    {nearPort farPort : UInt16} (looks : LooksAt x s sk)
    (joins : sk.Joins family near far nearPort farPort) :
    (∀ record ∈ emitted s (finishConnect c fd active x s),
      HasTuple record (if active then family.tuple near far nearPort farPort
        else family.tuple far near farPort nearPort)) ∧
    (nearPort ≠ 0 → leNat near.toList ≠ 0 → leNat far.toList ≠ 0 →
      passesFilter c x.task = true → (emitted s (finishConnect c fd active x s)).length = 1) := by
  obtain ⟨fd', skPtr, s', rfl, same⟩ := emitted_finishConnect c fd active looks
  rw [same, emitted_kretprobeConnect joins.number, joins.near, joins.far]
  constructor
  · intro record mem
    split at mem
    · rw [List.mem_singleton.mp mem]
      exact hasTuple_connectEvent active joins
    · cases mem
  · intro port near far passes
    have ports : (x.kmem.sock skPtr).portpair ≠ 0 := by
      intro zero
      have none : (x.kmem.sock skPtr).skcNum = 0 := by
        rw [← Sock.near_port, zero]
        rfl
      exact port (joins.nearPort.symm.trans none)
    rw [if_pos ⟨passes, ports, near, far⟩]
    rfl

theorem Connection.Addressed.client_ne {k : Connection} (h : k.Addressed) :
    leNat k.client.toList ≠ 0 := by
  obtain ⟨⟨b, mem, ne⟩, -⟩ := h
  exact leNat_ne_zero mem ne

theorem Connection.Addressed.server_ne {k : Connection} (h : k.Addressed) :
    leNat k.server.toList ≠ 0 := by
  obtain ⟨-, b, mem, ne⟩ := h
  exact leNat_ne_zero mem ne

/-- The records of both ends of a connection decode to its tuple; and each end emits one if the
filter lets it, since an established connection has both addresses. -/
theorem tuples_agree (k : Connection) (c c' : Consts) {x y : Ctx} {s t : Maps} {a b : Sock}
    (rc : UInt64) (connecting : LooksAt x s a) (client : k.ClientSock a)
    (accepting : LooksAt y t b) (server : k.ServerSock b) :
    (∀ record ∈ emitted s (retprobeConnect c x s), HasTuple record k.tuple) ∧
    (∀ record ∈ emitted t (retprobeAccept4 c' rc y t), HasTuple record k.tuple) ∧
    (k.Addressed → passesFilter c x.task = true →
      (emitted s (retprobeConnect c x s)).length = 1) ∧
    (k.Addressed → passesFilter c' y.task = true → 0 ≤ rc.toUInt32.toInt32 →
      (emitted t (retprobeAccept4 c' rc y t)).length = 1) := by
  have clientEnd := finishConnect_spec c TcpFdInfo.fd true connecting client
  have serverEnd := finishConnect_spec c' (fun _ => rc.toUInt32) false accepting server
  refine ⟨clientEnd.1, ?_, ?_, ?_⟩
  · intro record mem
    unfold retprobeAccept4 at mem
    split at mem
    · simp [emitted] at mem
    · exact serverEnd.1 record mem
  · intro addressed
    exact clientEnd.2 k.clientPort_ne addressed.client_ne addressed.server_ne
  · intro addressed passes nonneg
    have kept : ¬rc.toUInt32.toInt32 < 0 := by simpa using nonneg
    rw [retprobeAccept4, if_neg kept]
    exact serverEnd.2 k.serverPort_ne addressed.server_ne addressed.client_ne passes

def httpsClientAddr : Vector UInt8 4 := #v[10, 0, 0, 1]
def httpsServerAddr : Vector UInt8 4 := #v[10, 0, 0, 2]

/-- 10.0.0.1:40000 connects to 10.0.0.2:443. -/
def httpsConnection : Connection :=
  { family := .inet
    client := httpsClientAddr
    server := httpsServerAddr
    clientPort := 40000
    serverPort := 443
    clientPort_ne := by decide
    serverPort_ne := by decide }

def httpsClientSock : Sock :=
  ⟨httpsServerAddr, httpsClientAddr, netPort 443, 40000, afInet, zeros 16, zeros 16⟩

def httpsServerSock : Sock :=
  ⟨httpsClientAddr, httpsServerAddr, netPort 40000, 443, afInet, zeros 16, zeros 16⟩

/-- A thread on a host with one socket, at 0x10. -/
def threadWith (sk : Sock) : Ctx :=
  { task := { pidTgid := 0x100000001, uidGid := 0, cgroupId := 0, comm := zeros 16 }
    cpu := 0
    ktime := 1
    mem := ⟨fun _ _ => none⟩
    kmem := ⟨fun _ => 0x10, fun _ => sk⟩ }

theorem tuples_agree_https :
    ∃ s t, LooksAt (threadWith httpsClientSock) s httpsClientSock ∧
      LooksAt (threadWith httpsServerSock) t httpsServerSock ∧
      (emitted s (retprobeConnect .unfiltered (threadWith httpsClientSock) s)).length = 1 ∧
      (emitted t (retprobeAccept4 .unfiltered 4 (threadWith httpsServerSock) t)).length = 1 ∧
      (∀ record ∈ emitted s (retprobeConnect .unfiltered (threadWith httpsClientSock) s),
        HasTuple record httpsConnection.tuple) ∧
      (∀ record ∈ emitted t (retprobeAccept4 .unfiltered 4 (threadWith httpsServerSock) t),
        HasTuple record httpsConnection.tuple) := by
  have looks : ∀ sk, LooksAt (threadWith sk)
      (probeInet 0x20 (threadWith sk) (probeConnect 3 (threadWith sk) .new)) sk := by
    intro sk
    have sock : (0x10 : UInt64) ≠ 0 := by decide
    exact ⟨⟨0x20, 3⟩, rfl, sock, rfl⟩
  have addressed : httpsConnection.Addressed := ⟨⟨10, by decide⟩, 10, by decide⟩
  obtain ⟨clientTuple, serverTuple, clientEmits, serverEmits⟩ :=
    tuples_agree httpsConnection .unfiltered .unfiltered 4 (looks httpsClientSock)
      ⟨rfl, rfl, rfl, rfl, rfl⟩ (looks httpsServerSock) ⟨rfl, rfl, rfl, rfl, rfl⟩
  exact ⟨_, _, looks _, looks _, clientEmits addressed rfl,
    serverEmits addressed rfl (by decide), clientTuple, serverTuple⟩

end ECapture.Kernel.Ssl
