import ECapture.Kernel.Ssl

/-!
# The classifier and the send probes

`kern/tc.h`. The probes on `tcp_sendmsg` and `udp_sendmsg` record which process sends on a
connection, in `network_map`; the classifiers on an interface, `capture_packets` in both directions,
look a packet's connection up there, apply the filter to the sender and emit the packet.

The map is an LRU map; here it never evicts. A packet is its bytes from the Ethernet header on, of
which a part is linear, that is, within reach of the program.
-/

namespace ECapture.Kernel.Tc
open Library Ssl

/-! ## Structs and maps -/

/-- `struct net_id_t`. Addresses are the bytes in memory, ports are numbers. -/
structure NetId where
  protocol : UInt32
  srcPort : UInt32
  srcIp4 : Vector UInt8 4
  dstPort : UInt32
  dstIp4 : Vector UInt8 4
  srcIp6 : Vector UInt8 16
  dstIp6 : Vector UInt8 16
  deriving DecidableEq

def NetId.zero : NetId := ⟨0, 0, zeros 4, 0, zeros 4, zeros 16, zeros 16⟩

/-- `struct net_ctx_t`. -/
structure NetCtx where
  pid : UInt32
  uid : UInt32
  cgroupId : UInt64
  comm : Vector UInt8 16
  deriving DecidableEq

/-- `struct skb_data_event_t`. -/
structure SkbDataEvent where
  ts : UInt64
  pid : UInt32
  comm : Vector UInt8 16
  len : UInt32
  ifindex : UInt32

def SkbDataEvent.bytes (e : SkbDataEvent) : Bytes :=
  leBytes 8 e.ts.toNat ++ (leBytes 4 e.pid.toNat ++ (e.comm.toList ++ (leBytes 4 e.len.toNat ++
    leBytes 4 e.ifindex.toNat)))

/-- `network_map` and the ring `skb_events`. -/
structure Net where
  networkMap : NetId → Option NetCtx
  skbEvents : List Bytes

def Net.new : Net := ⟨fun _ => none, []⟩

/-- A packet at a classifier. `pulls` tells whether the kernel can make more of it linear. -/
structure Skb where
  data : Bytes
  linear : Nat
  linear_le : linear ≤ data.length
  pulls : Bool
  ifindex : UInt32

/-- The two builds. With `NOCORE` the headers are the cut-down structs of `ecapture.h`. -/
inductive Build where
  | core
  | nocore
  deriving DecidableEq

namespace Build

/-- `sizeof(struct tcphdr)`. -/
def tcphdr : Build → Nat
  | core => 20
  | nocore => 4

/-- `sizeof(struct ipv6hdr)`, and the offsets of its fields. -/
def ipv6hdr : Build → Nat
  | core => 40
  | nocore => 44

def nexthdr : Build → Nat
  | core => 6
  | nocore => 7

def saddr6 : Build → Nat
  | core => 8
  | nocore => 12

def daddr6 : Build → Nat
  | core => 24
  | nocore => 28

end Build

def ethhdr : Nat := 14
def iphdr : Nat := 20

/-- `ETH_P_IP` and `ETH_P_IPV6` in the order of the wire. -/
def ethPIP : Vector UInt8 2 := #v[0x08, 0x00]
def ethPIPv6 : Vector UInt8 2 := #v[0x86, 0xDD]

def ipprotoIcmp : UInt8 := 1
def ipprotoTcp : UInt8 := 6
def ipprotoUdp : UInt8 := 17
def ipprotoIcmpv6 : UInt8 := 58

/-! ## capture_packets -/

/-- `n` bytes of a packet. -/
def slice (data : Bytes) (offset n : Nat) : Vector UInt8 n :=
  Vector.ofFn fun i => data.getD (offset + i) 0

def byteAt (data : Bytes) (offset : Nat) : UInt8 := data.getD offset 0

/-- A port of a header, `bpf_ntohs` of two bytes. -/
def portAt (data : Bytes) (offset : Nat) : UInt16 :=
  ntohs (UInt16.ofNat (leNat (slice data offset 2).toList))

/-- `skb_revalidate_data`: how much is linear after it, or `none` where it fails. -/
def skbRevalidateData (skb : Skb) (linear offset : Nat) : Option Nat :=
  if linear < offset then
    if skb.pulls ∧ offset ≤ skb.data.length then some offset else none
  else some linear

/-- The IPv6 branch up to the lookup. -/
def ipv6Id (b : Build) (skb : Skb) : Option NetId := do
  let l4HdrOff := ethhdr + b.ipv6hdr
  let linear ← skbRevalidateData skb skb.linear l4HdrOff
  let nexthdr := byteAt skb.data (ethhdr + b.nexthdr)
  if nexthdr ≠ ipprotoTcp ∧ nexthdr ≠ ipprotoUdp ∧ nexthdr ≠ ipprotoIcmpv6 then none
  else
    let _ ← skbRevalidateData skb linear (l4HdrOff + b.tcphdr)
    return { NetId.zero with
      protocol := nexthdr.toUInt32
      srcIp6 := slice skb.data (ethhdr + b.saddr6) 16
      dstIp6 := slice skb.data (ethhdr + b.daddr6) 16
      srcPort := (portAt skb.data l4HdrOff).toUInt32
      dstPort := (portAt skb.data (l4HdrOff + 2)).toUInt32 }

/-- The IPv4 branch up to the lookup. The header is taken to have no options. -/
def ipv4Id (b : Build) (skb : Skb) : Option NetId := do
  let l4HdrOff := ethhdr + iphdr
  let linear ← skbRevalidateData skb skb.linear l4HdrOff
  let protocol := byteAt skb.data (ethhdr + 9)
  if protocol ≠ ipprotoTcp ∧ protocol ≠ ipprotoUdp ∧ protocol ≠ ipprotoIcmp then none
  else
    let _ ← skbRevalidateData skb linear (l4HdrOff + b.tcphdr)
    return { NetId.zero with
      protocol := protocol.toUInt32
      srcIp4 := slice skb.data (ethhdr + 12) 4
      dstIp4 := slice skb.data (ethhdr + 16) 4
      srcPort := (portAt skb.data l4HdrOff).toUInt32
      dstPort := (portAt skb.data (l4HdrOff + 2)).toUInt32 }

/-- Source and destination exchanged, as the branch of each family does it. -/
def NetId.exchange (id : NetId) : Family → NetId
  | .inet =>
    { id with srcIp4 := id.dstIp4, dstIp4 := id.srcIp4, srcPort := id.dstPort, dstPort := id.srcPort }
  | .inet6 =>
    { id with srcIp6 := id.dstIp6, dstIp6 := id.srcIp6, srcPort := id.dstPort, dstPort := id.srcPort }

/-- `capture_packets` up to the lookup. `none`: the packet is let go unseen. `some none`: neither
IPv4 nor IPv6. `filterPcapL2` is what the loader has put in place of the stub. -/
def connId (b : Build) (c : Consts) (filterPcapL2 : Bytes → Bool) (skb : Skb) :
    Option (Option (Family × NetId)) :=
  if skb.linear < ethhdr + iphdr then none
  else if c.less52 ≠ 1 ∧ filterPcapL2 (skb.data.take skb.linear) = false then none
  else if slice skb.data 12 2 = ethPIPv6 then (fun id => some (.inet6, id)) <$> ipv6Id b skb
  else if slice skb.data 12 2 = ethPIP then (fun id => some (.inet, id)) <$> ipv4Id b skb
  else some none

/-- The stub `filter_pcap_ebpf_l2`, without a filter expression: the packet has data. -/
def filterPcapStub (data : Bytes) : Bool := !data.isEmpty

/-- The two lookups. -/
def findCtx (networkMap : NetId → Option NetCtx) (family : Family) (id : NetId) : Option NetCtx :=
  match networkMap id with
  | some ctx => some ctx
  | none => networkMap (id.exchange family)

/-- `net_ctx` when the branches of `capture_packets` are done. -/
def netCtx (s : Net) (id : Option (Family × NetId)) : Option NetCtx :=
  match id with
  | some (family, id) => findCtx s.networkMap family id
  | none => none

/-- The filter of `capture_packets`, on the sender. -/
def senderRejected (c : Consts) (ctx : NetCtx) : Bool :=
  filterRejectsBase c ctx.pid ctx.uid ||
    decide (c.targetCgroupId ≠ 0 ∧ ctx.cgroupId ≠ c.targetCgroupId)

/-- The record of a packet: the event, then the packet. -/
def skbRecord (x : Ctx) (skb : Skb) (sender : Option NetCtx) : Bytes :=
  let event : SkbDataEvent :=
    { ts := x.ktime
      pid := match sender with | some ctx => ctx.pid | none => 0
      comm := match sender with | some ctx => ctx.comm | none => zeros 16
      len := .ofNat skb.data.length
      ifindex := skb.ifindex }
  event.bytes ++ skb.data

def capturePackets (b : Build) (c : Consts) (filterPcapL2 : Bytes → Bool) (skb : Skb) (x : Ctx)
    (s : Net) : Net :=
  match connId b c filterPcapL2 skb with
  | none => s
  | some id =>
    match netCtx s id with
    | some ctx =>
      if senderRejected c ctx then s
      else { s with skbEvents := s.skbEvents ++ [skbRecord x skb (some ctx)] }
    | none => { s with skbEvents := s.skbEvents ++ [skbRecord x skb none] }

/-! ## trace_sendmsg -/

/-- The key of a socket. A socket of another family has the zero key. -/
def sockId (protocol : UInt8) (sk : Sock) : NetId :=
  let dport := ntohs (UInt16.ofNat (leNat sk.skcDport.toList))
  if sk.skcFamily = afInet6 then
    { NetId.zero with
      protocol := protocol.toUInt32
      srcPort := sk.skcNum.toUInt32
      dstPort := dport.toUInt32
      srcIp6 := sk.skcV6RcvSaddr
      dstIp6 := sk.skcV6Daddr }
  else if sk.skcFamily = afInet then
    { NetId.zero with
      protocol := protocol.toUInt32
      srcPort := sk.skcNum.toUInt32
      srcIp4 := sk.skcRcvSaddr
      dstPort := dport.toUInt32
      dstIp4 := sk.skcDaddr }
  else .zero

/-- The process that sends. -/
def taskCtx (t : Task) : NetCtx := ⟨t.pid, t.uid, t.cgroupId, t.comm⟩

def traceSendmsg (protocol : UInt8) (skPtr : UInt64) (x : Ctx) (s : Net) : Net :=
  if skPtr = 0 then s
  else
    { s with
      networkMap :=
        Function.update s.networkMap (sockId protocol (x.kmem.sock skPtr)) (some (taskCtx x.task)) }

/-! ## Runs -/

inductive Prog where
  | tcpSendmsg (sk : UInt64)
  | udpSendmsg (sk : UInt64)
  | ingressClsFunc (skb : Skb)
  | egressClsFunc (skb : Skb)

structure Event where
  ctx : Ctx
  prog : Prog

def exec (b : Build) (c : Consts) (filterPcapL2 : Bytes → Bool) (s : Net) (e : Event) : Net :=
  match e.prog with
  | .tcpSendmsg sk => traceSendmsg ipprotoTcp sk e.ctx s
  | .udpSendmsg sk => traceSendmsg ipprotoUdp sk e.ctx s
  | .ingressClsFunc skb => capturePackets b c filterPcapL2 skb e.ctx s
  | .egressClsFunc skb => capturePackets b c filterPcapL2 skb e.ctx s

/-- A packet is emitted when it gets to the lookup and no sender is known or the sender passes. -/
theorem capturePackets_eq (b : Build) (c : Consts) (filterPcapL2 : Bytes → Bool) (skb : Skb)
    (x : Ctx) (s : Net) :
    capturePackets b c filterPcapL2 skb x s =
      match connId b c filterPcapL2 skb with
      | some id =>
        if (netCtx s id).all fun ctx => !senderRejected c ctx then
          { s with skbEvents := s.skbEvents ++ [skbRecord x skb (netCtx s id)] }
        else s
      | none => s := by
  unfold capturePackets
  cases connId b c filterPcapL2 skb with
  | none => rfl
  | some id =>
    dsimp only
    cases netCtx s id with
    | none => rfl
    | some ctx => cases rejected : senderRejected c ctx <;> simp [rejected]

theorem capturePackets_networkMap (b : Build) (c : Consts) (filterPcapL2 : Bytes → Bool) (skb : Skb)
    (x : Ctx) (s : Net) :
    (capturePackets b c filterPcapL2 skb x s).networkMap = s.networkMap := by
  rw [capturePackets_eq]
  split
  · split <;> rfl
  · rfl

end ECapture.Kernel.Tc
