import ECapture.Kernel.ConnTuple
import ECapture.Kernel.Traffic
import ECapture.Library.Steps
import Mathlib.Data.List.Find

/-!
# Packets and their senders

`trace_sendmsg` builds the key of a connection from a `struct sock`, `capture_packets` builds it from
the headers of a packet, for either direction. A `Flow` is what both mean: `sockFlow` is the flow a
socket sends on, and `wireFlow` is the flow of a packet as the IP standards define it, with IPv4
options, fragments and IPv6 extension headers.

The two keys agree, and a packet is looked up to the process that has last sent on its flow, where the
classifier reads the headers right and only one end of a flow sends on this host.
-/

namespace ECapture.Kernel.Tc
open Library Ssl

/-! ## Flows -/

inductive Transport where
  | tcp
  | udp
  deriving DecidableEq

def Transport.number : Transport → UInt8
  | tcp => ipprotoTcp
  | udp => ipprotoUdp

/-- The addresses of a flow, in network byte order. -/
inductive Ends where
  | ipv4 (src dst : Vector UInt8 4)
  | ipv6 (src dst : Vector UInt8 16)
  deriving DecidableEq

structure Flow where
  transport : Transport
  ends : Ends
  srcPort : UInt16
  dstPort : UInt16
  deriving DecidableEq

def Ends.reverse : Ends → Ends
  | .ipv4 src dst => .ipv4 dst src
  | .ipv6 src dst => .ipv6 dst src

/-- The same connection, seen from the other end. -/
def Flow.reverse (f : Flow) : Flow := ⟨f.transport, f.ends.reverse, f.dstPort, f.srcPort⟩

def Ends.family : Ends → Family
  | .ipv4 _ _ => .inet
  | .ipv6 _ _ => .inet6

/-- Both addresses are unspecified. -/
def Ends.Unspecified : Ends → Prop
  | .ipv4 src dst => src = zeros 4 ∧ dst = zeros 4
  | .ipv6 src dst => src = zeros 16 ∧ dst = zeros 16

/-- A port of the wire: most significant byte first. -/
def bePort (bytes : Vector UInt8 2) : UInt16 := .ofNat (256 * bytes[0].toNat + bytes[1].toNat)

def transportOf (protocol : UInt8) : Option Transport :=
  if protocol = ipprotoTcp then some .tcp
  else if protocol = ipprotoUdp then some .udp
  else none

/-! ## The flow of a packet -/

/-- The extension headers that may stand before the transport header, with the fragment header. -/
def isExtensionHeader (next : UInt8) : Bool := [0, 43, 44, 60].contains next

def fragmentHeader : UInt8 := 44

/-- Follow the next-header fields to the transport header. A fragment that is not the first has
none. -/
def ipv6Transport (data : Bytes) : Nat → UInt8 → Nat → Option (Transport × Nat)
  | 0, _, _ => none
  | fuel + 1, next, offset =>
    match transportOf next with
    | some transport => some (transport, offset)
    | none =>
      if !isExtensionHeader next then none
      else if next = fragmentHeader then
        if (byteAt data (offset + 2)).toNat * 32 + (byteAt data (offset + 3)).toNat / 8 = 0 then
          ipv6Transport data fuel (byteAt data offset) (offset + 8)
        else none
      else
        ipv6Transport data fuel (byteAt data offset)
          (offset + 8 * ((byteAt data (offset + 1)).toNat + 1))

/-- A flow, if the ports are within the packet. -/
def flowAt (data : Bytes) (transport : Transport) (ends : Ends) (offset : Nat) : Option Flow :=
  if offset + 4 ≤ data.length then
    some ⟨transport, ends, bePort (slice data offset 2), bePort (slice data (offset + 2) 2)⟩
  else none

/-- Version and header length in words. -/
def ipVersion (data : Bytes) : Nat := (byteAt data ethhdr).toNat / 16
def ipv4HeaderLength (data : Bytes) : Nat := (byteAt data ethhdr).toNat % 16

def ipv4FragmentOffset (data : Bytes) : Nat :=
  (byteAt data (ethhdr + 6)).toNat % 32 * 256 + (byteAt data (ethhdr + 7)).toNat

def ipv4Flow (data : Bytes) : Option Flow :=
  if ipVersion data = 4 ∧ 5 ≤ ipv4HeaderLength data ∧ ipv4FragmentOffset data = 0 then
    match transportOf (byteAt data (ethhdr + 9)) with
    | some transport =>
      flowAt data transport (.ipv4 (slice data (ethhdr + 12) 4) (slice data (ethhdr + 16) 4))
        (ethhdr + 4 * ipv4HeaderLength data)
    | none => none
  else none

def ipv6Flow (data : Bytes) : Option Flow :=
  if ipVersion data = 6 then
    match ipv6Transport data (data.length + 1) (byteAt data (ethhdr + 6)) (ethhdr + 40) with
    | some (transport, offset) =>
      flowAt data transport (.ipv6 (slice data (ethhdr + 8) 16) (slice data (ethhdr + 24) 16)) offset
    | none => none
  else none

/-- The flow of a packet, by the standards. -/
def wireFlow (data : Bytes) : Option Flow :=
  if slice data 12 2 = ethPIPv6 then ipv6Flow data
  else if slice data 12 2 = ethPIP then ipv4Flow data
  else none

/-! ## The flow of a socket -/

/-- The peer of an AF_INET6 socket is an IPv4 host. -/
def v4Mapped (sk : Sock) : Prop :=
  sk.skcFamily = afInet6 ∧ Events.isMapped sk.skcV6Daddr.toList = true

instance (sk : Sock) : Decidable (v4Mapped sk) := inferInstanceAs (Decidable (_ ∧ _))

/-- The flow of what a socket sends. IPv4-mapped addresses are IPv4 on the wire. -/
def sockFlow (transport : Transport) (sk : Sock) : Option Flow :=
  let flow (ends : Ends) : Flow := ⟨transport, ends, sk.skcNum, bePort sk.skcDport⟩
  if v4Mapped sk then
    some (flow (.ipv4 (slice sk.skcV6RcvSaddr.toList 12 4) (slice sk.skcV6Daddr.toList 12 4)))
  else if sk.skcFamily = afInet6 then some (flow (.ipv6 sk.skcV6RcvSaddr sk.skcV6Daddr))
  else if sk.skcFamily = afInet then some (flow (.ipv4 sk.skcRcvSaddr sk.skcDaddr))
  else none

/-! ## Runs -/

/-- The maps, and the sends on flows with their processes, the last one first. -/
structure FlowState where
  net : Net
  sends : List (Flow × NetCtx)

/-- The send that a program sees. -/
def Prog.send? : Prog → Option (Transport × UInt64)
  | .tcpSendmsg sk => some (.tcp, sk)
  | .udpSendmsg sk => some (.udp, sk)
  | _ => none

/-- The flow that a program sees a send on. -/
def sentFlow (e : Event) : Option Flow :=
  match e.prog.send? with
  | some (transport, sk) => if sk = 0 then none else sockFlow transport (e.ctx.kmem.sock sk)
  | none => none

section

variable (b : Build) (c : Consts) (filterPcapL2 : Bytes → Bool)

def flowStep (s : FlowState) (e : Event) : Option FlowState :=
  some { net := exec b c filterPcapL2 s.net e
         sends := match sentFlow e with
           | some flow => (flow, taskCtx e.ctx.task) :: s.sends
           | none => s.sends }

def flowMachine : Machine FlowState Event := { init := ⟨.new, []⟩, step := flowStep b c filterPcapL2 }

/-- `net_ctx` of a packet at the end of the lookups. -/
def lookedUp (s : Net) (skb : Skb) : Option NetCtx :=
  (connId b c filterPcapL2 skb).bind (netCtx s)

/-- The classifier reads the headers right: they are within its reach, an IPv4 header has no options
and is not of a later fragment, an IPv6 header has no extension headers and is read with the
kernel's own struct, and what follows is as long as the build's TCP header. -/
structure Readable (skb : Skb) : Prop where
  reach : ethhdr + iphdr ≤ skb.linear ∧ (skb.pulls = true ∨ skb.linear = skb.data.length)
  wanted : c.less52 = 1 ∨ filterPcapL2 (skb.data.take skb.linear) = true
  ipv4 : slice skb.data 12 2 = ethPIP → ipVersion skb.data = 4 ∧ ipv4HeaderLength skb.data = 5 ∧
    ipv4FragmentOffset skb.data = 0
  ipv6 : slice skb.data 12 2 = ethPIPv6 → b = .core ∧ ipVersion skb.data = 6 ∧
    isExtensionHeader (byteAt skb.data (ethhdr + 6)) = false
  long : ∀ flow, wireFlow skb.data = some flow →
    (match flow.ends.family with | .inet => ethhdr + iphdr | .inet6 => ethhdr + b.ipv6hdr) + b.tcphdr ≤
      skb.data.length
  specified : ∀ flow, wireFlow skb.data = some flow → ¬flow.ends.Unspecified

/-- A step after which the map says who sends: a send is not to an IPv4 peer from an AF_INET6 socket,
and the other end of its flow has not sent from this host; a packet is read right. -/
def Tracked (s : FlowState) (e : Event) : Prop :=
  match e.prog with
  | .tcpSendmsg sk | .udpSendmsg sk =>
    ¬v4Mapped (e.ctx.kmem.sock sk) ∧
      ∀ flow, sentFlow e = some flow → ∀ p ∈ s.sends, p.1 = flow.reverse → p.1 = flow
  | .ingressClsFunc skb | .egressClsFunc skb => Readable b c filterPcapL2 skb

end

/-- The process that has last sent on the flow, from either end. -/
def lastSender (sends : List (Flow × NetCtx)) (flow : Flow) : Option NetCtx :=
  (sends.find? fun p => p.1 = flow ∨ p.1 = flow.reverse).map Prod.snd

/-! ## Keys of flows -/

def Flow.key (f : Flow) : NetId :=
  match f.ends with
  | .ipv4 src dst =>
    { NetId.zero with
      protocol := f.transport.number.toUInt32
      srcPort := f.srcPort.toUInt32
      srcIp4 := src
      dstPort := f.dstPort.toUInt32
      dstIp4 := dst }
  | .ipv6 src dst =>
    { NetId.zero with
      protocol := f.transport.number.toUInt32
      srcPort := f.srcPort.toUInt32
      dstPort := f.dstPort.toUInt32
      srcIp6 := src
      dstIp6 := dst }

theorem Flow.key_protocol (f : Flow) : f.key.protocol = f.transport.number.toUInt32 := by
  unfold Flow.key
  split <;> rfl

theorem Flow.key_reverse (f : Flow) : f.reverse.key = f.key.exchange f.ends.family := by
  obtain ⟨transport, ends, srcPort, dstPort⟩ := f
  cases ends <;> rfl

theorem Flow.reverse_unspecified {f : Flow} (h : f.reverse.ends.Unspecified) : f.ends.Unspecified := by
  obtain ⟨transport, ends, srcPort, dstPort⟩ := f
  cases ends <;> exact ⟨h.2, h.1⟩

theorem Transport.number_inj {t u : Transport} (h : t.number.toUInt32 = u.number.toUInt32) :
    t = u := by
  cases t <;> cases u
  · rfl
  · exact absurd h (by decide)
  · exact absurd h (by decide)
  · rfl

/-- Two flows share a key only if they are IPv4 and IPv6 and have no addresses. -/
theorem Flow.key_inj {f g : Flow} (specified : ¬f.ends.Unspecified) (h : g.key = f.key) : g = f := by
  have transport : g.transport = f.transport := by
    apply Transport.number_inj
    rw [← g.key_protocol, ← f.key_protocol, h]
  obtain ⟨_, fends, fsrc, fdst⟩ := f
  obtain ⟨_, gends, gsrc, gdst⟩ := g
  cases fends <;> cases gends <;>
    simp only [Flow.key, NetId.zero, NetId.mk.injEq, UInt16.toUInt32_inj] at h <;>
    simp only [Ends.Unspecified] at specified <;>
    grind

theorem ntohs_bePort (v : Vector UInt8 2) : ntohs (UInt16.ofNat (leNat v.toList)) = bePort v := by
  have high := v[0].toNat_lt
  have low := v[1].toNat_lt
  have bytes : v.toList = [v[0], v[1]] := by
    apply List.ext_getElem
    · simp
    · intro i h _
      have : i < 2 := by simpa using h
      obtain rfl | rfl : i = 0 ∨ i = 1 := by omega
      · simp
      · simp
  have number : (bePort v).toNat = 256 * v[0].toNat + v[1].toNat := by
    rw [bePort, UInt16.toNat_ofNat', Nat.mod_eq_of_lt (by omega)]
  have swapped : leNat [v[0], v[1]] = v[0].toNat + 256 * v[1].toNat := by
    simp only [leNat]
    omega
  apply ntohs_of_bytes
  rw [bytes, swapped, number, UInt16.toNat_ofNat', Nat.mod_eq_of_lt (by omega)]
  omega

/-- The key of a send, if the peer is not an IPv4 host behind an AF_INET6 socket. -/
theorem sockId_of_sockFlow {transport : Transport} {sk : Sock} {f : Flow}
    (unmapped : ¬v4Mapped sk) (h : sockFlow transport sk = some f) :
    sockId transport.number sk = f.key := by
  simp only [sockFlow, if_neg unmapped] at h
  unfold sockId
  split at h
  case isTrue v6 =>
    cases h
    rw [if_pos v6, ntohs_bePort]
    rfl
  case isFalse notV6 =>
    split at h
    case isTrue v4 =>
      cases h
      rw [if_neg notV6, if_pos v4, ntohs_bePort]
      rfl
    case isFalse => cases h

theorem sockId_of_none {transport : Transport} {sk : Sock} (h : sockFlow transport sk = none) :
    (sockId transport.number sk).protocol = 0 := by
  unfold sockFlow at h
  unfold sockId
  grind [NetId.zero]

/-! ## The map follows the sends -/

structure Inv (s : FlowState) : Prop where
  map : ∀ id, id.protocol ≠ 0 →
    s.net.networkMap id = (s.sends.find? fun p => p.1.key = id).map Prod.snd
  oneEnd : ∀ p ∈ s.sends, ∀ q ∈ s.sends, q.1 = p.1.reverse → q.1 = p.1

theorem Inv.init (b : Build) (c : Consts) (filterPcapL2 : Bytes → Bool) :
    Inv (flowMachine b c filterPcapL2).init where
  map _ _ := rfl
  oneEnd _ mem := by cases mem

/-- A send of a socket without a flow only writes the zero key. -/
theorem Inv.send_none {s : FlowState} {transport : Transport} {sk : UInt64} {x : Ctx} (inv : Inv s)
    (none : sockFlow transport (x.kmem.sock sk) = none) :
    Inv { s with net := traceSendmsg transport.number sk x s.net } where
  map id known := by
    unfold traceSendmsg
    split
    · exact inv.map id known
    · have other : id ≠ sockId transport.number (x.kmem.sock sk) := by
        rintro rfl
        exact known (sockId_of_none none)
      dsimp only
      rw [Function.update_of_ne other]
      exact inv.map id known
  oneEnd := inv.oneEnd

theorem Inv.send_some {s : FlowState} {transport : Transport} {sk : UInt64} {x : Ctx} {flow : Flow}
    (inv : Inv s) (unmapped : ¬v4Mapped (x.kmem.sock sk)) (notNull : sk ≠ 0)
    (sent : sockFlow transport (x.kmem.sock sk) = some flow)
    (oneEnd : ∀ p ∈ s.sends, p.1 = flow.reverse → p.1 = flow) :
    Inv ⟨traceSendmsg transport.number sk x s.net, (flow, taskCtx x.task) :: s.sends⟩ where
  map id known := by
    simp only [traceSendmsg, if_neg notNull, sockId_of_sockFlow unmapped sent, List.find?_cons]
    by_cases same : flow.key = id
    · subst same
      simp
    · rw [Function.update_of_ne (Ne.symm same), decide_eq_false same]
      exact inv.map id known
  oneEnd p memp q memq reversed := by
    have back : ∀ f g : Flow, f = g.reverse → g = f.reverse := by
      rintro f ⟨transport, ends, srcPort, dstPort⟩ rfl
      cases ends <;> rfl
    rcases List.mem_cons.mp memp with rfl | memp <;> rcases List.mem_cons.mp memq with rfl | memq
    · rfl
    · exact oneEnd q memq reversed
    · exact (oneEnd p memp (back _ _ reversed)).symm
    · exact inv.oneEnd p memp q memq reversed

theorem Inv.packet {s : FlowState} (inv : Inv s) {net : Net}
    (same : net.networkMap = s.net.networkMap) : Inv { s with net } where
  map id known := by
    dsimp only
    rw [same]
    exact inv.map id known
  oneEnd := inv.oneEnd

theorem Inv.step {b : Build} {c : Consts} {filterPcapL2 : Bytes → Bool} {s t : FlowState} {e : Event}
    (inv : Inv s) (tracked : Tracked b c filterPcapL2 s e)
    (moved : flowStep b c filterPcapL2 s e = some t) : Inv t := by
  cases moved
  obtain ⟨x, prog⟩ := e
  have send : ∀ transport sk, ¬v4Mapped (x.kmem.sock sk) →
      (∀ flow, (if sk = 0 then none else sockFlow transport (x.kmem.sock sk)) = some flow →
        ∀ p ∈ s.sends, p.1 = flow.reverse → p.1 = flow) →
      Inv ⟨traceSendmsg transport.number sk x s.net,
        match (if sk = 0 then none else sockFlow transport (x.kmem.sock sk)) with
        | some flow => (flow, taskCtx x.task) :: s.sends
        | none => s.sends⟩ := by
    intro transport sk unmapped oneEnd
    by_cases null : sk = 0
    · simp only [if_pos null, traceSendmsg]
      exact inv
    · simp only [if_neg null] at oneEnd ⊢
      cases sent : sockFlow transport (x.kmem.sock sk) with
      | none => exact inv.send_none sent
      | some flow => exact inv.send_some unmapped null sent (oneEnd flow sent)
  cases prog with
  | tcpSendmsg sk => exact send .tcp sk tracked.1 tracked.2
  | udpSendmsg sk => exact send .udp sk tracked.1 tracked.2
  | ingressClsFunc skb => exact inv.packet (capturePackets_networkMap _ _ _ _ _ _)
  | egressClsFunc skb => exact inv.packet (capturePackets_networkMap _ _ _ _ _ _)

theorem Flow.key_protocol_ne_zero (f : Flow) : f.key.protocol ≠ 0 := by
  rw [f.key_protocol]
  cases f.transport <;> decide

theorem Inv.map_key {s : FlowState} (inv : Inv s) {flow : Flow}
    (specified : ¬flow.ends.Unspecified) :
    s.net.networkMap flow.key = (s.sends.find? fun p => p.1 = flow).map Prod.snd := by
  rw [inv.map _ flow.key_protocol_ne_zero]
  congr 1
  apply List.find?_congr
  intro p _
  apply decide_eq_decide.mpr
  constructor
  · exact Flow.key_inj specified
  · intro same
    rw [same]

/-- The two lookups find the last sender on a flow with addresses. -/
theorem Inv.findCtx_key {s : FlowState} (inv : Inv s) {flow : Flow}
    (specified : ¬flow.ends.Unspecified) :
    findCtx s.net.networkMap flow.ends.family flow.key = lastSender s.sends flow := by
  have reversed : ¬flow.reverse.ends.Unspecified := mt Flow.reverse_unspecified specified
  unfold findCtx lastSender
  rw [← Flow.key_reverse, inv.map_key specified, inv.map_key reversed]
  cases found : s.sends.find? fun p => p.1 = flow with
  | some p =>
    -- the other end has not sent, so the second test never decides
    have isFlow : p.1 = flow := by simpa using List.find?_some found
    have mem := List.mem_of_find?_eq_some found
    have same : (s.sends.find? fun p => p.1 = flow ∨ p.1 = flow.reverse) =
        s.sends.find? fun p => p.1 = flow := by
      apply List.find?_congr
      intro q memq
      have := inv.oneEnd p mem q memq
      rw [isFlow] at this
      grind
    rw [same, found]
    rfl
  | none =>
    have noFlow := List.find?_eq_none.mp found
    have same : (s.sends.find? fun p => p.1 = flow ∨ p.1 = flow.reverse) =
        s.sends.find? fun p => p.1 = flow.reverse := by
      apply List.find?_congr
      intro q memq
      have := noFlow q memq
      grind
    rw [same]
    rfl

/-- Other protocols have no senders. -/
theorem Inv.findCtx_other {s : FlowState} (inv : Inv s) {family : Family} {id : NetId}
    (known : id.protocol ≠ 0)
    (other : ∀ transport : Transport, id.protocol ≠ transport.number.toUInt32) :
    findCtx s.net.networkMap family id = none := by
  have unknown : ∀ id' : NetId, id'.protocol = id.protocol → s.net.networkMap id' = none := by
    intro id' same
    have none : (s.sends.find? fun p => p.1.key = id') = none := by
      rw [List.find?_eq_none]
      intro p _ found
      have key : p.1.key = id' := by simpa using found
      apply other p.1.transport
      rw [← same, ← key, Flow.key_protocol]
    rw [inv.map id' (by rw [same]; exact known), none]
    rfl
  have exchanged : (id.exchange family).protocol = id.protocol := by
    cases family <;> rfl
  rw [findCtx, unknown id rfl, unknown _ exchanged]

/-! ## The headers of a packet -/

theorem skbRevalidateData_some {skb : Skb} {linear offset : Nat}
    (reach : skb.pulls = true ∨ linear = skb.data.length) (long : offset ≤ skb.data.length) :
    ∃ linear', skbRevalidateData skb linear offset = some linear' ∧
      (skb.pulls = true ∨ linear' = skb.data.length) := by
  unfold skbRevalidateData
  split
  case isTrue short =>
    have pulls : skb.pulls = true := reach.resolve_right (by omega)
    exact ⟨offset, if_pos ⟨pulls, long⟩, .inl pulls⟩
  case isFalse => exact ⟨linear, rfl, reach⟩

theorem skbRevalidateData_none {skb : Skb} {linear offset : Nat} (bound : linear ≤ skb.data.length)
    (short : skb.data.length < offset) : skbRevalidateData skb linear offset = none := by
  unfold skbRevalidateData
  rw [if_pos (by omega), if_neg (by omega)]

theorem transportOf_eq_some {protocol : UInt8} {transport : Transport}
    (h : transportOf protocol = some transport) : protocol = transport.number := by
  unfold transportOf at h
  grind [Transport.number]

/-- The two checks of a branch of `capture_packets` come to one: the transport header is there. -/
theorem revalidate_twice {α : Type} {skb : Skb} {first second : Nat} {known : Prop} [Decidable known]
    (reach : skb.pulls = true ∨ skb.linear = skb.data.length) (order : first ≤ second) (a : α) :
    (do
      let linear ← skbRevalidateData skb skb.linear first
      if ¬known then none
      else
        let _ ← skbRevalidateData skb linear second
        return a) = if known ∧ second ≤ skb.data.length then some a else none := by
  by_cases long : first ≤ skb.data.length
  · obtain ⟨linear, eq, reach'⟩ := skbRevalidateData_some reach long
    rw [eq]
    by_cases isKnown : known
    · by_cases long' : second ≤ skb.data.length
      · obtain ⟨linear', eq', -⟩ := skbRevalidateData_some reach' long'
        simp [isKnown, long', eq']
      · have bound : linear ≤ skb.data.length := by
          unfold skbRevalidateData at eq
          have := skb.linear_le
          grind
        have fails : skbRevalidateData skb linear second = none :=
          skbRevalidateData_none bound (by omega)
        simp [isKnown, long', fails]
    · simp [isKnown]
  · rw [skbRevalidateData_none skb.linear_le (by omega), if_neg (by omega)]
    rfl

theorem ipv4Id_eq {b : Build} {skb : Skb}
    (reach : skb.pulls = true ∨ skb.linear = skb.data.length) :
    ipv4Id b skb =
      if (byteAt skb.data (ethhdr + 9) = ipprotoTcp ∨ byteAt skb.data (ethhdr + 9) = ipprotoUdp ∨
          byteAt skb.data (ethhdr + 9) = ipprotoIcmp) ∧
          ethhdr + iphdr + b.tcphdr ≤ skb.data.length then
        some { NetId.zero with
          protocol := (byteAt skb.data (ethhdr + 9)).toUInt32
          srcIp4 := slice skb.data (ethhdr + 12) 4
          dstIp4 := slice skb.data (ethhdr + 16) 4
          srcPort := (portAt skb.data (ethhdr + iphdr)).toUInt32
          dstPort := (portAt skb.data (ethhdr + iphdr + 2)).toUInt32 }
      else none := by
  rw [← revalidate_twice reach (Nat.le_add_right _ _)]
  simp only [ipv4Id, not_or]

theorem ipv6Id_eq {b : Build} {skb : Skb}
    (reach : skb.pulls = true ∨ skb.linear = skb.data.length) :
    ipv6Id b skb =
      if (byteAt skb.data (ethhdr + b.nexthdr) = ipprotoTcp ∨
          byteAt skb.data (ethhdr + b.nexthdr) = ipprotoUdp ∨
          byteAt skb.data (ethhdr + b.nexthdr) = ipprotoIcmpv6) ∧
          ethhdr + b.ipv6hdr + b.tcphdr ≤ skb.data.length then
        some { NetId.zero with
          protocol := (byteAt skb.data (ethhdr + b.nexthdr)).toUInt32
          srcIp6 := slice skb.data (ethhdr + b.saddr6) 16
          dstIp6 := slice skb.data (ethhdr + b.daddr6) 16
          srcPort := (portAt skb.data (ethhdr + b.ipv6hdr)).toUInt32
          dstPort := (portAt skb.data (ethhdr + b.ipv6hdr + 2)).toUInt32 }
      else none := by
  rw [← revalidate_twice reach (Nat.le_add_right _ _)]
  simp only [ipv6Id, not_or]

/-- The standards on a packet that the classifier reads right. -/
theorem wireFlow_ipv4 {b : Build} {c : Consts} {filterPcapL2 : Bytes → Bool} {skb : Skb}
    (readable : Readable b c filterPcapL2 skb) (isV4 : slice skb.data 12 2 = ethPIP) :
    wireFlow skb.data = (transportOf (byteAt skb.data (ethhdr + 9))).bind fun transport =>
      flowAt skb.data transport
        (.ipv4 (slice skb.data (ethhdr + 12) 4) (slice skb.data (ethhdr + 16) 4)) (ethhdr + iphdr) := by
  obtain ⟨version, length, first⟩ := readable.ipv4 isV4
  have notV6 : slice skb.data 12 2 ≠ ethPIPv6 := by
    rw [isV4]
    decide
  rw [wireFlow, if_neg notV6, if_pos isV4, ipv4Flow, if_pos ⟨version, by omega, first⟩, length]
  cases transportOf (byteAt skb.data (ethhdr + 9)) <;> rfl

theorem wireFlow_ipv6 {b : Build} {c : Consts} {filterPcapL2 : Bytes → Bool} {skb : Skb}
    (readable : Readable b c filterPcapL2 skb) (isV6 : slice skb.data 12 2 = ethPIPv6) :
    wireFlow skb.data = (transportOf (byteAt skb.data (ethhdr + 6))).bind fun transport =>
      flowAt skb.data transport
        (.ipv6 (slice skb.data (ethhdr + 8) 16) (slice skb.data (ethhdr + 24) 16)) (ethhdr + 40) := by
  obtain ⟨-, version, plain⟩ := readable.ipv6 isV6
  rw [wireFlow, if_pos isV6, ipv6Flow, if_pos version, ipv6Transport]
  cases transportOf (byteAt skb.data (ethhdr + 6)) with
  | some transport => rfl
  | none => simp [plain]

theorem flowAt_eq_some {data : Bytes} {transport : Transport} {ends : Ends} {offset : Nat}
    {flow : Flow} (h : flowAt data transport ends offset = some flow) :
    offset + 4 ≤ data.length ∧ flow =
      ⟨transport, ends, portAt data offset, portAt data (offset + 2)⟩ := by
  unfold flowAt at h
  unfold portAt
  rw [ntohs_bePort, ntohs_bePort]
  grind

/-- The first checks of `capture_packets` let a readable packet through. -/
theorem connId_readable {b : Build} {c : Consts} {filterPcapL2 : Bytes → Bool} {skb : Skb}
    (readable : Readable b c filterPcapL2 skb) :
    connId b c filterPcapL2 skb =
      if slice skb.data 12 2 = ethPIPv6 then (fun id => some (.inet6, id)) <$> ipv6Id b skb
      else if slice skb.data 12 2 = ethPIP then (fun id => some (.inet, id)) <$> ipv4Id b skb
      else some none := by
  have reach := readable.reach.1
  have unfiltered : ¬(c.less52 ≠ 1 ∧ filterPcapL2 (skb.data.take skb.linear) = false) := by
    have := readable.wanted
    grind
  rw [connId, if_neg (by omega), if_neg unfiltered]

/-- A packet of a flow gets the key of its flow. -/
theorem connId_of_flow {b : Build} {c : Consts} {filterPcapL2 : Bytes → Bool} {skb : Skb}
    (readable : Readable b c filterPcapL2 skb) {flow : Flow} (flows : wireFlow skb.data = some flow) :
    connId b c filterPcapL2 skb = some (some (flow.ends.family, flow.key)) := by
  have long := readable.long flow flows
  rw [connId_readable readable]
  by_cases isV6 : slice skb.data 12 2 = ethPIPv6
  · obtain ⟨rfl, -⟩ := readable.ipv6 isV6
    rw [wireFlow_ipv6 readable isV6, Option.bind_eq_some_iff] at flows
    obtain ⟨transport, known, flows⟩ := flows
    obtain ⟨-, rfl⟩ := flowAt_eq_some flows
    have protocol := transportOf_eq_some known
    rw [if_pos isV6, ipv6Id_eq readable.reach.2, if_pos]
    · rw [show ethhdr + Build.core.nexthdr = ethhdr + 6 from rfl, protocol]
      rfl
    · refine ⟨?_, long⟩
      rw [show ethhdr + Build.core.nexthdr = ethhdr + 6 from rfl, protocol]
      cases transport
      · exact .inl rfl
      · exact .inr (.inl rfl)
  · by_cases isV4 : slice skb.data 12 2 = ethPIP
    · rw [wireFlow_ipv4 readable isV4, Option.bind_eq_some_iff] at flows
      obtain ⟨transport, known, flows⟩ := flows
      obtain ⟨-, rfl⟩ := flowAt_eq_some flows
      have protocol := transportOf_eq_some known
      rw [if_neg isV6, if_pos isV4, ipv4Id_eq readable.reach.2, protocol, if_pos]
      · rfl
      · refine ⟨?_, long⟩
        cases transport
        · exact .inl rfl
        · exact .inr (.inl rfl)
    · rw [wireFlow, if_neg isV6, if_neg isV4] at flows
      cases flows

/-- Where the ports are there and the packet has no flow, it is the protocol that is another one. -/
theorem transportOf_of_noFlow {data : Bytes} {protocol : UInt8} {ends : Ends} {offset : Nat}
    (long : offset + 4 ≤ data.length)
    (noFlow : ((transportOf protocol).bind fun transport =>
      flowAt data transport ends offset) = none) :
    transportOf protocol = none := by
  cases known : transportOf protocol with
  | none => rfl
  | some transport =>
    rw [known] at noFlow
    simp [flowAt, long] at noFlow

theorem toUInt32_ne_number {protocol : UInt8} (none : transportOf protocol = none)
    (transport : Transport) : protocol.toUInt32 ≠ transport.number.toUInt32 := by
  intro same
  have : protocol = transport.number := UInt8.toUInt32_inj.mp same
  subst this
  cases transport <;> cases none

theorem toUInt32_ne_zero {protocol other : UInt8} (ne : other ≠ 0)
    (h : protocol = ipprotoTcp ∨ protocol = ipprotoUdp ∨ protocol = other) :
    protocol.toUInt32 ≠ 0 := by
  intro zero
  have : protocol = 0 := UInt8.toUInt32_inj.mp zero
  rcases h with rfl | rfl | rfl
  · cases this
  · cases this
  · exact ne this

theorem Build.ports_le (b : Build) : 4 ≤ b.tcphdr := by
  cases b <;> decide

/-- A packet of no flow is looked up to nobody. -/
theorem Inv.lookedUp_of_noFlow {b : Build} {c : Consts} {filterPcapL2 : Bytes → Bool}
    {s : FlowState} {skb : Skb} (inv : Inv s) (readable : Readable b c filterPcapL2 skb)
    (noFlow : wireFlow skb.data = none) : lookedUp b c filterPcapL2 s.net skb = none := by
  have ports := b.ports_le
  rw [lookedUp, connId_readable readable]
  by_cases isV6 : slice skb.data 12 2 = ethPIPv6
  · obtain ⟨rfl, -⟩ := readable.ipv6 isV6
    rw [wireFlow_ipv6 readable isV6] at noFlow
    rw [if_pos isV6, ipv6Id_eq readable.reach.2]
    split
    case isTrue seen =>
      have room : ethhdr + 40 + 4 ≤ skb.data.length := le_trans (by decide) seen.2
      have other := transportOf_of_noFlow room noFlow
      exact inv.findCtx_other (toUInt32_ne_zero (by decide) seen.1) (toUInt32_ne_number other)
    case isFalse => rfl
  · rw [if_neg isV6]
    by_cases isV4 : slice skb.data 12 2 = ethPIP
    · rw [wireFlow_ipv4 readable isV4] at noFlow
      rw [if_pos isV4, ipv4Id_eq readable.reach.2]
      split
      case isTrue seen =>
        have other := transportOf_of_noFlow (by omega) noFlow
        exact inv.findCtx_other (toUInt32_ne_zero (by decide) seen.1) (toUInt32_ne_number other)
      case isFalse => rfl
    · rw [if_neg isV4]
      rfl

/-- In every run whose steps can be tracked, a packet that the classifier reads right is looked up to
the process that has last sent on its flow, in either direction, and a packet of another flow or of
none is not. -/
theorem packets_looked_up_to_sender (b : Build) (c : Consts) (filterPcapL2 : Bytes → Bool)
    {s : FlowState}
    (h : (flowMachine b c filterPcapL2).ReachableBy (Tracked b c filterPcapL2) s) (skb : Skb)
    (readable : Readable b c filterPcapL2 skb) :
    lookedUp b c filterPcapL2 s.net skb = (wireFlow skb.data).bind (lastSender s.sends) := by
  have inv : Inv s :=
    h.invariant (Inv.init b c filterPcapL2) fun _ _ _ inv tracked moved => inv.step tracked moved
  cases flows : wireFlow skb.data with
  | some flow =>
    rw [lookedUp, connId_of_flow readable flows]
    exact inv.findCtx_key (readable.specified flow flows)
  | none => exact inv.lookedUp_of_noFlow readable flows

/-! ## Packets that are not found -/

/-- Process 1 sends on its connection from 10.0.0.1:40000 to 10.0.0.2:443. -/
def httpsSend : Event := ⟨threadWith httpsClientSock, .tcpSendmsg 0x10⟩

def httpsFlow : Flow := ⟨.tcp, .ipv4 Ssl.httpsClientAddr Ssl.httpsServerAddr, 40000, 443⟩

/-- A packet of that connection; `options` are the options of its IPv4 header. -/
def httpsData (ihl : UInt8) (options : Bytes) : Bytes :=
  List.replicate 12 0 ++ [0x08, 0x00] ++ [0x40 + ihl, 0, 0, 40, 0, 0, 0, 0, 64, 6, 0, 0] ++
    [10, 0, 0, 1] ++ [10, 0, 0, 2] ++ options ++ [0x9C, 0x40, 0x01, 0xBB] ++ List.replicate 16 0

def linearSkb (data : Bytes) : Skb := ⟨data, data.length, le_refl _, true, 2⟩

theorem packets_looked_up_to_sender_https :
    ∃ s, (flowMachine .core .unfiltered filterPcapStub).ReachableBy
        (Tracked .core .unfiltered filterPcapStub) s ∧
      lookedUp .core .unfiltered filterPcapStub s.net (linearSkb (httpsData 5 [])) =
        some (taskCtx httpsSend.ctx.task) := by
  have flows : wireFlow (linearSkb (httpsData 5 [])).data = some httpsFlow := by decide
  have readable : Readable .core .unfiltered filterPcapStub (linearSkb (httpsData 5 [])) := by
    refine ⟨by decide, by decide, by decide, by decide, ?_, ?_⟩
    · intro flow same
      cases flows.symm.trans same
      decide
    · intro flow same
      cases flows.symm.trans same
      intro unspecified
      exact absurd unspecified.1 (by decide)
  have reached : ∃ s, (flowMachine .core .unfiltered filterPcapStub).ReachableBy
        (Tracked .core .unfiltered filterPcapStub) s ∧
      s.sends = [(httpsFlow, taskCtx httpsSend.ctx.task)] := by
    refine ⟨_, .tail .refl ⟨httpsSend, ⟨by decide, ?_⟩, rfl⟩, by rfl⟩
    intro flow _ p mem
    cases mem
  obtain ⟨s, reached, sends⟩ := reached
  have found := packets_looked_up_to_sender .core .unfiltered filterPcapStub reached _ readable
  rw [flows, sends] at found
  exact ⟨s, reached, found⟩

/-- An AF_INET6 socket on the same connection. -/
def mappedSock : Sock :=
  ⟨zeros 4, zeros 4, netPort 443, 40000, afInet6,
    #v[0, 0, 0, 0, 0, 0, 0, 0, 0, 0, 0xFF, 0xFF, 10, 0, 0, 2],
    #v[0, 0, 0, 0, 0, 0, 0, 0, 0, 0, 0xFF, 0xFF, 10, 0, 0, 1]⟩

/-- After a send, the packets of its flow are not found if their IPv4 header has options, or if the
socket is an AF_INET6 socket. -/
theorem packets_not_found :
    (∃ s, (flowMachine .core .unfiltered filterPcapStub).Reachable s ∧
      (wireFlow (httpsData 6 [1, 1, 1, 1])).bind (lastSender s.sends) =
        some (taskCtx httpsSend.ctx.task) ∧
      lookedUp .core .unfiltered filterPcapStub s.net (linearSkb (httpsData 6 [1, 1, 1, 1])) = none) ∧
    ∃ s, (flowMachine .core .unfiltered filterPcapStub).Reachable s ∧
      (wireFlow (httpsData 5 [])).bind (lastSender s.sends) = some (taskCtx httpsSend.ctx.task) ∧
      lookedUp .core .unfiltered filterPcapStub s.net (linearSkb (httpsData 5 [])) = none := by
  constructor
  · have ran : (flowMachine .core .unfiltered filterPcapStub).run [httpsSend] = some _ := rfl
    exact ⟨_, Machine.reachable_of_run ran, by decide, by decide⟩
  · have ran : (flowMachine .core .unfiltered filterPcapStub).run
        [⟨threadWith mappedSock, .tcpSendmsg 0x10⟩] = some _ := rfl
    exact ⟨_, Machine.reachable_of_run ran, by decide, by decide⟩

end ECapture.Kernel.Tc
