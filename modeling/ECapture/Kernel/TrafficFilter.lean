import ECapture.Kernel.ConnTuple
import ECapture.Kernel.Traffic
import ECapture.Library.Unwinding
import ECapture.Probe.OpenSSL

/-!
# The process filter in pcap mode

In pcap mode a packet should be emitted only if the process that sends on its connection passes the
filter. The classifier learns of senders through `network_map`, which the probes on `tcp_sendmsg` and
`udp_sendmsg` fill. The OpenSSL probe does not attach them, so the map stays empty, and a packet
without a known sender is emitted.
-/

namespace ECapture.Kernel.Tc
open Library Ssl Probe

/-! ## Attached programs -/

def Prog.ebpfFuncName : Prog → String
  | .tcpSendmsg _ => "tcp_sendmsg"
  | .udpSendmsg _ => "udp_sendmsg"
  | .ingressClsFunc _ => tcFuncNameIngress
  | .egressClsFunc _ => tcFuncNameEgress

/-- The packet at a classifier. -/
def Prog.skb? : Prog → Option Skb
  | .ingressClsFunc skb => some skb
  | .egressClsFunc skb => some skb
  | _ => none

/-- The connection of a send. -/
def Prog.sentId? (x : Ctx) : Prog → Option NetId
  | .tcpSendmsg sk => some (sockId ipprotoTcp (x.kmem.sock sk))
  | .udpSendmsg sk => some (sockId ipprotoUdp (x.kmem.sock sk))
  | _ => none

/-- The maps, and the sends that there have been, seen by a program or not. -/
structure Traffic where
  net : Net
  sent : List (NetId × Task)

def Traffic.start : Traffic := ⟨.new, []⟩

section

variable (m : Manager) (b : Build) (c : Consts) (filterPcapL2 : Bytes → Bool)

/-- What happens runs a program only if the manager has attached it. -/
def trafficStep (s : Traffic) (e : Event) : Traffic :=
  { net := if m.attaches e.prog.ebpfFuncName then exec b c filterPcapL2 s.net e else s.net
    sent := match e.prog.sentId? e.ctx with
      | some id => (id, e.ctx.task) :: s.sent
      | none => s.sent }

/-! ## What the filter should do -/

/-- The connection has been sent on, in this or the other direction, and only by processes that the
filter turns away. -/
def SentOnlyByRejected (sent : List (NetId × Task)) (family : Family) (id : NetId) : Prop :=
  (∃ p ∈ sent, p.1 = id ∨ p.1 = id.exchange family) ∧
    ∀ p ∈ sent, p.1 = id ∨ p.1 = id.exchange family → passesFilter c p.2 = false

/-- A packet that is emitted is of a connection whose recorded sender passes the filter, and not of
one that only rejected processes have sent on. -/
def EmitsForAccepted (s : Traffic) (e : Event) : Prop :=
  ∀ skb, e.prog.skb? = some skb →
    (trafficStep m b c filterPcapL2 s e).net.skbEvents ≠ s.net.skbEvents →
    ∃ family id ctx, connId b c filterPcapL2 skb = some (some (family, id)) ∧
      findCtx s.net.networkMap family id = some ctx ∧ senderRejected c ctx = false ∧
      ¬SentOnlyByRejected c s.sent family id

end

/-! ## What happens -/

variable {m : Manager} {b : Build} {c : Consts} {filterPcapL2 : Bytes → Bool}

theorem trafficStep_networkMap {s : Traffic} {e : Event}
    (tcp : m.attaches "tcp_sendmsg" = false) (udp : m.attaches "udp_sendmsg" = false) :
    (trafficStep m b c filterPcapL2 s e).net.networkMap = s.net.networkMap := by
  obtain ⟨x, prog⟩ := e
  cases prog with
  | tcpSendmsg sk => simp [trafficStep, Prog.ebpfFuncName, tcp]
  | udpSendmsg sk => simp [trafficStep, Prog.ebpfFuncName, udp]
  | ingressClsFunc skb =>
    simp only [trafficStep, exec]
    split
    · exact capturePackets_networkMap _ _ _ _ _ _
    · rfl
  | egressClsFunc skb =>
    simp only [trafficStep, exec]
    split
    · exact capturePackets_networkMap _ _ _ _ _ _
    · rfl

/-- Without recorded senders every packet that gets to the lookup is emitted. -/
theorem emitted_iff_of_empty {s : Traffic} {e : Event} {skb : Skb} (packet : e.prog.skb? = some skb)
    (attached : m.attaches e.prog.ebpfFuncName = true) (empty : ∀ id, s.net.networkMap id = none) :
    (trafficStep m b c filterPcapL2 s e).net.skbEvents ≠ s.net.skbEvents ↔
      connId b c filterPcapL2 skb ≠ none := by
  have unknown : ∀ id, netCtx s.net id = none := by
    rintro (- | ⟨family, id⟩)
    · rfl
    · simp [netCtx, findCtx, empty]
  have runs : (trafficStep m b c filterPcapL2 s e).net =
      capturePackets b c filterPcapL2 skb e.ctx s.net := by
    obtain ⟨x, prog⟩ := e
    cases prog <;> simp_all [trafficStep, exec, Prog.skb?]
  rw [runs, capturePackets_eq]
  cases connId b c filterPcapL2 skb with
  | none => simp
  | some id => simp [unknown]

theorem emitsForAccepted_iff_of_empty {s : Traffic} {e : Event}
    (attached : ∀ skb, e.prog.skb? = some skb → m.attaches e.prog.ebpfFuncName = true)
    (empty : ∀ id, s.net.networkMap id = none) :
    EmitsForAccepted m b c filterPcapL2 s e ↔
      ∀ skb, e.prog.skb? = some skb → connId b c filterPcapL2 skb = none := by
  constructor
  · intro accepted skb packet
    by_contra parsed
    obtain ⟨family, id, ctx, -, found, -⟩ :=
      accepted skb packet ((emitted_iff_of_empty packet (attached skb packet) empty).mpr parsed)
    simp [findCtx, empty] at found
  · intro unseen skb packet emits
    exact absurd (unseen skb packet)
      ((emitted_iff_of_empty packet (attached skb packet) empty).mp emits)

theorem along_emitsForAccepted_iff {s : Traffic} {es : List Event}
    (tcp : m.attaches "tcp_sendmsg" = false) (udp : m.attaches "udp_sendmsg" = false)
    (classifiers : ∀ prog : Prog, prog.skb?.isSome → m.attaches prog.ebpfFuncName = true)
    (empty : ∀ id, s.net.networkMap id = none) :
    Along (EmitsForAccepted m b c filterPcapL2) (trafficStep m b c filterPcapL2) s es ↔
      ∀ e ∈ es, ∀ skb, e.prog.skb? = some skb → connId b c filterPcapL2 skb = none := by
  induction es generalizing s with
  | nil => simp [Along]
  | cons e es ih =>
    have kept : ∀ id, (trafficStep m b c filterPcapL2 s e).net.networkMap id = none := by
      rw [trafficStep_networkMap tcp udp]
      exact empty
    have attached : ∀ skb, e.prog.skb? = some skb → m.attaches e.prog.ebpfFuncName = true :=
      fun skb packet => classifiers e.prog (by simp [packet])
    rw [Along, emitsForAccepted_iff_of_empty attached empty, ih kept, List.forall_mem_cons]

/-- In pcap mode, in every run and for every filter, the packets are emitted as they should be only
if none is emitted: if every packet is let go before the lookup. -/
theorem pcap_filter_needs_silence {os : Os} {cfg : Config} {handlers : List HandlerSpec}
    {m : Manager} (setup : setupManagerPcapNG os cfg = (handlers, .ok m)) (b : Build)
    (c : Consts) (filterPcapL2 : Bytes → Bool) (es : List Event) :
    Along (EmitsForAccepted m b c filterPcapL2) (trafficStep m b c filterPcapL2) .start es ↔
      ∀ e ∈ es, ∀ skb, e.prog.skb? = some skb → connId b c filterPcapL2 skb = none := by
  obtain ⟨rfl, -⟩ := setupManagerPcapNG_ok setup
  have sends : ∀ name, name = "tcp_sendmsg" ∨ name = "udp_sendmsg" →
      (⟨pcapProbes cfg, pcapMaps cfg⟩ : Manager).attaches name = false := by
    intro name isSend
    by_contra attached
    have listed := attaches_pcapProbes cfg (pcapMaps cfg) (by simpa using attached)
    rcases isSend with rfl | rfl <;> simp [tcFuncNameIngress, tcFuncNameEgress] at listed
  apply along_emitsForAccepted_iff (sends _ (.inl rfl)) (sends _ (.inr rfl))
  · intro prog packet
    cases prog with
    | tcpSendmsg sk => simp [Prog.skb?] at packet
    | udpSendmsg sk => simp [Prog.skb?] at packet
    | ingressClsFunc skb => simp [Prog.ebpfFuncName, Manager.attaches, pcapProbes, classifier]
    | egressClsFunc skb => simp [Prog.ebpfFuncName, Manager.attaches, pcapProbes, classifier]
  · intro id
    rfl

/-! ## A packet of a rejected process -/

def pcapOnEth0 : Config := ⟨"/usr/lib/libssl.so.3", "eth0", "out.pcapng", "", false, ["SSL_write"]⟩

def workingOs : Os := ⟨fun _ => none, none⟩

/-- Only process 7 is traced. -/
def onlyProcess7 : Consts := { Consts.unfiltered with targetPid := 7 }

/-- The first packet of 10.0.0.1:40000 to 10.0.0.2:443, with headers only. -/
def httpsPacket : Skb :=
  { data := List.replicate 12 0 ++ [0x08, 0x00] ++ [0x45, 0, 0, 40, 0, 0, 0, 0, 64, 6, 0, 0] ++
      [10, 0, 0, 1] ++ [10, 0, 0, 2] ++ [0x9C, 0x40, 0x01, 0xBB] ++ List.replicate 16 0
    linear := 54
    linear_le := by decide
    pulls := true
    ifindex := 2 }

/-- A frame with nothing in it. -/
def emptyFrame : Skb := ⟨List.replicate 20 0, 20, by decide, true, 2⟩

theorem pcap_filter_needs_silence_empty_frame :
    (setupManagerPcapNG workingOs pcapOnEth0).2 = .ok ⟨pcapProbes pcapOnEth0, pcapMaps pcapOnEth0⟩ ∧
      Along (EmitsForAccepted ⟨pcapProbes pcapOnEth0, pcapMaps pcapOnEth0⟩ .core onlyProcess7
          filterPcapStub)
        (trafficStep ⟨pcapProbes pcapOnEth0, pcapMaps pcapOnEth0⟩ .core onlyProcess7 filterPcapStub)
        .start [⟨threadWith httpsClientSock, .egressClsFunc emptyFrame⟩] := by
  have setup : setupManagerPcapNG workingOs pcapOnEth0 =
      (_, .ok ⟨pcapProbes pcapOnEth0, pcapMaps pcapOnEth0⟩) := rfl
  refine ⟨congrArg Prod.snd setup, (pcap_filter_needs_silence setup _ _ _ _).mpr ?_⟩
  intro e mem skb packet
  cases List.mem_singleton.mp mem
  cases packet
  rfl

/-- Process 1, which is filtered out, sends on a connection, and its packet is emitted. -/
theorem rejected_sender_is_captured :
    ∃ m, (setupManagerPcapNG workingOs pcapOnEth0).2 = .ok m ∧ onlyProcess7.less52 = 0 ∧
      onlyProcess7.FilterSet ∧ passesFilter onlyProcess7 (threadWith httpsClientSock).task = false ∧
      ∃ s id, s = trafficStep m .core onlyProcess7 filterPcapStub .start
          ⟨threadWith httpsClientSock, .tcpSendmsg 0x10⟩ ∧
        connId .core onlyProcess7 filterPcapStub httpsPacket = some (some (.inet, id)) ∧
        SentOnlyByRejected onlyProcess7 s.sent .inet id ∧
        (trafficStep m .core onlyProcess7 filterPcapStub s
          ⟨threadWith httpsClientSock, .egressClsFunc httpsPacket⟩).net.skbEvents.length = 1 ∧
        ¬EmitsForAccepted m .core onlyProcess7 filterPcapStub s
          ⟨threadWith httpsClientSock, .egressClsFunc httpsPacket⟩ := by
  have rejected : passesFilter onlyProcess7 (threadWith httpsClientSock).task = false := by decide
  refine ⟨_, rfl, rfl, by decide, rejected, _, _, rfl, rfl, ⟨?_, ?_⟩, rfl, ?_⟩
  · exact ⟨_, List.mem_singleton.mpr rfl, .inl rfl⟩
  · intro p mem _
    rw [List.mem_singleton.mp mem]
    exact rejected
  · intro accepted
    obtain ⟨family, id, ctx, parsed, found, -⟩ := accepted httpsPacket rfl (by decide)
    cases parsed
    cases found

end ECapture.Kernel.Tc
