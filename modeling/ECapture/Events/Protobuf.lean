import ECapture.Events.OpenSSL

/-!
# Connections as protobuf events

`ToProtobufEvent` of `event_connect.go` takes the addresses and ports of a connection back out of
the tuple that `DecodeFromBytes` has printed, by cutting it at `-` and at `:`. The tuple has
brackets around the addresses and `->` between its ends, and IPv6 text is full of colons.
-/

namespace ECapture.Events.OpenSSL
open Library

/-- `pb.Event`. -/
structure PbEvent where
  timestamp : Int64
  uuid : Bytes
  srcIp : Bytes
  srcPort : UInt32
  dstIp : Bytes
  dstPort : UInt32
  pid : Int64
  pname : Bytes
  type : UInt32
  length : UInt32
  payload : Bytes

namespace ConnDataEvent

def getUUID (ce : ConnDataEvent) : Bytes :=
  dec ce.pid.toNat ++ str "_" ++ dec ce.tid.toNat ++ str "_" ++ commStr ce.comm.toList ++ str "_" ++
    dec ce.fd.toNat

/-- `-` and `:`. -/
def dash : UInt8 := 45
def colon : UInt8 := 58

def toProtobufEvent (ce : ConnDataEvent) : PbEvent :=
  let event : PbEvent :=
    { timestamp := ce.timestampNs.toInt64, uuid := ce.getUUID, srcIp := [], srcPort := 0,
      dstIp := [], dstPort := 0, pid := .ofNat ce.pid.toNat, pname := commStr ce.comm.toList,
      type := 0, length := .ofNat ce.tuple.length, payload := ce.tuple }
  match ce.tuple.splitOn dash with
  | [src, dst] =>
    match src.splitOn colon, dst.splitOn colon with
    | [srcIp, srcPort], [dstIp, dstPort] =>
      { event with
        srcIp := srcIp
        dstIp := dstIp
        srcPort := (parseUint32 srcPort).getD 0
        dstPort := (parseUint32 dstPort).getD 0 }
    | _, _ => event
  | _ => event

/-- An address as `DecodeFromBytes` prints it. -/
def addrText (ce : ConnDataEvent) (addr : Vector UInt8 16) : Bytes :=
  if ce.family = afInet then ipv4Text (addr.toList.take 4) else addrFrom16Text addr.toList

/-- The event has the addresses and the ports of the connection. -/
structure Carried (ce : ConnDataEvent) : Prop where
  srcIp : ce.toProtobufEvent.srcIp = ce.addrText ce.saddr
  dstIp : ce.toProtobufEvent.dstIp = ce.addrText ce.daddr
  srcPort : ce.toProtobufEvent.srcPort = ce.sport.toUInt32
  dstPort : ce.toProtobufEvent.dstPort = ce.dport.toUInt32

theorem tupleText_eq (ce : ConnDataEvent) :
    tupleText ce.saddr ce.daddr ce.family ce.sport ce.dport =
      .ok (str "[" ++ ce.addrText ce.saddr ++ str "]:" ++ dec ce.sport.toNat ++ str "->[" ++
        ce.addrText ce.daddr ++ str "]:" ++ dec ce.dport.toNat) := by
  have addr (a : Vector UInt8 16) :
      (if ce.family = afInet then ipv4Text <$> sliceTo 4 a.toList
        else .ok (addrFrom16Text a.toList)) = .ok (ce.addrText a) := by
    unfold addrText
    split
    · rw [sliceTo_of_le (by simp)]
      rfl
    · rfl
  simp only [tupleText, addr]
  rfl

/-- The tuple of a decoded event. -/
theorem tuple_of_decoded {payload : Bytes} {ce : ConnDataEvent}
    (decoded : decodeFromBytes payload = .ok (.ok ce)) :
    ce.tuple = str "[" ++ ce.addrText ce.saddr ++ str "]:" ++ dec ce.sport.toNat ++ str "->[" ++
      ce.addrText ce.daddr ++ str "]:" ++ dec ce.dport.toNat := by
  unfold decodeFromBytes at decoded
  split at decoded
  case h_1 => cases decoded
  case h_2 e read =>
    rw [tupleText_eq e] at decoded
    cases decoded
    rfl

/-! ## IPv4 -/

/-- Dotted decimal has digits and dots. -/
theorem mem_ipv4Text {b : UInt8} {ip : Bytes} (h : b ∈ ipv4Text ip) :
    b = 46 ∨ (48 ≤ b.toNat ∧ b.toNat ≤ 57) := by
  rcases mem_intercalate h with h | ⟨l, mem, h⟩
  · exact .inl (by simpa [str] using h)
  · obtain ⟨c, -, rfl⟩ := List.mem_map.mp mem
    exact .inr (mem_dec h)

theorem not_mem_ipv4Text {b : UInt8} (ip : Bytes) (other : b ≠ 46)
    (noDigit : b.toNat < 48 ∨ 57 < b.toNat) : b ∉ ipv4Text ip := by
  intro mem
  rcases mem_ipv4Text mem with rfl | digit
  · exact other rfl
  · omega

theorem not_mem_dec {b : UInt8} (n : Nat) (noDigit : b.toNat < 48 ∨ 57 < b.toNat) : b ∉ dec n := by
  intro mem
  have := mem_dec mem
  omega

/-- The brackets stay with the addresses, and the second one keeps the head of the arrow. -/
theorem toProtobufEvent_inet {ce : ConnDataEvent} {src dst : Bytes}
    (tuple : ce.tuple = str "[" ++ src ++ str "]:" ++ dec ce.sport.toNat ++ str "->[" ++ dst ++
      str "]:" ++ dec ce.dport.toNat)
    (srcClean : dash ∉ src ∧ colon ∉ src) (dstClean : dash ∉ dst ∧ colon ∉ dst) :
    ce.toProtobufEvent.srcIp = str "[" ++ src ++ str "]" ∧
    ce.toProtobufEvent.dstIp = str ">[" ++ dst ++ str "]" ∧
    ce.toProtobufEvent.srcPort = ce.sport.toUInt32 ∧
    ce.toProtobufEvent.dstPort = ce.dport.toUInt32 := by
  have noDigit : (dash.toNat < 48 ∨ 57 < dash.toNat) ∧ (colon.toNat < 48 ∨ 57 < colon.toNat) := by
    decide
  let near := str "[" ++ src ++ str "]"
  let far := str ">[" ++ dst ++ str "]"
  have ends : ce.tuple.splitOn dash =
      [near ++ colon :: dec ce.sport.toNat, far ++ colon :: dec ce.dport.toNat] := by
    have shape : ce.tuple = (near ++ colon :: dec ce.sport.toNat) ++ dash ::
        (far ++ colon :: dec ce.dport.toNat) := by
      rw [tuple]
      simp [near, far, str, colon, dash]
    have clean₁ : dash ∉ near ++ colon :: dec ce.sport.toNat := by
      simp [near, str, srcClean.1, not_mem_dec _ noDigit.1]
      decide
    have clean₂ : dash ∉ far ++ colon :: dec ce.dport.toNat := by
      simp [far, str, dstClean.1, not_mem_dec _ noDigit.1]
      decide
    rw [shape, List.splitOn_append_cons_self_of_not_mem clean₁, List.splitOn_eq_singleton clean₂]
  have part {addr : Bytes} (clean : colon ∉ addr) (port : UInt16) :
      (addr ++ colon :: dec port.toNat).splitOn colon = [addr, dec port.toNat] := by
    rw [List.splitOn_append_cons_self_of_not_mem clean,
      List.splitOn_eq_singleton (not_mem_dec _ noDigit.2)]
  have clean₁ : colon ∉ near := by
    simp [near, str, srcClean.2]
    decide
  have clean₂ : colon ∉ far := by
    simp [far, str, dstClean.2]
    decide
  have port (p : UInt16) : (parseUint32 (dec p.toNat)).getD 0 = p.toUInt32 := by
    have small := p.toNat_lt
    rw [parseUint32_dec (by omega), Option.getD_some]
    simp
  simp only [toProtobufEvent, ends, part clean₁, part clean₂, port]
  exact ⟨rfl, rfl, trivial, trivial⟩

/-! ## IPv6 -/

/-- The source address that is taken out has no colon. -/
theorem colon_not_mem_srcIp (ce : ConnDataEvent) : colon ∉ ce.toProtobufEvent.srcIp := by
  unfold toProtobufEvent
  split
  case h_1 src dst ends =>
    split
    case h_1 srcIp srcPort dstIp dstPort near far =>
      exact not_mem_of_mem_splitOn src srcIp (by rw [near]; simp)
    case h_2 => simp
  case h_2 => simp

theorem length_groups : ∀ ip : Bytes, (groups ip).length = ip.length / 2
  | [] => rfl
  | [_] => by simp [groups]
  | hi :: lo :: rest => by
    rw [groups, List.length_cons, length_groups rest, List.length_cons, List.length_cons]
    omega

/-- IPv6 text has a colon, also in the form of a mapped IPv4 address. -/
theorem colon_mem_addrFrom16Text {ip : Bytes} (size : ip.length = 16) :
    colon ∈ addrFrom16Text ip := by
  unfold addrFrom16Text
  split
  case isTrue => simp [str, colon]
  case isFalse =>
    have eight := length_groups ip
    rw [size] at eight
    unfold ipv6Text
    dsimp only
    split
    case isTrue =>
      match h : groups ip, eight with
      | a :: b :: rest, _ =>
        simp only [bind, List.flatMap_cons, pure, List.map_cons, List.cons_append, List.nil_append]
        rw [List.intercalate_cons_cons]
        simp [str, colon]
    case isFalse => simp [str, colon]

/-! ## No address is carried over -/

/-- Of no connection, whatever its family, the event has the addresses. -/
theorem connection_not_carried {payload : Bytes} {ce : ConnDataEvent}
    (decoded : decodeFromBytes payload = .ok (.ok ce)) : ¬ ce.Carried := by
  intro carried
  have srcIp := carried.srcIp
  by_cases v4 : ce.family = afInet
  · have clean (addr : Vector UInt8 16) : dash ∉ ce.addrText addr ∧ colon ∉ ce.addrText addr := by
      rw [addrText, if_pos v4]
      exact ⟨not_mem_ipv4Text _ (by decide) (by decide), not_mem_ipv4Text _ (by decide) (by decide)⟩
    have taken := (toProtobufEvent_inet (tuple_of_decoded decoded) (clean _) (clean _)).1
    rw [srcIp] at taken
    have longer := congrArg List.length taken
    simp [str] at longer
    omega
  · have size : ce.saddr.toList.length = 16 := Vector.length_toList
    have colons := colon_mem_addrFrom16Text size
    rw [addrText, if_neg v4] at srcIp
    exact ce.colon_not_mem_srcIp (srcIp ▸ colons)

/-- The record of a connection from 127.0.0.1:40000 to 127.0.0.1:443. -/
def loopbackRecord : Bytes :=
  ([127, 0, 0, 1] ++ List.replicate 12 0) ++ ([127, 0, 0, 1] ++ List.replicate 12 0) ++
    List.replicate 44 0 ++ [2, 0] ++ [0x40, 0x9C] ++ [0xBB, 0x01] ++ [0]

theorem connection_not_carried_loopback :
    ∃ ce, decodeFromBytes loopbackRecord = .ok (.ok ce) ∧ ¬ ce.Carried := by
  have decodes : ∃ ce, decodeFromBytes loopbackRecord = .ok (.ok ce) := ⟨_, rfl⟩
  obtain ⟨ce, decoded⟩ := decodes
  exact ⟨ce, decoded, connection_not_carried decoded⟩

/-- What the event has instead, for that connection and for one between `::1` and `::1`. -/
theorem loopback_addresses :
    (∃ ce, decodeFromBytes loopbackRecord = .ok (.ok ce) ∧ ce.family = 2 ∧
      ce.addrText ce.saddr = str "127.0.0.1" ∧
      ce.toProtobufEvent.srcIp = str "[127.0.0.1]" ∧
      ce.toProtobufEvent.dstIp = str ">[127.0.0.1]") ∧
    ∃ ce, decodeFromBytes (List.replicate 15 0 ++ [1] ++ (List.replicate 15 0 ++ [1]) ++
        List.replicate 44 0 ++ [10, 0] ++ [0x40, 0x9C] ++ [0xBB, 0x01] ++ [0]) = .ok (.ok ce) ∧
      ce.family = 10 ∧ ce.addrText ce.saddr = str "::1" ∧ ce.sport = 40000 ∧
      ce.toProtobufEvent.srcIp = [] ∧ ce.toProtobufEvent.srcPort = 0 := by
  refine ⟨⟨_, rfl, ?_⟩, ⟨_, rfl, ?_⟩⟩
  · decide
  · decide

end ConnDataEvent

end ECapture.Events.OpenSSL
