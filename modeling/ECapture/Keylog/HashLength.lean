import ECapture.Events.OpenSSL
import ECapture.Kernel.Secrets
import ECapture.Keylog.Dedup

/-!
# The length of logged TLS 1.3 secrets

From a record on `mastersecret_events` through `MasterSecretEvent.DecodeFromBytes` to the key
log. A secret of a TLS 1.3 handshake has the length of the suite's hash, and a key log line
has to carry that many bytes. The handler takes the length from the cipher id: it knows three
suites, and for a BoringSSL record it finds the hash length where it expects the cipher id.
-/

namespace ECapture.Keylog
open Library Kernel Events.OpenSSL

/-! ## Decoding a record -/

theorem optionalSecret_append (v : Vector UInt8 64) (rest : Bytes) :
    MasterSecretEvent.optionalSecret (v.toList ++ rest) = .ok (v, rest) :=
  MasterSecretEvent.optional_ok (by simp) (readFull_append v rest)

theorem optionalCipherId_append (v : UInt32) (rest : Bytes) :
    MasterSecretEvent.optionalCipherId (leBytes 4 v.toNat ++ rest) = .ok (v, rest) :=
  MasterSecretEvent.optional_ok (by simp) (readU32_leBytes v rest)

/-- Either struct is decoded field by field, whatever follows it. -/
theorem decodeFromBytes_layout (version : Int32) (random : Vector UInt8 32)
    (key : Vector UInt8 48) (word : UInt32) (s₁ s₂ s₃ s₄ s₅ s₆ : Vector UInt8 64) (pad : Bytes) :
    MasterSecretEvent.decodeFromBytes.run
      (layout version random key word [s₁, s₂, s₃, s₄, s₅, s₆] ++ pad) =
      .ok ⟨version, random, key, word, s₁, s₂, s₃, s₄, s₅, s₆⟩ := by
  simp only [layout, List.flatMap_cons, List.flatMap_nil, List.append_assoc, List.append_nil]
  unfold Reader.run MasterSecretEvent.decodeFromBytes
  rw [Reader.bind_ok (Events.field_ok (readI32_leBytes version _)),
    Reader.bind_ok (Events.field_ok (readFull_append random _)),
    Reader.bind_ok (Events.field_ok (readFull_append key _)),
    Reader.bind_ok (optionalCipherId_append word _),
    Reader.bind_ok (optionalSecret_append s₁ _), Reader.bind_ok (optionalSecret_append s₂ _),
    Reader.bind_ok (optionalSecret_append s₃ _), Reader.bind_ok (optionalSecret_append s₄ _),
    Reader.bind_ok (optionalSecret_append s₅ _), Reader.bind_ok (optionalSecret_append s₆ _)]
  rfl

/-! ## What one event adds to the key log -/

/-- Entries with different pairs are each written unless their key was seen before. -/
theorem foldl_offer_lines (new : List Entry) (j : Journal) (nodup : (new.map Entry.pair).Nodup) :
    (new.foldl Journal.offer j).lines =
      j.lines ++ (new.filter (fun x => decide (x.key ∉ j.seenKeys))).map Entry.line := by
  induction new generalizing j with
  | nil => simp
  | cons x new ih =>
    rw [List.map_cons, List.nodup_cons] at nodup
    obtain ⟨fresh, nodup⟩ := nodup
    rw [List.foldl_cons, ih _ nodup, Journal.offer]
    split
    case isTrue seen => simp [seen]
    case isFalse unseen =>
      have others : ∀ y ∈ new, y.key ≠ x.key := by
        intro y hy same
        exact fresh (List.mem_map.mpr ⟨y, hy, Entry.key_eq_iff.mp same⟩)
      have same : new.filter (fun y => decide (y.key ∉ x.key :: j.seenKeys)) =
          new.filter (fun y => decide (y.key ∉ j.seenKeys)) := by
        apply List.filter_congr
        intro y hy
        simp [others y hy]
      rw [same, List.filter_cons_of_pos (by simpa using unseen)]
      simp

/-- The lines one event adds are those of its entries whose key is new. -/
theorem handle_adds (hk : Hkdf) (order : MapOrder) (event : KeylogEvent) (h : KeylogHandler) :
    ∃ added, (handle hk always order event h).2.writer.lines = h.writer.lines ++ added ∧
      ∀ line, line ∈ added ↔ ∃ x ∈ entries hk event, x.key ∉ h.seenKeys ∧ line = x.line := by
  obtain ⟨offered, perm, eq⟩ := handle_journal hk order event h
  have nodup := (perm.map Entry.pair).nodup_iff.mpr (entries_pairs_nodup hk event)
  have lines := congrArg Journal.lines eq
  rw [foldl_offer_lines offered _ nodup] at lines
  refine ⟨_, lines, fun line => ?_⟩
  simp only [List.mem_map, List.mem_filter, decide_eq_true_eq, perm.mem_iff]
  constructor
  · rintro ⟨x, ⟨hx, unseen⟩, rfl⟩
    exact ⟨x, hx, unseen, rfl⟩
  · rintro ⟨x, hx, unseen, rfl⟩
    exact ⟨x, ⟨hx, unseen⟩, rfl⟩

/-! ## Records of TLS 1.3 handshakes -/

inductive KernelRecord where
  | openssl (r : MastersecretT)
  | boringssl (r : MastersecretBssl)

namespace KernelRecord

def bytes : KernelRecord → Bytes
  | openssl r => r.bytes
  | boringssl r => r.bytes

def version : KernelRecord → Int32
  | openssl r => r.version
  | boringssl r => r.version

def clientRandom : KernelRecord → Bytes
  | openssl r => r.clientRandom.toList
  | boringssl r => r.clientRandom.toList

/-- The negotiated suite of an OpenSSL record. -/
def suite (r : MastersecretT) : UInt16 := (r.cipherId &&& 0x0000FFFF).toUInt16

/-- The hash of a TLS 1.3 cipher suite (RFC 8446, B.4). -/
def suiteHash (suite : UInt16) : Option Hash :=
  if suite = 0x1302 then some .sha384
  else if suite = 0x1301 ∨ suite = 0x1303 ∨ suite = 0x1304 ∨ suite = 0x1305 then some .sha256
  else none

def hashSize : Hash → Nat
  | .sha256 => 32
  | .sha384 => 48

/-- The hash of the handshake the record is of. -/
def hash : KernelRecord → Option Hash
  | openssl r => suiteHash (suite r)
  | boringssl r =>
    if r.hashLen = 32 then some .sha256 else if r.hashLen = 48 then some .sha384 else none

/-- A record of a TLS 1.3 handshake that the decoder accepts. A BoringSSL record comes from the
return probe of `SSL_do_handshake`. -/
structure Observed (k : KernelRecord) (H : Hash) : Prop where
  tls13 : k.version = tls13Version
  random : isZeroBytes k.clientRandom = false
  negotiated : k.hash = some H
  emitted : ∀ r, k = boringssl r → ∃ off mem ssl,
    uretprobeBsslDoHandshake off mem true 1 (some ssl) = some r

/-- The traffic and exporter secrets of the record, under the labels of the key log. -/
def direct : KernelRecord → List (Bytes × Bytes)
  | openssl r =>
    [(keyLogLabelClientTraffic, r.clientAppTrafficSecret.toList),
      (keyLogLabelServerTraffic, r.serverAppTrafficSecret.toList),
      (keyLogLabelExporterSecret, r.exporterMasterSecret.toList),
      (keyLogLabelClientEarlyTafficSecret, r.earlySecret.toList)]
  | boringssl r =>
    [(keyLogLabelClientTraffic, r.clientTrafficSecret0.toList),
      (keyLogLabelServerTraffic, r.serverTrafficSecret0.toList),
      (keyLogLabelExporterSecret, r.exporterSecret.toList),
      (keyLogLabelClientEarlyTafficSecret, r.earlyTrafficSecret.toList)]

/-- The handshake traffic secrets of the record: BoringSSL stores them; OpenSSL stores the
handshake secret and the transcript hash they are derived from. -/
def handshake (hk : Hkdf) (H : Hash) : KernelRecord → List (Bytes × Bytes)
  | openssl r =>
    if isZeroBytes r.handshakeSecret.toList ∨ isZeroBytes r.handshakeTrafficHash.toList then []
    else
      let derive (label : Bytes) : Bytes :=
        expandLabel hk (r.handshakeSecret.toList.take (hashSize H)) label
          (r.handshakeTrafficHash.toList.take (hashSize H)) (hashSize H) H
      [(keyLogLabelClientHandshake, derive clientHandshakeTrafficLabel),
        (keyLogLabelServerHandshake, derive serverHandshakeTrafficLabel)]
  | boringssl r =>
    [(keyLogLabelClientHandshake, r.clientHandshakeSecret.toList.take (hashSize H)),
      (keyLogLabelServerHandshake, r.serverHandshakeSecret.toList.take (hashSize H))]

/-- The event the decoder makes of the record. -/
def event : KernelRecord → Events.OpenSSL.MasterSecretEvent
  | openssl r =>
    ⟨r.version, r.clientRandom, r.masterKey, r.cipherId, r.earlySecret, r.handshakeSecret,
      r.handshakeTrafficHash, r.clientAppTrafficSecret, r.serverAppTrafficSecret,
      r.exporterMasterSecret⟩
  | boringssl r =>
    ⟨r.version, r.clientRandom, r.secret, r.hashLen, r.earlyTrafficSecret,
      r.clientHandshakeSecret, r.serverHandshakeSecret, r.clientTrafficSecret0,
      r.serverTrafficSecret0, r.exporterSecret⟩

end KernelRecord

open KernelRecord

/-- From the perf record, with whatever the ring appends, to the key log. -/
def logRecord (hk : Hkdf) (order : MapOrder) (k : KernelRecord) (pad : Bytes)
    (h : KeylogHandler) : KeylogHandler :=
  match MasterSecretEvent.decode (k.bytes ++ pad) with
  | .ok e => (handle hk always order (.masterSecret e.keylogEvent) h).2
  | .error _ => h

/-- What a key log has to say of a handshake with hash `H`: a line for a traffic or exporter
secret carries its first `hashSize H` bytes, and a handshake traffic secret that is present is
logged under its label. -/
def LogsHashLength (hk : Hkdf) (order : MapOrder) (k : KernelRecord) (H : Hash) (pad : Bytes)
    (h : KeylogHandler) : Prop :=
  ∃ added, (logRecord hk order k pad h).writer.lines = h.writer.lines ++ added ∧
    (∀ s ∈ k.direct, ∀ value, keylogLine s.1 k.clientRandom value ∈ added →
      value = s.2.take (hashSize H)) ∧
    ∀ s ∈ k.handshake hk H, isZeroBytes s.2 = false →
      dedupKey s.1 k.clientRandom ∉ h.seenKeys → keylogLine s.1 k.clientRandom s.2 ∈ added

/-- The three suites of the switch in `handleTLS13`. -/
def knownSuite : KernelRecord → Prop
  | .openssl r => suite r = 0x1301 ∨ suite r = 0x1302 ∨ suite r = 0x1303
  | .boringssl _ => False

/-- No secret of the record would give a new line. -/
def Quiet (hk : Hkdf) (k : KernelRecord) (H : Hash) (h : KeylogHandler) : Prop :=
  ∀ s ∈ k.direct ++ k.handshake hk H,
    isZeroBytes s.2 = true ∨ dedupKey s.1 k.clientRandom ∈ h.seenKeys

theorem decode_observed {k : KernelRecord} {H : Hash} (seen : k.Observed H) (pad : Bytes) :
    MasterSecretEvent.decode (k.bytes ++ pad) = .ok k.event := by
  have read : MasterSecretEvent.decodeFromBytes.run (k.bytes ++ pad) = .ok k.event := by
    cases k <;> exact decodeFromBytes_layout ..
  have version : k.event.version = tls13Version := by
    have := seen.tls13
    cases k <;> exact this
  have random : k.event.clientRandom.toList.all (· == 0) = false := by
    have := seen.random
    cases k <;> exact this
  have valid : k.event.validate = .ok () := by
    unfold MasterSecretEvent.validate
    rw [version, random]
    rfl
  rw [MasterSecretEvent.decode, read]
  change (do k.event.validate; pure k.event : Except Error _) = _
  rw [valid]
  rfl

/-- The secrets the handler sees in a record, and the length it cuts them to. -/
theorem secrets_event {k : KernelRecord} {H : Hash} (hk : Hkdf) (seen : k.Observed H) :
    (knownSuite k ∧ (suiteParams k.event.cipherId).1 = hashSize H ∧
      secrets hk k.event.keylogEvent = k.direct ++ k.handshake hk H) ∨
    (¬ knownSuite k ∧ (suiteParams k.event.cipherId).1 = 64 ∧
      secrets hk k.event.keylogEvent = k.direct) := by
  have negotiated := seen.negotiated
  cases k with
  | openssl r =>
    have params : suiteParams r.cipherId =
        if suite r = 0x1301 ∨ suite r = 0x1303 then (32, some .sha256)
        else if suite r = 0x1302 then (48, some .sha384) else (64, none) := rfl
    simp only [KernelRecord.hash, suiteHash] at negotiated
    by_cases known : suite r = 0x1301 ∨ suite r = 0x1302 ∨ suite r = 0x1303
    · refine .inl ⟨known, ?_⟩
      have suites : suiteParams r.cipherId = (hashSize H, some H) := by
        rw [params]
        rcases known with eq | eq | eq <;> simp [eq] at negotiated ⊢ <;> subst negotiated <;>
          simp [hashSize]
      refine ⟨congrArg Prod.fst suites, ?_⟩
      simp only [secrets, event, MasterSecretEvent.keylogEvent, suites, direct, handshake]
      congr 1
      simp only [Vector.length_toList]
      by_cases zero : isZeroBytes r.handshakeSecret.toList ∨
          isZeroBytes r.handshakeTrafficHash.toList
      · rw [if_pos zero, if_neg (by tauto)]
      · rw [if_neg zero, if_pos (by simp_all)]
    · refine .inr ⟨known, ?_⟩
      have suites : suiteParams r.cipherId = (64, none) := by
        rw [params, if_neg (by tauto), if_neg (by tauto)]
      refine ⟨congrArg Prod.fst suites, ?_⟩
      simp [secrets, event, MasterSecretEvent.keylogEvent, suites, direct]
  | boringssl r =>
    refine .inr ⟨id, ?_⟩
    -- the hash length stands where the handler expects the cipher id
    have suites : suiteParams r.hashLen = (64, none) := by
      simp only [KernelRecord.hash] at negotiated
      split at negotiated
      case isTrue eq => rw [eq]; rfl
      case isFalse =>
        split at negotiated
        case isTrue eq => rw [eq]; rfl
        case isFalse => cases negotiated
    refine ⟨congrArg Prod.fst suites, ?_⟩
    simp [secrets, event, MasterSecretEvent.keylogEvent, suites, direct]

/-- The lines a record adds. -/
theorem logRecord_adds {k : KernelRecord} {H : Hash} (hk : Hkdf) (order : MapOrder)
    (seen : k.Observed H) (pad : Bytes) (h : KeylogHandler) :
    ∃ added, (logRecord hk order k pad h).writer.lines = h.writer.lines ++ added ∧
      ∀ line, line ∈ added ↔ ∃ s ∈ secrets hk k.event.keylogEvent, s.2 ≠ [] ∧
        isZeroBytes s.2 = false ∧ dedupKey s.1 k.clientRandom ∉ h.seenKeys ∧
        line = keylogLine s.1 k.clientRandom (s.2.take (suiteParams k.event.cipherId).1) := by
  obtain ⟨added, lines, mem⟩ := handle_adds hk order (.masterSecret k.event.keylogEvent) h
  refine ⟨added, ?_, fun line => ?_⟩
  · rw [logRecord, decode_observed seen]
    exact lines
  have random : k.event.keylogEvent.clientRandom = k.clientRandom := by cases k <;> rfl
  have length : k.clientRandom.length = 32 := by cases k <;> simp [KernelRecord.clientRandom]
  have new : ¬ k.event.keylogEvent.version ≤ 0x0303 := by
    have : k.event.keylogEvent.version = tls13Version := by
      have := seen.tls13
      cases k <;> exact this
    rw [this]
    decide
  have accepted : entries hk (.masterSecret k.event.keylogEvent) =
      acceptedSecrets k.clientRandom (suiteParams k.event.cipherId).1
        (secrets hk k.event.keylogEvent) := by
    rw [entries, random, if_neg (by simp [length, ssl3RandomSize]), if_neg new,
      List.take_of_length_le (by simp [length, ssl3RandomSize])]
    rfl
  rw [mem, accepted]
  simp only [acceptedSecrets, List.mem_map, List.mem_filter, Bool.not_eq_true',
    Bool.or_eq_false_iff, List.isEmpty_eq_false_iff]
  constructor
  · rintro ⟨x, ⟨s, ⟨hs, nonempty, nonzero⟩, rfl⟩, unseen, rfl⟩
    exact ⟨s, hs, nonempty, nonzero, unseen, rfl⟩
  · rintro ⟨s, hs, nonempty, nonzero, unseen, rfl⟩
    exact ⟨_, ⟨s, ⟨hs, nonempty, nonzero⟩, rfl⟩, unseen, rfl⟩

theorem length_direct {k : KernelRecord} {s : Bytes × Bytes} (hs : s ∈ k.direct) :
    s.2.length = 64 := by
  cases k with
  | openssl r =>
    simp only [direct, List.mem_cons, List.not_mem_nil, or_false] at hs
    rcases hs with rfl | rfl | rfl | rfl <;> simp
  | boringssl r =>
    simp only [direct, List.mem_cons, List.not_mem_nil, or_false] at hs
    rcases hs with rfl | rfl | rfl | rfl <;> simp

theorem length_handshake {k : KernelRecord} {hk : Hkdf} {H : Hash} {s : Bytes × Bytes}
    (hs : s ∈ k.handshake hk H) : s.2.length = hashSize H := by
  cases k with
  | openssl r =>
    simp only [handshake] at hs
    split at hs
    · cases hs
    · simp only [List.mem_cons, List.not_mem_nil, or_false] at hs
      rcases hs with rfl | rfl <;> simp [expandLabel]
  | boringssl r =>
    simp only [handshake, List.mem_cons, List.not_mem_nil, or_false] at hs
    rcases hs with rfl | rfl <;> cases H <;> simp [hashSize]

/-- Handshake labels are not those of the other secrets. -/
theorem handshake_label {k : KernelRecord} {hk : Hkdf} {H : Hash} {s t : Bytes × Bytes}
    (hs : s ∈ k.handshake hk H) (ht : t ∈ k.direct) : s.1 ≠ t.1 := by
  have label : s.1 ∈ [keyLogLabelClientHandshake, keyLogLabelServerHandshake] := by
    cases k with
    | openssl r =>
      simp only [handshake] at hs
      split at hs
      · cases hs
      · simp only [List.mem_cons, List.not_mem_nil, or_false] at hs
        rcases hs with rfl | rfl <;> simp
    | boringssl r =>
      simp only [handshake, List.mem_cons, List.not_mem_nil, or_false] at hs
      rcases hs with rfl | rfl <;> simp
  have other : t.1 ∈ [keyLogLabelClientTraffic, keyLogLabelServerTraffic,
      keyLogLabelExporterSecret, keyLogLabelClientEarlyTafficSecret] := by
    cases k with
    | openssl r =>
      simp only [direct, List.mem_cons, List.not_mem_nil, or_false] at ht
      rcases ht with rfl | rfl | rfl | rfl <;> simp
    | boringssl r =>
      simp only [direct, List.mem_cons, List.not_mem_nil, or_false] at ht
      rcases ht with rfl | rfl | rfl | rfl <;> simp
  have apart : ∀ a ∈ [keyLogLabelClientHandshake, keyLogLabelServerHandshake],
      ∀ b ∈ [keyLogLabelClientTraffic, keyLogLabelServerTraffic, keyLogLabelExporterSecret,
        keyLogLabelClientEarlyTafficSecret], a ≠ b := by decide
  exact apart s.1 label t.1 other

theorem logs_of_knownSuite {k : KernelRecord} {H : Hash} (hk : Hkdf) (order : MapOrder)
    (seen : k.Observed H) (known : knownSuite k) (pad : Bytes) (h : KeylogHandler) :
    LogsHashLength hk order k H pad h := by
  obtain ⟨added, lines, mem⟩ := logRecord_adds hk order seen pad h
  rcases secrets_event hk seen with ⟨-, length, eq⟩ | ⟨unknown, -⟩
  · rw [length, eq] at mem
    refine ⟨added, lines, ?_, ?_⟩
    · intro s hs value written
      obtain ⟨t, ht, -, -, -, line⟩ := (mem _).mp written
      obtain ⟨labels, -, values⟩ := keylogLine_inj line
      -- one secret for each label
      have nodup := secrets_labels_nodup hk k.event.keylogEvent
      rw [eq] at nodup
      have same : s = t := List.inj_on_of_nodup_map nodup (List.mem_append_left _ hs) ht labels
      rw [values, same]
    · intro s hs nonzero unseen
      have size := length_handshake hs
      refine (mem _).mpr ⟨s, List.mem_append_right _ hs, ?_, nonzero, unseen, ?_⟩
      · rintro empty
        cases H <;> simp [empty, hashSize] at size
      · rw [List.take_of_length_le (Nat.le_of_eq size)]
  · exact absurd known unknown

/-- A record whose suite the handler does not know is logged right only if nothing of it is
logged. -/
theorem logs_iff_quiet {k : KernelRecord} {H : Hash} (hk : Hkdf) (order : MapOrder)
    (seen : k.Observed H) (unknown : ¬ knownSuite k) (pad : Bytes) (h : KeylogHandler) :
    LogsHashLength hk order k H pad h ↔ Quiet hk k H h := by
  obtain ⟨added, lines, mem⟩ := logRecord_adds hk order seen pad h
  rcases secrets_event hk seen with ⟨known, -⟩ | ⟨-, length, eq⟩
  · exact absurd known unknown
  rw [length, eq] at mem
  constructor
  · rintro ⟨added', lines', values, logged⟩ s hs
    obtain rfl : added' = added := List.append_cancel_left (lines'.symm.trans lines)
    by_contra new
    rw [not_or, Bool.not_eq_true] at new
    rcases List.mem_append.mp hs with hs | hs
    · -- the whole array is written, which is longer than any hash
      have size := length_direct hs
      have written : keylogLine s.1 k.clientRandom s.2 ∈ added' := by
        refine (mem _).mpr ⟨s, hs, ?_, new.1, new.2, ?_⟩
        · rintro empty
          simp [empty] at size
        · rw [List.take_of_length_le (Nat.le_of_eq size)]
      have short := congrArg List.length (values s hs s.2 written)
      rw [List.length_take, size] at short
      cases H <;> simp [hashSize] at short
    · -- the handler derives no handshake secret
      obtain ⟨t, ht, -, -, -, line⟩ := (mem _).mp (logged s hs new.1 new.2)
      exact handshake_label hs ht (keylogLine_inj line).1
  · intro quiet
    refine ⟨added, lines, ?_, ?_⟩
    · intro s hs value written
      obtain ⟨t, ht, -, nonzero, unseen, -⟩ := (mem _).mp written
      rcases quiet t (List.mem_append_left _ ht) with zero | known
      · simp [zero] at nonzero
      · exact absurd known unseen
    · intro s hs nonzero unseen
      rcases quiet s (List.mem_append_right _ hs) with zero | known
      · simp [zero] at nonzero
      · exact absurd known unseen

/-- The lines for a TLS 1.3 record carry the hash length of its suite exactly if the suite is
one of the three the handler knows by its id, or if the record has no new secret. -/
theorem key_log_hash_length (hk : Hkdf) (order : MapOrder) (k : KernelRecord) (H : Hash)
    (seen : k.Observed H) (pad : Bytes) (h : KeylogHandler) :
    LogsHashLength hk order k H pad h ↔ knownSuite k ∨ Quiet hk k H h := by
  by_cases known : knownSuite k
  · exact ⟨fun _ => .inl known, fun _ => logs_of_knownSuite hk order seen known pad h⟩
  · rw [logs_iff_quiet hk order seen known]
    simp [known]

/-- The memory of a process whose BoringSSL client has negotiated TLS 1.3 with a SHA-256
suite: `SSL` at 0x1000, `SSL3_STATE` at 0x2000. -/
def handshakeMemory : UserMemory where
  read addr n := some (Vector.ofFn fun i : Fin n =>
    let a := addr.toNat + i
    if a = 0x1010 then 0x04 else if a = 0x1011 then 0x03
    else if a = 0x1031 then 0x20
    else if 0x2030 ≤ a ∧ a < 0x2050 then 1
    else if 0x2120 ≤ a ∧ a < 0x2140 then 7
    else if 0x2150 ≤ a ∧ a < 0x2170 then 9
    else if a = 0x21B1 then 32
    else 0)

/-- The key log handler writes 64 bytes of a 32-byte BoringSSL traffic secret. -/
theorem key_log_hash_length_bssl :
    ∃ r, uretprobeBsslDoHandshake boringsslNa handshakeMemory true 1 (some 0x1000) = some r ∧
      (KernelRecord.boringssl r).Observed .sha256 ∧
      ∀ hk order, ¬ LogsHashLength hk order (.boringssl r) .sha256 [] newKeylogHandler := by
  obtain ⟨r, ran, tls13, random, len, secret⟩ :
      ∃ r ∈ uretprobeBsslDoHandshake boringsslNa handshakeMemory true 1 (some 0x1000),
        r.version = tls13Version ∧ isZeroBytes r.clientRandom.toList = false ∧ r.hashLen = 32 ∧
          isZeroBytes r.clientTrafficSecret0.toList = false := by decide +kernel
  have seen : (KernelRecord.boringssl r).Observed .sha256 := by
    refine ⟨tls13, random, by simp [KernelRecord.hash, len], ?_⟩
    rintro r' ⟨⟩
    exact ⟨_, _, _, ran⟩
  refine ⟨r, ran, seen, fun hk order => ?_⟩
  rw [logs_iff_quiet hk order seen id]
  intro quiet
  have zero := quiet (keyLogLabelClientTraffic, r.clientTrafficSecret0.toList) (by simp [direct])
  simp [secret, newKeylogHandler] at zero

/-- An OpenSSL record with TLS_AES_128_GCM_SHA256 and a client traffic secret. -/
def aes128Record : MastersecretT :=
  ⟨0x0304, Vector.replicate 32 1, zeros 48, 0x03001301, zeros 64, zeros 64, zeros 64,
    Vector.replicate 64 9, zeros 64, zeros 64⟩

theorem key_log_hash_length_aes128 :
    (KernelRecord.openssl aes128Record).Observed .sha256 ∧
      LogsHashLength ⟨fun _ _ _ n => Vector.replicate n 0⟩ ⟨id, fun _ => .refl _⟩
        (.openssl aes128Record) .sha256 [0, 0, 0, 0] newKeylogHandler := by
  have seen : (KernelRecord.openssl aes128Record).Observed .sha256 :=
    ⟨rfl, by decide +kernel, by decide +kernel, by rintro _ ⟨⟩⟩
  exact ⟨seen, (key_log_hash_length _ _ _ _ seen _ _).mpr (.inl (.inl (by decide +kernel)))⟩

end ECapture.Keylog
