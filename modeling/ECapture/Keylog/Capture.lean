import ECapture.Kernel.SslCalls
import ECapture.Kernel.SslSecrets
import ECapture.Keylog.HashLength

/-!
# From connections to the key log

`probe_ssl_master_key` runs whenever a connection of a traced process writes. What it emits goes
over the ring, which keeps no order between CPUs, may lose records and may add bytes to them, to
`MasterSecretEvent.DecodeFromBytes` and to the key log handler. The lines of the key log are the
secrets that connections have held, one for each label and client random.
-/

namespace ECapture.Keylog
open Library Kernel Events.OpenSSL SslSecrets

/-! ## The way of a record -/

/-- A run of `probe_ssl_master_key`. -/
structure Hit where
  ctx : Ssl.Ctx
  /-- The connection. -/
  parm1 : UInt64

def Hit.record (c : Consts) (off : SslSecrets.Offsets) (hit : Hit) : Option MastersecretT :=
  probeSslMasterKey off hit.ctx.mem (passesFilter c hit.ctx.task) hit.parm1

/-- A record as the reader loop gets it, with the order in which `handleTLS13` visits its map. -/
structure Received where
  record : MastersecretT
  pad : Bytes
  order : MapOrder

/-- The secrets of a handshake, for a suite whose hash is known. -/
def derived (hk : Hkdf) (s : Tls13) : List (Bytes × Bytes) :=
  match suiteParams s.cipherId with
  | (_, none) => []
  | (length, some transcript) =>
    if isZeroBytes s.handshakeSecret.toList ∨ isZeroBytes s.handshakeTrafficHash.toList then []
    else
      let derive (label : Bytes) : Bytes :=
        expandLabel hk (s.handshakeSecret.toList.take length) label
          (s.handshakeTrafficHash.toList.take length) length transcript
      [(keyLogLabelClientHandshake, derive clientHandshakeTrafficLabel),
        (keyLogLabelServerHandshake, derive serverHandshakeTrafficLabel)]

/-- A connection of TLS 1.0 to 1.3 that has a client random. -/
def Started (conn : Connection) : Prop :=
  0x0301 ≤ conn.version ∧ conn.version ≤ 0x0304 ∧ isZeroBytes conn.clientRandom.toList = false

instance (conn : Connection) : Decidable (Started conn) := inferInstanceAs (Decidable (_ ∧ _))

def event (r : MastersecretT) : Events.OpenSSL.MasterSecretEvent := (KernelRecord.openssl r).event

theorem decode_record (conn : Connection) (pad : Bytes) :
    (Started conn → MasterSecretEvent.decode (conn.record.bytes ++ pad) = .ok (event conn.record)) ∧
      (¬ Started conn →
        ∃ err, MasterSecretEvent.decode (conn.record.bytes ++ pad) = .error err) := by
  have read : MasterSecretEvent.decodeFromBytes.run (conn.record.bytes ++ pad) =
      .ok (event conn.record) := decodeFromBytes_layout ..
  have version : (event conn.record).version = conn.version := by
    obtain ⟨random, secrets⟩ := conn
    cases secrets <;> rfl
  have random : (event conn.record).clientRandom = conn.clientRandom := by
    obtain ⟨random, secrets⟩ := conn
    cases secrets <;> rfl
  have decoded : MasterSecretEvent.decode (conn.record.bytes ++ pad) =
      (do (event conn.record).validate; pure (event conn.record)) := by
    rw [MasterSecretEvent.decode, read]
    rfl
  rw [decoded, MasterSecretEvent.validate, version, random]
  constructor
  · rintro ⟨low, high, nonzero⟩
    rw [if_neg (by simp only [not_or, Int32.not_lt]; exact ⟨low, high⟩),
      if_neg (by simpa [isZeroBytes] using nonzero)]
    rfl
  · intro stopped
    split
    case isTrue => exact ⟨_, rfl⟩
    case isFalse inRange =>
      split
      case isTrue => exact ⟨_, rfl⟩
      case isFalse nonzero =>
        simp only [not_or, Int32.not_lt] at inRange
        exact absurd ⟨inRange.1, inRange.2, by simpa [isZeroBytes] using nonzero⟩ stopped

def Received.event (x : Received) : Option (KeylogEvent × MapOrder) :=
  match MasterSecretEvent.decode (x.record.bytes ++ x.pad) with
  | .ok e => some (.masterSecret e.keylogEvent, x.order)
  | .error _ => none

theorem handleAll_append (hk : Hkdf) (xs ys : List (KeylogEvent × MapOrder)) (h : KeylogHandler) :
    handleAll hk always (xs ++ ys) h = handleAll hk always ys (handleAll hk always xs h) := by
  induction xs generalizing h with
  | nil => rfl
  | cons x xs ih => exact ih _

end ECapture.Keylog
