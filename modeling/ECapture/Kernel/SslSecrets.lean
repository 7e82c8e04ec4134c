import ECapture.Kernel.Secrets

/-!
# Secrets of an OpenSSL connection

`probe_ssl_master_key`, the program that runs when a connection writes:
`kern/openssl_masterkey.h` for OpenSSL 1.x, `openssl_masterkey_3.0.h` and
`openssl_masterkey_3.2.h`. The first reads the client random behind a pointer, the other two, which
differ in the names of their offsets, read it from the connection itself.

A `Connection` is what the program is after. It emits a record exactly for a connection that is in
the memory of the process, and the record says no more than the connection does.
-/

namespace ECapture.Kernel.SslSecrets
open Library

/-! ## The program -/

/-- The offsets of one OpenSSL version. `s3` is `SSL_ST_S3` in 1.x, where `clientRandom` is
`SSL3_STATE_ST_CLIENT_RANDOM`; later it is `none`, and `clientRandom` is an offset in the
connection. -/
structure Offsets where
  version : UInt64
  session : UInt64
  s3 : Option UInt64
  clientRandom : UInt64
  masterKey : UInt64
  cipher : UInt64
  sessionCipherId : UInt64
  cipherId : UInt64
  earlySecret : UInt64
  handshakeSecret : UInt64
  handshakeTrafficHash : UInt64
  clientAppTrafficSecret : UInt64
  serverAppTrafficSecret : UInt64
  exporterMasterSecret : UInt64

/-- `make_event`: the array element that it copies is never written. -/
def makeEvent : MastersecretT :=
  ⟨0, zeros 32, zeros 48, 0, zeros 64, zeros 64, zeros 64, zeros 64, zeros 64, zeros 64⟩

def readPtr (mem : UserMemory) (addr : UInt64) : Option UInt64 :=
  (mem.read addr 8).map fun v => UInt64.ofNat (leNat v.toList)

def readU32 (mem : UserMemory) (addr : UInt64) : Option UInt32 :=
  (mem.read addr 4).map fun v => UInt32.ofNat (leNat v.toList)

def readClientRandom (off : Offsets) (mem : UserMemory) (ssl : UInt64) :
    Option (Vector UInt8 32) :=
  match off.s3 with
  | some s3 => do
    let address ← readPtr mem (ssl + s3)
    mem.read (address + off.clientRandom) 32
  | none => mem.read (ssl + off.clientRandom) 32

/-- The id in the cipher, or the one in the session where there is no pointer to a cipher. -/
def readCipherId (off : Offsets) (mem : UserMemory) (session : UInt64) : Option UInt32 :=
  match readPtr mem (session + off.cipher) with
  | none => readU32 mem (session + off.sessionCipherId)
  | some address =>
    if address = 0 then readU32 mem (session + off.sessionCipherId)
    else readU32 mem (address + off.cipherId)

/-- The end of the program, for TLS 1.3. The read of the early secret may fail and leave zeros. -/
def readTls13 (off : Offsets) (mem : UserMemory) (ssl session : UInt64)
    (clientRandom : Vector UInt8 32) : Option MastersecretT := do
  let cipherId ← readCipherId off mem session
  let earlySecret := (mem.probeRead (ssl + off.earlySecret) 64).2
  let handshakeSecret ← mem.read (ssl + off.handshakeSecret) 64
  let handshakeTrafficHash ← mem.read (ssl + off.handshakeTrafficHash) 64
  let clientAppTrafficSecret ← mem.read (ssl + off.clientAppTrafficSecret) 64
  let serverAppTrafficSecret ← mem.read (ssl + off.serverAppTrafficSecret) 64
  let exporterMasterSecret ← mem.read (ssl + off.exporterMasterSecret) 64
  return { makeEvent with
    version := tls13Version, clientRandom, cipherId, earlySecret, handshakeSecret,
    handshakeTrafficHash, clientAppTrafficSecret, serverAppTrafficSecret, exporterMasterSecret }

/-- A failed read ends the program. -/
def probeSslMasterKey (off : Offsets) (mem : UserMemory) (passesFilter : Bool) (ssl : UInt64) :
    Option MastersecretT :=
  if !passesFilter then none
  else do
    let version := (← readU32 mem (ssl + off.version)).toInt32
    let clientRandom ← readClientRandom off mem ssl
    let session ← readPtr mem (ssl + off.session)
    if version ≠ tls13Version then
      let masterKey ← mem.read (session + off.masterKey) 48
      return { makeEvent with version, clientRandom, masterKey }
    else
      readTls13 off mem ssl session clientRandom

/-! ## Connections -/

/-- The secrets of TLS 1.3. -/
structure Tls13 where
  cipherId : UInt32
  /-- Absent where the connection cannot have early data. -/
  earlySecret : Option (Vector UInt8 64)
  handshakeSecret : Vector UInt8 64
  handshakeTrafficHash : Vector UInt8 64
  clientAppTrafficSecret : Vector UInt8 64
  serverAppTrafficSecret : Vector UInt8 64
  exporterMasterSecret : Vector UInt8 64

inductive Secrets where
  | tls12 (version : Int32) (masterKey : Vector UInt8 48) (old : version ≠ tls13Version)
  | tls13 (secrets : Tls13)

structure Connection where
  clientRandom : Vector UInt8 32
  secrets : Secrets

namespace Connection

def version (conn : Connection) : Int32 :=
  match conn.secrets with
  | .tls12 version _ _ => version
  | .tls13 _ => tls13Version

/-- A connection has nothing in the fields of the other protocol versions. -/
def record (conn : Connection) : MastersecretT :=
  match conn.secrets with
  | .tls12 version masterKey _ =>
    { makeEvent with version, clientRandom := conn.clientRandom, masterKey }
  | .tls13 s =>
    { version := tls13Version
      clientRandom := conn.clientRandom
      masterKey := zeros 48
      cipherId := s.cipherId
      earlySecret := s.earlySecret.getD (zeros 64)
      handshakeSecret := s.handshakeSecret
      handshakeTrafficHash := s.handshakeTrafficHash
      clientAppTrafficSecret := s.clientAppTrafficSecret
      serverAppTrafficSecret := s.serverAppTrafficSecret
      exporterMasterSecret := s.exporterMasterSecret }

end Connection

end ECapture.Kernel.SslSecrets
