import ECapture.Library.Reader

/-!
# Master secret records of the kernel programs

`mastersecret_t` of `kern/include/openssl_masterkey_common.h` and `mastersecret_bssl_t` of
`kern/boringssl_masterkey.h`, with `uretprobe_bssl_do_handshake`. Both structs have the same
offsets and no alignment holes, and both are emitted on `mastersecret_events`.

A read of user memory may fail; the kernel then fills the destination with zeros.
-/

namespace ECapture.Kernel
open Library

structure MastersecretT where
  version : Int32
  clientRandom : Vector UInt8 32
  masterKey : Vector UInt8 48
  cipherId : UInt32
  earlySecret : Vector UInt8 64
  handshakeSecret : Vector UInt8 64
  handshakeTrafficHash : Vector UInt8 64
  clientAppTrafficSecret : Vector UInt8 64
  serverAppTrafficSecret : Vector UInt8 64
  exporterMasterSecret : Vector UInt8 64

structure MastersecretBssl where
  version : Int32
  clientRandom : Vector UInt8 32
  secret : Vector UInt8 48
  hashLen : UInt32
  earlyTrafficSecret : Vector UInt8 64
  clientHandshakeSecret : Vector UInt8 64
  serverHandshakeSecret : Vector UInt8 64
  clientTrafficSecret0 : Vector UInt8 64
  serverTrafficSecret0 : Vector UInt8 64
  exporterSecret : Vector UInt8 64

def zeros (n : Nat) : Vector UInt8 n := Vector.replicate n 0

/-- The memory of either struct. -/
def layout (version : Int32) (random : Vector UInt8 32) (key : Vector UInt8 48) (word : UInt32)
    (secrets : List (Vector UInt8 64)) : Bytes :=
  leBytes 4 version.toUInt32.toNat ++ (random.toList ++ (key.toList ++
    (leBytes 4 word.toNat ++ secrets.flatMap Vector.toList)))

def MastersecretT.bytes (r : MastersecretT) : Bytes :=
  layout r.version r.clientRandom r.masterKey r.cipherId
    [r.earlySecret, r.handshakeSecret, r.handshakeTrafficHash, r.clientAppTrafficSecret,
      r.serverAppTrafficSecret, r.exporterMasterSecret]

def MastersecretBssl.bytes (r : MastersecretBssl) : Bytes :=
  layout r.version r.clientRandom r.secret r.hashLen
    [r.earlyTrafficSecret, r.clientHandshakeSecret, r.serverHandshakeSecret,
      r.clientTrafficSecret0, r.serverTrafficSecret0, r.exporterSecret]

/-! ## The BoringSSL return probe -/

/-- The memory of the traced process. -/
structure UserMemory where
  read : UInt64 → (n : Nat) → Option (Vector UInt8 n)

/-- `bpf_probe_read_user`: whether it succeeded, and the destination after it. -/
def UserMemory.probeRead (mem : UserMemory) (addr : UInt64) (n : Nat) : Bool × Vector UInt8 n :=
  match mem.read addr n with
  | some v => (true, v)
  | none => (false, zeros n)

def UserMemory.probeReadU64 (mem : UserMemory) (addr : UInt64) : Bool × UInt64 :=
  let (ok, v) := mem.probeRead addr 8
  (ok, UInt64.ofNat (leNat v.toList))

def UserMemory.probeReadInt (mem : UserMemory) (addr : UInt64) : UInt32 :=
  UInt32.ofNat (leNat (mem.probeRead addr 4).2.toList)

/-- The offsets of one BoringSSL build. `versions` is set where `SSL_SESSION_ST_SSL_VERSION` is
defined: `BSSL__SSL3_STATE_VERSION` and that offset. -/
structure BsslOffsets where
  sslStS3 : UInt64
  sslStVersion : UInt64
  sslStSession : UInt64
  versions : Option (UInt64 × UInt64)
  establishedSession : UInt64
  sessionSecret : UInt64
  serverTrafficSecret0 : UInt64
  clientTrafficSecret0 : UInt64
  clientTrafficSecret0Len : UInt64
  exporterSecret : UInt64

/-- `boringssl_na_kern.c`, with the defaults of `boringssl_masterkey.h`. -/
def boringsslNa : BsslOffsets :=
  { sslStS3 := 0x30, sslStVersion := 0x10, sslStSession := 0x58, versions := none,
    establishedSession := 0x1d0, sessionSecret := 0xb, serverTrafficSecret0 := 0x120,
    clientTrafficSecret0 := 0x150, clientTrafficSecret0Len := 0x1B1, exporterSecret := 0x180 }

def untagPtr (p : UInt64) : UInt64 := p &&& 0x00FFFFFFFFFFFFFF

def tls12Version : Int32 := 0x0303
def tls13Version : Int32 := 0x0304

/-- `make_event`: a copy of the zero-initialised array element. -/
def makeEvent : MastersecretBssl :=
  ⟨0, zeros 32, zeros 48, 0, zeros 64, zeros 64, zeros 64, zeros 64, zeros 64, zeros 64⟩

/-- `ssl_version & 0xFFFF` in the signed field. -/
def lowVersion (v : UInt32) : Int32 := (v &&& 0xFFFF).toInt32

/-- The label `tls13_path`. -/
def tls13Path (off : BsslOffsets) (mem : UserMemory) (s3 : UInt64) (ms : MastersecretBssl) :
    MastersecretBssl :=
  let clen := (mem.probeRead (s3 + off.clientTrafficSecret0Len) 1).2.get ⟨0, Nat.zero_lt_one⟩
  { ms with
    hashLen := if clen ≠ 0 then clen.toUInt32 else 32
    serverTrafficSecret0 := (mem.probeRead (s3 + off.serverTrafficSecret0) 64).2
    clientTrafficSecret0 := (mem.probeRead (s3 + off.clientTrafficSecret0) 64).2
    exporterSecret := (mem.probeRead (s3 + off.exporterSecret) 64).2 }

/-- The TLS 1.2 block, once a session has been found. -/
def tls12Path (off : BsslOffsets) (mem : UserMemory) (s3 session : UInt64)
    (ms : MastersecretBssl) : Option MastersecretBssl :=
  let session := untagPtr session
  let ms :=
    match off.versions with
    | some (_, sessionVersion) =>
      { ms with version := lowVersion (mem.probeReadInt (session + sessionVersion)) }
    | none => ms
  if off.versions.isSome ∧ ms.version = tls13Version then some (tls13Path off mem s3 ms)
  else
    let (ok, secret) := mem.probeRead (session + off.sessionSecret) 48
    if ok then
      some { ms with
        version := if ms.version = 0 then tls12Version else ms.version
        hashLen := 48
        secret := secret }
    else none

/-- The return probe: the filter's answer, the return value of `SSL_do_handshake` and what the
entry probe left in `bssl_do_handshake_map` come from outside. -/
def uretprobeBsslDoHandshake (off : BsslOffsets) (mem : UserMemory) (passesFilter : Bool)
    (retVal : Int32) (sslPtr : Option UInt64) : Option MastersecretBssl :=
  if !passesFilter ∨ retVal ≠ 1 then none
  else
    match sslPtr with
    | none => none
    | some ssl =>
      let (ok, s3) := mem.probeReadU64 (ssl + off.sslStS3)
      if !ok ∨ s3 = 0 then none
      else
        let s3 := untagPtr s3
        -- read_sequence, write_sequence, server_random, client_random
        let (ok, ssl3Stat) := mem.probeRead s3 80
        if !ok then none
        else
          let random : Vector UInt8 32 := (ssl3Stat.extract 48 80).cast (by omega)
          let versionAddr :=
            match off.versions with
            | none => ssl + off.sslStVersion
            | some (stateVersion, _) => s3 + stateVersion
          let ms := { makeEvent with
            clientRandom := random
            version := lowVersion (mem.probeReadInt versionAddr) }
          if ms.version = tls13Version then some (tls13Path off mem s3 ms)
          else
            let (ok, session) := mem.probeReadU64 (s3 + off.establishedSession)
            let (ok, session) :=
              if !ok ∨ session = 0 then mem.probeReadU64 (ssl + off.sslStSession)
              else (ok, session)
            if !ok ∨ session = 0 then
              -- no session: the version may be wrong
              if ms.version = 0 then
                some (tls13Path off mem s3 { ms with version := tls13Version })
              else none
            else tls12Path off mem s3 session ms

end ECapture.Kernel
