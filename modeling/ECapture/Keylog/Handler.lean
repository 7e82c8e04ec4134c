import ECapture.Errors

/-!
# The key log handler

`KeylogHandler` of `internal/probe/base/handlers/keylog_handler.go` with `ExpandLabel` of
`pkg/util/hkdf`. One handler receives master secret events of three shapes and writes NSS
key log lines, at most one for each label and client random: what has been written is
remembered in `seenKeys` under a string key.

The output writer may fail. Its calls are numbered and `ok n` says whether call `n`
succeeds; a failing `Write` writes nothing. The `secrets` map of a TLS 1.3 event is visited
in the order a `MapOrder` gives.
-/

namespace ECapture.Keylog
open Library

def ssl3RandomSize : Nat := 32
def masterSecretMaxLen : Nat := 48
def evpMaxMdSize : Nat := 64

def keyLogLabelTLS12 : Bytes := str "CLIENT_RANDOM"
def keyLogLabelClientHandshake : Bytes := str "CLIENT_HANDSHAKE_TRAFFIC_SECRET"
def keyLogLabelServerHandshake : Bytes := str "SERVER_HANDSHAKE_TRAFFIC_SECRET"
def keyLogLabelClientTraffic : Bytes := str "CLIENT_TRAFFIC_SECRET_0"
def keyLogLabelServerTraffic : Bytes := str "SERVER_TRAFFIC_SECRET_0"
def keyLogLabelExporterSecret : Bytes := str "EXPORTER_SECRET"
def keyLogLabelClientEarlyTafficSecret : Bytes := str "CLIENT_EARLY_TRAFFIC_SECRET"

def clientHandshakeTrafficLabel : Bytes := str "c hs traffic"
def serverHandshakeTrafficLabel : Bytes := str "s hs traffic"

def tlsAes128GcmSha256 : UInt16 := 0x1301
def tlsAes256GcmSha384 : UInt16 := 0x1302
def tlsChacha20Poly1305Sha256 : UInt16 := 0x1303

/-- The two values of `crypto.Hash` the handler uses. -/
inductive Hash where
  | sha256
  | sha384
  deriving DecidableEq, Repr

/-- `golang.org/x/crypto/hkdf.Expand` followed by a `Read` of `n` bytes. -/
structure Hkdf where
  expand : Hash → (secret info : Bytes) → (n : Nat) → Vector UInt8 n

/-- `HkdfLabel` of RFC 8446: the length, then the label and the context with a length byte
each. -/
def hkdfLabel (label context : Bytes) (length : Nat) : Bytes :=
  let name := str "tls13 " ++ label
  [UInt8.ofNat (length / 256), UInt8.ofNat length] ++
    UInt8.ofNat name.length :: name ++ UInt8.ofNat (context.take length).length ::
      context.take length

def expandLabel (h : Hkdf) (secret label context : Bytes) (length : Nat) (transcript : Hash) :
    Bytes :=
  (h.expand transcript (secret.take length) (hkdfLabel label context length) length).toList

/-! ## Events -/

/-- `MasterSecretEvent`: what the getters return. The secrets are the
`[EvpMaxMdSize]byte` arrays of the one type that implements the interface. -/
structure MasterSecretEvent where
  version : Int32
  clientRandom : Bytes
  masterKey : Bytes
  cipherId : UInt32
  earlySecret : Vector UInt8 64
  handshakeSecret : Vector UInt8 64
  handshakeTrafficHash : Vector UInt8 64
  clientAppTrafficSecret : Vector UInt8 64
  serverAppTrafficSecret : Vector UInt8 64
  exporterMasterSecret : Vector UInt8 64

/-- `GoTLSMasterSecretEvent`: a label of any bytes, and values of any length. -/
structure GoTLSMasterSecretEvent where
  label : Bytes
  clientRandom : Bytes
  secret : Bytes

/-- The type switch of `Handle`; `other` is an event with neither interface. -/
inductive KeylogEvent where
  | goTLS (e : GoTLSMasterSecretEvent)
  | masterSecret (e : MasterSecretEvent)
  | other

/-! ## State -/

structure OutputWriter where
  lines : List Bytes
  calls : Nat

structure KeylogHandler where
  writer : OutputWriter
  seenKeys : List Bytes

/-- `NewKeylogHandler` over a writer that has written nothing. -/
def newKeylogHandler : KeylogHandler := ⟨⟨[], 0⟩, []⟩

/-- `writer.Write`, with whether it succeeded. -/
def KeylogHandler.write (h : KeylogHandler) (ok : Nat → Bool) (line : Bytes) :
    Bool × KeylogHandler :=
  let w := h.writer
  if ok w.calls then (true, { h with writer := ⟨w.lines ++ [line], w.calls + 1⟩ })
  else (false, { h with writer := { w with calls := w.calls + 1 } })

/-- `writer.Flush`. -/
def KeylogHandler.flush (h : KeylogHandler) (ok : Nat → Bool) : Bool × KeylogHandler :=
  (ok h.writer.calls, { h with writer := { h.writer with calls := h.writer.calls + 1 } })

/-- `h.seenKeys[dedupKey] = true`. -/
def KeylogHandler.mark (h : KeylogHandler) (dedupKey : Bytes) : KeylogHandler :=
  { h with seenKeys := dedupKey :: h.seenKeys }

abbrev Result := Except Error Unit × KeylogHandler

def isZeroBytes (data : Bytes) : Bool := data.all (· == 0)

/-- `fmt.Sprintf("%s_%x", label, clientRandom)`. -/
def dedupKey (label clientRandom : Bytes) : Bytes := label ++ str "_" ++ hex clientRandom

/-- `fmt.Sprintf("%s %x %x", label, clientRandom, secret)`. -/
def keylogLine (label clientRandom secret : Bytes) : Bytes :=
  label ++ str " " ++ hex clientRandom ++ str " " ++ hex secret

/-- The cause of a failed call is the writer's own error. -/
def writerError : Error := .text (str "write failed")

def failWrite (h : KeylogHandler) : Result :=
  (.error (.wrap .eventDispatch (str "failed to write keylog entry") writerError), h)

/-! ## The three handlers -/

def handleTLS12 (ok : Nat → Bool) (event : MasterSecretEvent) (h : KeylogHandler) : Result :=
  let clientRandom := event.clientRandom
  let masterKey := event.masterKey
  if clientRandom.length < ssl3RandomSize then
    (.error (.new .eventValidation
      (str "client random too short: " ++ dec clientRandom.length ++ str " bytes")), h)
  else if masterKey.length < masterSecretMaxLen then
    (.error (.new .eventValidation
      (str "master key too short: " ++ dec masterKey.length ++ str " bytes")), h)
  else if isZeroBytes (masterKey.take masterSecretMaxLen) then (.ok (), h)
  else
    let line := keylogLine keyLogLabelTLS12 (clientRandom.take ssl3RandomSize)
      (masterKey.take masterSecretMaxLen)
    let key := dedupKey keyLogLabelTLS12 (clientRandom.take ssl3RandomSize)
    if key ∈ h.seenKeys then (.ok (), h)
    else
      match h.write ok line with
      | (false, h) => failWrite h
      | (true, h) =>
        match h.flush ok with
        | (false, h) =>
          (.error (.wrap .eventDispatch (str "failed to flush keylog entry") writerError), h)
        | (true, h) => (.ok (), h.mark key)

def handleGoTLS (ok : Nat → Bool) (event : GoTLSMasterSecretEvent) (h : KeylogHandler) :
    Result :=
  if event.label = [] then (.error (.new .eventValidation (str "label is empty")), h)
  else if event.clientRandom.length = 0 then
    (.error (.new .eventValidation (str "client random is empty")), h)
  else if event.secret.length = 0 then
    (.error (.new .eventValidation (str "secret is empty")), h)
  else if isZeroBytes event.secret then (.ok (), h)
  else
    let line := keylogLine event.label event.clientRandom event.secret
    let key := dedupKey event.label event.clientRandom
    if key ∈ h.seenKeys then (.ok (), h)
    else
      match h.write ok line with
      | (false, h) => failWrite h
      | (true, h) => (.ok (), h.mark key)

/-- The cipher switch of `handleTLS13`: the length secrets are cut to, and the transcript
hash; an unknown suite cuts nothing and has no hash. -/
def suiteParams (cipherId : UInt32) : Nat × Option Hash :=
  let suite := (cipherId &&& 0x0000FFFF).toUInt16
  if suite = tlsAes128GcmSha256 ∨ suite = tlsChacha20Poly1305Sha256 then (32, some .sha256)
  else if suite = tlsAes256GcmSha384 then (48, some .sha384)
  else (evpMaxMdSize, none)

/-- The `secrets` map of `handleTLS13`, label to data. -/
def secrets (hk : Hkdf) (event : MasterSecretEvent) : List (Bytes × Bytes) :=
  let (length, transcript) := suiteParams event.cipherId
  let handshakeSecret := event.handshakeSecret.toList
  let handshakeTrafficHash := event.handshakeTrafficHash.toList
  [(keyLogLabelClientTraffic, event.clientAppTrafficSecret.toList),
   (keyLogLabelServerTraffic, event.serverAppTrafficSecret.toList),
   (keyLogLabelExporterSecret, event.exporterMasterSecret.toList),
   (keyLogLabelClientEarlyTafficSecret, event.earlySecret.toList)] ++
  match transcript with
  | none => []
  | some transcript =>
    if handshakeSecret.length ≠ 0 ∧ ¬ isZeroBytes handshakeSecret ∧
        handshakeTrafficHash.length ≠ 0 ∧ ¬ isZeroBytes handshakeTrafficHash then
      [(keyLogLabelClientHandshake, expandLabel hk (handshakeSecret.take length)
          clientHandshakeTrafficLabel (handshakeTrafficHash.take length) length transcript),
       (keyLogLabelServerHandshake, expandLabel hk (handshakeSecret.take length)
          serverHandshakeTrafficLabel (handshakeTrafficHash.take length) length transcript)]
    else []

/-- An order in which the runtime may visit the entries of a map. -/
structure MapOrder where
  visit : List (Bytes × Bytes) → List (Bytes × Bytes)
  perm : ∀ entries, (visit entries).Perm entries

/-- The `range secrets` loop of `handleTLS13`. -/
def writeSecrets (ok : Nat → Bool) (clientRandom : Bytes) (length : Nat) :
    List (Bytes × Bytes) → KeylogHandler → Result
  | [], h => (.ok (), h)
  | (label, data) :: rest, h =>
    if data.length = 0 ∨ isZeroBytes data then writeSecrets ok clientRandom length rest h
    else
      let key := dedupKey label clientRandom
      if key ∈ h.seenKeys then writeSecrets ok clientRandom length rest h
      else
        match h.write ok (keylogLine label clientRandom (data.take length)) with
        | (false, h) =>
          (.error (.wrap .eventDispatch (str "failed to write " ++ label) writerError), h)
        | (true, h) => writeSecrets ok clientRandom length rest (h.mark key)

def handleTLS13 (hk : Hkdf) (ok : Nat → Bool) (order : MapOrder) (event : MasterSecretEvent)
    (h : KeylogHandler) : Result :=
  if event.clientRandom.length < ssl3RandomSize then
    (.error (.new .eventValidation
      (str "client random too short: " ++ dec event.clientRandom.length ++ str " bytes")), h)
  else
    writeSecrets ok (event.clientRandom.take ssl3RandomSize) (suiteParams event.cipherId).1
      (order.visit (secrets hk event)) h

def handle (hk : Hkdf) (ok : Nat → Bool) (order : MapOrder) (event : KeylogEvent)
    (h : KeylogHandler) : Result :=
  match event with
  | .goTLS e => handleGoTLS ok e h
  | .masterSecret e =>
    if e.version ≤ 0x0303 then handleTLS12 ok e h else handleTLS13 hk ok order e h
  | .other =>
    (.error (.new .eventValidation (str "event is not a master secret event")), h)

/-- A history of `Handle` calls, each with the map order of that call. -/
def handleAll (hk : Hkdf) (ok : Nat → Bool) :
    List (KeylogEvent × MapOrder) → KeylogHandler → KeylogHandler
  | [], h => h
  | (event, order) :: rest, h => handleAll hk ok rest (handle hk ok order event h).2

end ECapture.Keylog
