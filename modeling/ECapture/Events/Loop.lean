import ECapture.Events.GoTLS
import ECapture.Events.MySQL
import ECapture.Events.OpenSSL
import ECapture.Pcap.Writer
import ECapture.Reorder.Buffer

/-!
# From a perf record to the handlers

One iteration of `perfEventLoop` and of `perfEventLoopOrdered`
(`internal/probe/base/base_probe.go`) on a record of the OpenSSL, GoTLS or MySQL probe:
`Decode`, then `event.String()` for the debug log, then `Dispatcher.Dispatch` with the text,
key log and pcap handlers.

An event on which a `String` method or a getter is evaluated is recorded with `touch`.
-/

namespace ECapture.Events
open Library

/-! ## Events of all kinds -/

inductive Event where
  | tls (e : OpenSSL.Event)
  | conn (e : OpenSSL.ConnDataEvent)
  | masterSecret (e : OpenSSL.MasterSecretEvent)
  | packet (e : OpenSSL.PacketEvent)
  | gotls (e : GoTLS.GoTLSDataEvent)
  | gotlsSecret (e : GoTLS.MasterSecretEvent)
  | mysql (e : MySQL.Event)

/-- The perf maps of the three probes. -/
inductive PerfMap where
  | tlsEvents
  | connectEvents
  | mastersecretEvents
  | skbEvents
  | gotlsEvents
  | mastersecretGoEvents
  | mysqlEvents
  deriving DecidableEq

namespace Event

def string (host : Host) : Event → Except Fault Bytes
  | tls e => e.string host
  | conn e => .ok e.string
  | masterSecret e => .ok e.string
  | packet e => .ok e.string
  | gotls e => e.string
  | gotlsSecret e => e.string
  | mysql e => e.string

def stringHex (host : Host) : Event → Except Fault Bytes
  | tls e => e.stringHex host
  | conn e => .ok e.string
  | masterSecret e => .ok e.stringHex
  | packet e => .ok e.string
  | gotls e => e.stringHex
  | gotlsSecret e => e.stringHex
  | mysql e => e.string

def validate : Event → Except Error Unit
  | tls e => e.validate
  | conn e => e.validate
  | masterSecret e => e.validate
  | packet e => e.validate
  | gotls e => e.validate
  | gotlsSecret e => e.validate
  | mysql e => e.validate

/-- `AsMonoNsEvent` and `PerfMonoNs`. -/
def perfMonoNs : Event → Option UInt64
  | tls e => some e.timestamp
  | gotls e => some e.bpfMonoNs
  | mysql e => some e.timestamp
  | _ => none

/-- The type switch of the key log handler, with the getters it calls. -/
def keylogEvent : Event → Except Fault Keylog.KeylogEvent
  | gotlsSecret e => .goTLS <$> e.keylogEvent
  | masterSecret e => .ok (.masterSecret e.keylogEvent)
  | _ => .ok .other

end Event

/-- `Decode` of a decoder that validates. -/
def validated {α : Type} (validate : α → Except Error Unit) (wrap : α → Event)
    (decoded : Except Error α) : Except Error Event := do
  let e ← decoded
  validate e
  return wrap e

/-- `decoder.Decode` for the records of a map. -/
def decode (host : Host) (m : PerfMap) (data : Bytes) : Except Fault (Except Error Event) :=
  match m with
  | .tlsEvents => .ok (validated OpenSSL.Event.validate .tls (OpenSSL.Event.decodeFromBytes.run data))
  | .connectEvents =>
    validated OpenSSL.ConnDataEvent.validate .conn <$> OpenSSL.ConnDataEvent.decodeFromBytes data
  | .mastersecretEvents => .ok (.masterSecret <$> OpenSSL.MasterSecretEvent.decode data)
  | .skbEvents =>
    .ok (validated OpenSSL.PacketEvent.validate .packet (OpenSSL.PacketEvent.decodeFromBytes data))
  | .gotlsEvents => (fun r => .gotls <$> r) <$> GoTLS.GoTLSDataEvent.decodeFromBytes host data
  | .mastersecretGoEvents => .ok (.gotlsSecret <$> GoTLS.MasterSecretEvent.decodeFromBytes data)
  | .mysqlEvents => .ok (.mysql <$> MySQL.Event.decodeFromBytes.run data)

/-! ## Handlers -/

/-- What the handlers rely on: the host, the key derivation, the writers and the orders in which
maps are visited. -/
structure Env where
  host : Host
  hk : Keylog.Hkdf
  writerOk : Nat → Bool
  secretsOrder : Keylog.MapOrder

/-- `TextHandler` and its writer. -/
structure TextHandler where
  useHex : Bool
  output : List Bytes
  calls : Nat

inductive Handler where
  | text (h : TextHandler)
  | keylog (h : Keylog.KeylogHandler)
  | pcap (pw : Pcap.PcapWriter)

abbrev Handled := Option Error × Handler

/-- `TextHandler.Handle`. -/
def TextHandler.handle (env : Env) (event : Event) (h : TextHandler) : Traced Event Handled := do
  Traced.touch event
  let output ← Traced.lift (if h.useHex then event.stringHex env.host else event.string env.host)
  if output = [] then return (none, .text h)
  else
    let last ← Traced.lift (index (output.length - 1) output)
    let output := if last ≠ 10 then output ++ [10] else output
    if env.writerOk h.calls then
      return (none, .text { h with output := h.output ++ [output], calls := h.calls + 1 })
    else
      return (some (.wrap .eventDispatch (str "failed to write event output")
        (.text (str "write failed"))), .text { h with calls := h.calls + 1 })

/-- The slices that `KeylogHandler.Handle` takes of an event, under the conditions under which
it takes them. `Keylog.handle` works on what they give. -/
def keylogSlices (hk : Keylog.Hkdf) : Keylog.KeylogEvent → Except Fault Unit
  | .goTLS _ => .ok ()
  | .other => .ok ()
  | .masterSecret e =>
    if e.version ≤ 0x0303 then
      if e.clientRandom.length < Keylog.ssl3RandomSize ∨
          e.masterKey.length < Keylog.masterSecretMaxLen then .ok ()
      else do
        let _ ← sliceTo Keylog.masterSecretMaxLen e.masterKey
        let _ ← sliceTo Keylog.ssl3RandomSize e.clientRandom
        return ()
    else if e.clientRandom.length < Keylog.ssl3RandomSize then .ok ()
    else do
      let length := (Keylog.suiteParams e.cipherId).1
      let _ ← sliceTo Keylog.ssl3RandomSize e.clientRandom
      let _ ← sliceTo length e.handshakeSecret.toList
      let _ ← sliceTo length e.handshakeTrafficHash.toList
      (Keylog.secrets hk e).forM fun s => do
        let _ ← sliceTo length s.2
        return ()

/-- `KeylogHandler.Handle`. -/
def keylogHandle (env : Env) (event : Event) (h : Keylog.KeylogHandler) : Traced Event Handled := do
  Traced.touch event
  let e ← Traced.lift event.keylogEvent
  Traced.lift (keylogSlices env.hk e)
  let (result, h) := Keylog.handle env.hk env.writerOk env.secretsOrder e h
  return (match result with | .ok _ => none | .error err => some err, .keylog h)

/-- `PcapHandler.Handle`. -/
def pcapHandle (event : Event) (pw : Pcap.PcapWriter) : Traced Event Handled :=
  match event with
  | .packet e => do
    Traced.touch event
    if e.packetData = [] then return (none, .pcap pw)
    else
      let room := pw.packetChan.length < Pcap.packetChanCap
      let pw := pw.writePacket e.packetData e.timestamp.toInt64.toInt
      return (if room then none
        else some (.wrap .eventDispatch (str "failed to write packet to pcapng")
          (.text (str "pcap write packet channel full"))), .pcap pw)
  | _ => return (none, .pcap pw)

def Handler.handle (env : Env) (event : Event) : Handler → Traced Event Handled
  | text h => h.handle env event
  | keylog h => keylogHandle env event h
  | pcap pw => pcapHandle event pw

/-! ## Dispatcher -/

/-- The handler map, as the last `Dispatch` has visited it. -/
structure Dispatcher where
  handlers : List Handler
  closed : Bool

/-- An order in which the runtime may visit the handler map. -/
structure HandlerOrder where
  visit : List Handler → List Handler
  perm : ∀ handlers, (visit handlers).Perm handlers

/-- The `range d.handlers` loop: the count of successes, the last error and the handlers. -/
def handleEach (env : Env) (event : Event) :
    List Handler → Nat → Option Error → Traced Event (Nat × Option Error × List Handler)
  | [], count, lastErr => return (count, lastErr, [])
  | h :: rest, count, _ => do
    let (err, h) ← h.handle env event
    let (count, lastErr, rest) ←
      handleEach env event rest (if err.isNone then count + 1 else count) err
    return (count, lastErr, h :: rest)

def Dispatcher.dispatch (env : Env) (order : HandlerOrder) (event : Event) (d : Dispatcher) :
    Traced Event (Option Error × Dispatcher) := do
  if d.closed then return (some (.new .eventDispatch (str "dispatcher is closed")), d)
  else
    match event.validate with
    | .error err => return (some (.wrap .eventValidation (str "invalid event") err), d)
    | .ok _ =>
      let (count, lastErr, handlers) ← handleEach env event (order.visit d.handlers) 0 none
      if count = 0 ∧ lastErr.isSome then
        -- the error is logged with the event's text
        Traced.touch event
        let _ ← Traced.lift (event.string env.host)
        return (lastErr, { d with handlers })
      else return (none, { d with handlers })

/-! ## The reader loops -/

/-- One iteration of `perfEventLoop` on a record: the loop goes on with the dispatcher. -/
def perfEventLoop (env : Env) (order : HandlerOrder) (m : PerfMap) (data : Bytes)
    (d : Dispatcher) : Traced Event Dispatcher := do
  match ← Traced.lift (decode env.host m data) with
  | .error _ => return d
  | .ok event =>
    Traced.touch event
    let _ ← Traced.lift (event.string env.host)
    let (_, d) ← d.dispatch env order event
    return d

/-- Dispatch the events a push has released; each call visits the handlers in its own order. -/
def dispatchAll (env : Env) :
    (Nat → HandlerOrder) → List Event → Dispatcher → Traced Event Dispatcher
  | _, [], d => return d
  | orders, event :: rest, d => do
    let (_, d) ← d.dispatch env (orders 0) event
    dispatchAll env (fun n => orders (n + 1)) rest d

/-- One iteration of `perfEventLoopOrdered`. -/
def perfEventLoopOrdered (env : Env) (orders : Nat → HandlerOrder) (m : PerfMap) (data : Bytes)
    (d : Dispatcher) (reorder : Reorder.PerfLagReorder Event) :
    Traced Event (Dispatcher × Reorder.PerfLagReorder Event) := do
  match ← Traced.lift (decode env.host m data) with
  | .error _ => return (d, reorder)
  | .ok event =>
    Traced.touch event
    let _ ← Traced.lift (event.string env.host)
    match event.perfMonoNs with
    | none =>
      let (_, d) ← d.dispatch env (orders 0) event
      return (d, reorder)
    | some mono =>
      let (released, reorder) := reorder.push ⟨event, mono⟩
      let d ← dispatchAll env orders released d
      return (d, reorder)

end ECapture.Events
