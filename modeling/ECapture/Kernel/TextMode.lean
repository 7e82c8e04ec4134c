import Mathlib.Data.List.Forall2
import ECapture.Events.Bounds
import ECapture.Kernel.Isolation
import ECapture.Kernel.SslCalls
import ECapture.Reorder.Order

/-!
# The text of SSL_read and SSL_write calls

Text mode of the OpenSSL probe from end to end: the programs of `openssl.h` beside the calls of the
traced threads, the ring, which may reorder the records of different CPUs, lose some and add bytes
to them, the reader loop that `StartPerfEventReader` chooses, with or without reordering, the
dispatcher and the text handler.
-/

namespace ECapture.Kernel.Ssl
open Library Reorder

/-! ## The reader of `tls_events` -/

/-- `perfEventLoop` on one record after another. -/
def readAll (env : Events.Env) (order : Events.HandlerOrder) :
    List Bytes → Events.Dispatcher → Library.Traced Events.Event Events.Dispatcher
  | [], d => return d
  | data :: rest, d => do
    let d ← Events.perfEventLoop env order .tlsEvents data d
    readAll env order rest d

/-- `String` or `StringHex`, of an event with this payload. -/
def text (host : Events.Host) (useHex : Bool) (e : Events.OpenSSL.Event) (payload : Bytes) :
    Bytes :=
  if useHex then
    e.header (host.formatTime (e.timestamp.toInt64.toInt * 1000000000)) (str " bytes, hex") ++
      Events.dumpByteSlice payload []
  else
    e.header (host.formatTime (e.timestamp.toInt64 + host.clockOffset).toInt) (str " bytes") ++
      payload

def withNewline (text : Bytes) : Bytes := if text.getLast? = some 10 then text else text ++ [10]

theorem text_eq {e : Events.OpenSSL.Event} {payload : Bytes} (read : e.getData = .ok payload)
    (host : Events.Host) (useHex : Bool) :
    (if useHex then (Events.Event.tls e).stringHex host else (Events.Event.tls e).string host) =
      .ok (text host useHex e payload) := by
  cases useHex with
  | true =>
    rw [if_pos rfl, Events.Event.stringHex, Events.OpenSSL.Event.stringHex, read, text, if_pos rfl]
    rfl
  | false =>
    rw [if_neg (by simp), Events.Event.string, Events.OpenSSL.Event.string, read, text,
      if_neg (by simp)]
    rfl

/-- The line of an event; only events of the ring are of interest. -/
def line (env : Events.Env) (useHex : Bool) : Events.Event → Bytes
  | .tls e =>
    match e.getData with
    | .ok payload => withNewline (text env.host useHex e payload)
    | .error _ => []
  | _ => []

theorem line_tls {e : Events.OpenSSL.Event} {payload : Bytes} (read : e.getData = .ok payload)
    (env : Events.Env) (useHex : Bool) :
    line env useHex (.tls e) = withNewline (text env.host useHex e payload) := by
  rw [line, read]

/-- A valid event of the ring. -/
def Valid (event : Events.Event) : Prop := ∃ e, event = .tls e ∧ e.validate = .ok ()

/-- A record that the decoder accepts. -/
def Decodes (data : Bytes) (e : Events.OpenSSL.Event) : Prop :=
  Events.OpenSSL.Event.decodeFromBytes.run data = .ok e ∧ e.validate = .ok ()

/-- The line of a call: who called which function and how much it returned, and the payload, which
is what the buffer held when the call returned. -/
def Shows (env : Events.Env) (useHex : Bool) (off : Offsets) (k : Call) (line : Bytes) : Prop :=
  ∃ (e : Events.OpenSSL.Event) (payload : Bytes),
    line = withNewline (text env.host useHex e payload) ∧
    e.dataType = (if k.entry.fn = .read then Events.OpenSSL.dataTypeRead
      else Events.OpenSSL.dataTypeWrite) ∧
    e.pid = k.entry.ctx.task.pid ∧ e.tid = k.entry.ctx.task.tid ∧
    e.fd = (k.entry.computed off).fd ∧ e.dataLen.toInt = min k.returnValue 16384 ∧
    ∀ bytes, k.ret.mem.read k.entry.buf k.length = some bytes → payload = bytes.toList

/-- What the ring makes of records: some of them arrive, in any order, and each with bytes added. -/
def Arrives (records received : List Bytes) : Prop :=
  ∃ kept : List Bytes, kept.Subperm records ∧
    List.Forall₂ (fun record data => ∃ pad, data = record ++ pad) kept received

/-- The record of a call is decoded, and its line is that of the call. -/
theorem Describes.decodes {off : Offsets} {k : Call} {record : Bytes}
    (describes : Describes off k record) (pad : Bytes) (env : Events.Env) (useHex : Bool) :
    ∃ e, Decodes (record ++ pad) e ∧ Shows env useHex off k (line env useHex (.tls e)) := by
  obtain ⟨e, read, valid, fn, pid, tid, fd, -, -, length, payload⟩ := describes
  obtain ⟨data, got⟩ := Events.tls_getData_safe e
  refine ⟨e, ⟨Events.OpenSSL.Event.reads_decodeFromBytes.run_append read pad, valid⟩, e, data,
    line_tls got env useHex, fn, pid, tid, fd, length, fun bytes found => ?_⟩
  exact Except.ok.inj (got.symm.trans (payload bytes found))

end ECapture.Kernel.Ssl
