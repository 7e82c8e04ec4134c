import ECapture.Processor.Batches

/-!
# The HTTP/1 parsers

`HTTPRequest` and `HTTPResponse` of `pkg/event_processor`. `net/http`, `httputil` and `gzip` enter
as a structure of what the parsers ask of them; `net/http` reads through a `bufio.Reader`, so it
works on a stream of two parts. The two parsers differ in one test of `Display`.

A socket worker keeps one parser object. `Reset` empties its stream but keeps the message, which
`Write` replaces only when `net/http` can parse the next batch.
-/

namespace ECapture.Processor
open Library

inductive PacketType where
  | null
  | unknow
  | gzip
  | webSocket
  deriving DecidableEq

/-- What the `bufio.Reader` holds, and what is left in the `bytes.Buffer` behind it. -/
structure Stream where
  buffered : Bytes
  unread : Bytes
  deriving DecidableEq

/-- The errors of `io.ReadAll` that `Display` tells apart. -/
inductive BodyError where
  | unexpectedEOF
  | other
  deriving DecidableEq

/-- What is asked of a message of type `μ`, a request or a response. -/
structure NetHttp (μ : Type) where
  /-- `http.ReadRequest` or `http.ReadResponse`; `none` is an error. -/
  read : Stream → Option μ × Stream
  proto : μ → Bytes
  /-- `Header.Get("Content-Encoding")`. -/
  contentEncoding : μ → Bytes
  /-- `io.ReadAll` of the body, which reads on from the stream. -/
  readAll : μ → Stream → (Bytes × Option BodyError) × μ × Stream
  /-- `httputil.DumpRequest` or `DumpResponse`, without the body. -/
  dump : μ → Option Bytes
  /-- `gzip.NewReader` and `io.ReadAll`: `none` when the reader is not made, else what was read
  and whether that ended without an error. -/
  gunzip : Bytes → Option (Bytes × Bool)

/-- The bytes of a batch, before anything of them is read. -/
def NetHttp.start (b : Bytes) : Stream := ⟨[], b⟩

/-- `net/http` can parse `b`. This is also `detect`. -/
def NetHttp.parses {μ : Type} (net : NetHttp μ) (b : Bytes) : Bool :=
  (net.read (NetHttp.start b)).1.isSome

/-- The fields of `HTTPRequest` and `HTTPResponse`; a nil message is `none`. -/
structure HTTPParser (μ : Type) where
  message : Option μ
  packerType : PacketType
  isDone : Bool
  isInit : Bool
  stream : Stream

namespace HTTPParser

variable {μ : Type} (net : NetHttp μ)

/-- A new object after `Init`. -/
def init : HTTPParser μ := ⟨none, .null, false, false, NetHttp.start []⟩

def write (b : Bytes) (hr : HTTPParser μ) : HTTPParser μ :=
  let stream := { hr.stream with unread := hr.stream.unread ++ b }
  if hr.isInit then { hr with stream }
  else
    match net.read stream with
    | (some message, stream) => { hr with message := some message, isInit := true, stream }
    | (none, stream) => { hr with stream }

def reset (hr : HTTPParser μ) : HTTPParser μ :=
  { hr with isDone := false, isInit := false, stream := NetHttp.start [] }

/-- The body as it is shown, and the packet type. -/
def decompress (message : μ) (rawData : Bytes) (packerType : PacketType) : Bytes × PacketType :=
  if net.contentEncoding message = str "gzip" then
    if rawData = [] then (rawData, packerType)
    else
      match net.gunzip rawData with
      | none => (rawData, packerType)
      | some (data, false) => (data, packerType)
      | some (data, true) => (data, .gzip)
  else (rawData, .null)

/-- What the two `Display` have in common: the text, and what they leave of the parser. -/
def displayMessage (message : μ) (hr : HTTPParser μ) : Bytes × HTTPParser μ :=
  let ((rawData, err), message, stream) := net.readAll message hr.stream
  if err = some .other then (stream.unread, { hr with message := some message, stream })
  else
    let (shown, packerType) := decompress net message rawData hr.packerType
    let hr := { hr with message := some message, stream, packerType }
    match net.dump message with
    | none => (stream.unread, hr)
    | some b => (b ++ if rawData = [] then [] else shown, hr)

end HTTPParser

/-- `HTTPRequest.Display`. With a nil request the program stops; a worker only makes a parser for
bytes that `net/http` can parse. -/
def HTTPRequest.display {μ : Type} (net : NetHttp μ) (hr : HTTPParser μ) : Bytes × HTTPParser μ :=
  match hr.message with
  | none => ([], hr)
  | some request =>
    if net.proto request = str "HTTP/2.0" then (hr.stream.unread, hr)
    else hr.displayMessage net request

/-- `HTTPResponse.Display`. -/
def HTTPResponse.display {μ : Type} (net : NetHttp μ) (hr : HTTPParser μ) : Bytes × HTTPParser μ :=
  match hr.message with
  | none => ([], hr)
  | some response => hr.displayMessage net response

/-- The methods of a worker's parser, for a `Display` that changes it. A worker calls `Reset` on
what `Display` leaves. -/
def httpParsers {μ : Type} (net : NetHttp μ)
    (display : HTTPParser μ → Bytes × HTTPParser μ) : Parsers (HTTPParser μ) where
  newParser _ _ := .init
  write := .write net
  display hr := (display hr).1
  reset hr := (display hr).2.reset

def HTTPRequest.parsers {μ : Type} (net : NetHttp μ) : Parsers (HTTPParser μ) :=
  httpParsers net (HTTPRequest.display net)

def HTTPResponse.parsers {μ : Type} (net : NetHttp μ) : Parsers (HTTPParser μ) :=
  httpParsers net (HTTPResponse.display net)

/-! ## A batch that can be parsed -/

namespace HTTPParser

variable {μ : Type} {net : NetHttp μ}

/-- A parser before its first batch or after `Reset`. -/
def Cleared (hr : HTTPParser μ) : Prop := hr.isInit = false ∧ hr.stream = NetHttp.start []

theorem cleared_init : (init : HTTPParser μ).Cleared := ⟨rfl, rfl⟩

theorem cleared_reset (hr : HTTPParser μ) : hr.reset.Cleared := ⟨rfl, rfl⟩

/-- What `net/http` reads from a batch is what a cleared parser keeps. -/
theorem write_of_cleared {hr : HTTPParser μ} (cleared : hr.Cleared) {b : Bytes}
    (parses : net.parses b) :
    ∃ message stream, net.read (NetHttp.start b) = (some message, stream) ∧
      hr.write net b = { hr with message := some message, isInit := true, stream } := by
  obtain ⟨message, read⟩ := Option.isSome_iff_exists.mp parses
  have whole : net.read (NetHttp.start b) = (some message, (net.read (NetHttp.start b)).2) := by
    rw [← read]
  refine ⟨message, _, whole, ?_⟩
  have start : ({ hr.stream with unread := hr.stream.unread ++ b } : Stream) =
      NetHttp.start b := by
    rw [cleared.2]
    rfl
  simp only [write, start, cleared.1, Bool.false_eq_true, if_false]
  rw [whole]

/-- A batch that cannot be parsed leaves the message as it was. -/
theorem message_write_of_cleared {hr : HTTPParser μ} (cleared : hr.Cleared) {b : Bytes}
    (fails : net.parses b = false) :
    (hr.write net b).message = hr.message ∧
      (hr.write net b).stream = (net.read (NetHttp.start b)).2 := by
  have none : (net.read (NetHttp.start b)).1 = none := by
    simpa [NetHttp.parses] using fails
  have start : ({ hr.stream with unread := hr.stream.unread ++ b } : Stream) =
      NetHttp.start b := by
    rw [cleared.2]
    rfl
  have whole : net.read (NetHttp.start b) = (Option.none, (net.read (NetHttp.start b)).2) := by
    rw [← none]
  simp only [write, start, cleared.1, Bool.false_eq_true, if_false]
  rw [whole]
  exact ⟨rfl, rfl⟩

/-- The text depends on the message and the stream, not on what else a parser keeps. -/
theorem displayMessage_congr {hr hr' : HTTPParser μ} (stream : hr.stream = hr'.stream) (m : μ) :
    (hr.displayMessage net m).1 = (hr'.displayMessage net m).1 := by
  simp only [displayMessage, stream]
  split
  case isTrue => rfl
  case isFalse =>
    have text : (decompress net (net.readAll m hr'.stream).2.1 (net.readAll m hr'.stream).1.1
          hr.packerType).1 =
        (decompress net (net.readAll m hr'.stream).2.1 (net.readAll m hr'.stream).1.1
          hr'.packerType).1 := by
      simp only [decompress]
      grind
    cases net.dump (net.readAll m hr'.stream).2.1 with
    | none => rfl
    | some b => simp only [text]

/-- A display that looks at the message and the stream only. -/
def Local (display : HTTPParser μ → Bytes × HTTPParser μ) : Prop :=
  ∀ hr hr', hr.message = hr'.message → hr.stream = hr'.stream → (display hr).1 = (display hr').1

theorem local_request : Local (HTTPRequest.display net) := by
  intro hr hr' message stream
  simp only [HTTPRequest.display, message, stream]
  cases hr'.message with
  | none => rfl
  | some m =>
    by_cases raw : net.proto m = str "HTTP/2.0"
    · simp only [raw, if_true]
    · simp only [raw, if_false, displayMessage_congr stream m]

theorem local_response : Local (HTTPResponse.display net) := by
  intro hr hr' message stream
  simp only [HTTPResponse.display, message]
  cases hr'.message with
  | none => rfl
  | some m => exact displayMessage_congr stream m

/-- A parser that has been reset shows a batch that can be parsed as a new one does. -/
theorem display_write_reset {display : HTTPParser μ → Bytes × HTTPParser μ}
    (looks : Local display) (hr : HTTPParser μ) {b : Bytes} (parses : net.parses b) :
    (display (hr.reset.write net b)).1 = (display (init.write net b)).1 := by
  obtain ⟨m, stream, read, eq⟩ := write_of_cleared (cleared_reset hr) parses
  obtain ⟨m', stream', read', eq'⟩ := write_of_cleared cleared_init parses
  obtain ⟨same, rest⟩ := Prod.mk.inj (read.symm.trans read')
  rw [eq, eq']
  exact looks _ _ same rest

end HTTPParser

variable {μ : Type}

/-- A batch that cannot be parsed is replaced by the message before it, as that is displayed on
what `net/http` has left of the stream. -/
theorem display_stale {net : NetHttp μ} {display : HTTPParser μ → Bytes × HTTPParser μ}
    (looks : HTTPParser.Local display) (hr : HTTPParser μ) {b : Bytes}
    (fails : net.parses b = false) :
    (display (hr.reset.write net b)).1 =
      (display { hr with stream := (net.read (NetHttp.start b)).2 }).1 := by
  obtain ⟨message, stream⟩ :=
    HTTPParser.message_write_of_cleared (HTTPParser.cleared_reset hr) fails
  exact looks _ _ message stream

/-! ## The life of a worker -/

/-- `net/http` can parse every batch that has bytes. -/
def EachParses {π : Type} (net : NetHttp μ) (cfg : Config π) (batches : List (List Event)) : Prop :=
  ∀ events ∈ batches, (batch cfg events).payload ≠ [] → net.parses (batch cfg events).payload

theorem serve_httpParsers {net : NetHttp μ} {display : HTTPParser μ → Bytes × HTTPParser μ}
    (looks : HTTPParser.Local display) (cfg : Config (HTTPParser μ))
    (parsers : cfg.parsers = httpParsers net display) {uuid : Bytes}
    (sock : (uuidParse uuid).lifeCycle = .sock) (order : Nat) {batches : List (List Event)}
    (parse : EachParses net cfg batches) :
    ((EventWorker.newEventWorker uuid).serve cfg order batches).map
        (fun f => (f.payload, f.out)) =
      shownAlone cfg .init (batches.map (batch cfg)) := by
  rw [serve_eq_flushes (EventWorker.idle_newEventWorker sock)]
  apply flushes_eq_shownAlone fun b => net.parses b
  · intro b
    rw [parsers]
    rfl
  · intro hr b parses
    rw [parsers]
    exact HTTPParser.display_write_reset looks (display hr).2 parses
  · intro p none
    cases none
  · intro g mem
    obtain ⟨events, member, rfl⟩ := List.mem_map.mp mem
    exact parse events member

/-- While `net/http` can parse the batches, every flush shows its own batch as a new parser does,
and no batch is left out. -/
theorem http_flushes_alone {net : NetHttp μ} {parsers : Parsers (HTTPParser μ)}
    (http : parsers = HTTPRequest.parsers net ∨ parsers = HTTPResponse.parsers net)
    {isHex : Bool} {truncateSize : UInt64} {uuid : Bytes}
    (sock : (uuidParse uuid).lifeCycle = .sock) (order : Nat) {batches : List (List Event)}
    (parse : EachParses net ⟨isHex, truncateSize, parsers⟩ batches) :
    ((EventWorker.newEventWorker uuid).serve ⟨isHex, truncateSize, parsers⟩ order batches).map
        (fun f => (f.payload, f.out)) =
      shownAlone ⟨isHex, truncateSize, parsers⟩ .init
        (batches.map (batch ⟨isHex, truncateSize, parsers⟩)) := by
  rcases http with request | response
  · exact serve_httpParsers HTTPParser.local_request _ request sock order parse
  · exact serve_httpParsers HTTPParser.local_response _ response sock order parse

def get : Bytes := str "GET / HTTP/1.1\r\n\r\n"

/-- A `net/http` that knows one request. -/
def getOnly : NetHttp Bytes where
  read s :=
    if get.isPrefixOf s.unread then (some get, ⟨s.unread.drop get.length, []⟩)
    else (none, ⟨[], []⟩)
  proto _ := str "HTTP/1.1"
  contentEncoding _ := []
  readAll request s := (([], none), request, s)
  dump := some
  gunzip _ := none

def payloadEvent (payload : Bytes) : Event :=
  ⟨str "sock:1_1_a_7_0_t_9", payload, ⟨1, str "a", [], 0, [], 0⟩⟩

theorem http_flushes_alone_get :
    ((EventWorker.newEventWorker (str "sock:1_1_a_7_0_t_9")).serve
        ⟨false, 0, HTTPRequest.parsers getOnly⟩ 0 [[payloadEvent get], [payloadEvent get]]).map
        (fun f => (f.payload, f.out)) =
      shownAlone ⟨false, 0, HTTPRequest.parsers getOnly⟩ .init
        ([[payloadEvent get], [payloadEvent get]].map
          (batch ⟨false, 0, HTTPRequest.parsers getOnly⟩)) :=
  http_flushes_alone (.inl rfl) (by decide +kernel) 0 (by
    intro events mem nonempty
    obtain rfl : events = [payloadEvent get] := by simpa using mem
    decide +kernel)

/-- The second batch is `xyz`; what is shown is the request before it. -/
theorem stale_request_shown :
    ((EventWorker.newEventWorker (str "sock:1_1_a_7_0_t_9")).serve
        ⟨false, 0, HTTPRequest.parsers getOnly⟩ 0
        [[payloadEvent get], [payloadEvent (str "xyz")]]).map (fun f => (f.payload, f.out)) =
      [(get, some (EventWorker.format (payloadEvent get).base get)),
       (str "xyz", some (EventWorker.format (payloadEvent get).base get))] ∧
    EventWorker.format (payloadEvent get).base get ≠
      EventWorker.format (payloadEvent get).base (str "xyz") := by
  decide +kernel

end ECapture.Processor
