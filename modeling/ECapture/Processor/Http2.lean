import ECapture.Library.Frames
import ECapture.Processor.Http

/-!
# The HTTP/2 parsers

`HTTP2Request` and `HTTP2Response` of `pkg/event_processor`. The frames are read as `ReadFrame` of
`x/net/http2` reads them: a header of nine bytes, the payload, and a check of the order of header
blocks. What a frame's payload may be, `hpack` and `gzip` enter as a structure.

A socket worker keeps one parser object. `Reset` drops what has not been read, and the next
`Write` makes a new framer; only the table of `hpack` is kept.
-/

namespace ECapture.Processor
open Library

/-! ## Frames -/

/-- A frame; its length is the length of the payload. -/
structure Frame where
  type : UInt8
  flags : UInt8
  streamID : UInt32
  payload : Bytes
  deriving DecidableEq

namespace Frame

def frameData : UInt8 := 0
def frameHeaders : UInt8 := 1
def frameContinuation : UInt8 := 9

/-- `HeadersEnded`, also for continuations. -/
def headersEnded (f : Frame) : Bool := f.flags &&& 4 ≠ 0

end Frame

def frameHeaderLen : Nat := 9

/-- `checkFrameOrder`: the new `lastHeaderStream`, or an error. -/
def checkFrameOrder (lastHeaderStream : UInt32) (f : Frame) : Option UInt32 :=
  let next :=
    if f.type = Frame.frameHeaders ∨ f.type = Frame.frameContinuation then
      if f.headersEnded then 0 else f.streamID
    else lastHeaderStream
  if lastHeaderStream ≠ 0 then
    if f.type ≠ Frame.frameContinuation then none
    else if f.streamID ≠ lastHeaderStream then none
    else some next
  else if f.type = Frame.frameContinuation then none
  else some next

/-- `readFrameHeader` and the payload behind it; the reserved bit is ignored. -/
def takeFrame : Bytes → Option (Frame × Bytes)
  | l2 :: l1 :: l0 :: type :: flags :: s3 :: s2 :: s1 :: s0 :: rest =>
    let length := l2.toNat * 2 ^ 16 + l1.toNat * 2 ^ 8 + l0.toNat
    let id := s3.toNat * 2 ^ 24 + s2.toNat * 2 ^ 16 + s1.toNat * 2 ^ 8 + s0.toNat
    if length ≤ rest.length then
      some (⟨type, flags, .ofNat (id % 2 ^ 31), rest.take length⟩, rest.drop length)
    else none
  | _ => none

/-- What is asked of `x/net/http2`, `hpack` and `gzip`. `δ` is the table of an `hpack.Decoder`. -/
structure NetHttp2 (δ : Type) where
  /-- The parser of the frame's type accepts its flags, stream and payload. -/
  accepts : Frame → Bool
  /-- `HeaderBlockFragment` of a HEADERS frame. -/
  headerBlockFragment : Frame → Bytes
  /-- `Data` of a DATA frame. -/
  data : Frame → Bytes
  /-- `FrameType.String`. -/
  typeString : UInt8 → Bytes
  newDecoder : δ
  /-- `DecodeFull`: the names and values, whether it failed, and the table after it. -/
  decodeFull : δ → Bytes → (List (Bytes × Bytes) × Bool) × δ
  /-- `HeaderField.String`. -/
  headerString : Bytes × Bytes → Bytes
  /-- `gzip.NewReader` and `io.ReadAll`; `none` is an error of either. -/
  gunzip : Bytes → Option Bytes
  /-- The order in which the runtime visits a map with these entries. -/
  visit : List (UInt32 × Bytes) → List (UInt32 × Bytes)

variable {δ : Type} (net : NetHttp2 δ)

/-- `ReadFrame`; every error ends the loop of `Display`. -/
def readFrame (lastHeaderStream : UInt32) (b : Bytes) : Option (Frame × UInt32 × Bytes) :=
  match takeFrame b with
  | none => none
  | some (f, rest) =>
    if net.accepts f then
      (checkFrameOrder lastHeaderStream f).map fun next => (f, next, rest)
    else none

/-- A frame is nine bytes and its payload, whatever stands behind it. -/
theorem takeFrame_cases {b rest : Bytes} {f : Frame} (h : takeFrame b = some (f, rest)) :
    ∃ header : Bytes, header.length = frameHeaderLen ∧ b = header ++ (f.payload ++ rest) ∧
      ∀ more, takeFrame (header ++ (f.payload ++ more)) = some (f, more) := by
  unfold takeFrame at h
  split at h
  case h_2 => cases h
  case h_1 l2 l1 l0 type flags s3 s2 s1 s0 tail =>
    simp only [Option.ite_none_right_eq_some, Option.some.injEq, Prod.mk.injEq] at h
    obtain ⟨fits, rfl, rfl⟩ := h
    have length := List.length_take_of_le fits
    refine ⟨[l2, l1, l0, type, flags, s3, s2, s1, s0], rfl, ?_, fun more => ?_⟩
    · simp only [List.take_append_drop, List.cons_append, List.nil_append]
    · simp only [List.cons_append, List.nil_append, takeFrame]
      rw [if_pos (by rw [List.length_append]; omega), List.take_left' length,
        List.drop_left' length]

theorem takeFrame_append {b rest : Bytes} {f : Frame} (h : takeFrame b = some (f, rest))
    (more : Bytes) : takeFrame (b ++ more) = some (f, rest ++ more) := by
  obtain ⟨header, -, rfl, again⟩ := takeFrame_cases h
  rw [List.append_assoc, List.append_assoc]
  exact again _

theorem length_takeFrame {b rest : Bytes} {f : Frame} (h : takeFrame b = some (f, rest)) :
    b.length = frameHeaderLen + f.payload.length + rest.length := by
  obtain ⟨header, length, rfl, -⟩ := takeFrame_cases h
  rw [List.length_append, List.length_append, length, Nat.add_assoc]

theorem readFrame_eq_some {last next : UInt32} {b rest : Bytes} {f : Frame} :
    readFrame net last b = some (f, next, rest) ↔
      takeFrame b = some (f, rest) ∧ net.accepts f = true ∧ checkFrameOrder last f = some next := by
  unfold readFrame
  cases takeFrame b with
  | none => simp
  | some r =>
    obtain ⟨g, t⟩ := r
    by_cases ok : net.accepts g <;> simp [ok] <;> grind

/-- The framer as a way to read records. -/
def framing : Framing UInt8 UInt32 Frame where
  next := readFrame net
  size f := frameHeaderLen + f.payload.length
  size_pos _ := by simp only [frameHeaderLen]; omega
  length_next h := length_takeFrame ((readFrame_eq_some net).mp h).1
  next_append more h := by
    obtain ⟨taken, accepted, order⟩ := (readFrame_eq_some net).mp h
    exact (readFrame_eq_some net).mpr ⟨takeFrame_append taken more, accepted, order⟩

def clientPreface : Bytes := str "PRI * HTTP/2.0\r\n\r\nSM\r\n\r\n"

/-- The fields of `HTTP2Request` and `HTTP2Response`. The `bufio.Reader` and the `bytes.Buffer`
behind it are one stream: `Write` makes both anew before the first byte, and nothing is read
before `Display`. -/
structure HTTP2Parser (δ : Type) where
  packerType : PacketType
  isDone : Bool
  isInit : Bool
  unread : Bytes
  /-- Of the framer. -/
  lastHeaderStream : UInt32
  hdec : δ

/-- A frame that is shown, with the header fields when they are decoded. -/
structure Entry where
  frame : Frame
  fields : Option (List (Bytes × Bytes) × Bool)
  deriving DecidableEq

/-- The loop of `Display` as far as it decodes: a HEADERS frame that ends its block goes through
the table. -/
def decodeFrames : δ → List Frame → List Entry × δ
  | hdec, [] => ([], hdec)
  | hdec, f :: fs =>
    if f.type = Frame.frameHeaders ∧ f.headersEnded then
      let (fields, hdec) := net.decodeFull hdec (net.headerBlockFragment f)
      let (entries, hdec) := decodeFrames hdec fs
      (⟨f, some fields⟩ :: entries, hdec)
    else
      let (entries, hdec) := decodeFrames hdec fs
      (⟨f, none⟩ :: entries, hdec)

/-- What the loop of `Display` writes and remembers. -/
structure Rendering where
  frameBuf : Bytes
  /-- The assignments, the newest first. -/
  encodingMap : List (UInt32 × Bytes)
  dataBufMap : List (UInt32 × Bytes)
  packerType : PacketType

def frameHead (type : Bytes) (streamID : UInt32) : Bytes :=
  str "\nFrame Type\t=>\t" ++ type ++ str "\nFrame StreamID\t=>\t" ++ dec streamID.toNat ++
    str "\n"

def frameLength (n : Nat) : Bytes := str "Frame Length\t=>\t" ++ dec n ++ str "\n"

/-- Append to the buffer of a stream, which is made when there is none. -/
def appendData (id : UInt32) (payload : Bytes) : List (UInt32 × Bytes) → List (UInt32 × Bytes)
  | [] => [(id, payload)]
  | (id', buf) :: rest =>
    if id' = id then (id', buf ++ payload) :: rest else (id', buf) :: appendData id payload rest

def contentEncoding : Bytes := str "content-encoding"

/-- The text of header fields; `label` names the parser. -/
def fieldsText (label : Bytes) : Option (List (Bytes × Bytes) × Bool) → Bytes
  | some (fields, failed) =>
    fields.flatMap (fun field => net.headerString field ++ str "\n") ++
      if failed then label ++ str (" Incorrect HPACK context, Please use PCAP mode to get " ++
        "correct header fields ...\n")
      else []
  | none => label ++ str " Not Supported HEADERS Frame with CONTINUATION frames\n"

/-- One round of the loop of `Display`: the text of the frame, and what is remembered. -/
def renderEntry (label : Bytes) (r : Rendering) (e : Entry) : Rendering :=
  let id := e.frame.streamID
  if e.frame.type = Frame.frameHeaders then
    let fields := (e.fields.map Prod.fst).getD []
    { r with
      frameBuf := r.frameBuf ++ (frameHead (str "HEADERS") id ++
        frameLength e.frame.payload.length ++ fieldsText net label e.fields)
      encodingMap := (fields.filter fun field => field.1 = contentEncoding).reverse.map
        (fun field => (id, field.2)) ++ r.encodingMap }
  else if e.frame.type = Frame.frameData then
    let payload := net.data e.frame
    let head := frameHead (str "DATA") id ++ frameLength e.frame.payload.length
    if r.encodingMap.lookup id = some (str "gzip") then
      { r with
        frameBuf := r.frameBuf ++ (head ++ str "Partial entity body with gzip encoding ... \n")
        dataBufMap := appendData id payload r.dataBufMap
        packerType := .gzip }
    else
      { r with
        frameBuf := r.frameBuf ++ (head ++ (payload ++ str "\n"))
        packerType := .null }
  else { r with frameBuf := r.frameBuf ++ frameHead (net.typeString e.frame.type) id }

/-- The text of a body that was put together from the DATA frames of a stream. -/
def mergedText (r : Rendering) (id : UInt32) (buf : Bytes) : Bytes :=
  if buf ≠ [] ∧ r.encodingMap.lookup id = some (str "gzip") then
    match net.gunzip buf with
    | none => []
    | some payload =>
      str "\nMerged Data Frame, StreamID\t=>\t" ++ dec id.toNat ++
        str "\nMerged Data Frame, Final Length\t=>\t" ++ dec payload.length ++ str "\n\n" ++
        payload ++ str "\n"
  else []

namespace HTTP2Parser

/-- `Init`, which keeps the table. -/
def initReader (h2r : HTTP2Parser δ) : HTTP2Parser δ :=
  { h2r with unread := [], lastHeaderStream := 0 }

/-- A new object after `Init`. -/
def init : HTTP2Parser δ := ⟨.null, false, false, [], 0, net.newDecoder⟩

def write (b : Bytes) (h2r : HTTP2Parser δ) : HTTP2Parser δ :=
  let h2r := if h2r.isInit then h2r else { h2r.initReader with isInit := true }
  { h2r with unread := h2r.unread ++ b }

def reset (h2r : HTTP2Parser δ) : HTTP2Parser δ :=
  { h2r with isDone := false, isInit := false, unread := [] }

/-- `Display` of what `front` leaves of the stream; `label` names the parser. -/
def display (label : Bytes) (front : Bytes → Bytes) (h2r : HTTP2Parser δ) :
    Bytes × HTTP2Parser δ :=
  let (frames, last, rest) := (framing net).readAll h2r.lastHeaderStream (front h2r.unread)
  let (entries, hdec) := decodeFrames net h2r.hdec frames
  let r := entries.foldl (renderEntry net label) ⟨[], [], [], h2r.packerType⟩
  let merged := (net.visit r.dataBufMap).flatMap fun (id, buf) => mergedText net r id buf
  (r.frameBuf ++ merged,
    { h2r with unread := rest, lastHeaderStream := last, hdec, packerType := r.packerType })

/-- The frames that `Display` shows. -/
def shown (front : Bytes → Bytes) (h2r : HTTP2Parser δ) : List Entry :=
  (decodeFrames net h2r.hdec ((framing net).frames h2r.lastHeaderStream (front h2r.unread))).1

end HTTP2Parser

/-- A preface at the front is skipped. -/
def skipPreface (b : Bytes) : Bytes :=
  if clientPreface.isPrefixOf b then b.drop clientPreface.length else b

def HTTP2Request.display (h2r : HTTP2Parser δ) : Bytes × HTTP2Parser δ :=
  h2r.display net (str "[http2 request]") skipPreface

def HTTP2Response.display (h2r : HTTP2Parser δ) : Bytes × HTTP2Parser δ :=
  h2r.display net (str "[http2 response]") id

/-- The methods of a worker's parser, for a `Display` that changes it. -/
def http2Parsers (display : HTTP2Parser δ → Bytes × HTTP2Parser δ) : Parsers (HTTP2Parser δ) where
  newParser _ _ := .init net
  write := .write
  display h2r := (display h2r).1
  reset h2r := (display h2r).2.reset

def HTTP2Request.parsers : Parsers (HTTP2Parser δ) := http2Parsers net (HTTP2Request.display net)

def HTTP2Response.parsers : Parsers (HTTP2Parser δ) := http2Parsers net (HTTP2Response.display net)

/-! ## The text -/

/-- The first lines of the text of a frame. -/
def entryHead (e : Entry) : Bytes :=
  frameHead (if e.frame.type = Frame.frameHeaders then str "HEADERS"
    else if e.frame.type = Frame.frameData then str "DATA"
    else net.typeString e.frame.type) e.frame.streamID

theorem frameBuf_renderEntry (label : Bytes) (r : Rendering) (e : Entry) :
    ∃ text, (renderEntry net label r e).frameBuf = r.frameBuf ++ text ∧
      entryHead net e <+: text := by
  simp only [renderEntry, entryHead]
  split
  case isTrue => exact ⟨_, rfl, by simp [List.append_assoc]⟩
  case isFalse =>
    split
    case isTrue =>
      split
      · exact ⟨_, rfl, by simp [List.append_assoc]⟩
      · exact ⟨_, rfl, by simp [List.append_assoc]⟩
    case isFalse => exact ⟨_, rfl, List.prefix_rfl⟩

/-- The loop writes one text for each frame, in order. -/
theorem frameBuf_foldl_renderEntry (label : Bytes) (r : Rendering) (entries : List Entry) :
    ∃ texts, (entries.foldl (renderEntry net label) r).frameBuf = r.frameBuf ++ texts.flatten ∧
      List.Forall₂ (fun e text => entryHead net e <+: text) entries texts := by
  induction entries generalizing r with
  | nil => exact ⟨[], by simp, .nil⟩
  | cons e entries ih =>
    obtain ⟨text, eq, head⟩ := frameBuf_renderEntry net label r e
    obtain ⟨texts, eq', heads⟩ := ih (renderEntry net label r e)
    refine ⟨text :: texts, ?_, .cons head heads⟩
    rw [List.foldl_cons, eq', eq, List.flatten_cons, List.append_assoc]

/-- `Display` writes a text for each frame that it shows, in order, and then the merged bodies. -/
theorem display_shown (label : Bytes) (front : Bytes → Bytes) (h2r : HTTP2Parser δ) :
    ∃ texts merged, (h2r.display net label front).1 = texts.flatten ++ merged ∧
      List.Forall₂ (fun e text => entryHead net e <+: text) (h2r.shown net front) texts := by
  let start : Rendering := ⟨[], [], [], h2r.packerType⟩
  let r := (h2r.shown net front).foldl (renderEntry net label) start
  obtain ⟨texts, eq, heads⟩ := frameBuf_foldl_renderEntry net label start (h2r.shown net front)
  refine ⟨texts, (net.visit r.dataBufMap).flatMap fun (id, buf) => mergedText net r id buf, ?_,
    heads⟩
  have front_eq : r.frameBuf = texts.flatten := eq
  rw [← front_eq]
  rfl

/-! ## The flushes of a worker -/

variable {net}

/-- A parser before its first batch or after `Reset`. -/
def HTTP2Parser.Cleared (h2r : HTTP2Parser δ) : Prop := h2r.isInit = false

theorem HTTP2Parser.write_of_cleared {h2r : HTTP2Parser δ} (cleared : h2r.Cleared) (b : Bytes) :
    h2r.write b = { h2r with isInit := true, unread := b, lastHeaderStream := 0 } := by
  have not_init : h2r.isInit = false := cleared
  simp [write, not_init, initReader]

/-- An `x/net/http2` that accepts every frame and decodes no fields. -/
def plainHttp2 : NetHttp2 Unit where
  accepts _ := true
  headerBlockFragment := Frame.payload
  data := Frame.payload
  typeString type := dec type.toNat
  newDecoder := ()
  decodeFull _ _ := (([], false), ())
  headerString field := field.1 ++ str ": " ++ field.2
  gunzip _ := none
  visit := id

end ECapture.Processor
