import ECapture.Errors
import ECapture.Library.Fault
import ECapture.Library.Layout

/-!
# Text of events

What the event types of several probes share: reading a field with its error, and the
helpers that turn the bytes of a record into text. The wall clock and the time zone are the
host's; everything else is computed from the record.
-/

namespace ECapture.Events
open Library

/-- The host a probe runs on. -/
structure Host where
  /-- `getClockOffset`: CLOCK_REALTIME minus CLOCK_MONOTONIC. -/
  clockOffset : Int64
  /-- `time.Now().UnixNano()`. -/
  now : UInt64
  /-- `time.Unix(0, ns).Format("2006-01-02 15:04:05.000")`, in the host's zone. -/
  formatTime : Int → Bytes

/-- `binary.Read` of one field, with the error that names it. -/
def field {α : Type} (name : String) (r : Reader ReadError α) : Reader Error α :=
  r.mapError (fun e => newEventDecodeError (str name) (.text e.message))

theorem field_ok {α : Type} {name : String} {r : Reader ReadError α} {buf rest : Bytes} {a : α}
    (h : r buf = .ok (a, rest)) : field name r buf = .ok (a, rest) :=
  Reader.mapError_ok h

theorem reads_field {α : Type} {n : Nat} {P : α → Prop} {w : α → Bytes} {r : Reader ReadError α}
    (name : String) (h : Reads n P w r) : Reads n P w (field name r) :=
  h.mapError _

/-- The bytes before the first NUL: `commToString`, `CToGoString`, `unix.ByteSliceToString`. -/
def commToString (data : Bytes) : Bytes := data.takeWhile (· ≠ 0)

/-- The UTF-8 encodings of what `unicode.IsSpace` accepts. -/
def spaces : List Bytes :=
  [[9], [10], [11], [12], [13], [32], [0xC2, 0x85], [0xC2, 0xA0], [0xE1, 0x9A, 0x80],
    [0xE2, 0x80, 0xA8], [0xE2, 0x80, 0xA9], [0xE2, 0x80, 0xAF], [0xE2, 0x81, 0x9F],
    [0xE3, 0x80, 0x80]] ++ (List.range 11).map (fun i => [0xE2, 0x80, UInt8.ofNat (0x80 + i)])

/-- Drop a run of the given patterns from the front; each round drops at least one byte. -/
def dropRun (patterns : List Bytes) : Nat → Bytes → Bytes
  | 0, bs => bs
  | fuel + 1, bs =>
    match patterns.find? (fun p => p.isPrefixOf bs) with
    | some p => dropRun patterns fuel (bs.drop p.length)
    | none => bs

/-- `strings.TrimSpace`. -/
def trimSpace (bs : Bytes) : Bytes :=
  let left := dropRun spaces bs.length bs
  (dropRun (spaces.map List.reverse) left.length left.reverse).reverse

def commStr (comm : Bytes) : Bytes := trimSpace (commToString comm)

/-! ## Addresses -/

/-- Dotted decimal. -/
def ipv4Text (ip : Bytes) : Bytes :=
  List.intercalate (str ".") (ip.map (fun b => dec b.toNat))

/-- The eight groups of an IPv6 address, most significant byte first. -/
def groups : Bytes → List Nat
  | hi :: lo :: rest => (hi.toNat * 256 + lo.toNat) :: groups rest
  | _ => []

/-- How many groups are zero from the front. -/
def zeroRun (gs : List Nat) : Nat := (gs.takeWhile (· = 0)).length

/-- The first longest run of zero groups: where it starts and its length. -/
def longestRun (gs : List Nat) : Nat × Nat :=
  (List.range gs.length).foldl (fun (start, n) i =>
    if n < zeroRun (gs.drop i) then (i, zeroRun (gs.drop i)) else (start, n)) (0, 0)

/-- RFC 5952 text: groups in hexadecimal, the longest run of at least two zero groups cut to
`::`. -/
def ipv6Text (ip : Bytes) : Bytes :=
  let gs := groups ip
  let text (gs : List Nat) : Bytes := List.intercalate (str ":") (gs.map (fun g => hexInt 1 g))
  let (start, n) := longestRun gs
  if n < 2 then text gs
  else text (gs.take start) ++ str "::" ++ text (gs.drop (start + n))

/-- The bytes of `::ffff:a.b.c.d`. -/
def isMapped (ip : Bytes) : Bool := ip.take 12 == List.replicate 10 0 ++ [0xFF, 0xFF]

/-- `netip.AddrFrom16(ip).String()`. -/
def addrFrom16Text (ip : Bytes) : Bytes :=
  if isMapped ip then str "::ffff:" ++ ipv4Text (ip.drop 12) else ipv6Text ip

/-- `net.IP.String` of four or sixteen bytes. -/
def netIPText (ip : Bytes) : Bytes :=
  if ip.length = 4 then ipv4Text ip
  else if isMapped ip then ipv4Text (ip.drop 12) else ipv6Text ip

/-! ## Hex dump -/

def chunkSize : Nat := 32

/-- One column of `dumpByteSlice`. -/
def printable (b : Bytes) (i : Nat) : UInt8 :=
  match b[i]? with
  | none => 32
  | some c => if c < 32 ∨ 126 < c then 46 else c

/-- `dumpByteSlice`: rows of 32 bytes with their offset and their characters. -/
def dumpByteSlice (b linePrefix : Bytes) : Bytes :=
  let n := (b.length + (chunkSize - 1)) / chunkSize * chunkSize
  (List.range n).flatMap fun i =>
    (if i % chunkSize = 0 then linePrefix ++ upper (hexInt 4 i) else []) ++
    (if i % (chunkSize / 2) = 0 then str "  "
      else if i % (chunkSize / 4) = 0 then str " " else []) ++
    (match b[i]? with
      | some c => upper (hexByte c)
      | none => str " ") ++
    (if i % chunkSize = chunkSize - 1 then
      str "    " ++ (List.range chunkSize).map (fun j => printable b (i - (chunkSize - 1) + j)) ++
        str "\n"
      else [])

end ECapture.Events
