import ECapture.Events.Text

/-!
# Events of the bash probe

`internal/probe/bash`: a record is decoded and then handled by the probe, which keeps the lines of a
command until it is completed. Only a completed command has `AllLines` and is printed.
-/

namespace ECapture.Events.Bash
open Library

def bashEventTypeReadline : UInt32 := 0
def bashEventTypeRetval : UInt32 := 1
def bashEventTypeExitOrExec : UInt32 := 2

def maxDataSizeBash : Nat := 256

structure Event where
  bashType : UInt32
  pid : UInt32
  uid : UInt32
  line : Vector UInt8 maxDataSizeBash
  returnValue : UInt32
  comm : Vector UInt8 16
  allLines : Bytes

namespace Event

def decodeFromBytes : Reader Error Event := do
  let bashType ← field "bash.BashType" readU32
  let pid ← field "bash.Pid" readU32
  let uid ← field "bash.Uid" readU32
  let line ← field "bash.Line" (readFull maxDataSizeBash)
  let returnValue ← field "bash.ReturnValue" readU32
  let comm ← field "bash.Comm" (readFull 16)
  return { bashType, pid, uid, line, returnValue, comm, allLines := [] }

/-- The text of a command up to its lines, with the return value as it is printed. -/
def header (pid uid : UInt32) (comm : Vector UInt8 16) (retvalue : Bytes) : Bytes :=
  str "PID:" ++ dec pid.toNat ++ str ", UID:" ++ dec uid.toNat ++ str ", Comm:" ++
    commToString comm.toList ++ str ", Retvalue:" ++ retvalue

def string (e : Event) : Bytes :=
  if e.allLines = [] then []
  else header e.pid e.uid e.comm (dec e.returnValue.toNat) ++ str ", Line:\n" ++ e.allLines

def stringHex (e : Event) : Bytes :=
  if e.allLines = [] then []
  else header e.pid e.uid e.comm (dec e.returnValue.toNat) ++ str ", Line(hex):\n" ++ hex e.allLines

/-- `UUID` of a shell. -/
def uuid (pid uid : UInt32) (comm : Vector UInt8 16) : Bytes :=
  dec pid.toNat ++ 95 :: (dec uid.toNat ++ 95 :: commToString comm.toList)

end Event

/-- `lineMap`; a missing key reads as the empty string. -/
abbrev LineMap := Bytes → Bytes

/-- A line is put behind the lines there are. -/
def joinLine (existingLine newLine : Bytes) : Bytes :=
  if existingLine ≠ [] then existingLine ++ 10 :: newLine else newLine

/-- `handleEvent`, which changes the event and the map. -/
def handleEvent (errNo : Int64) (event : Event) (lineMap : LineMap) : Event × LineMap :=
  let uuid := Event.uuid event.pid event.uid event.comm
  let line := lineMap uuid
  if event.bashType = bashEventTypeReadline then
    (event,
      Function.update lineMap uuid (joinLine line (commToString event.line.toList)))
  else if event.bashType = bashEventTypeRetval then
    let lineMap := Function.update lineMap uuid []
    if line = [] ∨ event.returnValue = errNo.toUInt64.toUInt32 then (event, lineMap)
    else ({ event with allLines := line }, lineMap)
  else if event.bashType = bashEventTypeExitOrExec then
    let lineMap := Function.update lineMap uuid []
    if line = [] then (event, lineMap) else ({ event with allLines := line }, lineMap)
  else (event, lineMap)

/-- `bashEventDecoder.Decode`. -/
def decode (errNo : Int64) (data : Bytes) (lineMap : LineMap) : Except Error Event × LineMap :=
  match Event.decodeFromBytes.run data with
  | .error err => (.error err, lineMap)
  | .ok event =>
    let (event, lineMap) := handleEvent errNo event lineMap
    (.ok event, lineMap)

/-- What `TextHandler.Handle` writes for an output. -/
def textOutput (output : Bytes) : List Bytes :=
  if output = [] then []
  else if output.getLast? = some 10 then [output]
  else [output ++ [10]]

/-- A record through the decoder and the text handler. -/
def consume (errNo : Int64) (useHex : Bool) (data : Bytes) (lineMap : LineMap) :
    List Bytes × LineMap :=
  match decode errNo data lineMap with
  | (.error _, lineMap) => ([], lineMap)
  | (.ok event, lineMap) => (textOutput (if useHex then event.stringHex else event.string), lineMap)

/-! ## Shells have their own lines -/

theorem Event.uuid_inj {pid pid' uid uid' : UInt32} {comm comm' : Vector UInt8 16} :
    uuid pid uid comm = uuid pid' uid' comm' ↔
      pid = pid' ∧ uid = uid' ∧ commToString comm.toList = commToString comm'.toList := by
  constructor
  · intro same
    obtain ⟨pids, rest⟩ := cut_at_first (underscore_not_mem_dec _) (underscore_not_mem_dec _) same
    obtain ⟨uids, comms⟩ := cut_at_first (underscore_not_mem_dec _) (underscore_not_mem_dec _) rest
    exact ⟨UInt32.toNat_inj.mp (dec_injective pids),
      UInt32.toNat_inj.mp (dec_injective uids), comms⟩
  · rintro ⟨rfl, rfl, comms⟩
    rw [uuid, uuid, comms]

theorem Event.uuid_pid {pid pid' uid uid' : UInt32} {comm comm' : Vector UInt8 16}
    (same : uuid pid uid comm = uuid pid' uid' comm') : pid = pid' :=
  (uuid_inj.mp same).1

end ECapture.Events.Bash
