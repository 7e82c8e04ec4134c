import Mathlib.Logic.Function.Basic
import ECapture.Library.Bytes
import ECapture.Library.Steps

/-!
# The rotating logger

Every path the logger uses lies in the directory of its file, so that a file is named here by
the last element of its path. The files are a function of their names; the operating system is
an environment of clock readings and of outcomes of its calls, both numbered.

The parts of `Write`, `Rotate`, `Close` and of a tick that run under the mutex are functions on
the state. An interleaving of the goroutines is a list of these.
-/

namespace ECapture.RorateLog
open Library

abbrev Name := Bytes

/-! ## Backup names -/

/-- Nanoseconds since the beginning of 1970, UTC. -/
abbrev Time := Int

/-- A number with at least `width` digits. -/
def pad (width n : Nat) : Bytes := List.replicate (width - (dec n).length) 48 ++ dec n

/-- Year, month and day of the proleptic Gregorian calendar, for a day counted from 1970-01-01. -/
def civil (day : Int) : Int × Nat × Nat :=
  -- years begin in March, so that the leap day is the last one
  let z := day + 719468
  let era := z / 146097
  let doe := (z % 146097).toNat
  let yoe := (doe - doe / 1460 + doe / 36524 - doe / 146096) / 365
  let doy := doe - (365 * yoe + yoe / 4 - yoe / 100)
  let mp := (5 * doy + 2) / 153
  let month := if mp < 10 then mp + 3 else mp - 9
  (yoe + era * 400 + (if month ≤ 2 then 1 else 0), month, doy - (153 * mp + 2) / 5 + 1)

/-- `t.Format("2006-01-02T15-04-05.000")`, with `t` already shifted to its zone. -/
def format (t : Time) : Bytes :=
  let ms := (t / 1000000 % 86400000).toNat
  let (year, month, day) := civil (t / 86400000000000)
  (if year < 0 then str "-" else []) ++ pad 4 year.natAbs ++ str "-" ++ pad 2 month ++ str "-" ++
    pad 2 day ++ str "T" ++ pad 2 (ms / 3600000) ++ str "-" ++ pad 2 (ms / 60000 % 60) ++
    str "-" ++ pad 2 (ms / 1000 % 60) ++ str "." ++ pad 3 (ms % 1000)

/-- `filepath.Ext`: the suffix that begins at the last dot. -/
def ext (name : Name) : Bytes :=
  match cutLast 46 name with
  | some (_, tail) => 46 :: tail
  | none => []

/-! ## The logger and its surroundings -/

structure Env where
  /-- The readings of `currentTime`. -/
  clock : Nat → Time
  /-- The offset of the local zone, in seconds. -/
  zone : Time → Int
  /-- `filepath.Base(os.Args[0])`. -/
  procName : Name
  /-- Whether a call of the operating system succeeds. -/
  ok : Nat → Bool
  /-- How many bytes a failing write still puts into the file. -/
  short : Nat → Nat

/-- The exported fields, which the package does not assign. -/
structure Logger where
  Filename : Name
  MaxSize : Int
  MaxInterval : Int
  LocalTime : Bool
  deriving DecidableEq, Repr

structure State where
  size : Nat
  /-- Whether `file` is not nil. -/
  file : Bool
  /-- Whether `startOnce` has been done. -/
  started : Bool
  files : Name → Option Bytes
  /-- The names the logger's file has been renamed to, in the order of the latest renames. -/
  backups : List Name
  calls : Nat
  reads : Nat

/-- An error: the text put before the error of a call, and the number of the call. -/
structure LogError where
  context : Bytes
  call : Nat
  deriving DecidableEq, Repr

def defaultMaxSize : Int := 100

def megabyte : Int := 1024 * 1024

/-- `max`: the product is one of `int64`. -/
def Logger.max (l : Logger) : Int :=
  if l.MaxSize = 0 then defaultMaxSize * megabyte else Int.bmod (l.MaxSize * megabyte) (2 ^ 64)

variable (env : Env) (l : Logger)

def filename : Name :=
  if l.Filename ≠ [] then l.Filename else env.procName ++ str "-roratelog.log"

def backupName (name : Name) (localTime : Bool) (t : Time) : Name :=
  let e := ext name
  let pre := name.take (name.length - e.length)
  let t := if localTime then t + env.zone t * 1000000000 else t
  pre ++ str "-" ++ format t ++ e

/-! ## Calls of the operating system -/

/-- A call has been made. -/
def State.called (s : State) : State := { s with calls := s.calls + 1 }

inductive Stat where
  | found (content : Bytes)
  | notExist
  | failed (call : Nat)
  deriving DecidableEq, Repr

/-- `os.Stat`; there is no file without a name. -/
def osStat (name : Name) (s : State) : Stat × State :=
  (if env.ok s.calls then
    if name = [] then .notExist
    else match s.files name with
      | some content => .found content
      | none => .notExist
  else .failed s.calls, s.called)

/-- The file of length zero that `O_CREATE|O_TRUNC` leaves. -/
def State.truncate (name : Name) (s : State) : State :=
  { s with files := Function.update s.files name (some []) }

/-- `os.Rename` to a backup; it replaces the file of that name. -/
def State.rename (name newname : Name) (s : State) : State :=
  { s with
    files := Function.update (Function.update s.files newname (s.files name)) name none
    backups := s.backups.filter (· ≠ newname) ++ [newname] }

/-- The bytes of a write at the end of the open file. -/
def State.append (name : Name) (p : Bytes) (s : State) : State :=
  { s with files := Function.update s.files name ((s.files name).map (· ++ p)) }

section

variable (name newname : Name) (p : Bytes) (s : State)

@[simp] theorem State.files_called : s.called.files = s.files := rfl

@[simp] theorem State.backups_called : s.called.backups = s.backups := rfl

@[simp] theorem State.files_truncate :
    (s.truncate name).files = Function.update s.files name (some []) := rfl

@[simp] theorem State.backups_truncate : (s.truncate name).backups = s.backups := rfl

@[simp] theorem State.files_rename : (s.rename name newname).files =
    Function.update (Function.update s.files newname (s.files name)) name none := rfl

@[simp] theorem State.backups_rename :
    (s.rename name newname).backups = s.backups.filter (· ≠ newname) ++ [newname] := rfl

@[simp] theorem State.files_append :
    (s.append name p).files = Function.update s.files name ((s.files name).map (· ++ p)) := rfl

@[simp] theorem State.backups_append : (s.append name p).backups = s.backups := rfl

end

/-! ## Rotation -/

def close (s : State) : Option LogError × State :=
  if s.file then
    (if env.ok s.calls then none else some ⟨[], s.calls⟩, { s.called with file := false })
  else (none, s)

/-- `chown`: create and truncate, close, change the owner. -/
def chown (name : Name) (s : State) : Option LogError × State :=
  if env.ok s.calls then
    let s := s.called.truncate name
    if env.ok s.calls then
      let s := s.called
      (if env.ok s.calls then none else some ⟨[], s.calls⟩, s.called)
    else (some ⟨[], s.calls⟩, s.called)
  else (some ⟨[], s.calls⟩, s.called)

/-- The last lines of `openNew`: open and truncate. -/
def create (name : Name) (s : State) : Option LogError × State :=
  if env.ok s.calls then (none, { s.called.truncate name with file := true, size := 0 })
  else (some ⟨str "can't open new logfile: ", s.calls⟩, s.called)

/-- The part of `openNew` for a file that exists: move it aside and give its owner to a new one. -/
def moveAside (name : Name) (s : State) : Option LogError × State :=
  let newname := backupName env name l.LocalTime (env.clock s.reads)
  let s := { s with reads := s.reads + 1 }
  if env.ok s.calls then chown env name (s.called.rename name newname)
  else (some ⟨str "can't rename log file: ", s.calls⟩, s.called)

def openNew (s : State) : Option LogError × State :=
  let name := filename env l
  if env.ok s.calls then
    match osStat env name s.called with
    | (.found _, s) =>
      match moveAside env l name s with
      | (some err, s) => (some err, s)
      | (none, s) => create env name s
    | (_, s) => create env name s
  else (some ⟨str "can't make directories for new logfile: ", s.calls⟩, s.called)

def rotate (s : State) : Option LogError × State :=
  match close env s with
  | (some err, s) => (some err, s)
  | (none, s) => openNew env l s

def openExistingOrNew (writeLen : Nat) (s : State) : Option LogError × State :=
  match osStat env (filename env l) s with
  | (.notExist, s) => openNew env l s
  | (.failed call, s) => (some ⟨str "error getting log file info: ", call⟩, s)
  | (.found content, s) =>
    if l.max ≤ content.length + writeLen then rotate env l s
    else if env.ok s.calls then (none, { s.called with file := true, size := content.length })
    else openNew env l s.called

/-- The first test of `Write`: there is an open file behind it. -/
def ensureOpen (writeLen : Nat) (s : State) : Option LogError × State :=
  if s.file then (none, s) else openExistingOrNew env l writeLen s

/-- The second test of `Write`, on the running size. -/
def makeRoom (writeLen : Nat) (s : State) : Option LogError × State :=
  if l.max ≤ s.size + writeLen then rotate env l s else (none, s)

/-- `Write` under the mutex: the number of bytes and the error it returns. -/
def write (p : Bytes) (s : State) : (Nat × Option LogError) × State :=
  match ensureOpen env l p.length s with
  | (some err, s) => ((0, some err), s)
  | (none, s) =>
    match makeRoom env l p.length s with
    | (some err, s) => ((0, some err), s)
    | (none, s) =>
      let n := if env.ok s.calls then p.length else min (env.short s.calls) p.length
      ((n, if env.ok s.calls then none else some ⟨[], s.calls⟩),
        { s.called.append (filename env l) (p.take n) with size := s.size + n })

/-- `startRotateTicker` on one tick: it looks at `Filename`, not at `filename`. -/
def tick (s : State) : State :=
  match osStat env l.Filename s with
  | (.found content, s) => if 0 < content.length then (rotate env l s).2 else s
  | (_, s) => s

/-! ## Interleavings -/

inductive Op where
  /-- A call of `Write` does `startOnce`, before it takes the mutex. -/
  | enter
  | write (p : Bytes)
  | rotate
  | close
  | tick
  deriving DecidableEq, Repr

def step (s : State) : Op → Option State
  | .enter => some { s with started := true }
  | .write p => if s.started then some (write env l p s).2 else none
  | .rotate => some (rotate env l s).2
  | .close => some (close env s).2
  | .tick => if s.started ∧ 0 < l.MaxInterval then some (tick env l s) else none

/-- A logger that finds `files`. -/
def start (files : Name → Option Bytes) : State :=
  { size := 0, file := false, started := false, files, backups := [], calls := 0, reads := 0 }

def machine (files : Name → Option Bytes) : Machine State Op := ⟨start files, step env l⟩

variable {env l}

/-- A file that `os.Stat` has found has a name and is there. -/
theorem osStat_spec (env : Env) (name : Name) (s : State) :
    ∃ info, osStat env name s = (info, s.called) ∧
      ∀ content, info = .found content → name ≠ [] ∧ s.files name = some content := by
  refine ⟨_, rfl, fun content found => ?_⟩
  split at found
  case isFalse => cases found
  case isTrue =>
    split at found
    case isTrue => cases found
    case isFalse named =>
      split at found
      case h_1 present =>
        cases found
        exact ⟨named, present⟩
      case h_2 => cases found

/-! ## Names -/

theorem filename_ne_nil : filename env l ≠ [] := by
  unfold filename
  split
  case isTrue named => exact named
  case isFalse => simp [str]

/-- A backup has a longer name than the file. -/
theorem length_lt_backupName (name : Name) (localTime : Bool) (t : Time) :
    name.length < (backupName env name localTime t).length := by
  simp only [backupName, List.length_append, List.length_take, str, List.length_map]
  have one : "-".toList.length = 1 := rfl
  omega

theorem backupName_ne (name : Name) (localTime : Bool) (t : Time) :
    backupName env name localTime t ≠ name := by
  intro same
  have longer : name.length < (backupName env name localTime t).length :=
    length_lt_backupName name localTime t
  rw [same] at longer
  exact Nat.lt_irrefl _ longer

example : format 1478284200000000000 = str "2016-11-04T18-30-00.000" := by decide +kernel

end ECapture.RorateLog
