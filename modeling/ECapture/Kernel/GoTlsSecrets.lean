import ECapture.Events.Loop
import ECapture.Keylog.Failures
import ECapture.Kernel.GoTls

/-!
# The GoTLS probe on key material

`gotls_mastersecret` of `kern/gotls_kern.c` on `writeKeyLog(label, clientRandom, secret)`. It reads
windows of a fixed size from where the arguments start, the label with a string read, and narrows
the lengths to a byte; the decoder cuts the windows again. What comes out at the key log handler
are the arguments, whatever stands behind them.
-/

namespace ECapture.Kernel.GoTls
open Library Kernel.Ssl

/-! ## Strings -/

/-- The bytes in front of the first NUL, `n` at most. -/
def readStr (mem : UserMemory) (addr : UInt64) : Nat → Option Bytes
  | 0 => some []
  | n + 1 =>
    match mem.read addr 1 with
    | none => none
    | some v => if v.head = 0 then some [] else (v.head :: ·) <$> readStr mem (addr + 1) n

/-- `bpf_probe_read_user_str`: the string with a NUL, in what the destination has room for. -/
def probeReadUserStr {n : Nat} (mem : UserMemory) (addr : UInt64) (dst : Vector UInt8 n) :
    Bool × Vector UInt8 n :=
  match readStr mem addr n with
  | none => (false, zeros n)
  | some s =>
    let terminated := s.take (n - 1) ++ [0]
    (true, overwrite dst (⟨terminated.toArray, rfl⟩ : Vector UInt8 terminated.length))

/-! ## The probe -/

/-- `struct mastersecret_gotls_t`. -/
structure MastersecretGotlsT where
  label : Vector UInt8 32
  labellen : UInt8
  clientRandom : Vector UInt8 64
  clientRandomLen : UInt8
  secret : Vector UInt8 64
  secretLen : UInt8

def MastersecretGotlsT.bytes (r : MastersecretGotlsT) : Bytes :=
  r.label.toList ++ (leBytes 1 r.labellen.toNat ++ (r.clientRandom.toList ++
    (leBytes 1 r.clientRandomLen.toNat ++ (r.secret.toList ++ leBytes 1 r.secretLen.toNat))))

/-- `gotls_mastersecret`: the records. -/
def gotlsMastersecret (c : Consts) (isRegisterAbi : Bool) (x : Ctx) : List Bytes :=
  if !passesFilter c x.task then []
  else
    let labPtr := goGetArgument x.args isRegisterAbi 2
    let labLen := (goGetArgument x.args isRegisterAbi 3).toUInt32.toInt32
    let crPtr := goGetArgument x.args isRegisterAbi 4
    let crLen := (goGetArgument x.args isRegisterAbi 5).toUInt32.toInt32
    let secretPtr := goGetArgument x.args isRegisterAbi 7
    let secretLen := (goGetArgument x.args isRegisterAbi 8).toUInt32.toInt32
    if labLen ≤ 0 ∨ crLen ≤ 0 ∨ secretLen ≤ 0 then []
    else
      let (ok, label) := probeReadUserStr x.mem labPtr (zeros 32)
      if !ok then []
      else
        let (ok, clientRandom) := x.mem.probeRead crPtr 64
        if !ok then []
        else
          let (ok, secret) := x.mem.probeRead secretPtr 64
          if !ok then []
          else
            let mastersecretGotls : MastersecretGotlsT :=
              { label, labellen := labLen.toUInt32.toUInt8
                clientRandom, clientRandomLen := crLen.toUInt32.toUInt8
                secret, secretLen := secretLen.toUInt32.toUInt8 }
            [mastersecretGotls.bytes]

/-! ## What the reads give -/

/-- Reads that succeed give the memory. -/
def Reads (mem : UserMemory) (byte : UInt64 → UInt8) : Prop :=
  ∀ addr n v, mem.read addr n = some v → v.toList = bytesAt byte addr n

theorem bytesAt_succ (byte : UInt64 → UInt8) (addr : UInt64) (n : Nat) :
    bytesAt byte addr (n + 1) = byte addr :: bytesAt byte (addr + 1) n := by
  rw [Nat.add_comm, bytesAt_add]
  simp [bytesAt]

theorem take_bytesAt {byte : UInt64 → UInt8} {addr : UInt64} {k n : Nat} (h : k ≤ n) :
    (bytesAt byte addr n).take k = bytesAt byte addr k := by
  obtain ⟨m, rfl⟩ := Nat.exists_eq_add_of_le h
  rw [bytesAt_add]
  exact List.take_left' (length_bytesAt byte addr k)

theorem readStr_eq {mem : UserMemory} {byte : UInt64 → UInt8} (reads : Reads mem byte)
    {addr : UInt64} {n : Nat} {s : Bytes} (read : readStr mem addr n = some s) :
    s = (bytesAt byte addr n).takeWhile (· != 0) := by
  induction n generalizing addr s with
  | zero =>
    cases read
    rfl
  | succ n ih =>
    rw [readStr] at read
    rw [bytesAt_succ]
    split at read
    case h_1 => cases read
    case h_2 v first =>
      have head : v.head = byte addr := by
        have value := reads addr 1 v first
        rw [bytesAt_succ] at value
        have first : v.toList[0]? = some v.head := by simp [Vector.head]
        rw [value] at first
        exact (Option.some.inj first).symm
      rw [head] at read
      split at read
      case isTrue nul =>
        cases read
        simp [nul]
      case isFalse go =>
        obtain ⟨rest, eq, rfl⟩ := Option.map_eq_some_iff.mp read
        rw [List.takeWhile_cons_of_pos (by simpa using go), ih eq]

/-- The front of the window is the string, which ends before the last byte of the window. -/
theorem probeReadUserStr_eq {mem : UserMemory} {byte : UInt64 → UInt8} (reads : Reads mem byte)
    {addr : UInt64} {n : Nat} (dst : Vector UInt8 n) {label : Bytes}
    (here : bytesAt byte addr label.length = label) (noNul : 0 ∉ label) (fits : label.length < n)
    (ok : (readStr mem addr n).isSome) :
    ∃ v, probeReadUserStr mem addr dst = (true, v) ∧ v.toList.take label.length = label := by
  obtain ⟨s, read⟩ := Option.isSome_iff_exists.mp ok
  obtain ⟨m, rfl⟩ := Nat.exists_eq_add_of_lt fits
  have text := readStr_eq reads read
  rw [Nat.add_assoc, bytesAt_add, here, List.takeWhile_append_of_pos (by
    intro b mem
    simpa using fun zero : b = 0 => noNul (zero ▸ mem))] at text
  rw [probeReadUserStr, read]
  refine ⟨_, rfl, ?_⟩
  have front : (s.take (label.length + m + 1 - 1)).take label.length = label := by
    rw [List.take_take, Nat.min_eq_left (by omega), text, List.take_left]
  change ((_ ++ dst.toList.drop _).take _).take _ = _
  rw [List.take_take, Nat.min_eq_left (by omega)]
  change ((s.take (label.length + m + 1 - 1) ++ [0]) ++ _).take _ = _
  rw [List.append_assoc, List.take_append_of_le_length, front]
  rw [text]
  simp

/-! ## The record of a call -/

/-- `writeKeyLog(label, clientRandom, secret)` at its entry, where `byte` is the memory: strings and
slices are a pointer and a length, and nothing is said of what follows them. -/
structure WriteKeyLog (args : GoArgs) (isRegisterAbi : Bool) (byte : UInt64 → UInt8)
    (label clientRandom secret : Bytes) : Prop where
  labelPtr : bytesAt byte (goGetArgument args isRegisterAbi 2) label.length = label
  labelLen : goGetArgument args isRegisterAbi 3 = .ofNat label.length
  crPtr :
    bytesAt byte (goGetArgument args isRegisterAbi 4) clientRandom.length = clientRandom
  crLen : goGetArgument args isRegisterAbi 5 = .ofNat clientRandom.length
  secretPtr : bytesAt byte (goGetArgument args isRegisterAbi 7) secret.length = secret
  secretLen : goGetArgument args isRegisterAbi 8 = .ofNat secret.length

/-- The three reads of the probe succeed. -/
structure Mapped (mem : UserMemory) (args : GoArgs) (isRegisterAbi : Bool) : Prop where
  label : (readStr mem (goGetArgument args isRegisterAbi 2) 32).isSome
  clientRandom : (mem.read (goGetArgument args isRegisterAbi 4) 64).isSome
  secret : (mem.read (goGetArgument args isRegisterAbi 7) 64).isSome

/-- The windows of the record start with the arguments, and the lengths are theirs. -/
structure MastersecretGotlsT.Carries (r : MastersecretGotlsT) (label clientRandom secret : Bytes) :
    Prop where
  labelFront : r.label.toList.take label.length = label
  labellen : r.labellen.toNat = label.length
  crFront : r.clientRandom.toList.take clientRandom.length = clientRandom
  crLen : r.clientRandomLen.toNat = clientRandom.length
  secretFront : r.secret.toList.take secret.length = secret
  secretLen : r.secretLen.toNat = secret.length

/-- Lengths of 1 to 64 count as positive and survive the narrowing. -/
theorem length_narrowed {n : Nat} (pos : 1 ≤ n) (small : n ≤ 64) :
    ¬ (UInt64.ofNat n).toUInt32.toInt32 ≤ 0 ∧
      (UInt64.ofNat n).toUInt32.toInt32.toUInt32.toUInt8.toNat = n := by
  have word : (UInt64.ofNat n).toUInt32 = UInt32.ofNat n := by simp
  have signed : (UInt32.ofNat n).toInt32 = Int32.ofNat n := by
    rw [toInt32_eq_ofNat, UInt32.toNat_ofNat', Nat.mod_eq_of_lt (by omega)]
  constructor
  · rw [word, signed, Int32.le_iff_toInt_le, toInt_ofNat_small (by omega)]
    simp only [Int32.toInt_zero]
    omega
  · rw [word, UInt32.toUInt32_toInt32, UInt32.toNat_toUInt8, UInt32.toNat_ofNat']
    omega

theorem take_window {mem : UserMemory} {byte : UInt64 → UInt8} (reads : Reads mem byte)
    {addr : UInt64} {n : Nat} {value : Bytes} (here : bytesAt byte addr value.length = value)
    (fits : value.length ≤ n) (ok : (mem.read addr n).isSome) :
    ∃ v, mem.probeRead addr n = (true, v) ∧ v.toList.take value.length = value := by
  obtain ⟨v, read⟩ := Option.isSome_iff_exists.mp ok
  refine ⟨v, by rw [UserMemory.probeRead, read], ?_⟩
  rw [reads addr n v read, take_bytesAt fits, here]

variable {c : Consts} {isRegisterAbi : Bool} {x : Ctx} {byte : UInt64 → UInt8}
  {label clientRandom secret : Bytes}

theorem gotlsMastersecret_eq (passes : passesFilter c x.task = true) (reads : Reads x.mem byte)
    (call : WriteKeyLog x.args isRegisterAbi byte label clientRandom secret)
    (mapped : Mapped x.mem x.args isRegisterAbi)
    (labelSize : 1 ≤ label.length ∧ label.length ≤ 31) (noNul : 0 ∉ label)
    (randomSize : 1 ≤ clientRandom.length ∧ clientRandom.length ≤ 64)
    (secretSize : 1 ≤ secret.length ∧ secret.length ≤ 64) :
    ∃ r : MastersecretGotlsT, gotlsMastersecret c isRegisterAbi x = [r.bytes] ∧
      r.Carries label clientRandom secret := by
  obtain ⟨labelPos, labelLen⟩ := length_narrowed labelSize.1 (by omega)
  obtain ⟨randomPos, randomLen⟩ := length_narrowed randomSize.1 randomSize.2
  obtain ⟨secretPos, secretLen⟩ := length_narrowed secretSize.1 secretSize.2
  obtain ⟨v₁, read₁, front₁⟩ :=
    probeReadUserStr_eq reads (zeros 32) call.labelPtr noNul (by omega) mapped.label
  obtain ⟨v₂, read₂, front₂⟩ := take_window reads call.crPtr randomSize.2 mapped.clientRandom
  obtain ⟨v₃, read₃, front₃⟩ := take_window reads call.secretPtr secretSize.2 mapped.secret
  refine ⟨⟨v₁, _, v₂, _, v₃, _⟩, ?_, ⟨front₁, labelLen, front₂, randomLen, front₃, secretLen⟩⟩
  rw [gotlsMastersecret, passes]
  simp only [call.labelLen, call.crLen, call.secretLen, labelPos, randomPos, secretPos,
    read₁, read₂, read₃, Bool.not_true, Bool.false_eq_true, if_false, or_self]
  rfl

/-! ## What the reader loop makes of it -/

open Events.GoTLS (MasterSecretEvent)

/-- The fields of the event. -/
def MastersecretGotlsT.event (r : MastersecretGotlsT) : MasterSecretEvent :=
  { label := r.label, labelLen := r.labellen, clientRandom := r.clientRandom,
    clientRandomLen := r.clientRandomLen, secret := r.secret, secretLen := r.secretLen }

theorem decode_mastersecretGotlsT (r : MastersecretGotlsT) (tail : Bytes) :
    MasterSecretEvent.decodeFromBytes (r.bytes ++ tail) = .ok r.event := by
  have size : ¬ (r.bytes ++ tail).length < MasterSecretEvent.expectedSize := by
    simp [MastersecretGotlsT.bytes, MasterSecretEvent.expectedSize]
    omega
  rw [MasterSecretEvent.decodeFromBytes, if_neg size]
  unfold Reader.run MasterSecretEvent.decodeFields MastersecretGotlsT.bytes
  simp only [List.append_assoc]
  rw [Reader.bind_ok (Events.field_ok (readFull_append r.label _)),
    Reader.bind_ok (Events.field_ok (readU8_leBytes r.labellen _)),
    Reader.bind_ok (Events.field_ok (readFull_append r.clientRandom _)),
    Reader.bind_ok (Events.field_ok (readU8_leBytes r.clientRandomLen _)),
    Reader.bind_ok (Events.field_ok (readFull_append r.secret _)),
    Reader.bind_ok (Events.field_ok (readU8_leBytes r.secretLen _))]
  rfl

namespace MastersecretGotlsT.Carries

variable {r : MastersecretGotlsT} (h : r.Carries label clientRandom secret)
include h

/-- The lengths are within the windows. -/
theorem validate : r.event.validate = .ok () := by
  have label := congrArg List.length h.labelFront
  have random := congrArg List.length h.crFront
  have value := congrArg List.length h.secretFront
  simp only [List.length_take, Vector.length_toList] at label random value
  have fits₁ : ¬ 32 < r.labellen := by
    rw [UInt8.lt_iff_toNat_lt, h.labellen]
    change ¬ 32 < _
    omega
  have fits₂ : ¬ 64 < r.clientRandomLen := by
    rw [UInt8.lt_iff_toNat_lt, h.crLen]
    change ¬ 64 < _
    omega
  have fits₃ : ¬ 64 < r.secretLen := by
    rw [UInt8.lt_iff_toNat_lt, h.secretLen]
    change ¬ 64 < _
    omega
  rw [MasterSecretEvent.validate, MastersecretGotlsT.event, if_neg fits₁, if_neg fits₂,
    if_neg fits₃]

/-- The getters cut the windows to the arguments. -/
theorem getters : r.event.getLabel = .ok label ∧ r.event.getClientRandom = .ok clientRandom ∧
    r.event.getSecret = .ok secret := by
  have cut : ∀ {n : Nat} (v : Vector UInt8 n) (len : UInt8) {value : Bytes},
      v.toList.take value.length = value → len.toNat = value.length →
      sliceTo len.toNat v.toList = .ok value := by
    intro n v len value front size
    have fits := congrArg List.length front
    simp only [List.length_take] at fits
    rw [size, sliceTo_of_le (by omega), front]
  exact ⟨cut _ _ h.labelFront h.labellen, cut _ _ h.crFront h.crLen,
    cut _ _ h.secretFront h.secretLen⟩

theorem keylogEvent : r.event.keylogEvent = .ok ⟨label, clientRandom, secret⟩ := by
  obtain ⟨label, random, value⟩ := h.getters
  rw [MasterSecretEvent.keylogEvent, label, random, value]
  rfl

/-- The text for the debug log. -/
theorem string : ∃ text, r.event.string = .ok text := by
  obtain ⟨label, random, -⟩ := h.getters
  unfold MasterSecretEvent.getLabel at label
  unfold MasterSecretEvent.getClientRandom at random
  rw [MasterSecretEvent.string, label, random]
  exact ⟨_, rfl⟩

open Keylog (KeylogHandler)

theorem handle (env : Events.Env) (handler : KeylogHandler) :
    ∃ err, Events.Handler.handle env (.gotlsSecret r.event) (.keylog handler) = fun touched =>
      .ok ((err,
        .keylog (Keylog.handleGoTLS env.writerOk ⟨label, clientRandom, secret⟩ handler).2),
        .gotlsSecret r.event :: touched) := by
  have given : (Events.Event.gotlsSecret r.event).keylogEvent =
      .ok (.goTLS ⟨label, clientRandom, secret⟩) := by
    rw [Events.Event.keylogEvent, h.keylogEvent]
    rfl
  apply Exists.intro
  funext touched
  rw [Events.Handler.handle, Events.keylogHandle, Traced.touch_bind, given, Traced.lift_ok_bind]
  rfl

/-- One iteration of the reader loop hands the arguments to the key log handler. -/
theorem perfEventLoop (env : Events.Env) (order : Events.HandlerOrder) (tail : Bytes)
    (handler : KeylogHandler) (touched : List Events.Event) :
    ∃ touched', Events.perfEventLoop env order .mastersecretGoEvents (r.bytes ++ tail)
        ⟨[.keylog handler], false⟩ touched =
      .ok (⟨[.keylog (Keylog.handleGoTLS env.writerOk ⟨label, clientRandom, secret⟩ handler).2],
        false⟩, touched') := by
  obtain ⟨text, string⟩ := h.string
  obtain ⟨err, handled⟩ := h.handle env handler
  have visit : order.visit [.keylog handler] = [.keylog handler] :=
    List.perm_singleton.mp (order.perm _)
  have decoded : Events.decode env.host .mastersecretGoEvents (r.bytes ++ tail) =
      .ok (.ok (.gotlsSecret r.event)) := by
    rw [Events.decode, decode_mastersecretGotlsT]
    rfl
  have valid : (Events.Event.gotlsSecret r.event).validate = .ok () := h.validate
  have shown : (Events.Event.gotlsSecret r.event).string env.host = .ok text := string
  rw [Events.perfEventLoop, decoded, Traced.lift_ok_bind]
  dsimp only
  rw [Traced.touch_bind, shown, Traced.lift_ok_bind, Events.Dispatcher.dispatch, valid]
  dsimp only
  rw [visit, shown, Events.handleEach, handled]
  -- after an error of its only handler the dispatcher prints the event once more
  cases err with
  | none => exact ⟨_, rfl⟩
  | some err => exact ⟨_, rfl⟩

end MastersecretGotlsT.Carries

/-! ## The line -/

open Keylog (KeylogHandler KeylogEvent MapOrder handleGoTLS handleAll newKeylogHandler dedupKey)

/-- A label and client random without a key are written with the secret. -/
theorem writer_handleGoTLS {ok : Nat → Bool} {handler : KeylogHandler} (named : label ≠ [])
    (random : clientRandom ≠ []) (filled : secret ≠ []) (nonzero : ∃ b ∈ secret, b ≠ 0)
    (unseen : dedupKey label clientRandom ∉ handler.seenKeys) :
    (handleGoTLS ok ⟨label, clientRandom, secret⟩ handler).2.writer =
      (handler.write ok
        (label ++ str " " ++ hex clientRandom ++ str " " ++ hex secret)).2.writer := by
  have zero : ¬ Keylog.isZeroBytes secret := by
    obtain ⟨b, mem, ne⟩ := nonzero
    intro all
    exact ne (by simpa using List.all_eq_true.mp all b mem)
  rw [handleGoTLS, if_neg named, if_neg (by simpa using random), if_neg (by simpa using filled),
    if_neg zero]
  dsimp only
  rw [if_neg unseen, Keylog.keylogLine]
  cases written : handler.write ok
    (label ++ str " " ++ hex clientRandom ++ str " " ++ hex secret) with
  | mk sent handler' => cases sent <;> rfl

/-- A call of `writeKeyLog` in a traced process becomes one record. The reader loop makes of it,
after any history without the label and client random and whatever follows the record, one write of
the line of the three arguments. -/
theorem writeKeyLog_line (passes : passesFilter c x.task = true) (reads : Reads x.mem byte)
    (call : WriteKeyLog x.args isRegisterAbi byte label clientRandom secret)
    (mapped : Mapped x.mem x.args isRegisterAbi)
    (labelSize : 1 ≤ label.length ∧ label.length ≤ 31) (noNul : 0 ∉ label)
    (randomSize : 1 ≤ clientRandom.length ∧ clientRandom.length ≤ 64)
    (secretSize : 1 ≤ secret.length ∧ secret.length ≤ 64) (nonzero : ∃ b ∈ secret, b ≠ 0) :
    ∃ record, gotlsMastersecret c isRegisterAbi x = [record] ∧
      ∀ (env : Events.Env) (order : Events.HandlerOrder) (tail : Bytes)
        (history : List (KeylogEvent × MapOrder)) (touched : List Events.Event),
        (∀ entry ∈ (history.map Prod.fst).flatMap (Keylog.entries env.hk),
          entry.pair ≠ (label, clientRandom)) →
        ∃ handler touched',
          Events.perfEventLoop env order .mastersecretGoEvents (record ++ tail)
            ⟨[.keylog (handleAll env.hk env.writerOk history newKeylogHandler)], false⟩ touched =
              .ok (⟨[.keylog handler], false⟩, touched') ∧
          handler.writer =
            ((handleAll env.hk env.writerOk history newKeylogHandler).write env.writerOk
              (label ++ str " " ++ hex clientRandom ++ str " " ++ hex secret)).2.writer := by
  obtain ⟨r, submitted, carries⟩ :=
    gotlsMastersecret_eq passes reads call mapped labelSize noNul randomSize secretSize
  refine ⟨r.bytes, submitted, ?_⟩
  intro env order tail history touched unseen
  obtain ⟨touched', ran⟩ := carries.perfEventLoop env order tail
    (handleAll env.hk env.writerOk history newKeylogHandler) touched
  refine ⟨_, touched', ran, ?_⟩
  apply writer_handleGoTLS (by grind) (by grind) (by grind) nonzero
  intro seen
  rcases Keylog.mem_seenKeys_handleAll seen with none | ⟨entry, mem, key⟩
  · cases none
  · obtain ⟨labels, randoms⟩ := Keylog.dedupKey_inj key
    exact unseen entry mem (Prod.ext labels randoms)

/-! ## A call -/

theorem reads_memoryOf (byte : UInt64 → UInt8) : Reads (memoryOf byte) byte := by
  intro addr n v read
  cases read
  exact toList_ofFn fun i => byte (addr + .ofNat i)

theorem readStr_memoryOf (byte : UInt64 → UInt8) (addr : UInt64) (n : Nat) :
    (readStr (memoryOf byte) addr n).isSome := by
  induction n generalizing addr with
  | zero => rfl
  | succ n ih =>
    rw [readStr, memoryOf]
    dsimp only
    split
    · rfl
    · rw [Option.map_eq_map, Option.isSome_map]
      exact ih (addr + 1)

/-- In a process all of whose memory can be read the three reads succeed. -/
theorem mapped_memoryOf (byte : UInt64 → UInt8) (args : GoArgs) (isRegisterAbi : Bool) :
    Mapped (memoryOf byte) args isRegisterAbi :=
  ⟨readStr_memoryOf byte _ 32, rfl, rfl⟩

/-- Label, client random and secret at address 4096, one directly behind the other. -/
def keyBytes (addr : UInt64) : UInt8 :=
  let arguments := str "CLIENT_RANDOM" ++ List.replicate 32 0x11 ++ List.replicate 48 0x22
  arguments[(addr - 4096).toNat]?.getD 0x33

def callOfWriteKeyLog : Ctx where
  task := { pidTgid := 0x700000008, uidGid := 0, cgroupId := 0, comm := zeros 16 }
  ktime := 1
  mem := memoryOf keyBytes
  args :=
    { reg := fun i => [0, 64, 4096, 13, 4109, 32, 32, 4141, 48][i]?.getD 0
      stack := fun _ => 0 }

theorem writeKeyLog_line_clientRandom :
    ∃ record, gotlsMastersecret .unfiltered true callOfWriteKeyLog = [record] ∧
      ∀ (env : Events.Env) (order : Events.HandlerOrder), ∃ handler touched,
        Events.perfEventLoop env order .mastersecretGoEvents (record ++ [1, 2])
          ⟨[.keylog newKeylogHandler], false⟩ [] = .ok (⟨[.keylog handler], false⟩, touched) ∧
        handler.writer = (newKeylogHandler.write env.writerOk (str "CLIENT_RANDOM" ++ str " " ++
          hex (List.replicate 32 0x11) ++ str " " ++ hex (List.replicate 48 0x22))).2.writer := by
  have call : WriteKeyLog callOfWriteKeyLog.args true keyBytes (str "CLIENT_RANDOM")
      (List.replicate 32 0x11) (List.replicate 48 0x22) := by
    constructor <;> decide
  obtain ⟨record, submitted, shown⟩ :=
    writeKeyLog_line (c := .unfiltered) (x := callOfWriteKeyLog) (by decide) (reads_memoryOf _) call
      (mapped_memoryOf _ _ _) (by decide) (by decide) (by decide) (by decide) (by decide)
  refine ⟨record, submitted, ?_⟩
  intro env order
  exact shown env order [1, 2] [] [] (by simp)

end ECapture.Kernel.GoTls
