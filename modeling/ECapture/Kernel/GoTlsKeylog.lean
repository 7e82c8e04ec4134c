import ECapture.Kernel.GoTlsSecrets
import ECapture.Kernel.Lines
import ECapture.Keylog.Dedup

/-!
# The key log of Go processes

From the calls of `writeKeyLog` in any processes to the lines of the key log. The ring may lose
records, bring them in another order and add bytes to them; a label and client random are logged
once.
-/

namespace ECapture.Kernel.GoTls
open Library
open Keylog (Entry GoTLSMasterSecretEvent KeylogHandler newKeylogHandler handleAll isZeroBytes)

/-- A call of `writeKeyLog` as crypto/tls makes it: the label is a name that fits into 32 bytes with
its NUL, and neither the client random nor the secret is longer than 64 bytes. -/
structure KeyLogCall where
  ctx : Ctx
  isRegisterAbi : Bool
  byte : UInt64 → UInt8
  label : Bytes
  clientRandom : Bytes
  secret : Bytes
  reads : Reads ctx.mem byte
  call : WriteKeyLog ctx.args isRegisterAbi byte label clientRandom secret
  mapped : Mapped ctx.mem ctx.args isRegisterAbi
  labelSize : 1 ≤ label.length ∧ label.length ≤ 31
  noNul : 0 ∉ label
  randomSize : 1 ≤ clientRandom.length ∧ clientRandom.length ≤ 64
  secretSize : 1 ≤ secret.length ∧ secret.length ≤ 64

namespace KeyLogCall

variable (c : Consts) (k : KeyLogCall)

def records : List Bytes := gotlsMastersecret c k.isRegisterAbi k.ctx

def event : GoTLSMasterSecretEvent := ⟨k.label, k.clientRandom, k.secret⟩

/-- The line for the call. -/
def entry : Entry := ⟨k.label, k.clientRandom, k.secret⟩

/-- The call belongs into the key log. -/
def logged : Bool := passesFilter c k.ctx.task && !isZeroBytes k.secret

/-- A record of the call, with bytes behind it. -/
def Received (data : Bytes) : Prop :=
  ∃ (r : MastersecretGotlsT) (pad : Bytes), data = r.bytes ++ pad ∧
    r.Carries k.label k.clientRandom k.secret

variable {c k}

theorem records_of_rejected (rejected : passesFilter c k.ctx.task = false) : k.records c = [] := by
  simp [records, gotlsMastersecret, rejected]

theorem records_of_passes (passes : passesFilter c k.ctx.task = true) :
    ∃ r : MastersecretGotlsT, k.records c = [r.bytes] ∧
      r.Carries k.label k.clientRandom k.secret :=
  gotlsMastersecret_eq passes k.reads k.call k.mapped k.labelSize k.noNul k.randomSize k.secretSize

/-- What the handler accepts of a call is its line, unless the secret is zero. -/
theorem entries_event (hk : Keylog.Hkdf) :
    Keylog.entries hk (.goTLS k.event) = if isZeroBytes k.secret then [] else [k.entry] := by
  have label : k.label ≠ [] := List.length_pos_iff.mp k.labelSize.1
  have random : k.clientRandom ≠ [] := List.length_pos_iff.mp k.randomSize.1
  have secret : k.secret ≠ [] := List.length_pos_iff.mp k.secretSize.1
  simp [Keylog.entries, event, entry, label, random, secret]

end KeyLogCall

/-- The records are those of the calls that the filter lets pass. -/
theorem records_of_calls (c : Consts) (calls : List KeyLogCall) :
    List.Forall₂ (fun k record => KeyLogCall.Received k record)
      (calls.filter fun k => passesFilter c k.ctx.task) (calls.flatMap (KeyLogCall.records c)) := by
  induction calls with
  | nil => exact .nil
  | cons k calls ih =>
    rw [List.flatMap_cons]
    cases passes : passesFilter c k.ctx.task with
    | false =>
      rw [List.filter_cons, if_neg (by simp [passes]), KeyLogCall.records_of_rejected passes]
      exact ih
    | true =>
      obtain ⟨r, emitted, carries⟩ := KeyLogCall.records_of_passes passes
      rw [List.filter_cons, if_pos passes, emitted]
      exact .cons ⟨r, [], (List.append_nil _).symm, carries⟩ ih

/-! ## The reader of `mastersecret_go_events` -/

/-- `perfEventLoop` on one record after another; the events have no `PerfMonoNs`. -/
def readSecrets (env : Events.Env) (order : Events.HandlerOrder) :
    List Bytes → Events.Dispatcher → Library.Traced Events.Event Events.Dispatcher
  | [], d => return d
  | data :: rest, d => do
    let d ← Events.perfEventLoop env order .mastersecretGoEvents data d
    readSecrets env order rest d

/-- The dispatcher of key log mode. -/
def keylogMode (handler : KeylogHandler) : Events.Dispatcher := ⟨[.keylog handler], false⟩

/-- What `Handle` is given for these calls. -/
def history (env : Events.Env) (seen : List KeyLogCall) :
    List (Keylog.KeylogEvent × Keylog.MapOrder) :=
  seen.map fun k => (.goTLS k.event, env.secretsOrder)

theorem readSecrets_eq (env : Events.Env) (order : Events.HandlerOrder) {seen : List KeyLogCall}
    {received : List Bytes} (described : List.Forall₂ KeyLogCall.Received seen received)
    (handler : KeylogHandler) (touched : List Events.Event) :
    ∃ touched', readSecrets env order received (keylogMode handler) touched =
      .ok (keylogMode (handleAll env.hk env.writerOk (history env seen) handler), touched') := by
  induction described generalizing handler touched with
  | nil => exact ⟨touched, rfl⟩
  | cons first _ ih =>
    obtain ⟨r, pad, rfl, carries⟩ := first
    obtain ⟨between, step⟩ := carries.perfEventLoop env order pad handler touched
    obtain ⟨touched', run⟩ := ih _ between
    refine ⟨touched', ?_⟩
    rw [readSecrets]
    change (Events.perfEventLoop env order .mastersecretGoEvents (r.bytes ++ pad)
      (keylogMode handler) touched).bind _ = _
    rw [keylogMode, step]
    exact run

/-! ## The key log -/

theorem entries_history (env : Events.Env) (seen : List KeyLogCall) :
    ((history env seen).map Prod.fst).flatMap (Keylog.entries env.hk) =
      (seen.filter fun k => !isZeroBytes k.secret).map KeyLogCall.entry := by
  induction seen with
  | nil => rfl
  | cons k seen ih =>
    rw [history, List.map_cons, List.map_cons, List.flatMap_cons, KeyLogCall.entries_event]
    rw [history] at ih
    rw [ih]
    cases zero : isZeroBytes k.secret <;> simp [zero]

/-- For all calls of `writeKeyLog` in any processes and any arrival of their records, the reader
loop does not panic, and the key log has one line for each label and client random, with a secret
that a traced call was given for them. When nothing is lost, no traced call with a secret goes
without a line. -/
theorem keylog_of_writeKeyLog (c : Consts) (env : Events.Env) (writes : ∀ n, env.writerOk n = true)
    (order : Events.HandlerOrder) (calls : List KeyLogCall) {received : List Bytes}
    (arrives : Ssl.Arrives (calls.flatMap (KeyLogCall.records c)) received) :
    ∃ (handler : KeylogHandler) (touched : List Events.Event) (written : List Entry),
      readSecrets env order received (keylogMode newKeylogHandler) [] =
        .ok (keylogMode handler, touched) ∧
      handler.writer.lines = written.map Entry.line ∧
      (written.map Entry.pair).Nodup ∧
      (∀ x ∈ written, ∃ k ∈ calls, k.logged c = true ∧ x = k.entry) ∧
      (received.length = (calls.flatMap (KeyLogCall.records c)).length →
        ∀ k ∈ calls, k.logged c = true → ∃ x ∈ written, x.pair = k.entry.pair) := by
  have always : env.writerOk = Keylog.always := funext writes
  obtain ⟨emitted, part, padded⟩ := arrives
  obtain ⟨seen, sub, made⟩ := exists_subperm_left (records_of_calls c calls) part
  have described : List.Forall₂ KeyLogCall.Received seen received := by
    refine forall₂_comp ?_ made padded
    rintro k _ _ ⟨r, pad, rfl, carries⟩ ⟨pad', rfl⟩
    exact ⟨r, pad ++ pad', List.append_assoc .., carries⟩
  obtain ⟨touched, run⟩ := readSecrets_eq env order described newKeylogHandler []
  obtain ⟨written, held⟩ := Keylog.handleAll_holds env.hk (history env seen)
    (h := newKeylogHandler) Keylog.Holds.nil
  rw [List.nil_append, entries_history] at held
  rw [← always] at held
  refine ⟨_, touched, written, run, held.lines, held.nodup, ?_, ?_⟩
  · intro x mem
    have carried := List.mem_of_find?_eq_some ((held.first x).mp mem)
    obtain ⟨k, isSeen, rfl⟩ := List.mem_map.mp carried
    obtain ⟨isSeen, nonzero⟩ := List.mem_filter.mp isSeen
    obtain ⟨isCall, passes⟩ := List.mem_filter.mp (sub.subset isSeen)
    exact ⟨k, isCall, by rw [KeyLogCall.logged, passes, nonzero]; rfl, rfl⟩
  · intro all k isCall logged
    obtain ⟨passes, nonzero⟩ := Bool.and_eq_true_iff.mp logged
    have total := (records_of_calls c calls).length_eq
    have count := described.length_eq
    have perm := sub.perm_of_length_le (by omega)
    have isSeen : k ∈ seen := perm.mem_iff.mpr (List.mem_filter.mpr ⟨isCall, passes⟩)
    exact (held.carried k.entry.pair).mpr
      ⟨k.entry, List.mem_map_of_mem (List.mem_filter.mpr ⟨isSeen, nonzero⟩), rfl⟩

/-- Process 7 logs the master secret of a TLS 1.2 connection. -/
def clientRandomCall : KeyLogCall where
  ctx := callOfWriteKeyLog
  isRegisterAbi := true
  byte := keyBytes
  label := str "CLIENT_RANDOM"
  clientRandom := List.replicate 32 0x11
  secret := List.replicate 48 0x22
  reads := reads_memoryOf _
  call := by constructor <;> decide
  mapped := mapped_memoryOf _ _ _
  labelSize := by decide
  noNul := by decide
  randomSize := by decide
  secretSize := by decide

theorem keylog_of_writeKeyLog_twice :
    ∃ (handler : KeylogHandler) (touched : List Events.Event) (written : List Entry),
      readSecrets Events.plainEnv ⟨id, fun _ => .refl _⟩
          ([clientRandomCall, clientRandomCall].flatMap (KeyLogCall.records .unfiltered))
          (keylogMode newKeylogHandler) [] = .ok (keylogMode handler, touched) ∧
      handler.writer.lines = written.map Entry.line ∧ (written.map Entry.pair).Nodup ∧
      ∃ x ∈ written, x.pair = clientRandomCall.entry.pair := by
  have arrives := arrives_all
    ([clientRandomCall, clientRandomCall].flatMap (KeyLogCall.records .unfiltered))
  rw [filterMap_rawSample] at arrives
  obtain ⟨handler, touched, written, run, lines, nodup, -, complete⟩ :=
    keylog_of_writeKeyLog .unfiltered Events.plainEnv (fun _ => rfl) ⟨id, fun _ => .refl _⟩
      [clientRandomCall, clientRandomCall] arrives
  exact ⟨handler, touched, written, run, lines, nodup,
    complete rfl clientRandomCall (by simp) (by decide)⟩

end ECapture.Kernel.GoTls
