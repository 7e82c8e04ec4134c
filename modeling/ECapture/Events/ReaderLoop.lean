import ECapture.Events.Bash
import ECapture.Reorder.Order

/-!
# The reader loop of any probe in text mode

What `internal/probe/base` does for every probe alike: `StartPerfEventReader` chooses one of the two
loops, which decode the records of a map and dispatch their events to the text handler. The probe
brings its decoder and what its events say of themselves. A loop also meets failed reads and reports
of lost samples, records that do not decode, events that are not valid, and a writer that fails.
-/

namespace ECapture.Events.ReaderLoop
open Library Reorder

variable {ε : Type}

/-- What a probe brings. `stringHex` is `String` where a type has no `StringHex`. -/
structure Probe (ε : Type) where
  /-- `decoder.Decode`. -/
  decode : Bytes → Except Error ε
  validate : ε → Except Error Unit
  string : ε → Bytes
  stringHex : ε → Bytes
  /-- `PerfMonoNs`, where the type that `GetDecoder` shows has it. -/
  perfMonoNs : Option (ε → UInt64)

/-- What `rd.Read` returns before the reader is closed. -/
inductive Reading where
  | failed
  | lost (lostSamples : UInt64)
  | record (rawSample : Bytes)

/-- What the handler's writer has taken, and how often it was called. -/
structure Written where
  lines : List Bytes
  calls : Nat

/-- Options of the handler and its writer, which may fail at any call. -/
structure Output where
  useHex : Bool
  writerOk : Nat → Bool

def Probe.text (p : Probe ε) (out : Output) (e : ε) : Bytes :=
  if out.useHex then p.stringHex e else p.string e

/-- `Dispatch` with the text handler as the only one. Its error is logged. -/
def dispatch (p : Probe ε) (out : Output) (w : Written) (e : ε) : Written :=
  match p.validate e with
  | .error _ => w
  | .ok _ =>
    match Bash.textOutput (p.text out e) with
    | [] => w
    | line :: _ =>
      { lines := if out.writerOk w.calls then w.lines ++ [line] else w.lines
        calls := w.calls + 1 }

/-! ## The loops -/

def perfEventLoop (p : Probe ε) (out : Output) : List Reading → Written → Written
  | [], w => w
  | .failed :: rest, w | .lost _ :: rest, w => perfEventLoop p out rest w
  | .record rawSample :: rest, w =>
    match p.decode rawSample with
    | .error _ => perfEventLoop p out rest w
    | .ok event => perfEventLoop p out rest (dispatch p out w event)

/-- `perfEventLoopOrdered`, with the deferred flush at its return. -/
def perfEventLoopOrdered (p : Probe ε) (out : Output) (mono : ε → UInt64) :
    List Reading → Written → PerfLagReorder ε → Written
  | [], w, reorder => reorder.flushAll.1.foldl (dispatch p out) w
  | .failed :: rest, w, reorder | .lost _ :: rest, w, reorder =>
    perfEventLoopOrdered p out mono rest w reorder
  | .record rawSample :: rest, w, reorder =>
    match p.decode rawSample with
    | .error _ => perfEventLoopOrdered p out mono rest w reorder
    | .ok event =>
      let (released, reorder) := reorder.push ⟨event, mono event⟩
      perfEventLoopOrdered p out mono rest (released.foldl (dispatch p out) w) reorder

/-- The loop that `StartPerfEventReader` starts; `lag` is the option `perf_reorder`. -/
def startPerfEventReader (p : Probe ε) (out : Output) (lag : Option UInt64)
    (readings : List Reading) : Written :=
  match lag, p.perfMonoNs with
  | some lagNs, some mono =>
    perfEventLoopOrdered p out mono readings ⟨[], 0⟩ (newPerfLagReorder ε lagNs)
  | _, _ => perfEventLoop p out readings ⟨[], 0⟩

/-! ## Events and lines -/

def Reading.rawSample : Reading → Option Bytes
  | .record rawSample => some rawSample
  | .failed | .lost _ => none

def Reading.event (p : Probe ε) (reading : Reading) : Option ε :=
  reading.rawSample.bind fun rawSample => (p.decode rawSample).toOption

/-- The events of the records that decode. -/
def decoded (p : Probe ε) (readings : List Reading) : List ε := readings.filterMap (Reading.event p)

/-- What the handler gives to the writer for an event. -/
def given (p : Probe ε) (out : Output) (e : ε) : List Bytes :=
  match p.validate e with
  | .error _ => []
  | .ok _ => Bash.textOutput (p.text out e)

/-- What the writer takes, from its `n`-th call on. -/
def taken (writerOk : Nat → Bool) (n : Nat) (lines : List Bytes) : List Bytes :=
  ((lines.zipIdx n).filter fun x => writerOk x.2).map Prod.fst

theorem taken_append (writerOk : Nat → Bool) (n : Nat) (xs ys : List Bytes) :
    taken writerOk n (xs ++ ys) = taken writerOk n xs ++ taken writerOk (n + xs.length) ys := by
  simp [taken, List.zipIdx_append]

/-- A writer that never fails takes everything. -/
theorem taken_of_always {writerOk : Nat → Bool} (always : ∀ n, writerOk n = true) (n : Nat)
    (lines : List Bytes) : taken writerOk n lines = lines := by
  simp [taken, always]

/-- The handler gives at most one line for an event. -/
theorem given_cases (p : Probe ε) (out : Output) (e : ε) :
    given p out e = [] ∨ ∃ line, given p out e = [line] := by
  unfold given Bash.textOutput
  split
  · exact .inl rfl
  · split_ifs
    · exact .inl rfl
    · exact .inr ⟨_, rfl⟩
    · exact .inr ⟨_, rfl⟩

theorem dispatch_eq (p : Probe ε) (out : Output) (w : Written) (e : ε) :
    dispatch p out w e =
      { lines := w.lines ++ taken out.writerOk w.calls (given p out e)
        calls := w.calls + (given p out e).length } := by
  have few := given_cases p out e
  cases valid : p.validate e with
  | error err => simp [dispatch, given, valid, taken]
  | ok _ =>
    have gives : given p out e = Bash.textOutput (p.text out e) := by simp only [given, valid]
    rw [gives] at few ⊢
    rcases few with silent | ⟨line, one⟩
    · simp [dispatch, valid, silent, taken]
    · cases ok : out.writerOk w.calls <;> simp [dispatch, valid, one, taken, ok]

theorem foldl_dispatch (p : Probe ε) (out : Output) (events : List ε) (w : Written) :
    events.foldl (dispatch p out) w =
      { lines := w.lines ++ taken out.writerOk w.calls (events.flatMap (given p out))
        calls := w.calls + (events.flatMap (given p out)).length } := by
  induction events generalizing w with
  | nil => simp [taken]
  | cons e events ih =>
    rw [List.foldl_cons, ih, dispatch_eq, List.flatMap_cons, taken_append, List.length_append]
    simp only [List.append_assoc, Nat.add_assoc]

/-! ## Every sequence of readings -/

theorem perfEventLoop_eq (p : Probe ε) (out : Output) (readings : List Reading) (w : Written) :
    perfEventLoop p out readings w = (decoded p readings).foldl (dispatch p out) w := by
  induction readings generalizing w with
  | nil => rfl
  | cons reading readings ih =>
    cases reading with
    | failed => exact ih w
    | lost lostSamples => exact ih w
    | record rawSample =>
      cases found : p.decode rawSample with
      | error err =>
        simp [perfEventLoop, decoded, Reading.event, Reading.rawSample, found, Except.toOption, ih]
      | ok event =>
        simp [perfEventLoop, decoded, Reading.event, Reading.rawSample, found, Except.toOption, ih]

theorem perfEventLoopOrdered_eq (p : Probe ε) (out : Output) (mono : ε → UInt64)
    (readings : List Reading) (w : Written) (reorder : PerfLagReorder ε) :
    perfEventLoopOrdered p out mono readings w reorder =
      (reorder.dispatched ((decoded p readings).map fun e => ⟨e, mono e⟩)).foldl
        (dispatch p out) w := by
  induction readings generalizing w reorder with
  | nil => simp [perfEventLoopOrdered, decoded, PerfLagReorder.dispatched, PerfLagReorder.pushes]
  | cons reading readings ih =>
    cases reading with
    | failed => exact ih w reorder
    | lost lostSamples => exact ih w reorder
    | record rawSample =>
      cases found : p.decode rawSample with
      | error err =>
        have skipped : decoded p (.record rawSample :: readings) = decoded p readings := by
          simp [decoded, Reading.event, Reading.rawSample, found, Except.toOption]
        rw [skipped, ← ih]
        simp [perfEventLoopOrdered, found]
      | ok event =>
        have next : decoded p (.record rawSample :: readings) = event :: decoded p readings := by
          simp [decoded, Reading.event, Reading.rawSample, found, Except.toOption]
        rw [next]
        simp [perfEventLoopOrdered, found, ih, PerfLagReorder.dispatched, PerfLagReorder.pushes,
          List.foldl_append]

/-- Between pushes and the flush nothing is lost or doubled. -/
theorem dispatched_perm (lagNs : UInt64) (items : List (PerfReorderItem ε)) :
    ((newPerfLagReorder ε lagNs).dispatched items).Perm (items.map PerfReorderItem.ev) := by
  have run := PerfLagReorder.pushes_perm (newPerfLagReorder ε lagNs) items
  obtain ⟨splits, empty⟩ :=
    PerfLagReorder.flushAll_splits ((newPerfLagReorder ε lagNs).pushes items).2
  have flushed := splits.perm
  rw [empty, List.map_nil, List.append_nil] at flushed
  exact (flushed.append_left _).trans run

/-- What the loop does is to dispatch the decoded events in some order. -/
theorem exists_order (p : Probe ε) (out : Output) (lag : Option UInt64) (readings : List Reading) :
    ∃ events : List ε, events.Perm (decoded p readings) ∧
      (lag = none ∨ p.perfMonoNs = none → events = decoded p readings) ∧
      startPerfEventReader p out lag readings = events.foldl (dispatch p out) ⟨[], 0⟩ := by
  have plain := perfEventLoop_eq p out readings ⟨[], 0⟩
  cases lag with
  | none => exact ⟨decoded p readings, .refl _, fun _ => rfl, plain⟩
  | some lagNs =>
    cases mono : p.perfMonoNs with
    | none =>
      refine ⟨decoded p readings, .refl _, fun _ => rfl, ?_⟩
      simpa only [startPerfEventReader, mono] using plain
    | some mono' =>
      let items := (decoded p readings).map fun e => (⟨e, mono' e⟩ : PerfReorderItem ε)
      refine ⟨(newPerfLagReorder ε lagNs).dispatched items, ?_, by simp, ?_⟩
      · simpa [items, Function.comp_def] using dispatched_perm lagNs items
      · simp only [startPerfEventReader, mono, perfEventLoopOrdered_eq, items]

end ECapture.Events.ReaderLoop
