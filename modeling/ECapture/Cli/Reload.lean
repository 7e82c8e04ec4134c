import ECapture.Library.Steps
import ECapture.Reorder.Buffer

/-!
# The reload loop of the command line

`runProbe` of `cli/cmd/root.go` with the lifecycle of the probe it restarts
(`internal/probe/base/base_probe.go`): `Initialize` keeps the context, `Start` opens a reader
per perf map and runs `perfEventLoop` or `perfEventLoopOrdered` on it, `Close` closes the
readers and waits for the loops.

The main goroutine, the reader loops, the HTTP server that delivers configurations, the signals
and the kernel that fills the perf buffers are the actors of one machine. The main goroutine
moves by statement; a loop moves at its `ctx.Done` check and at `rd.Read`, which it handles up to
the next check. `generation` counts the passages of `goto reload`, and `dispatched` records every
call of `Dispatch` with the generation that made it.
-/

namespace ECapture.Cli
open Library Reorder

/-! ## The probe -/

/-- `perf.Record`. -/
structure PerfRecord (ρ : Type) where
  lostSamples : UInt64
  rawSample : ρ

/-- What `runProbe` gets from `factory.CreateProbe`: how it validates a configuration, the perf
readers that `Start` opens for it (each with its lag where reordering is enabled), its decoder
and `AsMonoNsEvent`. -/
structure Probe (κ ρ ε : Type) where
  validate : κ → Bool
  readers : κ → List (Option UInt64)
  decode : ρ → Option ε
  perfMonoNs : ε → Option UInt64

/-- A loop is at its `ctx.Done` check, in `rd.Read`, or gone. -/
inductive LoopPc where
  | check
  | read
  | returned
  deriving DecidableEq

/-- A reader with the goroutine that reads it. `reorder` is `none` in `perfEventLoop`. -/
structure ReaderLoop (ρ ε : Type) where
  pc : LoopPc
  reorder : Option (PerfLagReorder ε)
  buffer : List (PerfRecord ρ)
  closed : Bool

variable {κ ρ ε : Type}

namespace ReaderLoop

/-- `StartPerfEventReader`. -/
def start (lag : Option UInt64) : ReaderLoop ρ ε :=
  { pc := .check, reorder := lag.map (newPerfLagReorder ε), buffer := [], closed := false }

/-- Return from the loop, with the events of the deferred `flushAll`. -/
def leave (l : ReaderLoop ρ ε) : List ε × ReaderLoop ρ ε :=
  match l.reorder with
  | none => ([], { l with pc := .returned })
  | some reorder =>
    (reorder.flushAll.1, { l with pc := .returned, reorder := some reorder.flushAll.2 })

/-- The rest of the iteration after `rd.Read` has returned a record. -/
def handle (P : Probe κ ρ ε) (record : PerfRecord ρ) (l : ReaderLoop ρ ε) :
    List ε × ReaderLoop ρ ε :=
  if record.lostSamples ≠ 0 then ([], { l with pc := .check })
  else
    match P.decode record.rawSample with
    | none => ([], { l with pc := .check })
    | some ev =>
      match l.reorder, P.perfMonoNs ev with
      | some reorder, some mono =>
        ((reorder.push ⟨ev, mono⟩).1,
          { l with pc := .check, reorder := some (reorder.push ⟨ev, mono⟩).2 })
      | _, _ => ([ev], { l with pc := .check })

/-- The events that the loop holds back. -/
def pending (l : ReaderLoop ρ ε) : List (PerfReorderItem ε) :=
  match l.reorder with
  | none => []
  | some reorder => reorder.buf

end ReaderLoop

/-! ## The machine -/

/-- Where the main goroutine stands: before `Initialize`, `Start`, the `select`, `cancelFun()`,
`Stop`, the closing of the readers in `Close`, its `readerLoopsW.Wait()`, or past the end. -/
inductive Phase where
  | initializeProbe
  | start
  | select
  | cancelFun
  | stop
  | close
  | wait
  | exited
  deriving DecidableEq

structure State (κ ρ ε : Type) where
  /-- `cancelFun` has been called: `ctx.Done()` is closed. -/
  cancelled : Bool
  phase : Phase
  isReload : Bool
  probeConfig : κ
  /-- The channel `reRloadConfig`. -/
  reRloadConfig : List κ
  /-- A signal waits in the channel `stopper`. -/
  stopper : Bool
  isRunning : Bool
  loops : List (ReaderLoop ρ ε)
  generation : Nat
  dispatched : List (Nat × ε)

def reloadCap : Nat := 10

inductive Act (κ ρ : Type) where
  /-- The HTTP server sends an accepted configuration. -/
  | update (c : κ)
  | interrupt
  /-- A record becomes readable in the perf buffer of a reader. -/
  | record (i : Nat) (r : PerfRecord ρ)
  /-- An error of `CreateProbe`, `Initialize` or `Start` that `logger.Fatal` reports. -/
  | fatal
  | initializeProbe
  | start
  | recvStopper
  | recvReload
  | cancelFun
  | stop
  | close
  | finish
  | loopCheck (i : Nat)
  | loopRead (i : Nat)
  /-- `rd.Read` returns an error other than `ErrClosed`. -/
  | loopReadError (i : Nat)

namespace State

/-- Loop `i` goes on as `moved.2` and has dispatched `moved.1`. -/
def moveLoop (i : Nat) (moved : List ε × ReaderLoop ρ ε) (s : State κ ρ ε) : State κ ρ ε :=
  { s with
    loops := s.loops.set i moved.2
    dispatched := s.dispatched ++ moved.1.map (s.generation, ·) }

def initial (probeConfig : κ) : State κ ρ ε :=
  { cancelled := false, phase := .initializeProbe, isReload := false, probeConfig,
    reRloadConfig := [], stopper := false, isRunning := false, loops := [], generation := 0,
    dispatched := [] }

end State

def step (P : Probe κ ρ ε) (s : State κ ρ ε) : Act κ ρ → Option (State κ ρ ε)
  | .update c =>
    if s.phase ≠ .exited ∧ s.reRloadConfig.length < reloadCap then
      some { s with reRloadConfig := s.reRloadConfig ++ [c] }
    else none
  | .interrupt =>
    match s.phase with
    | .exited => none
    | .select => some { s with stopper := true }
    -- before the first `signal.Notify` the default handler ends the process; later the channel
    -- of the previous generation is still registered, and nobody receives from it
    | _ => if s.generation = 0 ∧ s.phase ∈ [.initializeProbe, .start]
      then some { s with phase := .exited } else some s
  | .record i r =>
    match s.loops[i]? with
    | some l =>
      if l.closed then none
      else some { s with loops := s.loops.set i { l with buffer := l.buffer ++ [r] } }
    | none => none
  | .fatal =>
    if s.phase ∈ [.initializeProbe, .start] then some { s with phase := .exited } else none
  | .initializeProbe =>
    if s.phase = .initializeProbe ∧ P.validate s.probeConfig then some { s with phase := .start }
    else none
  | .start =>
    if s.phase = .start then
      some { s with
        isRunning := true
        loops := (P.readers s.probeConfig).map .start
        isReload := false
        stopper := false
        phase := .select }
    else none
  | .recvStopper =>
    if s.phase = .select ∧ s.stopper then
      some { s with stopper := false, isReload := false, phase := .cancelFun }
    else none
  | .recvReload =>
    match s.phase, s.reRloadConfig with
    | .select, rc :: rest =>
      some { s with reRloadConfig := rest, isReload := true, probeConfig := rc,
                    phase := .cancelFun }
    | _, _ => none
  | .cancelFun =>
    if s.phase = .cancelFun then some { s with cancelled := true, phase := .stop } else none
  | .stop =>
    if s.phase = .stop then some { s with isRunning := false, phase := .close } else none
  | .close =>
    if s.phase = .close then
      some { s with loops := s.loops.map ({ · with closed := true }), phase := .wait }
    else none
  | .finish =>
    if s.phase = .wait ∧ ∀ l ∈ s.loops, l.pc = .returned then
      if s.isReload then
        some { s with isReload := false, generation := s.generation + 1, loops := [],
                      phase := .initializeProbe }
      else some { s with phase := .exited }
    else none
  | .loopCheck i =>
    match s.loops[i]? with
    | some l =>
      if s.phase ≠ .exited ∧ l.pc = .check then
        some (s.moveLoop i (if s.cancelled then l.leave else ([], { l with pc := .read })))
      else none
    | none => none
  | .loopRead i =>
    match s.loops[i]? with
    | some l =>
      if s.phase ≠ .exited ∧ l.pc = .read then
        if l.closed then some (s.moveLoop i l.leave)
        else
          match l.buffer with
          | r :: rest => some (s.moveLoop i ({ l with buffer := rest }.handle P r))
          | [] => none
      else none
    | none => none
  | .loopReadError i =>
    match s.loops[i]? with
    | some l =>
      if s.phase ≠ .exited ∧ l.pc = .read ∧ !l.closed then
        some (s.moveLoop i ([], { l with pc := .check }))
      else none
    | none => none

/-- `runProbe` with a configuration that has passed its first validation. -/
def runProbe (P : Probe κ ρ ε) (probeConfig : κ) : Machine (State κ ρ ε) (Act κ ρ) :=
  { init := .initial probeConfig, step := step P }

/-! ## After a reload -/

/-- A loop that has read nothing and holds nothing back. -/
def ReaderLoop.Idle (l : ReaderLoop ρ ε) : Prop := l.pc ≠ .read ∧ l.pending = []

theorem ReaderLoop.idle_start (lag : Option UInt64) : (start lag : ReaderLoop ρ ε).Idle := by
  refine ⟨by simp [start], ?_⟩
  cases lag <;> rfl

theorem ReaderLoop.Idle.leave {l : ReaderLoop ρ ε} (idle : l.Idle) :
    l.leave = ([], { l with pc := .returned }) := by
  obtain ⟨-, nothing⟩ := idle
  cases ordered : l.reorder with
  | none => simp [ReaderLoop.leave, ordered]
  | some reorder =>
    have empty : reorder.buf = [] := by simpa [pending, ordered] using nothing
    simp [ReaderLoop.leave, ordered, PerfLagReorder.flushAll, empty]

/-- The one context is dead from the first `cancelFun()` on, so a restarted loop is turned away
at its check before it reads. -/
structure Inv (s : State κ ρ ε) : Prop where
  cancelled : 1 ≤ s.generation ∨ s.phase ∈ [.stop, .close, .wait] → s.cancelled = true
  alive : s.generation = 0 → s.phase ∈ [.initializeProbe, .start, .select, .cancelFun] →
    s.cancelled = false
  idle : 1 ≤ s.generation → ∀ l ∈ s.loops, l.Idle
  first : ∀ d ∈ s.dispatched, d.1 = 0

theorem Inv.initial (c : κ) : Inv (.initial c : State κ ρ ε) := by
  constructor <;> simp [State.initial]

/-- A loop may move as it likes in the first generation; later it has to stay idle and dispatch
nothing. -/
theorem Inv.moveLoop {s : State κ ρ ε} (inv : Inv s) (i : Nat) (moved : List ε × ReaderLoop ρ ε)
    (quiet : 1 ≤ s.generation → moved.1 = [] ∧ moved.2.Idle) : Inv (s.moveLoop i moved) where
  cancelled := inv.cancelled
  alive := inv.alive
  idle := by
    intro restarted l mem
    rcases List.mem_or_eq_of_mem_set mem with old | rfl
    · exact inv.idle restarted l old
    · exact (quiet restarted).2
  first := by
    intro d mem
    rcases List.mem_append.mp mem with old | new
    · exact inv.first d old
    · obtain ⟨ev, out, rfl⟩ := List.mem_map.mp new
      rcases Nat.eq_zero_or_pos s.generation with zero | restarted
      · exact zero
      · simp [(quiet restarted).1] at out

/-- A step of the main goroutine that leaves the context and the loops alone. -/
theorem Inv.main {s t : State κ ρ ε} (inv : Inv s) (generation : t.generation = s.generation)
    (dispatched : t.dispatched = s.dispatched) (cancelled : t.cancelled = s.cancelled)
    (loops : 1 ≤ s.generation → ∀ l ∈ t.loops, l.Idle)
    (later : t.phase ∈ [.stop, .close, .wait] → s.phase ∈ [.stop, .close, .wait])
    (earlier : t.phase ∈ [.initializeProbe, .start, .select, .cancelFun] →
      s.phase ∈ [.initializeProbe, .start, .select, .cancelFun]) : Inv t where
  cancelled := by
    rw [generation, cancelled]
    rintro (restarted | past)
    · exact inv.cancelled (.inl restarted)
    · exact inv.cancelled (.inr (later past))
  alive := by
    rw [generation, cancelled]
    exact fun zero before => inv.alive zero (earlier before)
  idle := by
    rw [generation]
    exact loops
  first := by
    rw [dispatched]
    exact inv.first

theorem Inv.step {P : Probe κ ρ ε} {s t : State κ ρ ε} {a : Act κ ρ} (inv : Inv s)
    (moved : step P s a = some t) : Inv t := by
  cases a with
  | update c =>
    simp only [Cli.step] at moved
    split at moved <;> cases moved
    exact inv.main rfl rfl rfl inv.idle id id
  | interrupt =>
    simp only [Cli.step] at moved
    split at moved
    · cases moved
    · cases moved
      exact inv.main rfl rfl rfl inv.idle id id
    · split at moved <;> cases moved
      · exact inv.main rfl rfl rfl inv.idle (by simp) (by simp)
      · exact inv
  | record i r =>
    simp only [Cli.step] at moved
    split at moved
    case h_1 l found =>
      split at moved <;> cases moved
      refine inv.main rfl rfl rfl (fun restarted l' mem => ?_) id id
      rcases List.mem_or_eq_of_mem_set mem with old | rfl
      · exact inv.idle restarted l' old
      · exact inv.idle restarted l (List.mem_of_getElem? found)
    case h_2 => cases moved
  | fatal | initializeProbe | recvStopper | recvReload | stop =>
    simp only [Cli.step] at moved
    split at moved <;> cases moved
    exact inv.main rfl rfl rfl inv.idle (by simp_all) (by simp_all)
  | start =>
    simp only [Cli.step] at moved
    split at moved <;> cases moved
    refine inv.main rfl rfl rfl (fun _ l mem => ?_) (by simp) (by simp_all)
    obtain ⟨lag, -, rfl⟩ := List.mem_map.mp mem
    exact ReaderLoop.idle_start lag
  | cancelFun =>
    simp only [Cli.step] at moved
    split at moved <;> cases moved
    exact ⟨fun _ => rfl, by simp, inv.idle, inv.first⟩
  | close =>
    simp only [Cli.step] at moved
    split at moved <;> cases moved
    refine inv.main rfl rfl rfl (fun restarted l mem => ?_) (by simp_all) (by simp)
    obtain ⟨l, old, rfl⟩ := List.mem_map.mp mem
    exact inv.idle restarted l old
  | finish =>
    simp only [Cli.step] at moved
    split at moved
    case isTrue done =>
      have dead : s.cancelled = true := inv.cancelled (.inr (by simp [done.1]))
      split at moved <;> cases moved
      -- the next generation starts with the context that `cancelFun` has cancelled
      · exact ⟨fun _ => dead, by simp, by simp, inv.first⟩
      · exact inv.main rfl rfl rfl inv.idle (by simp) (by simp)
    case isFalse => cases moved
  | loopCheck i =>
    simp only [Cli.step] at moved
    split at moved
    case h_1 l found =>
      split at moved <;> cases moved
      refine inv.moveLoop i _ fun restarted => ?_
      have idle := inv.idle restarted l (List.mem_of_getElem? found)
      rw [if_pos (inv.cancelled (.inl restarted)), idle.leave]
      exact ⟨rfl, by simp, idle.2⟩
    case h_2 => cases moved
  | loopRead i =>
    simp only [Cli.step] at moved
    split at moved
    case h_1 l found =>
      split at moved
      case isTrue reading =>
        have first : ¬1 ≤ s.generation := fun restarted =>
          (inv.idle restarted l (List.mem_of_getElem? found)).1 reading.2
        split at moved
        · cases moved
          exact inv.moveLoop i _ (absurd · first)
        · split at moved <;> cases moved
          exact inv.moveLoop i _ (absurd · first)
      case isFalse => cases moved
    case h_2 => cases moved
  | loopReadError i =>
    simp only [Cli.step] at moved
    split at moved
    case h_1 l found =>
      split at moved
      case isTrue reading =>
        cases moved
        exact inv.moveLoop i _ fun restarted =>
          absurd reading.2.1 (inv.idle restarted l (List.mem_of_getElem? found)).1
      case isFalse => cases moved
    case h_2 => cases moved

theorem inv_of_steps {P : Probe κ ρ ε} {c : κ} {s t : State κ ρ ε} (inv : Inv s)
    (steps : Relation.ReflTransGen ((runProbe P c).Next fun _ _ => True) s t) : Inv t :=
  run_invariant (fun kept ⟨_, _, moved⟩ => kept.step moved) inv steps

/-- The context is alive for the first probe and for no other: after any number of reloads every
loop returns at its check, with its records unread, and no restarted probe ever dispatches. -/
theorem restarted_probe_never_captures (P : Probe κ ρ ε) (c : κ) {s : State κ ρ ε}
    (reached : (runProbe P c).Reachable s) :
    (s.phase ∈ [.initializeProbe, .start, .select, .cancelFun] →
      (s.cancelled = false ↔ s.generation = 0)) ∧
    (1 ≤ s.generation →
      (∀ i l, s.phase ≠ .exited → s.loops[i]? = some l → l.pc ≠ .returned →
        step P s (.loopCheck i) =
          some { s with loops := s.loops.set i { l with pc := .returned } }) ∧
      ∀ t, Relation.ReflTransGen ((runProbe P c).Next fun _ _ => True) s t →
        ∀ d ∈ t.dispatched, d.1 = 0) := by
  have inv : Inv s := inv_of_steps (.initial c) reached
  constructor
  · intro before
    constructor
    · intro alive
      by_contra restarted
      have dead := inv.cancelled (.inl (Nat.one_le_iff_ne_zero.mpr restarted))
      simp [alive] at dead
    · exact fun zero => inv.alive zero before
  · intro restarted
    refine ⟨fun i l up found running => ?_, fun t steps => (inv_of_steps inv steps).first⟩
    have idle := inv.idle restarted l (List.mem_of_getElem? found)
    have atCheck : l.pc = .check := by
      cases pc : l.pc with
      | check => rfl
      | read => exact absurd pc idle.1
      | returned => exact absurd pc running
    simp [step, found, up, atCheck, inv.cancelled (.inl restarted), idle.leave, State.moveLoop]

/-! ## A schedule with one reload -/

/-- One reader without reordering; samples are their own events. -/
def plainProbe : Probe Nat Nat Nat :=
  { validate := fun _ => true, readers := fun _ => [none], decode := some,
    perfMonoNs := fun _ => none }

/-- The first probe dispatches a record; then an update arrives and the probe is restarted. -/
def oneReload : List (Act Nat Nat) :=
  [.initializeProbe, .start, .record 0 ⟨0, 5⟩, .loopCheck 0, .loopRead 0, .update 1,
    .recvReload, .cancelFun, .stop, .loopCheck 0, .close, .finish, .initializeProbe, .start]

theorem restarted_probe_never_captures_one_reload :
    ∃ s, (runProbe plainProbe 0).Reachable s ∧ s.generation = 1 ∧ s.dispatched = [(0, 5)] ∧
      s.cancelled ≠ false := by
  obtain ⟨s, ran, phase, generation, dispatched⟩ :
      ∃ s ∈ (runProbe plainProbe 0).run oneReload,
        s.phase = .select ∧ s.generation = 1 ∧ s.dispatched = [(0, 5)] := by
    decide
  have reached := Machine.reachable_of_run ran
  refine ⟨s, reached, generation, dispatched, fun alive => ?_⟩
  have alive_iff := (restarted_probe_never_captures plainProbe 0 reached).1 (by simp [phase])
  exact absurd (alive_iff.mp alive) (by simp [generation])

/-- After one reload and with no signal, the context is cancelled, and a record that becomes
readable is never dispatched. -/
theorem reload_loses_record :
    ∃ s t, (runProbe plainProbe 0).Reachable s ∧ s.generation = 1 ∧ s.phase = .select ∧
      s.stopper = false ∧ s.cancelled = true ∧
      step plainProbe s (.record 0 ⟨0, 7⟩) = some t ∧ plainProbe.decode 7 = some 7 ∧
      ∀ u, Relation.ReflTransGen ((runProbe plainProbe 0).Next fun _ _ => True) t u →
        (1, 7) ∉ u.dispatched := by
  obtain ⟨s, ran, generation, phase, stopper, cancelled, t, moved⟩ :
      ∃ s ∈ (runProbe plainProbe 0).run oneReload, s.generation = 1 ∧ s.phase = .select ∧
        s.stopper = false ∧ s.cancelled = true ∧
        ∃ t ∈ step plainProbe s (.record 0 ⟨0, 7⟩), t.generation = 1 := by
    decide
  have reached := Machine.reachable_of_run ran
  refine ⟨s, t, reached, generation, phase, stopper, cancelled, moved.1, rfl, fun u steps mem => ?_⟩
  have inv : Inv t := (inv_of_steps (.initial 0) reached).step moved.1
  exact absurd ((inv_of_steps inv steps).first _ mem) (by decide)

end ECapture.Cli
