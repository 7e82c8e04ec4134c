import ECapture.Library.Steps
import ECapture.Reorder.Order

/-!
# Closing a probe while its loops read

`BaseProbe.Close` of `internal/probe/base/base_probe.go` against the loops that `GoReaderLoop` runs,
with the dispatcher of `internal/events/dispatcher.go` between them.

One machine has the goroutine that starts and closes the probe, the loops, and the cancellation of the
context. A loop moves at its `ctx.Done` check, at `Read`, `Decode` and `push`, and inside `Dispatch` at
the call, at the lock, at each handler and at the return. `decoded` and `results` record, for each
loop, the events it has decoded and the calls of `Dispatch` that have returned.
-/

namespace ECapture.Probe.Base
open Library Reorder

/-- What a probe gives to its loops: the decoder, `AsMonoNsEvent`, `Validate`, the handlers that are
registered with the dispatcher and those that are in `p.closers`. -/
structure Setup (ρ ε η : Type) where
  decode : ρ → Option ε
  perfMonoNs : ε → Option UInt64
  validate : ε → Bool
  handlers : List η
  closers : List η

/-- The functions that are run by `GoReaderLoop`. -/
inductive LoopKind where
  | perfEventLoop
  | perfEventLoopOrdered (lagNs : UInt64)
  | ringbufEventLoop

inductive ReadResult (ρ : Type) where
  | record (lostSamples : UInt64) (rawSample : ρ)
  | errClosed
  | error

/-- Whether a record is left out for its lost samples. -/
def LoopKind.skips : LoopKind → UInt64 → Bool
  | .ringbufEventLoop, _ => false
  | _, lostSamples => lostSamples ≠ 0

/-- How a call of `Dispatch` has ended. `handled` has the handlers in the order of the call, each with
whether it was still open. -/
inductive Outcome (η : Type) where
  | dispatcherClosed
  | invalid
  | handled (served : List (η × Bool))

/-- Where a batch was taken: in an iteration, or in the deferred function. -/
inductive After where
  | iterate
  | leave
  deriving DecidableEq

inductive Pc (ρ ε η : Type) where
  | check
  | read
  | decode (rawSample : ρ)
  | push (ev : ε)
  /-- The loop over a batch, with the events left. -/
  | batch (events : List ε) (after : After)
  /-- `Dispatch` waits for its lock. -/
  | lock (ev : ε) (events : List ε) (after : After)
  /-- `Dispatch` with the handlers left, and those it has called. -/
  | handlers (ev : ε) (left : List η) (served : List (η × Bool)) (events : List ε) (after : After)
  | returned

structure Loop (ρ ε η : Type) where
  kind : LoopKind
  pc : Pc ρ ε η
  reorder : Option (PerfLagReorder ε)
  readerClosed : Bool
  decoded : List ε
  results : List (ε × Outcome η)

/-- Where `Close` stands: not called, with `n` readers left, at `readerLoopsW.Wait`, with closers left,
at the lock of the dispatcher, with handlers left, or past the end. -/
inductive Phase (η : Type) where
  | running
  | readers (n : Nat)
  | wait
  | closers (left : List η)
  | lock
  | handlers (left : List η)
  | closed

structure State (ρ ε η : Type) where
  cancelled : Bool
  loops : List (Loop ρ ε η)
  readerLoopsW : Nat
  phase : Phase η
  closedHandlers : List η
  dispatcherClosed : Bool

inductive LoopAct (ρ η : Type) where
  | check
  | read (result : ReadResult ρ)
  | decode
  | push
  | dispatch
  | lock
  | handle (h : η)
  | unlock
  | next

inductive Act (ρ η : Type) where
  | goReaderLoop (kind : LoopKind)
  | cancel
  | close
  /-- The dispatcher closes a handler; it visits them in any order. -/
  | closeHandler (h : η)
  | loop (i : Nat) (a : LoopAct ρ η)

variable {ρ ε η : Type}

namespace Loop

def start (kind : LoopKind) : Loop ρ ε η :=
  { kind
    pc := .check
    reorder :=
      match kind with
      | .perfEventLoopOrdered lagNs => some (newPerfLagReorder ε lagNs)
      | _ => none
    readerClosed := false
    decoded := []
    results := [] }

def active (l : Loop ρ ε η) : Bool :=
  match l.pc with
  | .returned => false
  | _ => true

/-- The loop holds the lock of the dispatcher. -/
def holdsLock (l : Loop ρ ε η) : Bool :=
  match l.pc with
  | .handlers .. => true
  | _ => false

/-- `return` inside the loop: the deferred function takes what is pending. -/
def leave (l : Loop ρ ε η) : Loop ρ ε η :=
  match l.reorder with
  | none => { l with pc := .batch [] .leave }
  | some reorder =>
    { l with pc := .batch reorder.flushAll.1 .leave, reorder := some reorder.flushAll.2 }

/-- `Dispatch` returns. -/
def finish (ev : ε) (outcome : Outcome η) (events : List ε) (after : After) (l : Loop ρ ε η) :
    Loop ρ ε η :=
  { l with pc := .batch events after, results := l.results ++ [(ev, outcome)] }

/-- The rest of an iteration after `Decode`. -/
def pushEvent (P : Setup ρ ε η) (ev : ε) (l : Loop ρ ε η) : Loop ρ ε η :=
  match l.reorder, P.perfMonoNs ev with
  | some reorder, some mono =>
    { l with
      pc := .batch (reorder.push ⟨ev, mono⟩).1 .iterate
      reorder := some (reorder.push ⟨ev, mono⟩).2 }
  | _, _ => { l with pc := .batch [ev] .iterate }

end Loop

section

variable [DecidableEq η] (P : Setup ρ ε η)

/-- `Dispatch` once it has the lock. -/
def locked (dispatcherClosed : Bool) (ev : ε) (events : List ε) (after : After) (l : Loop ρ ε η) :
    Loop ρ ε η :=
  if dispatcherClosed then l.finish ev .dispatcherClosed events after
  else if !P.validate ev then l.finish ev .invalid events after
  else { l with pc := .handlers ev P.handlers [] events after }

def loopStep (s : State ρ ε η) (l : Loop ρ ε η) (a : LoopAct ρ η) : Option (Loop ρ ε η) :=
  match l.pc, a with
  | .check, .check => some (if s.cancelled then l.leave else { l with pc := .read })
  | .read, .read (.record lostSamples rawSample) =>
    some { l with pc := if l.kind.skips lostSamples then .check else .decode rawSample }
  | .read, .read .errClosed => if l.readerClosed then some l.leave else none
  | .read, .read .error => some { l with pc := .check }
  | .decode rawSample, .decode =>
    match P.decode rawSample with
    | none => some { l with pc := .check }
    | some ev => some { l with pc := .push ev, decoded := l.decoded ++ [ev] }
  | .push ev, .push => some (l.pushEvent P ev)
  | .batch (ev :: events) after, .dispatch => some { l with pc := .lock ev events after }
  | .lock ev events after, .lock =>
    match s.phase with
    -- `Dispatcher.Close` has the lock
    | .handlers _ => none
    | _ => some (locked P s.dispatcherClosed ev events after l)
  | .handlers ev left served events after, .handle h =>
    if h ∈ left then
      let stillOpen := decide (h ∉ s.closedHandlers)
      some { l with pc := .handlers ev (left.erase h) (served ++ [(h, stillOpen)]) events after }
    else none
  | .handlers ev [] served events after, .unlock => some (l.finish ev (.handled served) events after)
  | .batch [] .iterate, .next => some { l with pc := .check }
  | .batch [] .leave, .next => some { l with pc := .returned }
  | _, _ => none

/-- `BaseProbe.Close`, up to the handlers that the dispatcher closes. -/
def closeStep (s : State ρ ε η) : Option (State ρ ε η) :=
  match s.phase with
  | .running => some { s with phase := .readers s.loops.length }
  | .readers (n + 1) =>
    some { s with
      loops := s.loops.modify n ({ · with readerClosed := true })
      phase := .readers n }
  | .readers 0 => some { s with phase := .wait }
  | .wait => if s.readerLoopsW = 0 then some { s with phase := .closers P.closers } else none
  | .closers (h :: left) =>
    some { s with closedHandlers := s.closedHandlers ++ [h], phase := .closers left }
  | .closers [] => some { s with phase := .lock }
  | .lock =>
    if s.loops.any Loop.holdsLock then none
    else some { s with dispatcherClosed := true, phase := .handlers P.handlers }
  | .handlers [] => some { s with phase := .closed }
  | _ => none

def step (s : State ρ ε η) : Act ρ η → Option (State ρ ε η)
  | .goReaderLoop kind =>
    match s.phase with
    | .running =>
      some { s with loops := s.loops ++ [.start kind], readerLoopsW := s.readerLoopsW + 1 }
    | _ => none
  | .cancel => some { s with cancelled := true }
  | .close => closeStep P s
  | .closeHandler h =>
    match s.phase with
    | .handlers left =>
      if h ∈ left then
        some { s with closedHandlers := s.closedHandlers ++ [h], phase := .handlers (left.erase h) }
      else none
    | _ => none
  | .loop i a => do
    let l ← s.loops[i]?
    let l' ← loopStep P s l a
    -- the deferred `readerLoopsW.Done`
    let readerLoopsW := if l'.active then s.readerLoopsW else s.readerLoopsW - 1
    return { s with loops := s.loops.set i l', readerLoopsW }

def State.initial : State ρ ε η :=
  { cancelled := false, loops := [], readerLoopsW := 0, phase := .running, closedHandlers := [],
    dispatcherClosed := false }

def probe : Machine (State ρ ε η) (Act ρ η) := { init := .initial, step := step P }

end

/-- `Close` has passed `readerLoopsW.Wait`. -/
def Phase.PastWait : Phase η → Prop
  | .running | .readers _ | .wait => False
  | .closers _ | .lock | .handlers _ | .closed => True

instance (p : Phase η) : Decidable p.PastWait :=
  match p with
  | .running | .readers _ | .wait => .isFalse id
  | .closers _ | .lock | .handlers _ | .closed => .isTrue trivial

/-- The event has reached every handler once, each still open, unless it is invalid. -/
def Outcome.Delivered (P : Setup ρ ε η) (ev : ε) : Outcome η → Prop
  | .dispatcherClosed => False
  | .invalid => P.validate ev = false
  | .handled served => P.validate ev = true ∧ (served.map Prod.fst).Perm P.handlers ∧
    ∀ x ∈ served, x.2 = true

/-! ## One loop -/

/-- The events that a loop has decoded and not yet dispatched. -/
def Pc.events : Pc ρ ε η → List ε
  | .check | .read | .decode _ | .returned => []
  | .push ev => [ev]
  | .batch events _ => events
  | .lock ev events _ | .handlers ev _ _ events _ => ev :: events

/-- The deferred function has run. -/
def Pc.Flushed : Pc ρ ε η → Prop
  | .returned => True
  | .batch _ after | .lock _ _ after | .handlers _ _ _ _ after => after = .leave
  | _ => False

/-- A running `Dispatch` has only met open handlers. -/
def Pc.Serving (P : Setup ρ ε η) : Pc ρ ε η → Prop
  | .handlers ev left served _ _ => P.validate ev = true ∧
    (served.map Prod.fst ++ left).Perm P.handlers ∧ ∀ x ∈ served, x.2 = true
  | _ => True

/-- The events that wait in the reorder buffer. -/
def Loop.pending (l : Loop ρ ε η) : List ε :=
  match l.reorder with
  | none => []
  | some reorder => reorder.buf.map PerfReorderItem.ev

def Loop.dispatched (l : Loop ρ ε η) : List ε := l.results.map Prod.fst

structure LoopInv (P : Setup ρ ε η) (l : Loop ρ ε η) : Prop where
  conserved : (l.dispatched ++ (l.pc.events ++ l.pending)).Perm l.decoded
  delivered : ∀ r ∈ l.results, r.2.Delivered P r.1
  serving : l.pc.Serving P
  flushed : l.pc.Flushed → l.pending = []

variable {P : Setup ρ ε η}

theorem LoopInv.start (kind : LoopKind) : LoopInv P (Loop.start kind) := by
  refine ⟨?_, ?_, trivial, fun flushed => flushed.elim⟩
  · cases kind <;> exact .refl _
  · intro r mem
    cases mem

/-- Moves that dispatch nothing and keep the events where they are. -/
theorem LoopInv.move {l : Loop ρ ε η} (inv : LoopInv P l) {pc : Pc ρ ε η}
    (events : pc.events = l.pc.events) (serving : pc.Serving P)
    (flushed : pc.Flushed → l.pc.Flushed) : LoopInv P { l with pc } := by
  have conserved := inv.conserved
  rw [← events] at conserved
  exact ⟨conserved, inv.delivered, serving, fun h => inv.flushed (flushed h)⟩

theorem Loop.pending_ordered {l : Loop ρ ε η} {reorder : PerfLagReorder ε}
    (ordered : l.reorder = some reorder) : l.pending = reorder.buf.map PerfReorderItem.ev := by
  simp only [pending, ordered]

theorem LoopInv.leave {l : Loop ρ ε η} (inv : LoopInv P l) (none : l.pc.events = []) :
    LoopInv P l.leave := by
  have conserved := inv.conserved
  rw [none] at conserved
  unfold Loop.leave
  split
  · rename_i unordered
    refine ⟨conserved, inv.delivered, trivial, fun _ => ?_⟩
    simp [Loop.pending, unordered]
  · rename_i reorder ordered
    obtain ⟨splits, empty⟩ := PerfLagReorder.flushAll_splits reorder
    rw [Loop.pending_ordered ordered] at conserved
    refine ⟨.trans (.append_left _ splits.perm) conserved, inv.delivered, trivial, fun _ => ?_⟩
    simp [Loop.pending, empty]

theorem LoopInv.pushEvent {l : Loop ρ ε η} {ev : ε} (inv : LoopInv P l) (events : l.pc.events = [ev]) :
    LoopInv P (l.pushEvent P ev) := by
  have conserved := inv.conserved
  unfold Loop.pushEvent
  split
  · rename_i reorder mono ordered _
    have batch := (PerfLagReorder.push_splits reorder ⟨ev, mono⟩).perm
    rw [List.map_append] at batch
    rw [events, Loop.pending_ordered ordered] at conserved
    refine ⟨?_, inv.delivered, trivial, fun flushed => by cases flushed⟩
    exact .trans (.append_left _ (batch.trans List.perm_append_comm)) conserved
  · exact inv.move events.symm trivial fun flushed => by cases flushed

theorem LoopInv.decoded {l : Loop ρ ε η} (inv : LoopInv P l) (none : l.pc.events = []) (ev : ε) :
    LoopInv P { l with pc := .push ev, decoded := l.decoded ++ [ev] } := by
  have conserved := inv.conserved
  rw [none] at conserved
  refine ⟨?_, inv.delivered, trivial, fun flushed => flushed.elim⟩
  have more : (ev :: (l.dispatched ++ l.pending)).Perm (l.decoded ++ [ev]) :=
    (conserved.cons ev).trans (List.perm_append_singleton ev _).symm
  exact .trans List.perm_middle more

/-- `Dispatch` returns for the event it was called with. -/
theorem LoopInv.finish {l : Loop ρ ε η} {ev : ε} {events : List ε} {after : After} {outcome : Outcome η}
    (inv : LoopInv P l) (inFlight : l.pc.events = ev :: events)
    (flushed : after = .leave → l.pc.Flushed) (delivered : outcome.Delivered P ev) :
    LoopInv P (l.finish ev outcome events after) := by
  have conserved := inv.conserved
  refine ⟨?_, ?_, trivial, fun h => inv.flushed (flushed h)⟩
  · rw [inFlight] at conserved
    simpa [Loop.dispatched, Loop.finish, Loop.pending, Pc.events] using conserved
  · intro r mem
    simp only [Loop.finish, List.mem_append, List.mem_singleton] at mem
    obtain mem | rfl := mem
    · exact inv.delivered r mem
    · exact delivered

/-- The call of `Dispatch` gets the lock. -/
theorem LoopInv.locked {l : Loop ρ ε η} {ev : ε} {events : List ε} {after : After} (inv : LoopInv P l)
    (pc : l.pc = .lock ev events after) : LoopInv P (locked P false ev events after l) := by
  have inFlight : l.pc.events = ev :: events := by rw [pc]; rfl
  have flushed : after = .leave → l.pc.Flushed := by
    rw [pc]
    exact id
  cases valid : P.validate ev with
  | false =>
    simp only [Base.locked, valid]
    exact inv.finish inFlight flushed valid
  | true =>
    simp only [Base.locked, valid]
    exact inv.move inFlight.symm ⟨valid, .refl _, by simp⟩ flushed

theorem Loop.not_active {l : Loop ρ ε η} (inactive : l.active = false) : l.pc = .returned := by
  unfold active at inactive
  split at inactive
  · assumption
  · cases inactive

variable {s t : State ρ ε η}

section

variable [DecidableEq η]

/-- A handler is called while all are open. -/
theorem LoopInv.handle {l : Loop ρ ε η} {ev : ε} {left : List η} {served : List (η × Bool)}
    {events : List ε} {after : After} {h : η} (inv : LoopInv P l)
    (pc : l.pc = .handlers ev left served events after) (mem : h ∈ left) :
    LoopInv P { l with pc := .handlers ev (left.erase h) (served ++ [(h, true)]) events after } := by
  have serving := inv.serving
  rw [pc] at serving
  obtain ⟨valid, perm, stillOpen⟩ := serving
  apply inv.move
  · rw [pc]
    rfl
  · refine ⟨valid, ?_, ?_⟩
    · have moved : (h :: left.erase h).Perm left := (List.perm_cons_erase mem).symm
      simpa using (moved.append_left (served.map Prod.fst)).trans perm
    · intro x mem
      simp only [List.mem_append, List.mem_singleton] at mem
      obtain mem | rfl := mem
      · exact stillOpen x mem
      · rfl
  · rw [pc]
    exact id

/-- A step of a loop while no handler is closed. -/
theorem LoopInv.step {l l' : Loop ρ ε η} {a : LoopAct ρ η} (inv : LoopInv P l)
    (handlersOpen : s.closedHandlers = []) (dispatcherOpen : s.dispatcherClosed = false)
    (moved : loopStep P s l a = some l') : LoopInv P l' := by
  have serving := inv.serving
  unfold loopStep at moved
  split at moved
  case h_1 pc =>
    cases moved
    split
    · exact inv.leave (by rw [pc]; rfl)
    · exact inv.move (by rw [pc]; rfl) trivial fun flushed => flushed.elim
  case h_2 pc =>
    cases moved
    split <;> exact inv.move (by rw [pc]; rfl) trivial fun flushed => flushed.elim
  case h_3 pc =>
    split at moved
    · cases moved
      exact inv.leave (by rw [pc]; rfl)
    · cases moved
  case h_4 pc =>
    cases moved
    exact inv.move (by rw [pc]; rfl) trivial fun flushed => flushed.elim
  case h_5 pc =>
    split at moved
    · cases moved
      exact inv.move (by rw [pc]; rfl) trivial fun flushed => flushed.elim
    · rename_i ev _
      cases moved
      exact inv.decoded (by rw [pc]; rfl) ev
  case h_6 pc =>
    cases moved
    exact inv.pushEvent (by rw [pc]; rfl)
  case h_7 pc =>
    cases moved
    exact inv.move (by rw [pc]; rfl) trivial (by rw [pc]; exact id)
  case h_8 pc =>
    rw [dispatcherOpen] at moved
    split at moved
    · cases moved
    · cases moved
      exact inv.locked pc
  case h_9 pc =>
    split at moved
    · rename_i mem
      simp only [handlersOpen] at moved
      cases moved
      exact inv.handle pc mem
    · cases moved
  case h_10 pc =>
    cases moved
    rw [pc] at serving
    obtain ⟨valid, perm, stillOpen⟩ := serving
    rw [List.append_nil] at perm
    exact inv.finish (by rw [pc]; rfl) (by rw [pc]; exact id) ⟨valid, perm, stillOpen⟩
  case h_11 pc =>
    cases moved
    exact inv.move (by rw [pc]; rfl) trivial fun flushed => flushed.elim
  case h_12 pc =>
    cases moved
    exact inv.move (by rw [pc]; rfl) trivial (by rw [pc]; exact fun _ => rfl)
  case h_13 => cases moved

/-- A loop that has returned does not move. -/
theorem active_of_loopStep {l l' : Loop ρ ε η} {a : LoopAct ρ η}
    (moved : loopStep P s l a = some l') : l.active = true := by
  by_contra inactive
  have pc := Loop.not_active (Bool.eq_false_iff.mpr inactive)
  simp only [loopStep, pc] at moved
  cases moved

end

/-! ## The probe -/

/-- The wait group counts the loops, and nothing is closed before it is waited for. -/
structure Inv (P : Setup ρ ε η) (s : State ρ ε η) : Prop where
  waitGroup : s.readerLoopsW = s.loops.countP Loop.active
  loops : ∀ l ∈ s.loops, LoopInv P l
  returned : s.phase.PastWait → ∀ l ∈ s.loops, l.active = false
  nothingClosed : ¬s.phase.PastWait → s.closedHandlers = [] ∧ s.dispatcherClosed = false

theorem Inv.init : Inv P State.initial where
  waitGroup := rfl
  loops _ mem := by cases mem
  returned past := past.elim
  nothingClosed _ := ⟨rfl, rfl⟩

/-- Once all loops have returned the rest of `Close` only closes. -/
theorem Inv.past (inv : Inv P s) (returned : ∀ l ∈ s.loops, l.active = false)
    (loops : t.loops = s.loops) (waitGroup : t.readerLoopsW = s.readerLoopsW)
    (past : t.phase.PastWait) : Inv P t := by
  refine ⟨?_, ?_, ?_, fun before => (before past).elim⟩
  · rw [loops, waitGroup]
    exact inv.waitGroup
  · rw [loops]
    exact inv.loops
  · rw [loops]
    exact fun _ => returned

/-- Closing a reader changes nothing else in its loop. -/
theorem Inv.closeReader {n : Nat} (inv : Inv P s) (before : ¬s.phase.PastWait) :
    Inv P { s with
      loops := s.loops.modify n ({ · with readerClosed := true })
      phase := .readers n } := by
  refine ⟨?_, ?_, fun past => past.elim, fun _ => inv.nothingClosed before⟩
  · have same : (s.loops.modify n ({ · with readerClosed := true })).map Loop.active =
        s.loops.map Loop.active := by
      apply List.ext_getElem?
      intro i
      simp only [List.getElem?_map, List.getElem?_modify]
      split <;> cases s.loops[i]? <;> rfl
    have counted : ∀ loops : List (Loop ρ ε η),
        loops.countP Loop.active = (loops.map Loop.active).countP id := by
      simp [List.countP_map]
    rw [counted, same, ← counted]
    exact inv.waitGroup
  · intro l mem
    obtain ⟨i, found⟩ := List.mem_iff_getElem?.mp mem
    rw [List.getElem?_modify, Option.map_eq_map, Option.map_eq_some_iff] at found
    obtain ⟨old, found, rfl⟩ := found
    have kept := inv.loops old (List.mem_of_getElem? found)
    split
    · exact ⟨kept.conserved, kept.delivered, kept.serving, kept.flushed⟩
    · exact kept

theorem Inv.close (inv : Inv P s) (moved : closeStep P s = some t) : Inv P t := by
  have nothingClosed := inv.nothingClosed
  have returned := inv.returned
  unfold closeStep at moved
  split at moved
  case h_1 phase =>
    rw [phase] at nothingClosed
    cases moved
    exact ⟨inv.waitGroup, inv.loops, fun past => past.elim, nothingClosed⟩
  case h_2 phase =>
    cases moved
    apply inv.closeReader
    rw [phase]
    exact id
  case h_3 phase =>
    rw [phase] at nothingClosed
    cases moved
    exact ⟨inv.waitGroup, inv.loops, fun past => past.elim, nothingClosed⟩
  case h_4 phase =>
    split at moved
    · rename_i done
      cases moved
      have none : s.loops.countP Loop.active = 0 := inv.waitGroup.symm.trans done
      refine inv.past ?_ rfl rfl trivial
      intro l mem
      exact Bool.eq_false_iff.mpr (List.countP_eq_zero.mp none l mem)
    · cases moved
  case h_5 phase =>
    rw [phase] at returned
    cases moved
    exact inv.past (returned trivial) rfl rfl trivial
  case h_6 phase =>
    rw [phase] at returned
    cases moved
    exact inv.past (returned trivial) rfl rfl trivial
  case h_7 phase =>
    rw [phase] at returned
    split at moved
    · cases moved
    · cases moved
      exact inv.past (returned trivial) rfl rfl trivial
  case h_8 phase =>
    rw [phase] at returned
    cases moved
    exact inv.past (returned trivial) rfl rfl trivial
  case h_9 => cases moved

/-- A loop that moves has not returned, so `Close` has not passed its wait. -/
theorem Inv.not_pastWait {i : Nat} {l : Loop ρ ε η} (inv : Inv P s) (found : s.loops[i]? = some l)
    (active : l.active = true) : ¬s.phase.PastWait := by
  intro past
  have returned := inv.returned past l (List.mem_of_getElem? found)
  rw [active] at returned
  cases returned

variable [DecidableEq η]

theorem Inv.loop {i : Nat} {l l' : Loop ρ ε η} {a : LoopAct ρ η} (inv : Inv P s)
    (found : s.loops[i]? = some l) (moved : loopStep P s l a = some l') :
    Inv P { s with
      loops := s.loops.set i l'
      readerLoopsW := if l'.active then s.readerLoopsW else s.readerLoopsW - 1 } := by
  have active := active_of_loopStep moved
  have before := inv.not_pastWait found active
  obtain ⟨handlersOpen, dispatcherOpen⟩ := inv.nothingClosed before
  have kept := (inv.loops l (List.mem_of_getElem? found)).step handlersOpen dispatcherOpen moved
  refine ⟨?_, ?_, fun past => (before past).elim, fun _ => ⟨handlersOpen, dispatcherOpen⟩⟩
  · obtain ⟨bound, at_i⟩ := List.getElem?_eq_some_iff.mp found
    have counted := inv.waitGroup
    have positive : 0 < s.loops.countP Loop.active :=
      List.countP_pos_iff.mpr ⟨l, List.mem_of_getElem? found, active⟩
    rw [List.countP_set bound, at_i, active]
    cases l'.active <;> simp <;> omega
  · intro l'' mem
    obtain mem | rfl := List.mem_or_eq_of_mem_set mem
    · exact inv.loops l'' mem
    · exact kept

theorem Inv.step {a : Act ρ η} (inv : Inv P s) (moved : step P s a = some t) : Inv P t := by
  cases a with
  | goReaderLoop kind =>
    simp only [Base.step] at moved
    split at moved
    · rename_i phase
      cases moved
      have before : ¬s.phase.PastWait := by
        rw [phase]
        exact id
      refine ⟨?_, ?_, fun past => (before past).elim, inv.nothingClosed⟩
      · rw [List.countP_append, ← inv.waitGroup]
        rfl
      · intro l mem
        simp only [List.mem_append, List.mem_singleton] at mem
        obtain mem | rfl := mem
        · exact inv.loops l mem
        · exact LoopInv.start kind
    · cases moved
  | cancel =>
    cases moved
    exact ⟨inv.waitGroup, inv.loops, inv.returned, inv.nothingClosed⟩
  | close => exact inv.close moved
  | closeHandler h =>
    have returned := inv.returned
    simp only [Base.step] at moved
    split at moved
    · rename_i phase
      rw [phase] at returned
      split at moved
      · cases moved
        exact inv.past (returned trivial) rfl rfl trivial
      · cases moved
    · cases moved
  | loop i a =>
    simp only [Base.step, Option.bind_eq_bind, Option.bind_eq_some_iff] at moved
    obtain ⟨l, found, l', loopMoved, rest⟩ := moved
    cases rest
    exact inv.loop found loopMoved

theorem reachable_inv (h : (probe P).Reachable s) : Inv P s :=
  h.invariant Inv.init fun _ _ _ inv _ moved => inv.step moved

/-- However the loops, the cancellation and `Close` interleave, no `Dispatch` starts once `Close` has
begun to close the closers or the dispatcher, and by then every loop has dispatched each event that
it has decoded once, to handlers that were all open. -/
theorem dispatched_before_close (P : Setup ρ ε η) (h : (probe P).Reachable s)
    (past : s.phase.PastWait) :
    (∀ i, step P s (.loop i .dispatch) = none) ∧
    ∀ l ∈ s.loops, l.dispatched.Perm l.decoded ∧ ∀ r ∈ l.results, r.2.Delivered P r.1 := by
  have inv := reachable_inv h
  constructor
  · intro i
    simp only [step, Option.bind_eq_bind, Option.bind_eq_none_iff]
    intro l found l' moved
    exact (inv.not_pastWait found (active_of_loopStep moved) past).elim
  · intro l mem
    have kept := inv.loops l mem
    have pc := Loop.not_active (inv.returned past l mem)
    have conserved := kept.conserved
    have pending := kept.flushed (by rw [pc]; trivial)
    rw [pc, pending] at conserved
    simp only [Pc.events, List.append_nil] at conserved
    exact ⟨conserved, kept.delivered⟩

/-- A probe whose events are their timestamps, with one handler that is also a closer. -/
def oneHandler : Setup UInt64 UInt64 Unit :=
  { decode := some, perfMonoNs := some, validate := fun _ => true, handlers := [()], closers := [()] }

/-- An ordered loop holds an event back, the context is cancelled, and `Close` waits for the flush. -/
def flushedAtClose : List (Act UInt64 Unit) :=
  [.goReaderLoop (.perfEventLoopOrdered 10), .loop 0 .check, .loop 0 (.read (.record 0 5)),
    .loop 0 .decode, .loop 0 .push, .loop 0 .next, .cancel, .close, .close, .close, .loop 0 .check,
    .loop 0 .dispatch, .loop 0 .lock, .loop 0 (.handle ()), .loop 0 .unlock, .loop 0 .next, .close,
    .close, .close, .close]

theorem dispatched_before_close_flushed :
    ∃ s, (probe oneHandler).Reachable s ∧ s.phase.PastWait ∧ s.loops.map Loop.decoded = [[5]] ∧
      step oneHandler s (.loop 0 .dispatch) = none ∧ ∀ l ∈ s.loops, l.dispatched.Perm l.decoded := by
  obtain ⟨s, ran, past, decoded⟩ : ∃ s ∈ (probe oneHandler).run flushedAtClose,
      s.phase.PastWait ∧ s.loops.map Loop.decoded = [[5]] := by decide
  have reached := Machine.reachable_of_run ran
  obtain ⟨noDispatch, once⟩ := dispatched_before_close oneHandler reached past
  exact ⟨s, reached, past, decoded, noDispatch 0, fun l mem => (once l mem).1⟩

end ECapture.Probe.Base
