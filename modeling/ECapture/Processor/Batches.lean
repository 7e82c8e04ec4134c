import ECapture.Processor.Worker

/-!
# Batches of a socket worker

A worker that is tied to a socket gathers events, is flushed when it has been idle, and goes on
with the same parser. `serve` is such a life: batches of events with a flush after each. A flush
of a batch without bytes shows nothing. What `serve` hands out depends on the batches alone,
apart from what the parser keeps.
-/

namespace ECapture.Processor
open Library

/-- A flush: the bytes of the batch, the parser on which `Display` was called, and what was handed
to `writeToChan`. -/
structure Flush (π : Type) where
  payload : Bytes
  parser : π
  out : Option Bytes

namespace EventWorker

variable {π : Type} (cfg : Config π)

/-- The events of a batch, written one after another. -/
def gather (events : List Event) (ew : EventWorker π) : EventWorker π :=
  events.foldl (fun ew e => ew.writeEvent cfg e) ew

/-- Batches with an idle flush (`drainAndClose`, after which `Run` goes on) behind each. -/
def serve (order : Nat) : List (List Event) → EventWorker π → List (Flush π)
  | [], _ => []
  | events :: batches, ew =>
    let ew := ew.gather cfg events
    let (out, next) := ew.close cfg false order
    if ew.gathered.payload = [] then serve order batches next
    else ⟨ew.gathered.payload, (ew.parserEvents cfg order).2, out⟩ :: serve order batches next

end EventWorker

/-! ## What a batch gathers -/

variable {π : Type} (cfg : Config π)

/-- `writeEvent` on the buffer of a socket worker. -/
def Gathered.add (g : Gathered) (e : Event) : Gathered :=
  let tsize := cfg.truncateSize.toInt64.toInt
  if 0 < tsize ∧ tsize ≤ g.payload.length then g.truncate tsize.toNat else g.write e

theorem backed_nil : ([] : Bytes) ≠ [] → (none : Option Event).isSome := fun h => absurd rfl h

/-- The buffer of a batch. -/
def batch (events : List Event) : Gathered :=
  events.foldl (fun g e => g.add cfg e) ⟨[], none, backed_nil⟩

/-- The batches that are flushed: those that have bytes. -/
def payloads (batches : List (List Event)) : List Bytes :=
  ((batches.map (batch cfg)).map Gathered.payload).filter (· ≠ [])

/-- Two buffers that show the same: an origin matters only for a payload. -/
def Gathered.Same (g g' : Gathered) : Prop :=
  g.payload = g'.payload ∧ (g.payload ≠ [] → g.originEvent = g'.originEvent)

/-- Without a truncate size a batch is all the bytes of its events. -/
theorem payload_batch {cfg : Config π} (unlimited : cfg.truncateSize = 0) (events : List Event) :
    (batch cfg events).payload = events.flatMap Event.payload := by
  have grows : ∀ g : Gathered, (events.foldl (fun g e => g.add cfg e) g).payload =
      g.payload ++ events.flatMap Event.payload := by
    induction events with
    | nil => simp
    | cons e events ih =>
      intro g
      have step : g.add cfg e = g.write e := by simp [Gathered.add, unlimited]
      rw [List.foldl_cons, step, ih, List.flatMap_cons, ← List.append_assoc]
      rfl
  exact grows _

theorem Gathered.Same.add {g g' : Gathered} (h : g.Same g') (e : Event) :
    (g.add cfg e).Same (g'.add cfg e) := by
  obtain ⟨payload, origin⟩ := h
  simp only [Gathered.add, payload]
  split
  case isTrue =>
    refine ⟨by simp [Gathered.truncate, payload], fun nonempty => origin ?_⟩
    intro empty
    simp [Gathered.truncate, empty] at nonempty
  case isFalse => exact ⟨by simp [Gathered.write, payload], fun _ => rfl⟩

theorem Gathered.Same.foldl {g g' : Gathered} (h : g.Same g') (events : List Event) :
    (events.foldl (fun g e => g.add cfg e) g).Same (events.foldl (fun g e => g.add cfg e) g') := by
  induction events generalizing g g' with
  | nil => exact h
  | cons e events ih => exact ih (h.add cfg e)

theorem Gathered.same_of_empty {g g' : Gathered} (h : g.payload = []) (h' : g'.payload = []) :
    g.Same g' :=
  ⟨h.trans h'.symm, fun nonempty => absurd h nonempty⟩

/-! ## What a flush shows -/

/-- What `Display` makes of the text of a parser. -/
def shownText (origin : Event) (b : Bytes) : Option Bytes :=
  if b = [] then none
  else some (EventWorker.format origin.base (if cfg.isHex then hexDump b else b))

/-- What a flush of a buffer shows, with a parser that has not yet been given its bytes. -/
def shownBatch (g : Gathered) (parser : π) : Option Bytes :=
  g.originEvent.bind fun origin =>
    shownText cfg origin (cfg.parsers.display (cfg.parsers.write g.payload parser))

theorem Gathered.Same.shownBatch {g g' : Gathered} (h : g.Same g') (nonempty : g.payload ≠ [])
    (parser : π) : shownBatch cfg g parser = shownBatch cfg g' parser := by
  rw [Processor.shownBatch, Processor.shownBatch, h.1, h.2 nonempty]

namespace EventWorker

variable {cfg} {order : Nat} {ew : EventWorker π}

/-- A socket worker between two batches. -/
structure Idle (ew : EventWorker π) : Prop where
  sock : ew.lifeCycle = .sock
  empty : ew.gathered.payload = []

theorem idle_newEventWorker {uuid : Bytes} (h : (uuidParse uuid).lifeCycle = .sock) :
    (newEventWorker uuid : EventWorker π).Idle :=
  ⟨h, rfl⟩

/-- A worker that takes events, because it has nothing to show yet or is tied to a socket. -/
theorem gather_of_accepting (accepting : ew.status = .init ∨ ew.lifeCycle = .sock)
    (events : List Event) :
    ew.gather cfg events =
      { ew with gathered := events.foldl (fun g e => g.add cfg e) ew.gathered } := by
  induction events generalizing ew with
  | nil => rfl
  | cons e events ih =>
    have step : ew.writeEvent cfg e = { ew with gathered := ew.gathered.add cfg e } := by
      have open_ : ¬ (ew.status ≠ .init ∧ ew.lifeCycle = .default) := by
        rintro ⟨shown, default⟩
        rcases accepting with init | sock
        · exact shown init
        · cases default.symm.trans sock
      simp only [writeEvent, open_, if_false, Gathered.add]
      split <;> rfl
    rw [gather, List.foldl_cons, step]
    exact ih accepting

theorem gather_of_sock (sock : ew.lifeCycle = .sock) (events : List Event) :
    ew.gather cfg events =
      { ew with gathered := events.foldl (fun g e => g.add cfg e) ew.gathered } :=
  gather_of_accepting (.inr sock) events

/-- The buffer at the next flush. -/
theorem gathered_gather (cfg : Config π) (idle : ew.Idle) (events : List Event) :
    (ew.gather cfg events).gathered.Same (batch cfg events) := by
  rw [gather_of_sock idle.sock]
  exact (Gathered.same_of_empty idle.empty rfl).foldl cfg events

theorem close_of_empty (cfg : Config π) (order : Nat) (h : ew.gathered.payload = []) :
    (ew.close cfg false order).1 = none ∧ (ew.close cfg false order).2.parser = ew.parser ∧
      (ew.close cfg false order).2.lifeCycle = ew.lifeCycle ∧
      (ew.close cfg false order).2.gathered = ew.gathered := by
  simp [close, display, h]

/-- A flush shows the text of the parser, and resets it. -/
theorem close_of_nonempty (cfg : Config π) (order : Nat) (h : ew.gathered.payload ≠ []) :
    (ew.close cfg false order).1 =
        shownBatch cfg ew.gathered
          (ew.parser.getD (cfg.parsers.newParser order ew.gathered.payload)) ∧
      (ew.close cfg false order).2.parser =
        some (cfg.parsers.reset (ew.parserEvents cfg order).2) ∧
      (ew.close cfg false order).2.lifeCycle = ew.lifeCycle ∧
      (ew.close cfg false order).2.gathered.payload = [] := by
  obtain ⟨origin, eq⟩ := Option.isSome_iff_exists.mp (ew.gathered.backed h)
  simp [close, display, h, parserEvents, shownBatch, shownText, Gathered.origin, eq,
    Gathered.reset]

/-- A worker that goes on is idle again. -/
theorem idle_close (cfg : Config π) (order : Nat) (idle : ew.Idle) (events : List Event) :
    ((ew.gather cfg events).close cfg false order).2.Idle := by
  have sock : (ew.gather cfg events).lifeCycle = .sock := by
    rw [gather_of_sock idle.sock]
    exact idle.sock
  by_cases empty : (ew.gather cfg events).gathered.payload = []
  · obtain ⟨-, -, life, kept⟩ := close_of_empty cfg order empty
    exact ⟨life.trans sock, by rw [kept, empty]⟩
  · obtain ⟨-, -, life, cleared⟩ := close_of_nonempty cfg order empty
    exact ⟨life.trans sock, cleared⟩

end EventWorker

/-! ## The flushes of a life -/

/-- The flushes of a life, from its parser and the buffers of the batches. -/
def flushes (order : Nat) : Option π → List Gathered → List (Flush π)
  | _, [] => []
  | parser, g :: gs =>
    if g.payload = [] then flushes order parser gs
    else
      let p := parser.getD (cfg.parsers.newParser order g.payload)
      let p' := cfg.parsers.write g.payload p
      ⟨g.payload, p', shownBatch cfg g p⟩ :: flushes order (some (cfg.parsers.reset p')) gs

/-- A worker that is tied to a socket shows the flushes of its batches. -/
theorem serve_eq_flushes {cfg : Config π} {order : Nat} {ew : EventWorker π} (idle : ew.Idle)
    (batches : List (List Event)) :
    ew.serve cfg order batches = flushes cfg order ew.parser (batches.map (batch cfg)) := by
  induction batches generalizing ew with
  | nil => rfl
  | cons events batches ih =>
    have same := EventWorker.gathered_gather cfg idle events
    have parser : (ew.gather cfg events).parser = ew.parser := by
      rw [EventWorker.gather_of_sock idle.sock]
    have next := ih (EventWorker.idle_close cfg order idle events)
    simp only [EventWorker.serve, List.map_cons, flushes, ← same.1]
    split
    case isTrue empty =>
      rw [next, (EventWorker.close_of_empty cfg order empty).2.1, parser]
    case isFalse nonempty =>
      obtain ⟨out, kept, -, -⟩ := EventWorker.close_of_nonempty cfg order nonempty
      rw [next, kept, out, same.shownBatch cfg nonempty, EventWorker.parserEvents, parser]

/-- The batches that have bytes, each with what a parser in the state `fresh` shows for it. -/
def shownAlone (fresh : π) (gs : List Gathered) : List (Bytes × Option Bytes) :=
  (gs.filter fun g => g.payload ≠ []).map fun g => (g.payload, shownBatch cfg g fresh)

/-- When a parser that has been reset shows a batch as a new one does, a life shows each batch as
if it were the only one. -/
theorem flushes_eq_shownAlone {cfg : Config π} {order : Nat} {fresh : π}
    (Parsed : Bytes → Prop) (new : ∀ b, cfg.parsers.newParser order b = fresh)
    (agree : ∀ p b, Parsed b → cfg.parsers.display (cfg.parsers.write b (cfg.parsers.reset p)) =
      cfg.parsers.display (cfg.parsers.write b fresh))
    {parser : Option π} (start : ∀ p, parser = some p → ∃ q, p = cfg.parsers.reset q)
    {gs : List Gathered} (parsed : ∀ g ∈ gs, g.payload ≠ [] → Parsed g.payload) :
    (flushes cfg order parser gs).map (fun f => (f.payload, f.out)) = shownAlone cfg fresh gs := by
  induction gs generalizing parser with
  | nil => rfl
  | cons g gs ih =>
    have later : ∀ g ∈ gs, g.payload ≠ [] → Parsed g.payload := fun g mem =>
      parsed g (List.mem_cons_of_mem _ mem)
    by_cases empty : g.payload = []
    · have rest := ih start later
      simpa [flushes, shownAlone, empty] using rest
    · have first : shownBatch cfg g (parser.getD fresh) = shownBatch cfg g fresh := by
        cases parser with
        | none => rfl
        | some p =>
          obtain ⟨q, rfl⟩ := start p rfl
          rw [Option.getD_some, shownBatch, shownBatch, agree q _ (parsed g (by simp) empty)]
      have reset : ∀ p, some (cfg.parsers.reset (cfg.parsers.write g.payload (parser.getD fresh))) =
          some p → ∃ q, p = cfg.parsers.reset q := by simp
      have rest := ih reset later
      simpa [flushes, shownAlone, empty, new, first] using rest

/-! ## One parser among others -/

/-- `f` makes a parser of `ps'` one of `ps`, with the same methods. -/
structure Embeds {π' : Type} (ps' : Parsers π') (ps : Parsers π) (f : π' → π) : Prop where
  write : ∀ b p, ps.write b (f p) = f (ps'.write b p)
  display : ∀ p, ps.display (f p) = ps'.display p
  reset : ∀ p, ps.reset (f p) = f (ps'.reset p)

section

variable {π' : Type} {isHex : Bool} {truncateSize : UInt64} {ps : Parsers π} {ps' : Parsers π'}
  {f : π' → π}

theorem shownBatch_embed (embeds : Embeds ps' ps f) (g : Gathered) (p : π') :
    shownBatch ⟨isHex, truncateSize, ps⟩ g (f p) = shownBatch ⟨isHex, truncateSize, ps'⟩ g p := by
  simp only [shownBatch, embeds.write, embeds.display]
  rfl

theorem flushes_embed (embeds : Embeds ps' ps f) (order : Nat) (p : π') (gs : List Gathered) :
    flushes ⟨isHex, truncateSize, ps⟩ order (some (f p)) gs =
      (flushes ⟨isHex, truncateSize, ps'⟩ order (some p) gs).map
        fun fl => ⟨fl.payload, f fl.parser, fl.out⟩ := by
  induction gs generalizing p with
  | nil => rfl
  | cons g gs ih =>
    by_cases empty : g.payload = []
    · simp only [flushes, if_pos empty]
      exact ih p
    · simp only [flushes, if_neg empty, Option.getD_some, List.map_cons, embeds.write,
        embeds.reset, shownBatch_embed embeds, ih]

/-- A life whose first batch makes a parser of `ps'` is a life with `ps'` only. -/
theorem flushes_of_first (isHex : Bool) (truncateSize : UInt64) (embeds : Embeds ps' ps f)
    {order : Nat} {gs : List Gathered}
    (first : ∀ b, (gs.map Gathered.payload).find? (· ≠ []) = some b →
      ps.newParser order b = f (ps'.newParser order b)) :
    flushes ⟨isHex, truncateSize, ps⟩ order none gs =
      (flushes ⟨isHex, truncateSize, ps'⟩ order none gs).map
        fun fl => ⟨fl.payload, f fl.parser, fl.out⟩ := by
  induction gs with
  | nil => rfl
  | cons g gs ih =>
    by_cases empty : g.payload = []
    · simp only [flushes, if_pos empty]
      exact ih fun b found => first b (by simpa [empty] using found)
    · have made := first g.payload (by simp [empty])
      simp only [flushes, if_neg empty, Option.getD_none, List.map_cons, made, embeds.write,
        embeds.reset, shownBatch_embed embeds, flushes_embed embeds]

end

end ECapture.Processor
