import ECapture.Errors
import ECapture.Library.Pointwise
import ECapture.Library.Steps
import Mathlib.Data.List.Nodup

/-!
# The dispatcher and its handlers

`internal/events/dispatcher.go`. `Register`, `Unregister` and `Close` hold the lock alone;
any number of goroutines may be inside `Dispatch` together, each between two handlers of its own
visit of the map. What the handlers answer and the order in which Go visits the map are up to
the schedule.

The history records what happened to the handlers. A `Legal` history is what a dispatcher is for:
an event reaches only handlers that are registered at that time, two of which never share a
name, and the shutdown closes each of them once and is the end.
-/

namespace ECapture.Events.Dispatch
open Library

/-! ## The code -/

/-- What the dispatcher sees of a `domain.EventHandler`; `id` is the pointer in the interface. -/
structure EventHandler where
  id : Nat
  name : Bytes
  writer : Bytes
  /-- Whether it has a `Close() error`. -/
  closer : Bool
  deriving DecidableEq

/-- `fmt.Sprintf("%s-%s", handler.Name(), handler.Writer().Name())`. -/
def EventHandler.key (handler : EventHandler) : Bytes :=
  handler.name ++ str "-" ++ handler.writer

inductive RegistryError where
  | coded (e : Error)
  /-- `errors.NewResourceNotFoundError`, of code 500. -/
  | resourceNotFound (message : Bytes)

structure Dispatcher where
  handlers : List (Bytes × EventHandler)
  closed : Bool

namespace Dispatcher

def newDispatcher : Dispatcher := { handlers := [], closed := false }

def has (d : Dispatcher) (name : Bytes) : Bool := d.handlers.any fun entry => entry.1 = name

def register (d : Dispatcher) : Option EventHandler → Except RegistryError Dispatcher
  | none => .error (.coded (.new .configuration (str "handler cannot be nil")))
  | some handler =>
    if d.closed then .error (.coded (.new .configuration (str "dispatcher is closed")))
    else if d.has handler.key then
      .error (.coded (.new .configuration (str "handler already registered")))
    else .ok { d with handlers := d.handlers ++ [(handler.key, handler)] }

def unregister (d : Dispatcher) (handlerName : Bytes) : Except RegistryError Dispatcher :=
  if d.closed then .error (.coded (.new .configuration (str "dispatcher is closed")))
  else if !d.has handlerName then
    .error (.resourceNotFound (str "resource not found: " ++ (str "handler: " ++ handlerName)))
  else .ok { d with handlers := d.handlers.filter fun entry => entry.1 ≠ handlerName }

def close (_ : Dispatcher) : Dispatcher := { handlers := [], closed := true }

def handlerCount (d : Dispatcher) : Nat := d.handlers.length

end Dispatcher

/-- A `Dispatch` that holds the read lock. -/
structure Call (ε : Type) where
  event : ε
  left : List (Bytes × EventHandler)
  handled : List (EventHandler × Option Error)
  lastErr : Option Error
  count : Nat
  /-- The map as the call found it. -/
  found : List (Bytes × EventHandler)

namespace Call

variable {ε : Type}

def start (handlers : List (Bytes × EventHandler)) (event : ε) : Call ε :=
  { event, left := handlers, handled := [], lastErr := none, count := 0, found := handlers }

/-- The body of the loop, for an entry that the visit has not had. -/
def handle (entry : Bytes × EventHandler) (err : Option Error) (c : Call ε) : Call ε :=
  { c with
    left := c.left.erase entry
    handled := c.handled ++ [(entry.2, err)]
    lastErr := err
    count := if err.isSome then c.count else c.count + 1 }

/-- What follows the loop. -/
def result (c : Call ε) : Option Error := if c.count = 0 then c.lastErr else none

end Call

/-- A `Dispatch` that has returned. -/
structure Return (ε : Type) where
  event : Option ε
  handled : List (EventHandler × Option Error)
  found : List (Bytes × EventHandler)
  err : Option Error

inductive Entry (ε : Type) where
  | registered (handler : EventHandler)
  | unregistered (name : Bytes)
  | handled (handler : EventHandler) (event : ε)
  /-- `Close`, with the answers of the handlers that it closed and its own. -/
  | closed (answers : List (EventHandler × Option Error)) (err : Option Error)

structure State (ε : Type) where
  dispatcher : Dispatcher
  calls : List (Call ε)
  returned : List (Return ε)
  history : List (Entry ε)

inductive Act (ε : Type) where
  | register (handler : Option EventHandler)
  | unregister (name : Bytes)
  | dispatch (event : Option ε)
  /-- The `i`th call hands its event to the handler of `entry`, which answers `err`. -/
  | handle (i : Nat) (entry : Bytes × EventHandler) (err : Option Error)
  | finish (i : Nat)
  /-- `Close` visits the map in this order; `answer` is what `Close` of a handler returns. -/
  | close (order : List (Bytes × EventHandler)) (answer : EventHandler → Option Error)

variable {ε : Type}

/-- The handlers that `Close` closes on its visit, with their answers. -/
def closing (order : List (Bytes × EventHandler)) (answer : EventHandler → Option Error) :
    List (EventHandler × Option Error) :=
  ((order.map Prod.snd).filter EventHandler.closer).map fun handler => (handler, answer handler)

/-- `closeErrors[0]`, if there is one. -/
def firstError (answers : List (EventHandler × Option Error)) : Option Error :=
  answers.findSome? Prod.snd

/-- The checks of `Dispatch` before it visits the map. -/
def refusal (validate : ε → Option Error) (d : Dispatcher) : Option ε → Option Error
  | none => some (.new .eventDispatch (str "event cannot be nil"))
  | some event =>
    if d.closed then some (.new .eventDispatch (str "dispatcher is closed"))
    else (validate event).map (.wrap .eventValidation (str "invalid event"))

/-- A `Dispatch` up to the visit of the map. -/
def State.dispatch (validate : ε → Option Error) (s : State ε) (event : Option ε) : State ε :=
  match refusal validate s.dispatcher event, event with
  | some err, _ =>
    { s with returned := s.returned ++ [{ event, handled := [], found := [], err := some err }] }
  | none, none => s
  | none, some event => { s with calls := s.calls ++ [.start s.dispatcher.handlers event] }

def step (validate : ε → Option Error) (s : State ε) : Act ε → Option (State ε)
  | .register none => some s
  | .register (some handler) =>
    if s.calls.length ≠ 0 then none
    else
      match s.dispatcher.register (some handler) with
      | .error _ => some s
      | .ok dispatcher =>
        some { s with dispatcher, history := s.history ++ [.registered handler] }
  | .unregister name =>
    if s.calls.length ≠ 0 then none
    else
      match s.dispatcher.unregister name with
      | .error _ => some s
      | .ok dispatcher =>
        some { s with dispatcher, history := s.history ++ [.unregistered name] }
  | .dispatch event => some (s.dispatch validate event)
  | .handle i entry err => do
    let c ← s.calls[i]?
    if entry ∈ c.left then
      some { s with
        calls := s.calls.set i (c.handle entry err)
        history := s.history ++ [.handled entry.2 c.event] }
    else none
  | .finish i => do
    let c ← s.calls[i]?
    if c.left.length = 0 then
      some { s with
        calls := s.calls.eraseIdx i
        returned := s.returned ++
          [{ event := some c.event, handled := c.handled, found := c.found, err := c.result }] }
    else none
  | .close order answer =>
    if s.calls.length ≠ 0 then none
    else if s.dispatcher.closed then some s
    else if order.Perm s.dispatcher.handlers then
      some { s with
        dispatcher := s.dispatcher.close
        history := s.history ++
          [.closed (closing order answer) (firstError (closing order answer))] }
    else none

def machine (validate : ε → Option Error) : Machine (State ε) (Act ε) where
  init := { dispatcher := .newDispatcher, calls := [], returned := [], history := [] }
  step := step validate

/-! ## Histories -/

def Entry.apply (live : List EventHandler) : Entry ε → List EventHandler
  | .registered handler => live ++ [handler]
  | .unregistered name => live.filter fun handler => handler.key ≠ name
  | .handled _ _ => live
  | .closed _ _ => []

/-- The handlers that are registered after a history. -/
def live (history : List (Entry ε)) : List EventHandler := history.foldl Entry.apply []

def Entry.IsClosed (e : Entry ε) : Prop := ∃ answers err, e = .closed answers err

/-- What may happen when these handlers are registered. -/
def Entry.Allowed (live : List EventHandler) : Entry ε → Prop
  | .registered handler => handler.key ∉ live.map EventHandler.key
  | .unregistered name => name ∈ live.map EventHandler.key
  | .handled handler _ => handler ∈ live
  | .closed answers err =>
    (answers.map Prod.fst).Perm (live.filter EventHandler.closer) ∧
      (err = none ↔ ∀ answered ∈ answers, answered.2 = none)

def Legal (history : List (Entry ε)) : Prop :=
  ∀ pre e post, history = pre ++ e :: post → e.Allowed (live pre) ∧ (e.IsClosed → post = [])

@[simp] theorem live_concat (history : List (Entry ε)) (e : Entry ε) :
    live (history ++ [e]) = e.apply (live history) := by
  simp [live]

theorem legal_nil : Legal ([] : List (Entry ε)) := fun pre e post h => by
  simp at h

theorem Legal.concat {history : List (Entry ε)} {e : Entry ε} (legal : Legal history)
    (running : ∀ old ∈ history, ¬ old.IsClosed) (allowed : e.Allowed (live history)) :
    Legal (history ++ [e]) := by
  intro pre old post split
  obtain rfl | ⟨rest, last, rfl⟩ := List.eq_nil_or_concat post
  case inl =>
    obtain ⟨rfl, same⟩ := List.append_inj' split rfl
    cases same
    exact ⟨allowed, fun _ => rfl⟩
  case inr =>
    rw [List.concat_eq_append, ← List.cons_append, ← List.append_assoc] at split
    obtain ⟨rfl, -⟩ := List.append_inj' split rfl
    refine ⟨(legal pre old rest rfl).1, fun closed => ?_⟩
    exact absurd closed (running old (by simp))

theorem Legal.before {history : List (Entry ε)} {e : Entry ε} (legal : Legal (history ++ [e])) :
    Legal history := by
  intro pre old post split
  obtain ⟨allowed, last⟩ := legal pre old (post ++ [e]) (by simp [split])
  exact ⟨allowed, fun closed => absurd (last closed) (by simp)⟩

/-- Two registered handlers never share a name. -/
theorem Legal.distinct {history : List (Entry ε)} (legal : Legal history) :
    ((live history).map EventHandler.key).Nodup := by
  induction history using List.reverseRecOn with
  | nil => exact List.nodup_nil
  | append_singleton history e ih =>
    have distinct := ih legal.before
    have allowed := (legal history e [] rfl).1
    rw [live_concat]
    cases e with
    | registered handler =>
      rw [Entry.apply, List.map_append, List.nodup_append]
      refine ⟨distinct, List.nodup_singleton _, ?_⟩
      intro key mem key' mem' same
      rw [List.map_singleton, List.mem_singleton] at mem'
      exact allowed (mem' ▸ same ▸ mem)
    | unregistered name => exact distinct.sublist (List.filter_sublist.map _)
    | handled handler event => exact distinct
    | closed answers err => exact List.nodup_nil

/-! ## Every run -/

/-- The events that the handlers have got, in the order of the history. -/
def delivered (history : List (Entry ε)) : List (EventHandler × ε) :=
  history.filterMap fun
    | .handled handler event => some (handler, event)
    | _ => none

def Call.delivered (c : Call ε) : List (EventHandler × ε) :=
  c.handled.map fun answered => (answered.1, c.event)

/-- One delivery for each handler that the call found. -/
def Return.owed (r : Return ε) : List (EventHandler × ε) :=
  r.event.toList.flatMap fun event => r.found.map fun entry => (entry.2, event)

/-- What a call knows of its visit. -/
structure Call.Sound (validate : ε → Option Error) (c : Call ε) : Prop where
  valid : validate c.event = none
  visit : (c.handled.map Prod.fst ++ c.left.map Prod.snd).Perm (c.found.map Prod.snd)
  count : c.count = 0 ↔ ∀ answered ∈ c.handled, answered.2 ≠ none
  lastErr : c.lastErr = c.handled.getLast?.bind Prod.snd

/-- A complete visit: every handler once, and an error only if all of them failed, the last. -/
structure Return.Visited (validate : ε → Option Error) (r : Return ε) : Prop where
  valid : ∃ event, r.event = some event ∧ validate event = none
  visit : (r.handled.map Prod.fst).Perm (r.found.map Prod.snd)
  distinct : (r.found.map fun entry => entry.2.key).Nodup
  err : r.err = none ↔ r.found = [] ∨ ∃ answered ∈ r.handled, answered.2 = none
  last : ∀ e, r.err = some e → r.handled.getLast?.bind Prod.snd = some e

/-- A call that was refused before it visited the map, with the three reasons there are. -/
structure Return.Refused (validate : ε → Option Error) (history : List (Entry ε)) (r : Return ε) :
    Prop where
  handled : r.handled = []
  found : r.found = []
  err : r.event = none ∧ r.err = some (.new .eventDispatch (str "event cannot be nil")) ∨
    (∃ e ∈ history, e.IsClosed) ∧
      r.err = some (.new .eventDispatch (str "dispatcher is closed")) ∨
    ∃ event cause, r.event = some event ∧ validate event = some cause ∧
      r.err = some (.wrap .eventValidation (str "invalid event") cause)

structure Sound (validate : ε → Option Error) (s : State ε) : Prop where
  legal : Legal s.history
  own : ∀ entry ∈ s.dispatcher.handlers, entry.1 = entry.2.key
  live : s.dispatcher.handlers.map Prod.snd = live s.history
  running : s.dispatcher.closed = false → ∀ e ∈ s.history, ¬ e.IsClosed
  closed : s.dispatcher.closed = true → s.calls = [] ∧ ∃ e ∈ s.history, e.IsClosed
  calls : ∀ c ∈ s.calls, c.Sound validate ∧ c.found = s.dispatcher.handlers
  returned : ∀ r ∈ s.returned, r.Refused validate s.history ∨ r.Visited validate
  delivered : (delivered s.history).Perm
    (s.returned.flatMap Return.owed ++ s.calls.flatMap Call.delivered)

theorem delivered_concat (history : List (Entry ε)) (e : Entry ε) :
    delivered (history ++ [e]) = delivered history ++ delivered [e] :=
  List.filterMap_append

theorem Sound.init (validate : ε → Option Error) : Sound validate (machine validate).init where
  legal := legal_nil
  own := by simp [machine, Dispatcher.newDispatcher]
  live := rfl
  running := by simp [machine]
  closed := by simp [machine, Dispatcher.newDispatcher]
  calls := by simp [machine]
  returned := by simp [machine]
  delivered := by simp [machine, Dispatch.delivered]

theorem Return.Refused.concat {validate : ε → Option Error} {history : List (Entry ε)}
    {r : Return ε} (refused : r.Refused validate history) (e : Entry ε) :
    r.Refused validate (history ++ [e]) where
  handled := refused.handled
  found := refused.found
  err := refused.err.imp_right (.imp_left fun ⟨⟨old, mem, closed⟩, eq⟩ =>
    ⟨⟨old, List.mem_append_left _ mem, closed⟩, eq⟩)

theorem Dispatcher.has_iff {d : Dispatcher} (own : ∀ entry ∈ d.handlers, entry.1 = entry.2.key)
    {handlers : List EventHandler} (eq : d.handlers.map Prod.snd = handlers) (name : Bytes) :
    d.has name = true ↔ name ∈ handlers.map EventHandler.key := by
  subst eq
  rw [Dispatcher.has, List.any_eq_true, List.map_map, List.mem_map]
  constructor
  · rintro ⟨entry, mem, same⟩
    exact ⟨entry, mem, (own entry mem).symm.trans (of_decide_eq_true same)⟩
  · rintro ⟨entry, mem, same⟩
    exact ⟨entry, mem, decide_eq_true ((own entry mem).trans same)⟩

/-- What `Register` and `Unregister` do to a dispatcher without readers. -/
theorem Sound.change {validate : ε → Option Error} {s : State ε} (sound : Sound validate s)
    (idle : s.calls = []) {dispatcher : Dispatcher} {e : Entry ε}
    (opened : s.dispatcher.closed = false) (still : dispatcher.closed = false)
    (own : ∀ entry ∈ dispatcher.handlers, entry.1 = entry.2.key)
    (live : dispatcher.handlers.map Prod.snd = e.apply (s.dispatcher.handlers.map Prod.snd))
    (allowed : e.Allowed (s.dispatcher.handlers.map Prod.snd))
    (silent : Dispatch.delivered [e] = []) (notClosed : ¬ e.IsClosed) :
    Sound validate { s with dispatcher, history := s.history ++ [e] } where
  legal := sound.legal.concat (sound.running opened) (sound.live ▸ allowed)
  own := own
  live := by rw [live_concat, ← sound.live, live]
  running := fun _ old mem => by
    rcases List.mem_append.mp mem with before | new
    · exact sound.running opened old before
    · exact List.mem_singleton.mp new ▸ notClosed
  closed := fun closed => absurd closed (by simp [still])
  calls := fun c mem => absurd mem (by simp [idle])
  returned := fun r mem => (sound.returned r mem).imp_left (·.concat e)
  delivered := by
    rw [delivered_concat, silent, List.append_nil]
    exact sound.delivered

theorem Sound.register {validate : ε → Option Error} {s : State ε} (sound : Sound validate s)
    (idle : s.calls = []) {handler : EventHandler} {dispatcher : Dispatcher}
    (ok : s.dispatcher.register (some handler) = .ok dispatcher) :
    Sound validate { s with dispatcher, history := s.history ++ [.registered handler] } := by
  rw [Dispatcher.register] at ok
  split at ok
  · cases ok
  case isFalse opened =>
    split at ok
    · cases ok
    case isFalse fresh =>
      cases ok
      have opened : s.dispatcher.closed = false := by simpa using opened
      refine sound.change idle opened opened ?_ ?_ ?_ rfl (by rintro ⟨_, _, h⟩; cases h)
      · intro entry mem
        rcases List.mem_append.mp mem with old | new
        · exact sound.own entry old
        · rw [List.mem_singleton.mp new]
      · rw [List.map_append, List.map_singleton, Entry.apply]
      · rwa [Entry.Allowed, ← Dispatcher.has_iff sound.own rfl]

theorem Sound.unregister {validate : ε → Option Error} {s : State ε} (sound : Sound validate s)
    (idle : s.calls = []) {name : Bytes} {dispatcher : Dispatcher}
    (ok : s.dispatcher.unregister name = .ok dispatcher) :
    Sound validate { s with dispatcher, history := s.history ++ [.unregistered name] } := by
  rw [Dispatcher.unregister] at ok
  split at ok
  · cases ok
  case isFalse opened =>
    split at ok
    · cases ok
    case isFalse present =>
      cases ok
      have opened : s.dispatcher.closed = false := by simpa using opened
      refine sound.change idle opened opened ?_ ?_ ?_ rfl (by rintro ⟨_, _, h⟩; cases h)
      · exact fun entry mem => sound.own entry (List.mem_filter.mp mem).1
      · rw [Entry.apply, List.filter_map]
        refine congrArg (List.map Prod.snd) (List.filter_congr fun entry mem => ?_)
        rw [Function.comp_apply, sound.own entry mem]
      · rw [Entry.Allowed, ← Dispatcher.has_iff sound.own rfl]
        simpa using present

/-- Results that are added to a state in which nothing else changes. -/
theorem Sound.refuse {validate : ε → Option Error} {s : State ε} (sound : Sound validate s)
    {event : Option ε} {err : Error} (refused : refusal validate s.dispatcher event = some err) :
    Sound validate { s with
      returned := s.returned ++ [{ event, handled := [], found := [], err := some err }] } where
  legal := sound.legal
  own := sound.own
  live := sound.live
  running := sound.running
  closed := sound.closed
  calls := sound.calls
  returned := fun r mem => by
    rcases List.mem_append.mp mem with old | new
    · exact sound.returned r old
    · rw [List.mem_singleton.mp new]
      refine .inl ⟨rfl, rfl, ?_⟩
      cases event with
      | none => exact .inl ⟨rfl, refused.symm⟩
      | some event =>
        rw [refusal] at refused
        split at refused
        · exact .inr (.inl ⟨(sound.closed ‹_›).2, refused.symm⟩)
        · obtain ⟨cause, invalid, rfl⟩ := Option.map_eq_some_iff.mp refused
          exact .inr (.inr ⟨event, cause, rfl, invalid, rfl⟩)
  delivered := by
    have nothing : Return.owed { event, handled := [], found := [], err := some err } = [] := by
      cases event <;> rfl
    simpa [nothing] using sound.delivered

theorem Sound.start {validate : ε → Option Error} {s : State ε} (sound : Sound validate s)
    {event : ε} (accepted : refusal validate s.dispatcher (some event) = none) :
    Sound validate { s with calls := s.calls ++ [.start s.dispatcher.handlers event] } := by
  rw [refusal] at accepted
  split at accepted
  · cases accepted
  case isFalse opened =>
    exact {
      legal := sound.legal
      own := sound.own
      live := sound.live
      running := sound.running
      closed := fun closed => absurd closed opened
      calls := fun c mem => by
        rcases List.mem_append.mp mem with old | new
        · exact sound.calls c old
        · rw [List.mem_singleton.mp new]
          exact ⟨⟨Option.map_eq_none_iff.mp accepted, .refl _, by simp [Call.start], rfl⟩, rfl⟩
      returned := sound.returned
      delivered := by simpa [Call.delivered, Call.start] using sound.delivered }

theorem Call.Sound.handle {validate : ε → Option Error} {c : Call ε} (sound : c.Sound validate)
    {entry : Bytes × EventHandler} (mem : entry ∈ c.left) (err : Option Error) :
    (c.handle entry err).Sound validate where
  valid := sound.valid
  visit := by
    refine .trans ?_ sound.visit
    rw [Call.handle, List.map_append, List.append_assoc]
    exact ((List.perm_cons_erase mem).map Prod.snd).symm.append_left _
  count := by
    rw [Call.handle]
    cases err with
    | none => simp
    | some e =>
      exact ⟨fun zero => List.forall_mem_append.mpr ⟨sound.count.mp zero, by simp⟩,
        fun failed => sound.count.mpr (List.forall_mem_append.mp failed).1⟩
  lastErr := by simp [Call.handle]

theorem Sound.handle {validate : ε → Option Error} {s : State ε} (sound : Sound validate s)
    {i : Nat} {c : Call ε} (found : s.calls[i]? = some c) {entry : Bytes × EventHandler}
    (mem : entry ∈ c.left) (err : Option Error) :
    Sound validate { s with
      calls := s.calls.set i (c.handle entry err)
      history := s.history ++ [.handled entry.2 c.event] } := by
  obtain ⟨pre, post, split, updated, -⟩ := exists_around found
  obtain ⟨visiting, same⟩ := sound.calls c (List.mem_of_getElem? found)
  have opened : s.dispatcher.closed = false := by
    by_contra closed
    have gone := (sound.closed (by simpa using closed)).1
    simp [gone] at found
  have registered : entry.2 ∈ Dispatch.live s.history := by
    rw [← sound.live, ← same]
    exact visiting.visit.mem_iff.mp (List.mem_append_right _ (List.mem_map_of_mem mem))
  exact {
    legal := sound.legal.concat (sound.running opened) registered
    own := sound.own
    live := by rw [live_concat, Entry.apply, sound.live]
    running := fun _ old mem => by
      rcases List.mem_append.mp mem with before | new
      · exact sound.running opened old before
      · rw [List.mem_singleton.mp new]
        rintro ⟨_, _, h⟩
        cases h
    closed := fun closed => absurd closed (by simp [opened])
    calls := fun c' mem' => by
      rcases List.mem_or_eq_of_mem_set mem' with old | rfl
      · exact sound.calls c' old
      · exact ⟨visiting.handle mem err, same⟩
    returned := fun r mem => (sound.returned r mem).imp_left (·.concat _)
    delivered := by
      have before := sound.delivered
      rw [split] at before
      rw [delivered_concat, updated]
      refine (before.append_right _).trans ?_
      simp only [List.flatMap_append, List.flatMap_cons, Call.delivered, Call.handle,
        List.map_append, List.append_assoc]
      exact (List.perm_append_comm.append_left _).append_left _ |>.append_left _ }

theorem Call.Sound.visited {validate : ε → Option Error} {c : Call ε} (sound : c.Sound validate)
    (done : c.left = []) (distinct : (c.found.map fun entry => entry.2.key).Nodup) :
    Return.Visited validate
      { event := some c.event, handled := c.handled, found := c.found, err := c.result } where
  valid := ⟨c.event, rfl, sound.valid⟩
  visit := by simpa [done] using sound.visit
  distinct := distinct
  err := by
    rw [Call.result]
    split
    case isTrue zero =>
      have failed := sound.count.mp zero
      have nobody : ¬ ∃ answered ∈ c.handled, answered.2 = none :=
        fun ⟨answered, mem, eq⟩ => failed answered mem eq
      rw [sound.lastErr, or_iff_left nobody]
      cases last : c.handled.getLast? with
      | none =>
        have idle : c.handled = [] := List.getLast?_eq_none_iff.mp last
        have empty := sound.visit.length_eq
        simpa [idle, done, eq_comm] using empty
      | some answered =>
        have mem := List.mem_of_getLast? last
        have visited : answered.1 ∈ c.found.map Prod.snd :=
          sound.visit.mem_iff.mp (List.mem_append_left _ (List.mem_map_of_mem mem))
        refine iff_of_false (failed answered mem) fun (empty : c.found = []) => ?_
        rw [empty] at visited
        cases visited
    case isFalse served =>
      refine iff_of_true rfl (.inr ?_)
      by_contra nobody
      exact served (sound.count.mpr fun answered mem eq => nobody ⟨answered, mem, eq⟩)
  last := fun e eq => by
    rw [Call.result] at eq
    split at eq
    · exact sound.lastErr ▸ eq
    · cases eq

theorem Call.Sound.delivered_perm {validate : ε → Option Error} {c : Call ε}
    (sound : c.Sound validate) (done : c.left = []) :
    c.delivered.Perm (Return.owed
      { event := some c.event, handled := c.handled, found := c.found, err := c.result }) := by
  have visit := sound.visit
  rw [done, List.map_nil, List.append_nil] at visit
  simpa [Call.delivered, Return.owed, Function.comp_def] using
    visit.map fun handler => (handler, c.event)

theorem Sound.finish {validate : ε → Option Error} {s : State ε} (sound : Sound validate s)
    {i : Nat} {c : Call ε} (found : s.calls[i]? = some c) (done : c.left = []) :
    Sound validate { s with
      calls := s.calls.eraseIdx i
      returned := s.returned ++
        [{ event := some c.event, handled := c.handled, found := c.found, err := c.result }] } := by
  obtain ⟨pre, post, split, -, removed⟩ := exists_around found
  obtain ⟨visiting, same⟩ := sound.calls c (List.mem_of_getElem? found)
  have distinct : (c.found.map fun entry => entry.2.key).Nodup := by
    have keys := sound.legal.distinct
    rw [← sound.live, List.map_map] at keys
    exact same ▸ keys
  exact {
    legal := sound.legal
    own := sound.own
    live := sound.live
    running := sound.running
    closed := fun closed => by
      have gone := (sound.closed closed).1
      simp [gone] at found
    calls := fun c' mem => sound.calls c' (List.mem_of_mem_eraseIdx mem)
    returned := fun r mem => by
      rcases List.mem_append.mp mem with old | new
      · exact sound.returned r old
      · exact .inr (List.mem_singleton.mp new ▸ visiting.visited done distinct)
    delivered := by
      have before := sound.delivered
      rw [split] at before
      rw [removed]
      refine before.trans ?_
      simp only [List.flatMap_append, List.flatMap_cons, List.flatMap_nil, List.append_nil,
        List.append_assoc]
      refine List.Perm.append_left _ ?_
      rw [← List.append_assoc]
      refine List.perm_append_comm.append_right _ |>.trans ?_
      rw [List.append_assoc]
      exact (visiting.delivered_perm done).append_right _ }

theorem firstError_eq_none (answers : List (EventHandler × Option Error)) :
    firstError answers = none ↔ ∀ answered ∈ answers, answered.2 = none :=
  List.findSome?_eq_none_iff

theorem Sound.close {validate : ε → Option Error} {s : State ε} (sound : Sound validate s)
    (idle : s.calls = []) (opened : s.dispatcher.closed = false)
    {order : List (Bytes × EventHandler)} (visit : order.Perm s.dispatcher.handlers)
    (answer : EventHandler → Option Error) :
    Sound validate { s with
      dispatcher := s.dispatcher.close
      history := s.history ++
        [.closed (closing order answer) (firstError (closing order answer))] } := by
  have allowed : (Entry.closed (closing order answer) (firstError (closing order answer))
      : Entry ε).Allowed (Dispatch.live s.history) := by
    refine ⟨?_, firstError_eq_none _⟩
    rw [closing, List.map_map, ← sound.live]
    simpa [Function.comp_def] using (visit.map Prod.snd).filter EventHandler.closer
  exact {
    legal := sound.legal.concat (sound.running opened) allowed
    own := by simp [Dispatcher.close]
    live := by rw [live_concat]; rfl
    running := by simp [Dispatcher.close]
    closed := fun _ => ⟨idle, _, List.mem_append_right _ List.mem_cons_self, _, _, rfl⟩
    calls := fun c mem => absurd mem (by simp [idle])
    returned := fun r mem => (sound.returned r mem).imp_left (·.concat _)
    delivered := by
      rw [delivered_concat]
      simpa [Dispatch.delivered] using sound.delivered }

/-- Every step keeps `Sound`. -/
theorem Sound.step {validate : ε → Option Error} {s t : State ε} {a : Act ε}
    (sound : Sound validate s) (moved : (machine validate).step s a = some t) :
    Sound validate t := by
  rw [machine] at moved
  cases a with
  | register handler =>
    cases handler with
    | none => exact Option.some.inj moved ▸ sound
    | some handler =>
      simp only [Dispatch.step] at moved
      split at moved
      · cases moved
      case isFalse idle =>
        have idle : s.calls = [] := List.length_eq_zero_iff.mp (not_not.mp idle)
        split at moved
        case h_1 => exact Option.some.inj moved ▸ sound
        case h_2 ok => exact Option.some.inj moved ▸ sound.register idle ok
  | unregister name =>
    simp only [Dispatch.step] at moved
    split at moved
    · cases moved
    case isFalse idle =>
      have idle : s.calls = [] := List.length_eq_zero_iff.mp (not_not.mp idle)
      split at moved
      case h_1 => exact Option.some.inj moved ▸ sound
      case h_2 ok => exact Option.some.inj moved ▸ sound.unregister idle ok
  | dispatch event =>
    cases Option.some.inj moved
    unfold State.dispatch
    split
    case h_1 refused => exact sound.refuse refused
    case h_2 => exact sound
    case h_3 accepted => exact sound.start accepted
  | handle i entry err =>
    simp only [Dispatch.step, bind, Option.bind_eq_some_iff] at moved
    obtain ⟨c, found, moved⟩ := moved
    split at moved
    case isTrue mem => exact Option.some.inj moved ▸ sound.handle found mem err
    · cases moved
  | finish i =>
    simp only [Dispatch.step, bind, Option.bind_eq_some_iff] at moved
    obtain ⟨c, found, moved⟩ := moved
    split at moved
    case isTrue done =>
      exact Option.some.inj moved ▸ sound.finish found (List.length_eq_zero_iff.mp done)
    · cases moved
  | close order answer =>
    simp only [Dispatch.step] at moved
    split at moved
    · cases moved
    case isFalse idle =>
      have idle : s.calls = [] := List.length_eq_zero_iff.mp (not_not.mp idle)
      split at moved
      case isTrue => exact Option.some.inj moved ▸ sound
      case isFalse opened =>
        split at moved
        case isTrue visit =>
          exact Option.some.inj moved ▸ sound.close idle (by simpa using opened) visit answer
        · cases moved

theorem sound_of_reachable {validate : ε → Option Error} {s : State ε}
    (h : (machine validate).Reachable s) : Sound validate s :=
  h.invariant (Sound.init validate) fun _ _ _ sound _ moved => sound.step moved

/-- The history is legal after every step of every interleaving, and while the dispatcher is
open its map holds the handlers that the history leaves registered. -/
theorem history_legal {validate : ε → Option Error} {s : State ε}
    (h : (machine validate).Reachable s) :
    Legal s.history ∧ (s.dispatcher.handlers.map Prod.snd = live s.history) ∧
      s.dispatcher.handlers.Pairwise fun a b => a.1 ≠ b.1 := by
  have sound := sound_of_reachable h
  refine ⟨sound.legal, sound.live, ?_⟩
  have keys := sound.legal.distinct
  rw [← sound.live, List.map_map, List.nodup_iff_pairwise_ne, List.pairwise_map] at keys
  refine keys.imp_of_mem fun {a b} memA memB differ same => differ ?_
  rw [Function.comp_apply, Function.comp_apply, ← sound.own a memA, ← sound.own b memB, same]

/-- A text and a pcap handler; the second fails for the event, and `Close` finds them in the
other order. -/
def textHandler : EventHandler := ⟨0, str "text", str "stdout", true⟩

def pcapHandler : EventHandler := ⟨1, str "pcap", str "pcap", false⟩

def twoHandlers : List (Act Nat) :=
  let text := (textHandler.key, textHandler)
  let pcap := (pcapHandler.key, pcapHandler)
  [.register (some textHandler), .register (some pcapHandler), .dispatch (some 7), .dispatch none,
    .handle 0 pcap (some (.text (str "not a packet"))), .handle 0 text none, .finish 0,
    .close [pcap, text] fun _ => none, .dispatch (some 8)]

theorem history_legal_two_handlers :
    ∃ s, (machine fun _ : Nat => none).Reachable s ∧ s.history.length = 5 ∧
      Legal s.history ∧ (s.dispatcher.handlers.map Prod.snd = live s.history) ∧
      s.dispatcher.handlers.Pairwise fun a b => a.1 ≠ b.1 := by
  obtain ⟨s, ran, length⟩ :
      ∃ s ∈ (machine fun _ => none).run twoHandlers, s.history.length = 5 := by
    decide
  have reached := Machine.reachable_of_run ran
  exact ⟨s, reached, length, history_legal reached⟩

/-- Every `Dispatch` that returned was refused or visited each registered handler once; when no
call is under way the deliveries are exactly those that the returned calls owe. -/
theorem dispatch_complete {validate : ε → Option Error} {s : State ε}
    (h : (machine validate).Reachable s) :
    (∀ r ∈ s.returned, r.Refused validate s.history ∨ r.Visited validate) ∧
      (s.calls = [] → (delivered s.history).Perm (s.returned.flatMap Return.owed)) := by
  have sound := sound_of_reachable h
  refine ⟨sound.returned, fun idle => ?_⟩
  simpa [idle] using sound.delivered

theorem dispatch_complete_two_handlers :
    ∃ s, (machine fun _ : Nat => none).Reachable s ∧ s.returned.length = 3 ∧
      (∀ r ∈ s.returned, r.Refused (fun _ => none) s.history ∨ r.Visited fun _ => none) ∧
      (s.calls = [] → (delivered s.history).Perm (s.returned.flatMap Return.owed)) := by
  obtain ⟨s, ran, length⟩ :
      ∃ s ∈ (machine fun _ => none).run twoHandlers, s.returned.length = 3 := by
    decide
  have reached := Machine.reachable_of_run ran
  exact ⟨s, reached, length, dispatch_complete reached⟩

end ECapture.Events.Dispatch
