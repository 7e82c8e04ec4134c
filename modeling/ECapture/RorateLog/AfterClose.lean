import ECapture.RorateLog.Rolls

/-!
# After `Close`

`Close` does not stop the goroutine that the first `Write` has started, and that goroutine looks at
the file, not at the logger. After a `Close` it rotates at its next tick, and leaves a file open,
unless it was never started, looks for no name, or finds no bytes.
-/

namespace ECapture.RorateLog
open Library

variable (env : Env) (l : Logger)

/-- After `Close`, and before `Write` or `Rotate` is called, the files stay as they are and none is
open: whatever the ticks and further calls of `Close` are, and whatever their calls return. -/
def QuietAfterClose (s : State) : Prop :=
  ∀ (later : List Op) (env' : Env) (files : Name → Option Bytes) (t : State),
    (∀ a ∈ later, a = .tick ∨ a = .close) →
    (machine env' l files).runFrom (close env s).2 later = some t →
    t.files = s.files ∧ t.file = false

/-- There is no ticker, or its file has no name or no bytes. -/
def Idle (s : State) : Prop :=
  s.started = false ∨ l.MaxInterval ≤ 0 ∨ l.Filename = [] ∨ (s.files l.Filename).getD [] = []

instance (s : State) : Decidable (Idle l s) := inferInstanceAs (Decidable (_ ∨ _))

variable {env l} {s t : State}

@[simp] theorem close_files : (close env s).2.files = s.files := by
  unfold close
  split <;> rfl

@[simp] theorem close_started : (close env s).2.started = s.started := by
  unfold close
  split <;> rfl

@[simp] theorem close_file : (close env s).2.file = false := by
  unfold close
  split
  case isTrue => rfl
  case isFalse closed => simpa using closed

/-- A tick that finds no bytes does nothing. -/
theorem tick_of_empty (empty : l.Filename = [] ∨ (s.files l.Filename).getD [] = []) :
    tick env l s = s.called := by
  obtain ⟨info, stat, present⟩ := osStat_spec env l.Filename s
  rw [tick, stat]
  cases info with
  | notExist => rfl
  | failed => rfl
  | found content =>
    obtain ⟨named, found⟩ := present content rfl
    have none : content = [] := by simpa [named, found] using empty
    simp [none]

/-- What the time after `Close` keeps while the ticker is idle. -/
theorem quiet_step {u : State} {a : Op} (idle : Idle l s) (quiet : a = .tick ∨ a = .close)
    (kept : t.files = s.files ∧ t.file = false ∧ t.started = s.started)
    (moved : step env l t a = some u) :
    u.files = s.files ∧ u.file = false ∧ u.started = s.started := by
  obtain ⟨files, file, started⟩ := kept
  rcases quiet with rfl | rfl
  · obtain ⟨⟨running, interval⟩, moved⟩ := Option.ite_none_right_eq_some.mp moved
    have empty : l.Filename = [] ∨ (t.files l.Filename).getD [] = [] := by
      rcases idle with off | off | empty
      · simp [← started, running] at off
      · omega
      · rwa [files]
    obtain rfl := Option.some.inj moved
    rw [tick_of_empty empty]
    exact ⟨files, file, started⟩
  · obtain rfl := Option.some.inj moved
    exact ⟨by rw [close_files, files], close_file, by rw [close_started, started]⟩

theorem quiet_of_idle (idle : Idle l s) : QuietAfterClose env l s := by
  intro later env' files t quiet ran
  have kept := Machine.runFrom_invariant
    (I := fun t => t.files = s.files ∧ t.file = false ∧ t.started = s.started)
    (fun t a u mem kept moved => quiet_step idle (quiet a mem) kept moved)
    ⟨close_files, close_file, close_started⟩ ran
  exact ⟨kept.1, kept.2.1⟩

/-- A tick that finds bytes opens a new file, if no call fails. -/
theorem tick_opens (never : NeverFails env) (closed : s.file = false) (named : l.Filename ≠ [])
    (bytes : (s.files l.Filename).getD [] ≠ []) : (tick env l s).file = true := by
  have same : filename env l = l.Filename := if_pos named
  cases found : s.files l.Filename with
  | none => simp [found] at bytes
  | some c =>
    have pos : 0 < c.length := by simpa [found, List.length_pos_iff] using bytes
    rw [tick, osStat_found never named found]
    dsimp only
    rw [if_pos pos, rotate, close, if_neg (by simpa [State.called] using closed)]
    dsimp only
    rw [openNew, never, if_pos rfl, same, osStat_found never named (by exact found)]
    simp [moveAside, chown, create, never (_ : Nat)]

theorem idle_of_quiet (quiet : QuietAfterClose env l s) : Idle l s := by
  by_contra busy
  simp only [Idle, not_or, Bool.not_eq_false, Int.not_le] at busy
  obtain ⟨started, interval, named, bytes⟩ := busy
  let working : Env := { env with ok := fun _ => true }
  have ran : (machine working l s.files).runFrom (close env s).2 [.tick] =
      some (tick working l (close env s).2) := by
    simp [Machine.runFrom, machine, step, started, interval]
  have opened : (tick working l (close env s).2).file = true :=
    tick_opens (fun _ => rfl) close_file named (by rwa [close_files])
  have shut := (quiet [.tick] working s.files _ (by simp) ran).2
  rw [opened] at shut
  cases shut

/-- `Close` ends the changes exactly when the ticker is idle. -/
theorem quietAfterClose_iff (env : Env) (l : Logger) (s : State) :
    QuietAfterClose env l s ↔ Idle l s :=
  ⟨idle_of_quiet, quiet_of_idle⟩

/-- A ticker of one hour, and one byte written before `Close`. -/
theorem ticker_outlives_close :
    ¬ ∀ (env : Env) (l : Logger) (files : Name → Option Bytes) (as : List Op) (s : State),
      (machine env l files).run as = some s → QuietAfterClose env l s := by
  intro claim
  let hourly : Logger := { serverLog with MaxInterval := 3600000000000 }
  have busy : ((machine stillClock hourly fun _ => none).run [.enter, .write [97]]).map
      (fun s => decide (Idle hourly s)) = some false := by decide +kernel
  obtain ⟨s, ran, busy⟩ := Option.map_eq_some_iff.mp busy
  exact of_decide_eq_false busy (idle_of_quiet (claim stillClock hourly _ _ s ran))

end ECapture.RorateLog
