import ECapture.Library.Rolling
import ECapture.RorateLog.Files

/-!
# The logger as a rolling log

The backups in rotation order and the current file are a rolling log. When no call fails, every
step rolls it under names taken from the clock, as often as the tests of the code say on the state
before the step, and then adds the bytes of a write.
-/

namespace ECapture.RorateLog
open Library

variable (env : Env) (l : Logger)

def NeverFails : Prop := ∀ i, env.ok i = true

/-- Every call succeeds, and the clock stands still. -/
def stillClock : Env :=
  { clock := fun _ => 1478284200000000000, zone := fun _ => 0, procName := str "ecapture",
    ok := fun _ => true, short := fun _ => 0 }

/-- A file of at most a megabyte, in local time, as the writers of files ask for. -/
def serverLog : Logger :=
  { Filename := str "server.log", MaxSize := 1, MaxInterval := 0, LocalTime := true }

/-- What the logger's files hold. -/
def view (s : State) : Rolling Name UInt8 :=
  ⟨s.backups.map fun b => (b, (s.files b).getD []), (s.files (filename env l)).getD []⟩

/-- The backup name made of a reading of the clock. -/
def stamp (i : Nat) : Name := backupName env (filename env l) l.LocalTime (env.clock i)

def stamps (i k : Nat) : List Name := (List.range' i k).map (stamp env l)

/-- How often a step moves the file aside. -/
def rotations (s : State) : Op → Nat
  | .write p =>
    if s.file then if l.max ≤ s.size + p.length then 1 else 0
    else match s.files (filename env l) with
      | some c =>
        if l.max ≤ c.length + p.length then if l.max ≤ p.length then 2 else 1 else 0
      | none => if l.max ≤ p.length then 1 else 0
  | .rotate => if (s.files (filename env l)).isSome then 1 else 0
  | .tick => if l.Filename ≠ [] ∧ (view env l s).current ≠ [] then 1 else 0
  | .enter | .close => 0

/-- The bytes a step hands to the logger. -/
def payload : Op → Bytes
  | .write p => p
  | _ => []

/-- From one state to another the log rolls `k` times and then grows by `p`. -/
structure Rolls (k : Nat) (p : Bytes) (s t : State) : Prop where
  reads : t.reads = s.reads + k
  view_eq : view env l t = ((view env l s).rolls (stamps env l s.reads k)).append p

abbrev Valid (s : State) : Prop := Sound env l (fun _ => True) s

variable {env l} {s t u : State}

/-! ## The view under the calls -/

theorem view_truncate (own : filename env l ∉ s.backups) (empty : (view env l s).current = []) :
    view env l (s.truncate (filename env l)) = view env l s := by
  have others : ∀ b ∈ s.backups,
      (b, ((s.truncate (filename env l)).files b).getD []) = (b, (s.files b).getD []) := by
    intro b mem
    have other : b ≠ filename env l := fun same => own (same ▸ mem)
    rw [State.files_truncate, Function.update_of_ne other]
  have empty : (s.files (filename env l)).getD [] = [] := empty
  rw [view, view, State.backups_truncate, List.map_congr_left others, empty, State.files_truncate,
    Function.update_self, Option.getD_some]

theorem view_rename {newname : Name} (own : filename env l ∉ s.backups)
    (other : newname ≠ filename env l) :
    view env l (s.rename (filename env l) newname) = (view env l s).roll newname := by
  have others : ∀ b ∈ s.backups.filter (· ≠ newname),
      (b, ((s.rename (filename env l) newname).files b).getD []) = (b, (s.files b).getD []) := by
    intro b mem
    rw [List.mem_filter] at mem
    have notOwn : b ≠ filename env l := fun same => own (same ▸ mem.1)
    have kept : b ≠ newname := by simpa using mem.2
    rw [State.files_rename, Function.update_of_ne notOwn, Function.update_of_ne kept]
  rw [view, State.backups_rename, List.map_append, List.map_congr_left others, List.map_singleton,
    State.files_rename, Function.update_self, Function.update_of_ne other, Function.update_self,
    Rolling.roll, view]
  simp only [List.filter_map, Function.comp_def, Option.getD_none]

theorem view_append {p : Bytes} (own : filename env l ∉ s.backups) {c : Bytes}
    (found : s.files (filename env l) = some c) :
    view env l (s.append (filename env l) p) = (view env l s).append p := by
  have others : ∀ b ∈ s.backups,
      (b, ((s.append (filename env l) p).files b).getD []) = (b, (s.files b).getD []) := by
    intro b mem
    have other : b ≠ filename env l := fun same => own (same ▸ mem)
    rw [State.files_append, Function.update_of_ne other]
  rw [view, view, State.backups_append, List.map_congr_left others, State.files_append,
    Function.update_self, found, Rolling.append, Option.map_some, Option.getD_some,
    Option.getD_some]

theorem Rolls.still (reads : t.reads = s.reads) (same : view env l t = view env l s) :
    Rolls env l 0 [] s t :=
  ⟨reads, by rw [same]; simp [stamps, Rolling.append]⟩

theorem Rolls.of_called {k : Nat} {p : Bytes} (h : Rolls env l k p s.called t) :
    Rolls env l k p s t :=
  ⟨h.reads, h.view_eq⟩

theorem Rolls.trans {k n : Nat} {p : Bytes} (first : Rolls env l k [] s t)
    (rest : Rolls env l n p t u) : Rolls env l (k + n) p s u := by
  refine ⟨by rw [rest.reads, first.reads, Nat.add_assoc], ?_⟩
  rw [rest.view_eq, first.view_eq, first.reads, stamps, stamps, stamps, ← List.range'_append,
    List.map_append, Rolling.rolls_append]
  simp [Rolling.append]

/-! ## Rotation without failures -/

section

variable (never : NeverFails env)

include never

theorem close_ok : ∃ t, close env s = (none, t) ∧ t.files = s.files ∧ Rolls env l 0 [] s t := by
  unfold close
  split
  case isTrue =>
    rw [never, if_pos rfl]
    exact ⟨_, rfl, rfl, .still rfl rfl⟩
  case isFalse => exact ⟨s, rfl, rfl, .still rfl rfl⟩

theorem osStat_found {name : Name} {c : Bytes} (named : name ≠ []) (found : s.files name = some c) :
    osStat env name s = (.found c, s.called) := by
  rw [osStat, never, if_pos rfl, if_neg named, found]

theorem osStat_notExist {name : Name} (absent : name = [] ∨ s.files name = none) :
    osStat env name s = (.notExist, s.called) := by
  rw [osStat, never, if_pos rfl]
  rcases absent with rfl | absent
  · rw [if_pos rfl]
  · rw [absent, ite_self]

theorem create_ok (valid : Valid env l s) (empty : (view env l s).current = []) :
    ∃ t, create env (filename env l) s = (none, t) ∧ t.files (filename env l) = some [] ∧
      Rolls env l 0 [] s t := by
  refine ⟨{ s.called.truncate (filename env l) with file := true, size := 0 }, ?_, ?_, ?_⟩
  · rw [create, never, if_pos rfl]
  · exact Function.update_self ..
  · exact .still rfl (view_truncate (s := s.called) valid.own empty)

theorem moveAside_ok (valid : Valid env l s) :
    ∃ t, moveAside env l (filename env l) s = (none, t) ∧ t.files (filename env l) = some [] ∧
      Rolls env l 1 [] s t := by
  let moved : State := { s with reads := s.reads + 1 }
  refine ⟨(((moved.called.rename (filename env l) (stamp env l s.reads)).called.truncate
    (filename env l)).called).called, ?_, ?_, rfl, ?_⟩
  · simp only [moveAside, chown, never (_ : Nat), if_true]
    rfl
  · exact Function.update_self ..
  · have other : stamp env l s.reads ≠ filename env l := backupName_ne _ _ _
    have renamed : view env l (moved.called.rename (filename env l) (stamp env l s.reads)) =
        (view env l s).roll (stamp env l s.reads) := view_rename valid.own other
    have own : filename env l ∉
        (moved.called.rename (filename env l) (stamp env l s.reads)).backups := by
      simp only [State.backups_rename, List.mem_append, List.mem_filter, List.mem_singleton, not_or]
      exact ⟨fun h => valid.own h.1, other.symm⟩
    have emptied := view_truncate own (by rw [renamed]; rfl)
    exact emptied.trans (renamed.trans (by simp [stamps, Rolling.append]))

/-- A new file; an old one has been moved aside. -/
theorem openNew_ok (valid : Valid env l s) (closed : s.file = false) :
    ∃ t, openNew env l s = (none, t) ∧ t.files (filename env l) = some [] ∧
      Rolls env l (if (s.files (filename env l)).isSome then 1 else 0) [] s t := by
  rw [openNew, never, if_pos rfl]
  cases found : s.files (filename env l) with
  | none =>
    rw [osStat_notExist never (.inr (by exact found))]
    have empty : (view env l s.called.called).current = [] := by
      simp [view, found]
    obtain ⟨t, eq, emptied, rolls⟩ := create_ok never valid.called.called empty
    exact ⟨t, eq, emptied, rolls.of_called.of_called⟩
  | some c =>
    rw [osStat_found never filename_ne_nil (by exact found)]
    obtain ⟨t, eq, emptied, rolls⟩ := moveAside_ok never valid.called.called
    have aside := sound_moveAside valid.called.called trivial closed
    dsimp only
    rw [eq] at aside ⊢
    obtain ⟨u, eq, emptied, still⟩ := create_ok never aside.1 (by simp [view, emptied])
    exact ⟨u, eq, emptied, (rolls.trans still).of_called.of_called⟩

/-- `rotate` moves the file aside if there is one. -/
theorem rotate_ok (valid : Valid env l s) :
    ∃ t, rotate env l s = (none, t) ∧
      Rolls env l (if (s.files (filename env l)).isSome then 1 else 0) [] s t := by
  obtain ⟨t, eq, same, still⟩ := close_ok (l := l) (s := s) never
  have closed := sound_close valid
  rw [rotate, eq]
  rw [eq] at closed
  obtain ⟨u, eq, -, rolls⟩ := openNew_ok never closed.1 closed.2
  rw [same] at rolls
  exact ⟨u, eq, by simpa using still.trans rolls⟩

theorem openExistingOrNew_ok (p : Bytes) (valid : Valid env l s) (closed : s.file = false) :
    ∃ t k, openExistingOrNew env l p.length s = (none, t) ∧ Rolls env l k [] s t ∧
      k + (if l.max ≤ t.size + p.length then 1 else 0) = rotations env l s (.write p) := by
  simp only [rotations, closed]
  rw [openExistingOrNew]
  cases found : s.files (filename env l) with
  | none =>
    rw [osStat_notExist never (.inr found)]
    obtain ⟨t, eq, -, rolls⟩ := openNew_ok never valid.called closed
    have fresh := (sound_openNew valid.called trivial closed).2
    rw [eq] at fresh
    have size : t.size = 0 := (fresh rfl).2
    rw [State.files_called, found] at rolls
    refine ⟨t, 0, eq, rolls.of_called, ?_⟩
    simp [size]
  | some c =>
    rw [osStat_found never filename_ne_nil found]
    dsimp only
    by_cases full : l.max ≤ c.length + p.length
    · obtain ⟨t, eq, rolls⟩ := rotate_ok never valid.called
      have fresh := (sound_rotate valid.called trivial).2
      rw [eq] at fresh
      have size : t.size = 0 := (fresh rfl).2
      rw [State.files_called, found] at rolls
      refine ⟨t, 1, by rw [if_pos full, eq], rolls.of_called, ?_⟩
      rw [size, if_pos full]
      by_cases long : l.max ≤ p.length
      · simp [long]
      · simp [long]
    · let opened : State := { s.called.called with file := true, size := c.length }
      refine ⟨opened, 0, by rw [if_neg full, never, if_pos rfl], .still rfl rfl, ?_⟩
      simp [full, opened]

/-- The file is open; its size tells whether it will be moved aside once more. -/
theorem ensureOpen_ok (p : Bytes) (valid : Valid env l s) :
    ∃ t k, ensureOpen env l p.length s = (none, t) ∧ Rolls env l k [] s t ∧
      k + (if l.max ≤ t.size + p.length then 1 else 0) = rotations env l s (.write p) := by
  unfold ensureOpen
  split
  case isTrue opened =>
    refine ⟨s, 0, rfl, .still rfl rfl, ?_⟩
    simp [rotations, opened]
  case isFalse closed => exact openExistingOrNew_ok never p valid (by simpa using closed)

theorem makeRoom_ok (n : Nat) (valid : Valid env l s) (opened : s.file = true) :
    ∃ t, makeRoom env l n s = (none, t) ∧
      Rolls env l (if l.max ≤ s.size + n then 1 else 0) [] s t := by
  obtain ⟨c, found, -⟩ := valid.sized opened
  unfold makeRoom
  split
  case isTrue =>
    obtain ⟨t, eq, rolls⟩ := rotate_ok never valid
    rw [found] at rolls
    exact ⟨t, eq, rolls⟩
  case isFalse => exact ⟨s, rfl, .still rfl rfl⟩

/-- A write reports all its bytes. -/
theorem write_ok (p : Bytes) (valid : Valid env l s) :
    ∃ t, write env l p s = ((p.length, none), t) ∧
      Rolls env l (rotations env l s (.write p)) p s t := by
  obtain ⟨t, k, eq, opening, count⟩ := ensureOpen_ok never p valid
  have ready := sound_ensureOpen p.length valid trivial
  rw [write, eq]
  rw [eq] at ready
  obtain ⟨u, eq, room⟩ := makeRoom_ok never p.length ready.1 (ready.2 rfl)
  have roomy := sound_makeRoom p.length ready.1 trivial (ready.2 rfl)
  dsimp only
  rw [eq] at roomy ⊢
  obtain ⟨c, found, -⟩ := roomy.1.sized (roomy.2 rfl).1
  have grows : view env l (u.append (filename env l) p) = (view env l u).append p :=
    view_append roomy.1.own found
  simp only [never (_ : Nat), if_true, List.take_length]
  refine ⟨_, rfl, ?_⟩
  rw [← count]
  have whole := opening.trans room
  exact ⟨whole.reads, grows.trans (by rw [whole.view_eq]; simp [Rolling.append])⟩

theorem tick_ok (valid : Valid env l s) :
    Rolls env l (rotations env l s .tick) [] s (tick env l s) := by
  rw [tick, rotations]
  by_cases named : l.Filename = []
  · rw [osStat_notExist never (.inl named), if_neg (fun h => h.1 named)]
    exact .still rfl rfl
  · have same : filename env l = l.Filename := if_pos named
    cases found : s.files (filename env l) with
    | none =>
      rw [osStat_notExist never (.inr (same ▸ found)),
        if_neg (fun h => h.2 (by rw [view, found]; rfl))]
      exact .still rfl rfl
    | some c =>
      rw [osStat_found never named (same ▸ found)]
      dsimp only
      by_cases empty : c = []
      · subst empty
        rw [if_neg (c := 0 < ([] : Bytes).length) (Nat.lt_irrefl 0),
          if_neg (fun h => h.2 (by rw [view, found]; rfl))]
        exact .still rfl rfl
      · obtain ⟨t, eq, rolls⟩ := rotate_ok never valid.called
        rw [State.files_called, found] at rolls
        rw [if_pos (List.length_pos_of_ne_nil empty),
          if_pos ⟨named, by simpa [view, found] using empty⟩, eq]
        exact rolls.of_called

/-- The refinement: a step is so many rolls and the bytes of a write. -/
theorem step_rolls {a : Op} (valid : Valid env l s) (moved : step env l s a = some t) :
    Rolls env l (rotations env l s a) (payload a) s t := by
  cases a with
  | enter =>
    obtain rfl := Option.some.inj moved
    exact .still rfl rfl
  | write p =>
    obtain ⟨-, moved⟩ := Option.ite_none_right_eq_some.mp moved
    obtain ⟨u, eq, rolls⟩ := write_ok never p valid
    rw [eq] at moved
    exact Option.some.inj moved ▸ rolls
  | rotate =>
    obtain ⟨u, eq, rolls⟩ := rotate_ok never valid
    rw [step, eq] at moved
    exact Option.some.inj moved ▸ rolls
  | close =>
    obtain ⟨u, eq, -, rolls⟩ := close_ok (l := l) (s := s) never
    rw [step, eq] at moved
    exact Option.some.inj moved ▸ rolls
  | tick =>
    obtain ⟨-, moved⟩ := Option.ite_none_right_eq_some.mp moved
    exact Option.some.inj moved ▸ tick_ok never valid

end

/-! ## Runs -/

theorem valid_of_passes {files : Name → Option Bytes} {as pre : List Op}
    (h : (machine env l files).Passes as pre s) : Valid env l s := by
  refine h.induction (I := fun _ s => Valid env l s) ?_ ?_
  · exact ⟨List.not_mem_nil, List.nodup_nil, nofun, fun _ _ => trivial, fun _ _ _ _ => trivial⟩
  · intro _ s a t taken valid
    exact sound_step valid trivial (fun _ _ _ _ _ _ => trivial) taken.2.2

end ECapture.RorateLog
