import Mathlib.Data.List.Nodup
import ECapture.RorateLog.Logger

/-!
# The files of a logger

What every run keeps, whichever calls fail: the backups have names of their own, and `size` is the
length of the open file. The invariant also carries a property of the bytes in each file, which has
to hold of no bytes and of what a write leaves.
-/

namespace ECapture.RorateLog
open Library

variable (env : Env) (l : Logger)

structure Sound (P : Bytes → Prop) (s : State) : Prop where
  own : filename env l ∉ s.backups
  nodup : s.backups.Nodup
  sized : s.file = true → ∃ c, s.files (filename env l) = some c ∧ s.size = c.length
  current : ∀ c, s.files (filename env l) = some c → P c
  backup : ∀ b ∈ s.backups, ∀ c, s.files b = some c → P c

variable {env l} {P : Bytes → Prop} {s : State}

/-! ## Calls -/

theorem Sound.called (sound : Sound env l P s) : Sound env l P s.called :=
  ⟨sound.own, sound.nodup, sound.sized, sound.current, sound.backup⟩

theorem Sound.shut (sound : Sound env l P s) : Sound env l P { s with file := false } :=
  ⟨sound.own, sound.nodup, nofun, sound.current, sound.backup⟩

theorem Sound.truncate (sound : Sound env l P s) (nil : P []) (closed : s.file = false) :
    Sound env l P (s.truncate (filename env l)) where
  own := sound.own
  nodup := sound.nodup
  sized opened := by simp [State.truncate, closed] at opened
  current c found := by
    simp only [State.files_truncate, Function.update_self, Option.some.injEq] at found
    exact found ▸ nil
  backup b mem c found := by
    have other : b ≠ filename env l := fun same => sound.own (same ▸ mem)
    rw [State.files_truncate, Function.update_of_ne other] at found
    exact sound.backup b mem c found

theorem Sound.rename {newname : Name} (sound : Sound env l P s)
    (other : newname ≠ filename env l) (closed : s.file = false) :
    Sound env l P (s.rename (filename env l) newname) where
  own := by
    simp only [State.rename, List.mem_append, List.mem_filter, List.mem_singleton, not_or]
    exact ⟨fun h => sound.own h.1, Ne.symm other⟩
  nodup := by
    refine (sound.nodup.filter _).append (List.nodup_singleton _) ?_
    intro b kept moved
    simp_all
  sized opened := by simp [State.rename, closed] at opened
  current c found := by simp [State.rename] at found
  backup b mem c found := by
    simp only [State.rename, List.mem_append, List.mem_filter, List.mem_singleton] at mem
    have notOwn : b ≠ filename env l := by
      rintro rfl
      rcases mem with ⟨mem, -⟩ | same
      · exact sound.own mem
      · exact other same.symm
    rw [State.files_rename, Function.update_of_ne notOwn] at found
    by_cases same : b = newname
    · rw [same, Function.update_self] at found
      exact sound.current c found
    · rw [Function.update_of_ne same] at found
      exact sound.backup b (mem.resolve_right same).1 c found

theorem Sound.append {p : Bytes} (sound : Sound env l P s) (opened : s.file = true)
    (more : ∀ c, s.size = c.length → P c → P (c ++ p)) :
    Sound env l P { s.append (filename env l) p with size := s.size + p.length } := by
  obtain ⟨c, found, size⟩ := sound.sized opened
  refine ⟨sound.own, sound.nodup, fun _ => ⟨c ++ p, ?_, ?_⟩, fun d held => ?_,
    fun b mem d held => ?_⟩
  · simp [found]
  · simp [size]
  · simp only [State.files_append, Function.update_self, found, Option.map_some,
      Option.some.injEq] at held
    exact held ▸ more c size (sound.current c found)
  · have other : b ≠ filename env l := fun same => sound.own (same ▸ mem)
    simp only [State.files_append, Function.update_of_ne other] at held
    exact sound.backup b mem d held

theorem sound_close (sound : Sound env l P s) :
    Sound env l P (close env s).2 ∧ (close env s).2.file = false := by
  unfold close
  split
  case isTrue => exact ⟨sound.called.shut, rfl⟩
  case isFalse closed => exact ⟨sound, by simpa using closed⟩

theorem sound_chown (sound : Sound env l P s) (nil : P []) (closed : s.file = false) :
    Sound env l P (chown env (filename env l) s).2 ∧
      (chown env (filename env l) s).2.file = false := by
  have emptied := sound.called.truncate nil closed
  unfold chown
  split
  case isFalse => exact ⟨sound.called, closed⟩
  case isTrue =>
    dsimp only
    split
    case isTrue => exact ⟨emptied.called.called, closed⟩
    case isFalse => exact ⟨emptied.called, closed⟩

theorem sound_moveAside (sound : Sound env l P s) (nil : P []) (closed : s.file = false) :
    Sound env l P (moveAside env l (filename env l) s).2 ∧
      (moveAside env l (filename env l) s).2.file = false := by
  have timed : Sound env l P { s with reads := s.reads + 1 } :=
    ⟨sound.own, sound.nodup, sound.sized, sound.current, sound.backup⟩
  unfold moveAside
  dsimp only
  split
  case isTrue => exact sound_chown (timed.called.rename (backupName_ne _ _ _) closed) nil closed
  case isFalse => exact ⟨timed.called, closed⟩

/-- Without an error the new file is open and empty. -/
theorem sound_create (sound : Sound env l P s) (nil : P []) (closed : s.file = false) :
    Sound env l P (create env (filename env l) s).2 ∧
      ((create env (filename env l) s).1 = none →
        (create env (filename env l) s).2.file = true ∧
        (create env (filename env l) s).2.size = 0) := by
  unfold create
  split
  case isFalse => exact ⟨sound.called, nofun⟩
  case isTrue =>
    have emptied := sound.called.truncate nil closed
    refine ⟨⟨emptied.own, emptied.nodup, fun _ => ⟨[], ?_, rfl⟩, emptied.current,
      emptied.backup⟩, fun _ => ⟨rfl, rfl⟩⟩
    simp [State.truncate]

/-! ## Rotation -/

theorem sound_openNew (sound : Sound env l P s) (nil : P []) (closed : s.file = false) :
    Sound env l P (openNew env l s).2 ∧
      ((openNew env l s).1 = none →
        (openNew env l s).2.file = true ∧ (openNew env l s).2.size = 0) := by
  unfold openNew
  dsimp only
  split
  case isFalse => exact ⟨sound.called, nofun⟩
  case isTrue =>
    obtain ⟨info, stat, -⟩ := osStat_spec env (filename env l) s.called
    rw [stat]
    cases info with
    | notExist => exact sound_create sound.called.called nil closed
    | failed => exact sound_create sound.called.called nil closed
    | found =>
      dsimp only
      have aside := sound_moveAside sound.called.called nil closed
      generalize moveAside env l (filename env l) s.called.called = moved at aside
      obtain ⟨err, u⟩ := moved
      cases err with
      | some err => exact ⟨aside.1, nofun⟩
      | none => exact sound_create aside.1 nil aside.2

theorem sound_rotate (sound : Sound env l P s) (nil : P []) :
    Sound env l P (rotate env l s).2 ∧
      ((rotate env l s).1 = none →
        (rotate env l s).2.file = true ∧ (rotate env l s).2.size = 0) := by
  unfold rotate
  have closed := sound_close sound
  generalize close env s = ended at closed
  obtain ⟨err, t⟩ := ended
  cases err with
  | some err => exact ⟨closed.1, nofun⟩
  | none => exact sound_openNew closed.1 nil closed.2

theorem sound_openExistingOrNew (n : Nat) (sound : Sound env l P s) (nil : P [])
    (closed : s.file = false) :
    Sound env l P (openExistingOrNew env l n s).2 ∧
      ((openExistingOrNew env l n s).1 = none → (openExistingOrNew env l n s).2.file = true) := by
  obtain ⟨info, stat, present⟩ := osStat_spec env (filename env l) s
  rw [openExistingOrNew, stat]
  cases info with
  | notExist =>
    have fresh := sound_openNew sound.called nil closed
    exact ⟨fresh.1, fun h => (fresh.2 h).1⟩
  | failed => exact ⟨sound.called, nofun⟩
  | found content =>
    dsimp only
    split
    case isTrue =>
      have rotated := sound_rotate sound.called nil
      exact ⟨rotated.1, fun h => (rotated.2 h).1⟩
    case isFalse =>
      split
      case isFalse =>
        have fresh := sound_openNew sound.called.called nil closed
        exact ⟨fresh.1, fun h => (fresh.2 h).1⟩
      case isTrue =>
        exact ⟨⟨sound.own, sound.nodup, fun _ => ⟨content, (present content rfl).2, rfl⟩,
          sound.current, sound.backup⟩, fun _ => rfl⟩

theorem sound_ensureOpen (n : Nat) (sound : Sound env l P s) (nil : P []) :
    Sound env l P (ensureOpen env l n s).2 ∧
      ((ensureOpen env l n s).1 = none → (ensureOpen env l n s).2.file = true) := by
  unfold ensureOpen
  split
  case isTrue opened => exact ⟨sound, fun _ => opened⟩
  case isFalse closed => exact sound_openExistingOrNew n sound nil (by simpa using closed)

/-- The bytes fit behind the file, or the file is empty. -/
theorem sound_makeRoom (n : Nat) (sound : Sound env l P s) (nil : P [])
    (opened : s.file = true) :
    Sound env l P (makeRoom env l n s).2 ∧
      ((makeRoom env l n s).1 = none → (makeRoom env l n s).2.file = true ∧
        ((makeRoom env l n s).2.size + n < l.max ∨ (makeRoom env l n s).2.size = 0)) := by
  unfold makeRoom
  split
  case isTrue =>
    have rotated := sound_rotate sound nil
    exact ⟨rotated.1, fun h => ⟨(rotated.2 h).1, .inr (rotated.2 h).2⟩⟩
  case isFalse fits => exact ⟨sound, fun _ => ⟨opened, .inl (Int.not_le.mp fits)⟩⟩

/-- A write keeps a property that its bytes keep, behind a file they fit into or an empty one. -/
theorem sound_write {p : Bytes} (sound : Sound env l P s) (nil : P [])
    (more : ∀ c n, c.length + p.length < l.max ∨ c = [] → P c → P (c ++ p.take n)) :
    Sound env l P (write env l p s).2 := by
  unfold write
  have ready := sound_ensureOpen p.length sound nil
  generalize ensureOpen env l p.length s = opened at ready
  obtain ⟨err, t⟩ := opened
  cases err with
  | some err => exact ready.1
  | none =>
    have roomy := sound_makeRoom p.length ready.1 nil (ready.2 rfl)
    dsimp only at roomy ⊢
    generalize makeRoom env l p.length t = rotated at roomy
    obtain ⟨err, u⟩ := rotated
    cases err with
    | some err => exact roomy.1
    | none =>
      obtain ⟨roomy, free⟩ := roomy
      obtain ⟨opened, room⟩ := free rfl
      dsimp only at roomy opened room ⊢
      have le : (if env.ok u.calls then p.length else min (env.short u.calls) p.length) ≤
          p.length := by
        split
        · exact Nat.le_refl _
        · exact Nat.min_le_right _ _
      generalize (if env.ok u.calls then p.length else min (env.short u.calls) p.length) = n at le ⊢
      have written := roomy.called.append (p := p.take n) opened (fun c size holds => by
        refine more c n ?_ holds
        have size : u.size = c.length := size
        rw [← size, ← List.length_eq_zero_iff, ← size]
        exact room)
      rw [List.length_take, Nat.min_eq_left le] at written
      exact written

theorem sound_tick (sound : Sound env l P s) (nil : P []) : Sound env l P (tick env l s) := by
  obtain ⟨info, stat, -⟩ := osStat_spec env l.Filename s
  rw [tick, stat]
  cases info with
  | notExist => exact sound.called
  | failed => exact sound.called
  | found content =>
    dsimp only
    split
    · exact (sound_rotate sound.called nil).1
    · exact sound.called

/-- One step, when a write among them keeps the property. -/
theorem sound_step {a : Op} {t : State} (sound : Sound env l P s) (nil : P [])
    (more : ∀ p, a = .write p → ∀ c n, c.length + p.length < l.max ∨ c = [] → P c →
      P (c ++ p.take n))
    (moved : step env l s a = some t) : Sound env l P t := by
  cases a with
  | enter =>
    obtain rfl := Option.some.inj moved
    exact ⟨sound.own, sound.nodup, sound.sized, sound.current, sound.backup⟩
  | write p =>
    obtain ⟨-, moved⟩ := Option.ite_none_right_eq_some.mp moved
    exact Option.some.inj moved ▸ sound_write sound nil (more p rfl)
  | rotate => exact Option.some.inj moved ▸ (sound_rotate sound nil).1
  | close => exact Option.some.inj moved ▸ (sound_close sound).1
  | tick =>
    obtain ⟨-, moved⟩ := Option.ite_none_right_eq_some.mp moved
    exact Option.some.inj moved ▸ sound_tick sound nil

end ECapture.RorateLog
