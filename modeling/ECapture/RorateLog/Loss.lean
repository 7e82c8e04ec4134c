import ECapture.RorateLog.Rolls

/-!
# Bytes that rotation loses

A backup is named after the millisecond of its rotation, and a rename replaces a file without
notice. A run keeps all bytes exactly when no rotation is given the name of an earlier backup that
has bytes. Two rotations in one millisecond are enough to lose some, and in local time also two
rotations an hour apart when the clocks go back.
-/

namespace ECapture.RorateLog
open Library

variable (env : Env) (l : Logger)

/-- The bytes handed to `Write`. -/
def written (as : List Op) : Bytes := as.flatMap payload

/-- Every byte of the starting file and of the writes is in one of the files, in order. -/
structure Kept (files : Name → Option Bytes) (as : List Op) (s : State) : Prop where
  distinct : (filename env l :: s.backups).Nodup
  contents : (view env l s).contents = (files (filename env l)).getD [] ++ written as

def LosesNothing (files : Name → Option Bytes) (as : List Op) : Prop :=
  ∀ pre s, (machine env l files).Passes as pre s → Kept env l files pre s

/-- No rotation of the step is given the name of a backup that has bytes. -/
def Fresh (s : State) (a : Op) : Prop :=
  (view env l s).AllFree (stamps env l s.reads (rotations env l s a))

variable {env l} {files : Name → Option Bytes} {as : List Op}

@[simp] theorem written_concat (as : List Op) (a : Op) :
    written (as ++ [a]) = written as ++ payload a := by
  simp [written]

/-- A step keeps all bytes exactly when its rotations have free names. -/
theorem contents_step_iff (never : NeverFails env) {s t : State} {a : Op} (valid : Valid env l s)
    (moved : step env l s a = some t) :
    (view env l t).contents = (view env l s).contents ++ payload a ↔ Fresh env l s a := by
  rw [(step_rolls never valid moved).view_eq, Rolling.contents_append, List.append_left_inj,
    Rolling.contents_rolls_iff, Fresh]

theorem losesNothing_iff (never : NeverFails env) :
    LosesNothing env l files as ↔
      ∀ pre s a t, (machine env l files).Takes as pre s a t → Fresh env l s a := by
  constructor
  · intro keeps pre s a t taken
    have before := (keeps pre s taken.before).contents
    have after := (keeps _ t taken.after).contents
    rw [written_concat, ← List.append_assoc, ← before] at after
    exact (contents_step_iff never (valid_of_passes taken.before) taken.2.2).mp after
  · intro fresh pre s passed
    refine ⟨?_, ?_⟩
    · have valid := valid_of_passes passed
      exact List.nodup_cons.mpr ⟨valid.own, valid.nodup⟩
    · refine passed.induction (I := fun pre s =>
        (view env l s).contents = (files (filename env l)).getD [] ++ written pre) ?_ ?_
      · simp [machine, start, view, Rolling.contents, written]
      · intro pre s a t taken kept
        have valid := valid_of_passes taken.before
        rw [(contents_step_iff never valid taken.2.2).mpr (fresh pre s a t taken), kept,
          written_concat, List.append_assoc]

/-- Two writes, each followed by a rotation. -/
def rotateTwice : List Op := [.enter, .write (str "a"), .rotate, .write (str "b"), .rotate]

theorem rotateTwice_loses : ¬ LosesNothing stillClock serverLog (fun _ => none) rotateTwice := by
  intro keeps
  have left : ((machine stillClock serverLog fun _ => none).run rotateTwice).map
      (fun s => (view stillClock serverLog s).contents) = some (str "b") := by decide +kernel
  obtain ⟨s, ran, left⟩ := Option.map_eq_some_iff.mp left
  have kept := (keeps rotateTwice s ⟨List.prefix_rfl, ran⟩).contents
  rw [left] at kept
  exact absurd kept (by decide +kernel)

/-- The first backup is replaced by the second. -/
theorem backup_replaced : ¬ ∀ (env : Env) (l : Logger) (files : Name → Option Bytes) (as : List Op),
    NeverFails env → (∀ i j, i ≤ j → env.clock i ≤ env.clock j) →
      LosesNothing env l files as := fun claim =>
  rotateTwice_loses (claim stillClock serverLog (fun _ => none) rotateTwice (fun _ => rfl)
    fun _ _ _ => Int.le_refl _)

theorem losesNothing_iff_rotateTwice :
    ¬ ∀ pre s a t,
      (machine stillClock serverLog fun _ => none).Takes rotateTwice pre s a t →
        Fresh stillClock serverLog s a := fun fresh =>
  rotateTwice_loses ((losesNothing_iff fun _ => rfl).mpr fresh)

/-! ## Clocks -/

/-- Names that are all different are free. -/
theorem allFree_stamps (distinct : Function.Injective (stamp env l)) (k i : Nat)
    (r : Rolling Name UInt8) (old : ∀ b ∈ r.keys, ∃ j < i, b = stamp env l j) :
    r.AllFree (stamps env l i k) ∧
      ∀ b ∈ (r.rolls (stamps env l i k)).keys, ∃ j < i + k, b = stamp env l j := by
  induction k generalizing i r with
  | zero => exact ⟨trivial, old⟩
  | succ k ih =>
    have first : r.Free (stamp env l i) := by
      refine Rolling.free_of_not_mem fun mem => ?_
      obtain ⟨j, before, same⟩ := old _ mem
      exact absurd (distinct same) (by omega)
    have rolled : ∀ b ∈ (r.roll (stamp env l i)).keys, ∃ j < i + 1, b = stamp env l j := by
      intro b mem
      rw [Rolling.keys_roll, List.mem_append, List.mem_filter, List.mem_singleton] at mem
      rcases mem with ⟨mem, -⟩ | rfl
      · obtain ⟨j, before, same⟩ := old b mem
        exact ⟨j, by omega, same⟩
      · exact ⟨i, by omega, rfl⟩
    obtain ⟨free, keys⟩ := ih (i + 1) (r.roll (stamp env l i)) rolled
    refine ⟨⟨first, free⟩, fun b mem => ?_⟩
    obtain ⟨j, before, same⟩ := keys b mem
    exact ⟨j, by omega, same⟩

/-- A clock that names every backup differently loses nothing. -/
theorem losesNothing_of_distinct (never : NeverFails env)
    (distinct : Function.Injective (stamp env l)) : LosesNothing env l files as := by
  refine (losesNothing_iff never).mpr fun pre s a t taken => ?_
  have old : ∀ b ∈ (view env l s).keys, ∃ j < s.reads, b = stamp env l j := by
    refine taken.before.induction
      (I := fun _ s => ∀ b ∈ (view env l s).keys, ∃ j < s.reads, b = stamp env l j) ?_ ?_
    · intro b mem
      exact absurd mem List.not_mem_nil
    · intro pre s a t taken old b mem
      have rolls := step_rolls never (valid_of_passes taken.before) taken.2.2
      rw [rolls.view_eq] at mem
      rw [rolls.reads]
      exact (allFree_stamps distinct _ _ _ old).2 b mem
  exact (allFree_stamps distinct _ _ _ old).1

end ECapture.RorateLog
