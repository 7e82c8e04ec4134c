import ECapture.RorateLog.Rolls

/-!
# The size limit

The comment of `Write` promises an error for a write longer than `max`. There is no such test: the
file is rotated, and all bytes go into the new one. The other parts of the contract rest on the
writes alone, whichever calls fail: the counter is the length of the open file, and as long as no
write is longer than `max` the files stay within it.
-/

namespace ECapture.RorateLog
open Library

variable (env : Env) (l : Logger)

/-- A file within the limit, or without a byte that the logger wrote: an empty one, or the one that
was there at the start. -/
def Fits (original : Option Bytes) (c : Bytes) : Prop :=
  c.length ≤ l.max ∨ c = [] ∨ original = some c

/-- The contract along a run. -/
structure SizeContract (files : Name → Option Bytes) (as : List Op) : Prop where
  refused : ∀ pre s p t, (machine env l files).Takes as pre s (.write p) t → l.max < p.length →
    (write env l p s).1.2 ≠ none ∧ t.files = s.files ∧ t.backups = s.backups
  bounded : ∀ pre s, (machine env l files).Passes as pre s →
    (∀ c, s.files (filename env l) = some c → Fits l (files (filename env l)) c) ∧
      ∀ b ∈ s.backups, ∀ c, s.files b = some c → Fits l (files (filename env l)) c
  size : ∀ pre s, (machine env l files).Passes as pre s → s.file = true →
    ∃ c, s.files (filename env l) = some c ∧ s.size = c.length

/-- No write of the run is longer than `max`. -/
def ShortWrites (files : Name → Option Bytes) (as : List Op) : Prop :=
  ∀ pre s p t, (machine env l files).Takes as pre s (.write p) t → p.length ≤ l.max

variable {env l} {files : Name → Option Bytes} {as : List Op}

/-- With a limit that is not negative and a starting file within it, every file is within it. -/
theorem Fits.length_le {original : Option Bytes} {c : Bytes} (fits : Fits l original c)
    (limit : 0 ≤ l.max) (small : ∀ d, original = some d → d.length ≤ l.max) :
    c.length ≤ l.max := by
  rcases fits with le | rfl | same
  · exact le
  · exact limit
  · exact small c same

/-- A short write behind a file it fits into, or behind an empty one. -/
theorem fits_append {original : Option Bytes} {p : Bytes} (short : p.length ≤ l.max) (c : Bytes)
    (n : Nat) (room : c.length + p.length < l.max ∨ c = []) : Fits l original (c ++ p.take n) := by
  refine .inl ?_
  have le : (p.take n).length ≤ p.length := List.length_take_le' n p
  rw [List.length_append]
  rcases room with room | rfl
  · omega
  · rw [List.length_nil]
    omega

theorem sound_of_shortWrites (short : ShortWrites env l files as) {pre : List Op} {s : State}
    (passed : (machine env l files).Passes as pre s) :
    Sound env l (Fits l (files (filename env l))) s := by
  refine passed.induction (I := fun _ s => Sound env l (Fits l (files (filename env l))) s) ?_ ?_
  · refine ⟨List.not_mem_nil, List.nodup_nil, nofun, fun c found => .inr (.inr found), ?_⟩
    exact fun b mem => absurd mem List.not_mem_nil
  · intro pre s a t taken sound
    refine sound_step sound (.inr (.inl rfl)) ?_ taken.2.2
    rintro p rfl c n room -
    exact fits_append (short pre s p t taken) c n room

/-- Without failures every write is accepted. -/
theorem write_accepted (never : NeverFails env) {pre : List Op} {s t : State} {p : Bytes}
    (taken : (machine env l files).Takes as pre s (.write p) t) : (write env l p s).1.2 = none := by
  obtain ⟨u, eq, -⟩ := write_ok never p (valid_of_passes taken.before)
  rw [eq]

/-- Short writes keep the contract; when no call fails, nothing else does. -/
theorem sizeContract_iff (env : Env) (l : Logger) (files : Name → Option Bytes) (as : List Op) :
    (ShortWrites env l files as → SizeContract env l files as) ∧
      (NeverFails env → SizeContract env l files as → ShortWrites env l files as) := by
  constructor
  · intro short
    refine ⟨fun pre s p t taken long => ?_, fun pre s passed => ?_, fun pre s passed => ?_⟩
    · have le := short pre s p t taken
      omega
    · have sound := sound_of_shortWrites short passed
      exact ⟨sound.current, sound.backup⟩
    · exact (valid_of_passes passed).sized
  · intro never contract pre s p t taken
    by_contra long
    exact (contract.refused pre s p t taken (by omega)).1 (write_accepted never taken)

/-- A write of one byte more than the limit of a megabyte. -/
theorem long_write_accepted : ¬ ∀ (env : Env) (l : Logger) (files : Name → Option Bytes)
    (as : List Op), SizeContract env l files as := by
  intro claim
  let p : Bytes := List.replicate 1048577 0
  let s : State := { start fun _ => none with started := true }
  have moved : step stillClock serverLog s (.write p) =
      some (write stillClock serverLog p s).2 := by
    rw [step, if_pos rfl]
  have taken : (machine stillClock serverLog fun _ => none).Takes [.enter, .write p] [.enter] s
      (.write p) (write stillClock serverLog p s).2 := ⟨List.prefix_rfl, rfl, moved⟩
  have long : serverLog.max < p.length := by
    rw [List.length_replicate]
    decide
  exact ((claim stillClock serverLog (fun _ => none) _).refused _ _ _ _ taken long).1
    (write_accepted (fun _ => rfl) taken)

end ECapture.RorateLog
