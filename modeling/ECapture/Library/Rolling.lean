import Mathlib.Data.List.Basic

/-!
# Rolling logs

A log kept in segments: the current one, and an archive of earlier ones in the order in which they
were put away, each under a key. To roll the log puts its current segment away under a key, in
place of the segment that was there before.

A roll loses nothing exactly when the segment it replaces is empty.
-/

namespace ECapture.Library

structure Rolling (κ β : Type*) where
  archive : List (κ × List β)
  current : List β
  deriving DecidableEq

namespace Rolling

variable {κ β : Type*}

/-- The segments in order, the current one last. -/
def contents (r : Rolling κ β) : List β := r.archive.flatMap Prod.snd ++ r.current

def keys (r : Rolling κ β) : List κ := r.archive.map Prod.fst

def append (p : List β) (r : Rolling κ β) : Rolling κ β := { r with current := r.current ++ p }

/-- Nothing is archived under the key, or an empty segment. -/
def Free (k : κ) (r : Rolling κ β) : Prop := ∀ v, (k, v) ∈ r.archive → v = []

@[simp] theorem contents_append (p : List β) (r : Rolling κ β) :
    (r.append p).contents = r.contents ++ p := by
  simp [contents, append]

theorem free_of_not_mem {r : Rolling κ β} {k : κ} (h : k ∉ r.keys) : r.Free k :=
  fun _ mem => absurd (List.mem_map_of_mem mem) h

variable [DecidableEq κ]

def roll (k : κ) (r : Rolling κ β) : Rolling κ β :=
  ⟨r.archive.filter (·.1 ≠ k) ++ [(k, r.current)], []⟩

/-- One roll after another. -/
def rolls (ks : List κ) (r : Rolling κ β) : Rolling κ β := ks.foldl (fun r k => r.roll k) r

/-- Every key is free when its roll comes. -/
def AllFree : List κ → Rolling κ β → Prop
  | [], _ => True
  | k :: ks, r => r.Free k ∧ AllFree ks (r.roll k)

variable {r : Rolling κ β} {k : κ}

@[simp] theorem rolls_nil (r : Rolling κ β) : r.rolls [] = r := rfl

@[simp] theorem rolls_cons (k : κ) (ks : List κ) (r : Rolling κ β) :
    r.rolls (k :: ks) = (r.roll k).rolls ks := rfl

theorem rolls_append (ks ks' : List κ) (r : Rolling κ β) :
    r.rolls (ks ++ ks') = (r.rolls ks).rolls ks' := by
  simp [rolls, List.foldl_append]

theorem contents_roll (k : κ) (r : Rolling κ β) :
    (r.roll k).contents = (r.archive.filter (·.1 ≠ k)).flatMap Prod.snd ++ r.current := by
  simp [contents, roll]

/-- What stays of the archive, and what a roll under `k` replaces. -/
theorem length_archive (k : κ) (xs : List (κ × List β)) :
    (xs.flatMap Prod.snd).length = ((xs.filter (·.1 ≠ k)).flatMap Prod.snd).length +
      ((xs.filter (·.1 = k)).flatMap Prod.snd).length := by
  induction xs with
  | nil => rfl
  | cons x xs ih =>
    rw [List.flatMap_cons, List.length_append, ih, List.filter_cons, List.filter_cons]
    by_cases same : x.1 = k
    · rw [if_neg (by simpa using same), if_pos (by simpa using same), List.flatMap_cons,
        List.length_append]
      omega
    · rw [if_pos (by simpa using same), if_neg (by simpa using same), List.flatMap_cons,
        List.length_append]
      omega

theorem length_contents (k : κ) (r : Rolling κ β) :
    r.contents.length = (r.roll k).contents.length +
      ((r.archive.filter (·.1 = k)).flatMap Prod.snd).length := by
  have split := length_archive k r.archive
  rw [contents_roll, contents, List.length_append, List.length_append]
  omega

theorem length_contents_roll_le (k : κ) (r : Rolling κ β) :
    (r.roll k).contents.length ≤ r.contents.length := by
  have split := length_contents k r
  omega

theorem contents_roll_of_free (free : r.Free k) : (r.roll k).contents = r.contents := by
  rw [contents_roll, contents]
  congr 1
  unfold Free at free
  generalize r.archive = xs at free
  induction xs with
  | nil => rfl
  | cons x xs ih =>
    obtain ⟨k', v⟩ := x
    have rest := ih fun v mem => free v (List.mem_cons_of_mem _ mem)
    by_cases same : k' = k
    · have empty : v = [] := free v (by simp [same])
      simpa [same, empty] using rest
    · simpa [same] using rest

/-- A roll that leaves as many bytes has replaced none. -/
theorem free_of_length_le (le : r.contents.length ≤ (r.roll k).contents.length) : r.Free k := by
  intro v mem
  have split := length_contents k r
  have none : (r.archive.filter (·.1 = k)).flatMap Prod.snd = [] :=
    List.length_eq_zero_iff.mp (by omega)
  exact List.flatMap_eq_nil_iff.mp none (k, v) (by simp [mem])

theorem length_contents_rolls_le (ks : List κ) (r : Rolling κ β) :
    (r.rolls ks).contents.length ≤ r.contents.length := by
  induction ks generalizing r with
  | nil => exact Nat.le_refl _
  | cons k ks ih => exact Nat.le_trans (ih (r.roll k)) (length_contents_roll_le k r)

/-- Rolls lose nothing exactly when every key is free. -/
theorem contents_rolls_iff (ks : List κ) (r : Rolling κ β) :
    (r.rolls ks).contents = r.contents ↔ AllFree ks r := by
  induction ks generalizing r with
  | nil => simp [AllFree]
  | cons k ks ih =>
    rw [rolls_cons, AllFree]
    constructor
    · intro same
      -- the later rolls bring nothing back
      have le := length_contents_rolls_le ks (r.roll k)
      have first : r.Free k := free_of_length_le (same ▸ le)
      refine ⟨first, (ih _).mp ?_⟩
      rw [same, contents_roll_of_free first]
    · rintro ⟨first, rest⟩
      rw [(ih _).mpr rest, contents_roll_of_free first]

theorem keys_roll (k : κ) (r : Rolling κ β) : (r.roll k).keys = r.keys.filter (· ≠ k) ++ [k] := by
  simp [keys, roll, List.filter_map, Function.comp_def]

end Rolling

end ECapture.Library
