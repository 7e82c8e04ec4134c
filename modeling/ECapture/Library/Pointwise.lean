import Mathlib.Data.List.Forall2
import Mathlib.Data.List.Perm.Subperm
import Mathlib.Logic.Function.Basic

/-!
# Records updated one at a time

A state that keeps one record per process is a list, and a step changes one record of it or
maps all of them. `List.Forall₂ R` relates the lists before and after; these are the rules for
the two ways of updating, and the lookups on either side. A state that keeps a record only for some
keys is a partial map, and a step puts one record in or takes one out.
-/

namespace ECapture.Library

variable {α : Type*} {R : α → α → Prop} {xs ys : List α}

theorem forall₂_refl (refl : ∀ x, R x x) (xs : List α) : List.Forall₂ R xs xs :=
  List.forall₂_same.mpr fun x _ => refl x

theorem forall₂_set (refl : ∀ x, R x x) {i : Nat} {x y : α} (found : xs[i]? = some x)
    (next : R x y) : List.Forall₂ R xs (xs.set i y) := by
  induction xs generalizing i with
  | nil => cases found
  | cons a xs ih =>
    cases i with
    | zero =>
      cases found
      exact .cons next (forall₂_refl refl xs)
    | succ i => exact .cons (refl a) (ih found)

theorem forall₂_mapIdx {f : Nat → α → α} (next : ∀ i x, R x (f i x)) (xs : List α) :
    List.Forall₂ R xs (xs.mapIdx f) := by
  induction xs generalizing f with
  | nil => exact .nil
  | cons a xs ih =>
    rw [List.mapIdx_cons]
    exact .cons (next 0 a) (ih fun i => next (i + 1))

section Rearranged

variable {β : Type*} {Q : α → β → Prop} {as : List α} {bs bs' : List β}

theorem exists_right (rel : List.Forall₂ Q as bs) {i : Nat} {a : α} (found : as[i]? = some a) :
    ∃ b, bs[i]? = some b ∧ Q a b := by
  induction rel generalizing i with
  | nil => cases found
  | cons next _ ih =>
    cases i with
    | zero =>
      cases found
      exact ⟨_, rfl, next⟩
    | succ i => exact ih found

theorem exists_left (rel : List.Forall₂ Q as bs) {i : Nat} {b : β} (found : bs[i]? = some b) :
    ∃ a, as[i]? = some a ∧ Q a b :=
  exists_right rel.flip found

theorem exists_mem_left (rel : List.Forall₂ Q as bs) {b : β} (mem : b ∈ bs) :
    ∃ a ∈ as, Q a b := by
  obtain ⟨i, found⟩ := List.mem_iff_getElem?.mp mem
  obtain ⟨a, found, related⟩ := exists_left rel found
  exact ⟨a, List.mem_of_getElem? found, related⟩

/-- What a partial function gives belongs to the elements where it gives anything. -/
theorem forall₂_filterMap (f : α → Option β) (as : List α) :
    List.Forall₂ (fun a b => f a = some b) (as.filter fun a => (f a).isSome) (as.filterMap f) := by
  induction as with
  | nil => exact .nil
  | cons a as ih => cases found : f a <;> simpa [found] using ih

theorem forall₂_comp {γ : Type*} {S : β → γ → Prop} {T : α → γ → Prop} {cs : List γ}
    (join : ∀ a b c, Q a b → S b c → T a c) (rel : List.Forall₂ Q as bs)
    (rel' : List.Forall₂ S bs cs) : List.Forall₂ T as cs := by
  induction rel generalizing cs with
  | nil =>
    cases rel'
    exact .nil
  | cons first _ ih =>
    cases rel' with
    | cons second rest => exact .cons (join _ _ _ first second) (ih rest)

theorem exists_sublist_left (rel : List.Forall₂ Q as bs) (sub : bs'.Sublist bs) :
    ∃ as', as'.Sublist as ∧ List.Forall₂ Q as' bs' := by
  induction sub generalizing as with
  | slnil => exact ⟨[], List.nil_sublist _, .nil⟩
  | cons b _ ih =>
    cases rel with
    | cons next rest =>
      obtain ⟨as', sub, rel⟩ := ih rest
      exact ⟨as', sub.cons _, rel⟩
  | cons_cons b _ ih =>
    cases rel with
    | cons next rest =>
      obtain ⟨as', sub, rel⟩ := ih rest
      exact ⟨_, sub.cons_cons _, .cons next rel⟩

theorem exists_perm_left (rel : List.Forall₂ Q as bs) (perm : bs'.Perm bs) :
    ∃ as', as'.Perm as ∧ List.Forall₂ Q as' bs' := by
  obtain ⟨as', rel, perm⟩ := List.perm_comp_forall₂ perm rel.flip
  exact ⟨as', perm, rel.flip⟩

/-- Some of the right hand sides, in any order, belong to as many of the left hand sides. -/
theorem exists_subperm_left (rel : List.Forall₂ Q as bs) (part : bs'.Subperm bs) :
    ∃ as', as'.Subperm as ∧ List.Forall₂ Q as' bs' := by
  obtain ⟨kept, perm, sub⟩ := part
  obtain ⟨as', sub, rel⟩ := exists_sublist_left rel sub
  obtain ⟨as'', perm', rel⟩ := exists_perm_left rel perm.symm
  exact ⟨as'', ⟨as', perm'.symm, sub⟩, rel⟩

end Rearranged

/-- The list around a record, before and after an update or a removal of it. -/
theorem exists_around {i : Nat} {x : α} (found : xs[i]? = some x) :
    ∃ pre post, xs = pre ++ x :: post ∧ (∀ y, xs.set i y = pre ++ y :: post) ∧
      xs.eraseIdx i = pre ++ post := by
  induction xs generalizing i with
  | nil => cases found
  | cons a xs ih =>
    cases i with
    | zero =>
      cases found
      exact ⟨[], xs, rfl, fun _ => rfl, rfl⟩
    | succ i =>
      obtain ⟨pre, post, split, updated, removed⟩ := ih (by simpa using found)
      refine ⟨a :: pre, post, ?_, fun y => ?_, ?_⟩
      · rw [split, List.cons_append]
      · rw [List.set_cons_succ, updated, List.cons_append]
      · rw [List.eraseIdx_cons_succ, removed, List.cons_append]

/-- A record looked up after an update is the new one, or another one that was there before. -/
theorem getElem?_set_cases {i j : Nat} {x y : α} (found : (xs.set i x)[j]? = some y) :
    j = i ∧ y = x ∨ j ≠ i ∧ xs[j]? = some y := by
  rw [List.getElem?_set] at found
  split at found
  case isTrue same =>
    split at found
    · exact .inl ⟨same.symm, (Option.some.inj found).symm⟩
    · cases found
  case isFalse other => exact .inr ⟨Ne.symm other, found⟩

section

variable {κ ν : Type*} [DecidableEq κ] {m : κ → Option ν} {k k' : κ} {v v' : ν}

theorem update_some_cases (found : Function.update m k (some v) k' = some v') :
    k' = k ∧ v' = v ∨ m k' = some v' := by
  by_cases same : k' = k
  · subst same
    rw [Function.update_self] at found
    exact .inl ⟨rfl, (Option.some.inj found).symm⟩
  · rw [Function.update_of_ne same] at found
    exact .inr found

theorem of_update_none (found : Function.update m k none k' = some v') :
    k' ≠ k ∧ m k' = some v' := by
  by_cases same : k' = k
  · subst same
    rw [Function.update_self] at found
    cases found
  · rw [Function.update_of_ne same] at found
    exact ⟨same, found⟩

end

end ECapture.Library
