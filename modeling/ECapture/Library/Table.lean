import Mathlib.Data.List.Basic

/-!
# Bounded hash tables

A table with a fixed number of slots, as the kernel's hash maps are: an update of a key that is
present replaces its value, an update of a new key needs a free slot and is lost without one.
Lookups after an update or a deletion are the whole interface; `HasRoom` is what makes an update
take effect.
-/

namespace ECapture.Library

structure Table (κ ν : Type*) where
  cap : Nat
  entries : List (κ × ν)

namespace Table

variable {κ ν : Type*} [DecidableEq κ]

def empty (κ ν : Type*) (cap : Nat) : Table κ ν := ⟨cap, []⟩

def lookup (t : Table κ ν) (k : κ) : Option ν :=
  t.entries.findSome? fun e => if e.1 = k then some e.2 else none

def delete (k : κ) (t : Table κ ν) : Table κ ν :=
  { t with entries := t.entries.filter fun e => e.1 ≠ k }

def update (k : κ) (v : ν) (t : Table κ ν) : Table κ ν :=
  if (t.lookup k).isSome then
    { t with entries := t.entries.map fun e => if e.1 = k then (k, v) else e }
  else if t.entries.length < t.cap then { t with entries := t.entries ++ [(k, v)] }
  else t

/-- An update of `k` will not be lost. -/
def HasRoom (k : κ) (t : Table κ ν) : Prop := (t.lookup k).isSome ∨ t.entries.length < t.cap

instance (k : κ) (t : Table κ ν) : Decidable (t.HasRoom k) :=
  inferInstanceAs (Decidable (_ ∨ _))

@[simp] theorem lookup_empty (cap : Nat) (k : κ) : (empty κ ν cap).lookup k = none := rfl

@[simp] theorem lookup_delete_self (k : κ) (t : Table κ ν) : (t.delete k).lookup k = none := by
  simp only [lookup, delete, List.findSome?_eq_none_iff, List.mem_filter]
  rintro e ⟨-, other⟩
  simpa using other

theorem lookup_delete_of_ne {k k' : κ} (other : k' ≠ k) (t : Table κ ν) :
    (t.delete k).lookup k' = t.lookup k' := by
  obtain ⟨cap, entries⟩ := t
  simp only [lookup, delete]
  induction entries with
  | nil => rfl
  | cons e entries ih => grind

theorem findSome?_replace {k : κ} {v : ν} (entries : List (κ × ν)) (k' : κ) :
    (entries.map fun e => if e.1 = k then (k, v) else e).findSome?
        (fun e => if e.1 = k' then some e.2 else none) =
      if k' = k then (entries.findSome? fun e => if e.1 = k then some e.2 else none).map (fun _ => v)
      else entries.findSome? fun e => if e.1 = k' then some e.2 else none := by
  induction entries with
  | nil => simp
  | cons e entries ih => grind

theorem lookup_update_of_ne {k k' : κ} (other : k' ≠ k) (v : ν) (t : Table κ ν) :
    (t.update k v).lookup k' = t.lookup k' := by
  unfold update
  split
  · simp [lookup, findSome?_replace, other]
  · split
    · simp [lookup, List.findSome?_append, Ne.symm other]
    · rfl

theorem lookup_update_self {k : κ} {t : Table κ ν} (room : t.HasRoom k) (v : ν) :
    (t.update k v).lookup k = some v := by
  unfold update
  split
  case isTrue present =>
    obtain ⟨old, found⟩ := Option.isSome_iff_exists.mp present
    unfold lookup at found
    simp [lookup, findSome?_replace, found]
  case isFalse absent =>
    have free : t.entries.length < t.cap := room.resolve_left absent
    have missing : t.lookup k = none := by simpa using absent
    unfold lookup at missing
    simp [lookup, free, List.findSome?_append, missing]

/-- The two cases of a lookup after an update that takes effect. -/
theorem lookup_update {k : κ} {t : Table κ ν} (room : t.HasRoom k) (k' : κ) (v : ν) :
    (t.update k v).lookup k' = if k' = k then some v else t.lookup k' := by
  split
  case isTrue same => rw [same, lookup_update_self room]
  case isFalse other => rw [lookup_update_of_ne other]

theorem lookup_delete (k k' : κ) (t : Table κ ν) :
    (t.delete k).lookup k' = if k' = k then none else t.lookup k' := by
  split
  case isTrue same => rw [same, lookup_delete_self]
  case isFalse other => rw [lookup_delete_of_ne other]

/-- What is found after an update is the new value or one that was there before. -/
theorem lookup_update_cases {k k' : κ} {v v' : ν} {t : Table κ ν}
    (found : (t.update k v).lookup k' = some v') :
    k' = k ∧ v' = v ∨ k' ≠ k ∧ t.lookup k' = some v' := by
  by_cases same : k' = k
  · subst same
    by_cases room : t.HasRoom k'
    · rw [lookup_update_self room] at found
      exact .inl ⟨rfl, (Option.some.inj found).symm⟩
    · obtain ⟨absent, full⟩ := not_or.mp room
      rw [update, if_neg absent, if_neg full] at found
      simp [found] at absent
  · rw [lookup_update_of_ne same] at found
    exact .inr ⟨same, found⟩

theorem hasRoom_of_lookup {k : κ} {v : ν} {t : Table κ ν} (found : t.lookup k = some v) :
    t.HasRoom k :=
  .inl (by simp [found])

end Table

end ECapture.Library
