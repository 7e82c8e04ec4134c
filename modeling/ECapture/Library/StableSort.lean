import Mathlib.Algebra.Group.Nat.Defs
import Mathlib.Data.List.Sort

/-!
# Stable sorting by a key

`stableSort key` orders a list by `key` and keeps the order of elements with equal
keys. Two facts determine it: the result is ordered, and for every key the elements
with that key stand as they stood before. `eq_of_ordered_of_filter` is the uniqueness
theorem that callers use to recognise a list as the stable sort of another.
-/

namespace ECapture.Library

variable {α κ : Type*} [LinearOrder κ] (key : α → κ)

def stableSort (l : List α) : List α := l.insertionSort (fun a b => key a ≤ key b)

/-- The elements with key `k`, in their order. -/
def withKey (k : κ) (l : List α) : List α := l.filter (fun a => decide (key a = k))

/-- Ordered by `key`, with equal keys in any order. -/
def Ordered (l : List α) : Prop := l.Pairwise (fun a b => key a ≤ key b)

@[simp] theorem withKey_append (k : κ) (l m : List α) :
    withKey key k (l ++ m) = withKey key k l ++ withKey key k m :=
  List.filter_append l m

theorem perm_stableSort (l : List α) : (stableSort key l).Perm l :=
  List.perm_insertionSort _ l

theorem length_stableSort (l : List α) : (stableSort key l).length = l.length :=
  (perm_stableSort key l).length_eq

theorem ordered_stableSort (l : List α) : Ordered key (stableSort key l) := by
  have total : Std.Total (fun a b : α => key a ≤ key b) :=
    ⟨fun a b => le_total (key a) (key b)⟩
  have trans : IsTrans α (fun a b => key a ≤ key b) := ⟨fun _ _ _ => le_trans⟩
  exact List.pairwise_insertionSort _ l

/-- Insertion passes only elements with a smaller key, so it passes none with the
same one. -/
theorem withKey_orderedInsert (k : κ) (a : α) (l : List α) :
    withKey key k (l.orderedInsert (fun a b => key a ≤ key b) a) = withKey key k (a :: l) := by
  induction l with
  | nil => rfl
  | cons b l ih =>
    rw [List.orderedInsert]
    split
    · rfl
    · rename_i above
      simp only [withKey, List.filter_cons] at ih ⊢
      rw [ih]
      by_cases ha : key a = k <;> by_cases hb : key b = k <;> simp_all

theorem withKey_stableSort (k : κ) (l : List α) :
    withKey key k (stableSort key l) = withKey key k l := by
  induction l with
  | nil => rfl
  | cons a l ih =>
    have insert := withKey_orderedInsert key k a (stableSort key l)
    simp only [stableSort, List.insertionSort_cons] at insert ih ⊢
    rw [insert]
    simp only [withKey, List.filter_cons] at ih ⊢
    rw [ih]

theorem mem_withKey {k : κ} {a : α} {l : List α} : a ∈ withKey key k l ↔ a ∈ l ∧ key a = k := by
  simp [withKey]

/-- An ordered list is determined by its elements of each key. -/
theorem eq_of_ordered_of_withKey {l m : List α} (hl : Ordered key l) (hm : Ordered key m)
    (same : ∀ k, withKey key k l = withKey key k m) : l = m := by
  have mem : ∀ a, a ∈ l ↔ a ∈ m := fun a => by
    have := mem_withKey key (k := key a) (a := a) (l := l)
    rw [same, mem_withKey key] at this
    simpa using this.symm
  induction l generalizing m with
  | nil =>
    cases m with
    | nil => rfl
    | cons b m => simpa using mem b
  | cons a l ih =>
    cases m with
    | nil => simpa using mem a
    | cons b m =>
      -- both heads are least, so they have one key and the same position in it
      have hab : key a ≤ key b := by
        rcases List.mem_cons.mp ((mem b).mpr List.mem_cons_self) with rfl | hb
        · exact le_rfl
        · exact (List.pairwise_cons.mp hl).1 b hb
      have hba : key b ≤ key a := by
        rcases List.mem_cons.mp ((mem a).mp List.mem_cons_self) with rfl | ha
        · exact le_rfl
        · exact (List.pairwise_cons.mp hm).1 a ha
      have hk : key b = key a := le_antisymm hba hab
      have head : a = b ∧ withKey key (key a) l = withKey key (key a) m := by
        simpa [withKey, List.filter_cons, hk] using same (key a)
      obtain ⟨rfl, tail⟩ := head
      have rest : ∀ k, withKey key k l = withKey key k m := by
        intro k
        by_cases h : key a = k
        · exact h ▸ tail
        · simpa [withKey, List.filter_cons, h] using same k
      have mem' : ∀ c, c ∈ l ↔ c ∈ m := fun c => by
        have := mem_withKey key (k := key c) (a := c) (l := l)
        rw [rest, mem_withKey key] at this
        simpa using this.symm
      rw [ih (List.pairwise_cons.mp hl).2 (List.pairwise_cons.mp hm).2 rest mem']

/-- The stable sort is the only ordered list that keeps the elements of each key. -/
theorem eq_stableSort {l m : List α} (hm : Ordered key m)
    (same : ∀ k, withKey key k m = withKey key k l) : m = stableSort key l :=
  eq_of_ordered_of_withKey key hm (ordered_stableSort key l)
    (fun k => (same k).trans (withKey_stableSort key k l).symm)

/-! ## Taking elements out in order -/

/-- `items` are taken out of `before` and `after` stays. What is taken is ordered, nothing that
stays has a smaller key, and of the elements with one key those that stood first are taken. -/
structure Separates (before items after : List α) : Prop where
  ordered : Ordered key items
  below : ∀ a ∈ items, ∀ b ∈ after, key a ≤ key b
  perKey : ∀ k, withKey key k items ++ withKey key k after = withKey key k before

variable {key}

theorem mem_of_perKey {before items after : List α}
    (perKey : ∀ k, withKey key k items ++ withKey key k after = withKey key k before) {a : α}
    (mem : a ∈ items ++ after) : a ∈ before := by
  have own : a ∈ withKey key (key a) (items ++ after) := (mem_withKey key).mpr ⟨mem, rfl⟩
  rw [withKey_append, perKey] at own
  exact ((mem_withKey key).mp own).1

theorem Separates.mem_before {before items after : List α} (h : Separates key before items after)
    {a : α} (mem : a ∈ items ++ after) : a ∈ before :=
  mem_of_perKey h.perKey mem

variable (key)

theorem separates_nothing (l : List α) : Separates key l [] l :=
  ⟨List.Pairwise.nil, by simp, fun _ => rfl⟩

/-- The first elements of the stable sort, however many. -/
theorem separates_take (l : List α) (n : ℕ) :
    Separates key l ((stableSort key l).take n) ((stableSort key l).drop n) := by
  have sorted := ordered_stableSort key l
  rw [← List.take_append_drop n (stableSort key l)] at sorted
  obtain ⟨ordered, -, below⟩ := List.pairwise_append.mp sorted
  refine ⟨ordered, below, fun k => ?_⟩
  rw [← withKey_append, List.take_append_drop, withKey_stableSort]

theorem separates_stableSort (l : List α) : Separates key l (stableSort key l) [] := by
  have whole := separates_take key l (stableSort key l).length
  rwa [List.take_length, List.drop_length] at whole

/-- The elements below a threshold: those with one key are all taken or all left. -/
theorem separates_filter (l : List α) (low : κ → Bool)
    (down : ∀ j k, low j = true → low k = false → j ≤ k) :
    Separates key l (stableSort key (l.filter fun a => low (key a)))
      (l.filter fun a => !low (key a)) where
  ordered := ordered_stableSort key _
  below a ha b hb := by
    obtain ⟨-, la⟩ := List.mem_filter.mp ((perm_stableSort key _).mem_iff.mp ha)
    obtain ⟨-, lb⟩ := List.mem_filter.mp hb
    exact down _ _ la (by simpa using lb)
  perKey k := by
    rw [withKey_stableSort]
    simp only [withKey, List.filter_filter]
    cases low_k : low k with
    | true =>
      have taken : l.filter (fun a => decide (key a = k) && low (key a)) =
          l.filter (fun a => decide (key a = k)) :=
        List.filter_congr fun a _ => by by_cases hk : key a = k <;> simp [hk, low_k]
      have left : l.filter (fun a => decide (key a = k) && !low (key a)) = [] :=
        List.filter_eq_nil_iff.mpr fun a _ => by by_cases hk : key a = k <;> simp [hk, low_k]
      rw [taken, left, List.append_nil]
    | false =>
      have taken : l.filter (fun a => decide (key a = k) && low (key a)) = [] :=
        List.filter_eq_nil_iff.mpr fun a _ => by by_cases hk : key a = k <;> simp [hk, low_k]
      have left : l.filter (fun a => decide (key a = k) && !low (key a)) =
          l.filter (fun a => decide (key a = k)) :=
        List.filter_congr fun a _ => by by_cases hk : key a = k <;> simp [hk, low_k]
      rw [taken, left, List.nil_append]

/-! Elements under another name. -/

variable {key} {β : Type*} {key' : β → κ} {f : α → β}

theorem withKey_map {l : List α} (agree : ∀ a ∈ l, key' (f a) = key a) (k : κ) :
    withKey key' k (l.map f) = (withKey key k l).map f := by
  rw [withKey, List.filter_map, withKey]
  congr 1
  exact List.filter_congr fun a mem => by rw [Function.comp_apply, agree a mem]

theorem Separates.map {before items after : List α} (h : Separates key before items after)
    (agree : ∀ a ∈ before, key' (f a) = key a) :
    Separates key' (before.map f) (items.map f) (after.map f) where
  ordered := by
    refine List.pairwise_map.mpr (h.ordered.imp_of_mem fun ha hb le => ?_)
    rwa [agree _ (h.mem_before (List.mem_append_left _ ha)),
      agree _ (h.mem_before (List.mem_append_left _ hb))]
  below := by
    intro x hx y hy
    obtain ⟨a, ha, rfl⟩ := List.mem_map.mp hx
    obtain ⟨b, hb, rfl⟩ := List.mem_map.mp hy
    rw [agree a (h.mem_before (List.mem_append_left _ ha)),
      agree b (h.mem_before (List.mem_append_right _ hb))]
    exact h.below a ha b hb
  perKey k := by
    rw [withKey_map (fun a ha => agree a (h.mem_before (List.mem_append_left _ ha))),
      withKey_map (fun a ha => agree a (h.mem_before (List.mem_append_right _ ha))),
      withKey_map agree, ← List.map_append, h.perKey]

end ECapture.Library
