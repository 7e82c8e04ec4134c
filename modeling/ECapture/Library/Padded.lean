import Mathlib.Data.List.Lex
import Mathlib.Order.Lattice

/-!
# Comparing lists with missing components

Two lists are compared component by component, and one that is too short is taken to go on with
a fixed component `z`. Over a linear order this is a total preorder, and two lists precede each
other when they agree everywhere. Both follow from the linear order of lists of one length: any
number of lists can be padded to a common one.
-/

namespace ECapture.Library

variable {α : Type*} (z : α)

/-- The first `n` components. -/
def padTo (n : ℕ) (l : List α) : List α := (List.range n).map fun i => l.getD i z

@[simp] theorem length_padTo (n : ℕ) (l : List α) : (padTo z n l).length = n := by
  simp [padTo]

theorem padTo_succ (n : ℕ) (l : List α) : padTo z (n + 1) l = padTo z n l ++ [l.getD n z] := by
  simp [padTo, List.range_succ]

/-- What follows the last component is padding. -/
theorem padTo_add {l : List α} {m : ℕ} (enough : l.length ≤ m) (k : ℕ) :
    padTo z (m + k) l = padTo z m l ++ List.replicate k z := by
  induction k with
  | zero => simp
  | succ k ih =>
    have past : l.getD (m + k) z = z := by
      rw [List.getD_eq_getElem?_getD, List.getElem?_eq_none (by omega), Option.getD_none]
    rw [← Nat.add_assoc, padTo_succ, ih, past, List.append_assoc, List.replicate_succ']

theorem padTo_inj {n : ℕ} {a b : List α} :
    padTo z n a = padTo z n b ↔ ∀ i < n, a.getD i z = b.getD i z := by
  simp only [padTo, List.map_inj_left, List.mem_range]

section Order

variable [LinearOrder α]

theorem append_lt_append_iff {a b : List α} (c : List α) (even : a.length = b.length) :
    a ++ c < b ++ c ↔ a < b := by
  induction a generalizing b with
  | nil =>
    rw [List.length_nil, eq_comm, List.length_eq_zero_iff] at even
    rw [even, List.nil_append]
    simp only [lt_irrefl]
  | cons x a ih =>
    cases b with
    | nil => cases even
    | cons y b =>
      have rest := ih (Nat.succ.inj even)
      rw [List.cons_append, List.cons_append, List.cons_lt_cons_iff, List.cons_lt_cons_iff, rest]

/-- Lists of one length are compared without regard to what follows them alike. -/
theorem append_le_append_iff {a b : List α} (c : List α) (even : a.length = b.length) :
    a ++ c ≤ b ++ c ↔ a ≤ b := by
  rw [← not_lt, ← not_lt, append_lt_append_iff c even.symm]

/-- The first components decide unless they agree. -/
theorem cons_le_cons {x y : α} {a b : List α} : x :: a ≤ y :: b ↔ x < y ∨ x = y ∧ a ≤ b := by
  rw [← not_lt, List.cons_lt_cons_iff, ← not_lt]
  rcases lt_trichotomy x y with less | rfl | greater
  · simp [less, less.not_gt, less.ne']
  · simp
  · simp [greater, greater.not_gt, greater.ne']

/-- `a` does not come after `b`. -/
def PadLe (a b : List α) : Prop :=
  padTo z (max a.length b.length) a ≤ padTo z (max a.length b.length) b

variable {z} {a b c : List α}

/-- The comparison may go on beyond both lists. -/
theorem padLe_iff {n : ℕ} (ha : a.length ≤ n) (hb : b.length ≤ n) :
    PadLe z a b ↔ padTo z n a ≤ padTo z n b := by
  obtain ⟨k, rfl⟩ := Nat.exists_eq_add_of_le (max_le ha hb)
  rw [padTo_add z (le_max_left _ _), padTo_add z (le_max_right _ _),
    append_le_append_iff _ (by rw [length_padTo, length_padTo]), PadLe]

theorem PadLe.refl (a : List α) : PadLe z a a := le_refl _

theorem PadLe.total (a b : List α) : PadLe z a b ∨ PadLe z b a := by
  rw [padLe_iff (le_max_left _ _) (le_max_right _ _),
    padLe_iff (le_max_right a.length _) (le_max_left _ _)]
  exact le_total _ _

theorem PadLe.trans (hab : PadLe z a b) (hbc : PadLe z b c) : PadLe z a c := by
  -- One length serves all three.
  let n := max a.length (max b.length c.length)
  have ha : a.length ≤ n := le_max_left _ _
  have hb : b.length ≤ n := (le_max_left _ _).trans (le_max_right _ _)
  have hc : c.length ≤ n := (le_max_right _ _).trans (le_max_right _ _)
  rw [padLe_iff ha hb] at hab
  rw [padLe_iff hb hc] at hbc
  rw [padLe_iff ha hc]
  exact hab.trans hbc

theorem padLe_antisymm_iff : PadLe z a b ∧ PadLe z b a ↔ ∀ i, a.getD i z = b.getD i z := by
  have ha : a.length ≤ max a.length b.length := le_max_left _ _
  have hb : b.length ≤ max a.length b.length := le_max_right _ _
  rw [padLe_iff ha hb, padLe_iff hb ha, ← le_antisymm_iff, padTo_inj]
  constructor
  · intro same i
    by_cases short : i < max a.length b.length
    · exact same i short
    · rw [List.getD_eq_getElem?_getD, List.getD_eq_getElem?_getD,
        List.getElem?_eq_none (by omega), List.getElem?_eq_none (by omega)]
  · exact fun same i _ => same i

end Order

end ECapture.Library
