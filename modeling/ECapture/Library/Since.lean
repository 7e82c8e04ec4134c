import Mathlib.Data.List.Range
import Mathlib.Data.List.TakeDrop

/-!
# What has been gathered since the last reset

Of a sequence of events some are gathered and some are resets. `since` has the positions of those
that are gathered before a point and after the last reset before it. A reset leaves nothing, any
other event adds itself or nothing, and no position is gathered at two different resets.
-/

namespace ECapture.Library

variable {α β : Type*} (gathers resets : α → Bool)

/-- The positions before `n` of what is gathered, without a reset between them and `n`. -/
def since (l : List α) (n : ℕ) : List ℕ :=
  (List.range n).filter fun j =>
    l[j]?.any gathers && decide (∀ k < n, j < k → l[k]?.any resets = false)

variable {gathers resets} {l : List α} {n : ℕ}

theorem mem_since {j : ℕ} : j ∈ since gathers resets l n ↔
    j < n ∧ l[j]?.any gathers = true ∧ ∀ k < n, j < k → l[k]?.any resets = false := by
  simp [since]

/-- Nothing is left of what was gathered before a reset. -/
theorem since_reset {a : α} (here : l[n]? = some a) (reset : resets a = true)
    (other : gathers a = false) : since gathers resets l (n + 1) = [] := by
  rw [List.eq_nil_iff_forall_not_mem]
  intro j mem
  obtain ⟨before, gathered, clear⟩ := mem_since.mp mem
  by_cases same : j = n
  · rw [same, here, Option.any_some, other] at gathered
    cases gathered
  · have := clear n (by omega) (by omega)
    rw [here, Option.any_some, reset] at this
    cases this

theorem since_succ {a : α} (here : l[n]? = some a) (keep : resets a = false) :
    since gathers resets l (n + 1) =
      since gathers resets l n ++ if gathers a then [n] else [] := by
  have past : ∀ j < n, (∀ k < n + 1, j < k → l[k]?.any resets = false) ↔
      ∀ k < n, j < k → l[k]?.any resets = false := by
    intro j _
    refine ⟨fun clear k bound => clear k (by omega), fun clear k bound later => ?_⟩
    by_cases same : k = n
    · rw [same, here, Option.any_some, keep]
    · exact clear k (by omega) later
  have last : ∀ k < n + 1, n < k → l[k]?.any resets = false := fun k _ _ => by omega
  rw [since, List.range_succ, List.filter_append, since]
  congr 1
  · refine List.filter_congr fun j mem => ?_
    rw [decide_eq_decide.mpr (past j (List.mem_range.mp mem))]
  · have own : (l[n]?.any gathers && decide (∀ k < n + 1, n < k → l[k]?.any resets = false)) =
        gathers a := by
      rw [decide_eq_true last, Bool.and_true, here, Option.any_some]
    rw [List.filter_singleton, own, Bool.cond_eq_ite]

/-- Of two resets at most one finds a position. -/
theorem since_disjoint {i i' j : ℕ} (reset : l[i]?.any resets = true)
    (reset' : l[i']?.any resets = true) (mem : j ∈ since gathers resets l i)
    (mem' : j ∈ since gathers resets l i') : i = i' := by
  obtain ⟨before, -, clear⟩ := mem_since.mp mem
  obtain ⟨before', -, clear'⟩ := mem_since.mp mem'
  rcases lt_trichotomy i i' with less | same | greater
  · rw [clear' i less before] at reset
    cases reset
  · exact same
  · rw [clear i' greater before'] at reset'
    cases reset'

/-- What is at these positions. -/
def gathered (gathers resets : α → Bool) (f : α → β) (l : List α) (n : ℕ) : List β :=
  (since gathers resets l n).filterMap fun j => l[j]?.map f

theorem gathered_reset {f : α → β} {a : α} (here : l[n]? = some a) (reset : resets a = true)
    (other : gathers a = false) : gathered gathers resets f l (n + 1) = [] := by
  rw [gathered, since_reset here reset other, List.filterMap_nil]

theorem gathered_gather {f : α → β} {a : α} (here : l[n]? = some a) (keep : resets a = false)
    (gather : gathers a = true) :
    gathered gathers resets f l (n + 1) = gathered gathers resets f l n ++ [f a] := by
  rw [gathered, since_succ here keep, if_pos gather, List.filterMap_append, gathered]
  simp [here]

theorem gathered_other {f : α → β} {a : α} (here : l[n]? = some a) (keep : resets a = false)
    (other : gathers a = false) :
    gathered gathers resets f l (n + 1) = gathered gathers resets f l n := by
  rw [gathered, since_succ here keep, if_neg (by simp [other]), List.append_nil, gathered]

end ECapture.Library
