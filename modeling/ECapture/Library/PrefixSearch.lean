import Mathlib.Data.List.Basic
import Mathlib.Order.Defs.LinearOrder

/-!
# Searching keys by shorter and shorter prefixes of a text

`search` looks for keys that begin with the first `i` elements of a text, for `i = n, n - 1, …, 1`,
and takes the last of the acceptable ones in sorted order. `Found` says which key that is, without
the order in which the keys are enumerated; it allows the empty prefix, so that a common front of
the text and the keys can be taken off.
-/

namespace ECapture.Library

variable {α : Type*}

section Search

variable [DecidableEq α]

/-- The acceptable keys that begin with the first `i` elements of the text. -/
def candidates (ok : List α → Bool) (text : List α) (i : Nat) (keys : List (List α)) :
    List (List α) := keys.filter fun key => (text.take i).isPrefixOf key && ok key

/-- `order i` is the order in which round `i` enumerates the keys. -/
def search (le : List α → List α → Bool) (order : Nat → List (List α)) (ok : List α → Bool)
    (text : List α) : Nat → Option (List α)
  | 0 => none
  | i + 1 =>
    match ((candidates ok text (i + 1) (order (i + 1))).mergeSort le).getLast? with
    | some key => some key
    | none => search le order ok text i

end Search

/-- An acceptable key that begins with the first `i` elements of the text. -/
def Matches (ok : List α → Prop) (text : List α) (i : Nat) (key : List α) : Prop :=
  ok key ∧ text.take i <+: key

/-- The greatest key among those with the longest prefix. -/
def Found (le : List α → List α → Prop) (ok : List α → Prop) (text : List α) (n : Nat)
    (key : List α) : Prop :=
  ∃ i ≤ n, Matches ok text i key ∧ (∀ other, Matches ok text i other → le other key) ∧
    ∀ j, i < j → j ≤ n → ∀ other, ¬ Matches ok text j other

variable {le : List α → List α → Prop} {ok : List α → Prop} {text key : List α} {n : Nat}

theorem Matches.shorter {i j : Nat} (h : Matches ok text j key) (hij : i ≤ j) :
    Matches ok text i key := by
  refine ⟨h.1, List.IsPrefix.trans ?_ h.2⟩
  exact List.take_prefix_take_left hij

theorem Found.accepted (h : Found le ok text n key) : ok key := by
  obtain ⟨i, -, here, -⟩ := h
  exact here.1

/-- The prefix of the key is the longest there is. -/
theorem Found.longest (h : Found le ok text n key) {j : Nat} {other : List α} (hj : j ≤ n)
    (there : Matches ok text j other) : Matches ok text j key := by
  obtain ⟨i, -, here, -, longer⟩ := h
  by_cases lt : i < j
  · exact absurd there (longer j lt hj other)
  · exact here.shorter (Nat.le_of_not_lt lt)

/-- A key at the level of the one found is not above it. -/
theorem Found.greatest (h : Found le ok text n key) {j : Nat} {other : List α}
    (there : Matches ok text j other)
    (top : ∀ i, j < i → i ≤ n → ¬ Matches ok text i key) : le other key := by
  obtain ⟨i, hi, here, greatest, -⟩ := h
  by_cases lt : j < i
  · exact absurd here (top i lt hi)
  · exact greatest other (there.shorter (Nat.le_of_not_lt lt))

/-- A front that the text has in common with an acceptable key is taken off. -/
theorem Found.strip {front : List α} (h : Found le ok (front ++ text) n key)
    (long : front.length ≤ n) {other : List α} (some_ : ok (front ++ other)) :
    ∃ rest, key = front ++ rest ∧ Found (fun a b => le (front ++ a) (front ++ b))
      (fun r => ok (front ++ r)) text (n - front.length) rest := by
  have split : ∀ i r, Matches ok (front ++ text) (front.length + i) (front ++ r) ↔
      Matches (fun r => ok (front ++ r)) text i r := by
    intro i r
    rw [Matches, Matches, List.take_length_add_append, List.prefix_append_right_inj]
  have begins := h.longest long ⟨some_, by rw [List.take_left]; exact List.prefix_append _ _⟩
  have front_ := begins.2
  rw [List.take_left] at front_
  obtain ⟨rest, rfl⟩ := front_
  refine ⟨rest, rfl, ?_⟩
  obtain ⟨i, hi, here, greatest, longer⟩ := h
  have below : front.length ≤ i := by
    by_contra lt
    exact longer front.length (by omega) long _ begins
  obtain ⟨i, rfl⟩ := Nat.exists_eq_add_of_le below
  refine ⟨i, by omega, (split i rest).mp here, fun other there => ?_, fun j lt hj other there => ?_⟩
  · exact greatest _ ((split i other).mpr there)
  · exact longer (front.length + j) (by omega) (by omega) _ ((split j other).mpr there)

/-- There is only one such key. -/
theorem Found.unique (antisymm : ∀ a b, le a b → le b a → a = b) {key' : List α}
    (h : Found le ok text n key) (h' : Found le ok text n key') : key = key' := by
  obtain ⟨i, hi, here, greatest, longer⟩ := h
  obtain ⟨i', hi', here', greatest', longer'⟩ := h'
  have level : i = i' := by
    rcases Nat.lt_trichotomy i i' with lt | eq | gt
    · exact absurd here' (longer i' lt hi' key')
    · exact eq
    · exact absurd here (longer' i gt hi key)
  subst level
  exact antisymm key key' (greatest' key here) (greatest key' here')

/-! ## The search finds it -/

section Search

variable [DecidableEq α] {leb : List α → List α → Bool} {order : Nat → List (List α)}
  {okb : List α → Bool} {keys : List (List α)}

theorem mem_candidates {i : Nat} (same : ∀ k, k ∈ order i ↔ k ∈ keys) :
    key ∈ candidates okb text i (order i) ↔ Matches (fun k => k ∈ keys ∧ okb k) text i key := by
  rw [candidates, List.mem_filter, same, Bool.and_eq_true, List.isPrefixOf_iff_prefix, Matches]
  tauto

/-- The last element of a sorted list is its greatest. -/
theorem le_last_mergeSort {κ : Type*} {le : κ → κ → Bool}
    (trans : ∀ a b c, le a b = true → le b c = true → le a c = true)
    (total : ∀ a b, (le a b || le b a) = true) {l : List κ} {last : κ}
    (h : (l.mergeSort le).getLast? = some last) : last ∈ l ∧ ∀ x ∈ l, le x last := by
  obtain ⟨front, split⟩ := List.getLast?_eq_some_iff.mp h
  have mem : ∀ x, x ∈ l ↔ x ∈ front ++ [last] := fun x => by rw [← split, List.mem_mergeSort]
  have sorted := List.pairwise_mergeSort trans total l
  rw [split, List.pairwise_append] at sorted
  refine ⟨(mem last).mpr (by simp), fun x hx => ?_⟩
  rcases List.mem_append.mp ((mem x).mp hx) with before | rfl_
  · exact sorted.2.2 x before last (by simp)
  · rw [List.mem_singleton.mp rfl_]
    simpa using total last last

/-- With a match in one of its rounds a search ends with the key that is to be found. -/
theorem exists_search (trans : ∀ a b c, leb a b = true → leb b c = true → leb a c = true)
    (total : ∀ a b, (leb a b || leb b a) = true) (same : ∀ i k, k ∈ order i ↔ k ∈ keys) :
    ∀ {n j : Nat} {other : List α}, 0 < j → j ≤ n →
      Matches (fun k => k ∈ keys ∧ okb k) text j other →
      ∃ key, search leb order okb text n = some key ∧
        Found (fun a b => leb a b) (fun k => k ∈ keys ∧ okb k) text n key := by
  intro n
  induction n with
  | zero => exact fun pos le => absurd pos (by omega)
  | succ n ih =>
    intro j other pos le there
    rw [search]
    split
    case h_1 key last =>
      obtain ⟨mem, greatest⟩ := le_last_mergeSort trans total last
      refine ⟨key, rfl, n + 1, Nat.le_refl _, (mem_candidates (same _)).mp mem, ?_, ?_⟩
      · exact fun k hk => greatest k ((mem_candidates (same _)).mpr hk)
      · exact fun j lt le => absurd lt (by omega)
    case h_2 last =>
      have empty : ∀ k, ¬ Matches (fun k => k ∈ keys ∧ okb k) text (n + 1) k := by
        intro k hk
        have mem : k ∈ (candidates okb text (n + 1) (order (n + 1))).mergeSort leb :=
          List.mem_mergeSort.mpr ((mem_candidates (same (n + 1))).mpr hk)
        rw [List.getLast?_eq_none_iff.mp last] at mem
        cases mem
      have earlier : j ≤ n := by
        by_contra gt
        rw [show j = n + 1 by omega] at there
        exact empty other there
      obtain ⟨key, found, i, hi, here, greatest, longer⟩ := ih pos earlier there
      refine ⟨key, found, i, by omega, here, greatest, fun j lt le k => ?_⟩
      by_cases last : j = n + 1
      · rw [last]
        exact empty k
      · exact longer j lt (by omega) k

/-- What a search finds matches in one of its rounds. -/
theorem matches_of_search (same : ∀ i k, k ∈ order i ↔ k ∈ keys) {n : Nat}
    (found : search leb order okb text n = some key) :
    ∃ j, 0 < j ∧ j ≤ n ∧ Matches (fun k => k ∈ keys ∧ okb k) text j key := by
  induction n with
  | zero => cases found
  | succ n ih =>
    rw [search] at found
    split at found
    case h_1 last =>
      cases found
      have mem : key ∈ (candidates okb text (n + 1) (order (n + 1))).mergeSort leb :=
        List.mem_of_getLast? last
      exact ⟨n + 1, by omega, Nat.le_refl _,
        (mem_candidates (same _)).mp (List.mem_mergeSort.mp mem)⟩
    case h_2 =>
      obtain ⟨j, pos, le, here⟩ := ih found
      exact ⟨j, pos, by omega, here⟩

/-- The enumerations of the keys do not matter. -/
theorem search_congr (trans : ∀ a b c, leb a b = true → leb b c = true → leb a c = true)
    (total : ∀ a b, (leb a b || leb b a) = true)
    (antisymm : ∀ a b, leb a b = true → leb b a = true → a = b) {order' : Nat → List (List α)}
    (same : ∀ i k, k ∈ order i ↔ k ∈ keys) (same' : ∀ i k, k ∈ order' i ↔ k ∈ keys) (n : Nat) :
    search leb order okb text n = search leb order' okb text n := by
  have found : ∀ {o o' : Nat → List (List α)}, (∀ i k, k ∈ o i ↔ k ∈ keys) →
      (∀ i k, k ∈ o' i ↔ k ∈ keys) → ∀ k, search leb o okb text n = some k →
      search leb o' okb text n = some k := by
    intro o o' same same' k found
    obtain ⟨j, pos, le, here⟩ := matches_of_search same found
    obtain ⟨k₁, found₁, first₁⟩ := exists_search trans total same pos le here
    obtain ⟨k₂, found₂, first₂⟩ := exists_search trans total same' pos le here
    obtain rfl : k₁ = k := Option.some.inj (found₁.symm.trans found)
    rw [found₂, first₂.unique antisymm first₁]
  cases h : search leb order okb text n with
  | some k => exact (found same same' k h).symm
  | none =>
    cases h' : search leb order' okb text n with
    | none => rfl
    | some k => rw [found same' same k h'] at h; cases h

end Search

end ECapture.Library
