import Mathlib.Data.List.Basic

/-!
# Regular expressions

Matching with priorities, as Perl and Go's `regexp` do it: of all ways to match, the first one
counts, where an alternation prefers its left side, a repetition prefers more rounds, and what
comes first in a concatenation is decided first. `runs` lists all ways in this order.

Repetition is that of a class of characters. Groups that take no part in a match are empty.
-/

namespace ECapture.Library

inductive Regex (α : Type*) where
  | empty
  | one (p : α → Bool)
  | many (p : α → Bool)
  | cat (r s : Regex α)
  | alt (r s : Regex α)
  | group (r : Regex α)
  | atEnd

namespace Regex

variable {α : Type*}

/-- At least one. -/
def plus (p : α → Bool) : Regex α := cat (one p) (many p)

/-- `?`. -/
def opt (r : Regex α) : Regex α := alt r empty

/-- One text after another. -/
def lit [BEq α] : List α → Regex α
  | [] => empty
  | c :: cs => cat (one (· == c)) (lit cs)

/-- How many groups there are. -/
def groups : Regex α → Nat
  | cat r s | alt r s => groups r + groups s
  | group r => groups r + 1
  | empty | one _ | many _ | atEnd => 0

/-- What the groups hold and what is left of the text. -/
abbrev Match (α : Type*) := List (List α) × List α

/-- The rounds of a repetition, the longest first. -/
def rounds (p : α → Bool) : List α → List (Match α)
  | [] => [([], [])]
  | c :: t => if p c then rounds p t ++ [([], c :: t)] else [([], c :: t)]

/-- All matches at the front of a text, in the order of their priority. -/
def runs : Regex α → List α → List (Match α)
  | empty, t => [([], t)]
  | one _, [] => []
  | one p, c :: t => if p c then [([], t)] else []
  | many p, t => rounds p t
  | cat r s, t => (runs r t).flatMap fun (g, t') => (runs s t').map fun (g', t'') => (g ++ g', t'')
  | alt r s, t => ((runs r t).map fun (g, t') => (g ++ List.replicate (groups s) [], t')) ++
      (runs s t).map fun (g, t') => (List.replicate (groups r) [] ++ g, t')
  | group r, t => (runs r t).map fun (g, t') => (t.take (t.length - t'.length) :: g, t')
  | atEnd, t => if t.isEmpty then [([], t)] else []

/-- `FindStringSubmatch` of an expression that starts with `^`, without the whole match. -/
def matchFront (r : Regex α) (t : List α) : Option (Match α) := (runs r t).head?

/-- `FindStringSubmatch`, without the whole match: the first place with a match counts. -/
def findSubmatch (r : Regex α) (t : List α) : Option (Match α) :=
  t.tails.findSome? (matchFront r)

/-! ## What matches -/

variable {r s : Regex α} {p : α → Bool} {t : List α} {x : Match α}

@[simp] theorem mem_runs_empty : x ∈ runs empty t ↔ x = ([], t) := List.mem_singleton

@[simp] theorem mem_runs_one : x ∈ runs (one p) t ↔ ∃ c, p c = true ∧ t = c :: x.2 ∧ x.1 = [] := by
  obtain ⟨g, rest⟩ := x
  cases t with
  | nil => simp [runs]
  | cons c t =>
    by_cases ok : p c = true
    · simp only [runs, ok, if_true, List.mem_singleton, Prod.mk.injEq, List.cons.injEq]
      constructor
      · rintro ⟨rfl, rfl⟩
        exact ⟨c, ok, ⟨rfl, rfl⟩, rfl⟩
      · rintro ⟨c', -, ⟨rfl, rfl⟩, rfl⟩
        exact ⟨rfl, rfl⟩
    · simp only [runs, if_neg ok, List.not_mem_nil, List.cons.injEq, false_iff]
      rintro ⟨c', ok', ⟨rfl, rfl⟩, -⟩
      exact ok ok'

theorem mem_rounds : x ∈ rounds p t ↔ ∃ w, (∀ c ∈ w, p c = true) ∧ t = w ++ x.2 ∧ x.1 = [] := by
  obtain ⟨g, rest⟩ := x
  induction t with
  | nil =>
    rw [rounds, List.mem_singleton, Prod.mk.injEq]
    constructor
    · rintro ⟨rfl, rfl⟩
      exact ⟨[], by simp, rfl, rfl⟩
    · rintro ⟨w, -, cut, rfl⟩
      exact ⟨rfl, (List.append_eq_nil_iff.mp cut.symm).2⟩
  | cons c t ih =>
    have stop : (g, rest) = (([] : List (List α)), c :: t) →
        ∃ w : List α, (∀ c ∈ w, p c = true) ∧ c :: t = w ++ rest ∧ g = [] := by
      intro same
      obtain ⟨rfl, rfl⟩ := Prod.mk.inj same
      exact ⟨[], by simp, rfl, rfl⟩
    by_cases ok : p c = true
    · simp only [rounds, ok, if_true, List.mem_append, List.mem_singleton, ih]
      constructor
      · rintro (⟨w, all, rfl, rfl⟩ | same)
        · exact ⟨c :: w, by simpa using ⟨ok, all⟩, rfl, rfl⟩
        · exact stop same
      · rintro ⟨w, all, cut, rfl⟩
        cases w with
        | nil => exact .inr (by simpa using cut.symm)
        | cons d w =>
          obtain ⟨rfl, rfl⟩ := List.cons.inj cut
          exact .inl ⟨w, fun c mem => all c (List.mem_cons_of_mem _ mem), rfl, rfl⟩
    · simp only [rounds, if_neg ok, List.mem_singleton]
      constructor
      · exact stop
      · rintro ⟨w, all, cut, rfl⟩
        cases w with
        | nil => simpa using cut.symm
        | cons d w =>
          obtain ⟨rfl, -⟩ := List.cons.inj cut
          exact absurd (all c List.mem_cons_self) ok

@[simp] theorem mem_runs_many :
    x ∈ runs (many p) t ↔ ∃ w, (∀ c ∈ w, p c = true) ∧ t = w ++ x.2 ∧ x.1 = [] := mem_rounds

@[simp] theorem mem_runs_cat : x ∈ runs (cat r s) t ↔
    ∃ g t' g', (g, t') ∈ runs r t ∧ (g', x.2) ∈ runs s t' ∧ x.1 = g ++ g' := by
  simp only [runs, List.mem_flatMap, List.mem_map, Prod.exists]
  constructor
  · rintro ⟨g, t', first, g', t'', second, rfl⟩
    exact ⟨g, t', g', first, second, rfl⟩
  · rintro ⟨g, t', g', first, second, groups⟩
    exact ⟨g, t', first, g', x.2, second, Prod.ext groups.symm rfl⟩

@[simp] theorem mem_runs_plus : x ∈ runs (plus p) t ↔
    ∃ w, w ≠ [] ∧ (∀ c ∈ w, p c = true) ∧ t = w ++ x.2 ∧ x.1 = [] := by
  rw [plus, mem_runs_cat]
  constructor
  · rintro ⟨g, t', g', first, others, groups⟩
    obtain ⟨c, ok, rfl, rfl⟩ := mem_runs_one.mp first
    obtain ⟨w, all, rfl, rfl⟩ := mem_runs_many.mp others
    exact ⟨c :: w, List.cons_ne_nil _ _, by simpa using ⟨ok, all⟩, rfl, groups⟩
  · rintro ⟨w, nonempty, all, rfl, groups⟩
    obtain ⟨c, w, rfl⟩ := List.exists_cons_of_ne_nil nonempty
    obtain ⟨ok, all⟩ := List.forall_mem_cons.mp all
    exact ⟨[], w ++ x.2, [], mem_runs_one.mpr ⟨c, ok, rfl, rfl⟩,
      mem_runs_many.mpr ⟨w, all, rfl, rfl⟩, groups⟩

@[simp] theorem mem_runs_alt : x ∈ runs (alt r s) t ↔
    (∃ g, (g, x.2) ∈ runs r t ∧ x.1 = g ++ List.replicate (groups s) []) ∨
      ∃ g, (g, x.2) ∈ runs s t ∧ x.1 = List.replicate (groups r) [] ++ g := by
  obtain ⟨g, rest⟩ := x
  simp only [runs, List.mem_append, List.mem_map, Prod.exists, Prod.mk.injEq]
  constructor
  · rintro (⟨g, t', mem, rfl, rfl⟩ | ⟨g, t', mem, rfl, rfl⟩)
    · exact .inl ⟨g, mem, rfl⟩
    · exact .inr ⟨g, mem, rfl⟩
  · rintro (⟨g, mem, rfl⟩ | ⟨g, mem, rfl⟩)
    · exact .inl ⟨g, rest, mem, rfl, rfl⟩
    · exact .inr ⟨g, rest, mem, rfl, rfl⟩

@[simp] theorem mem_runs_opt : x ∈ runs (opt r) t ↔
    x ∈ runs r t ∨ x.2 = t ∧ x.1 = List.replicate (groups r) [] := by
  obtain ⟨g, rest⟩ := x
  rw [opt, mem_runs_alt]
  simp [groups, and_comm]

@[simp] theorem mem_runs_atEnd : x ∈ runs atEnd t ↔ t = [] ∧ x = ([], []) := by
  cases t <;> simp [runs]

/-- What is left is the end of the text. -/
theorem suffix_of_mem_runs (mem : x ∈ runs r t) : x.2 <:+ t := by
  induction r generalizing t x with
  | empty =>
    obtain rfl := mem_runs_empty.mp mem
    exact List.suffix_refl _
  | one p =>
    obtain ⟨c, -, rfl, -⟩ := mem_runs_one.mp mem
    exact List.suffix_cons _ _
  | many p =>
    obtain ⟨w, -, cut, -⟩ := mem_runs_many.mp mem
    exact ⟨w, cut.symm⟩
  | cat r s ihr ihs =>
    obtain ⟨g, t', g', first, second, -⟩ := mem_runs_cat.mp mem
    exact (ihs second).trans (ihr first)
  | alt r s ihr ihs =>
    rcases mem_runs_alt.mp mem with ⟨g, mem, -⟩ | ⟨g, mem, -⟩
    · exact ihr (x := (g, x.2)) mem
    · exact ihs (x := (g, x.2)) mem
  | group r ih =>
    obtain ⟨⟨g, t'⟩, inner, rfl⟩ := List.mem_map.mp mem
    exact ih (x := (g, t')) inner
  | atEnd =>
    obtain ⟨rfl, rfl⟩ := mem_runs_atEnd.mp mem
    exact List.suffix_refl _

/-- A group holds what its expression has consumed. -/
@[simp] theorem mem_runs_group : x ∈ runs (group r) t ↔
    ∃ w g, t = w ++ x.2 ∧ (g, x.2) ∈ runs r t ∧ x.1 = w :: g := by
  obtain ⟨g, rest⟩ := x
  simp only [runs, List.mem_map, Prod.exists, Prod.mk.injEq]
  constructor
  · rintro ⟨g, t', mem, rfl, rfl⟩
    obtain ⟨w, rfl⟩ := suffix_of_mem_runs mem
    exact ⟨w, g, rfl, mem, by simp⟩
  · rintro ⟨w, g, rfl, mem, rfl⟩
    exact ⟨g, rest, mem, by simp, rfl⟩

@[simp] theorem mem_runs_lit [BEq α] [LawfulBEq α] {w : List α} :
    x ∈ runs (lit w) t ↔ t = w ++ x.2 ∧ x.1 = [] := by
  induction w generalizing t x with
  | nil =>
    rw [lit, mem_runs_empty, List.nil_append]
    exact ⟨fun same => by rw [same]; exact ⟨rfl, rfl⟩,
      fun ⟨rest, groups⟩ => Prod.ext groups rest.symm⟩
  | cons c w ih =>
    rw [lit, mem_runs_cat]
    constructor
    · rintro ⟨g, t', g', first, second, groups⟩
      obtain ⟨d, same, rfl, rfl⟩ := mem_runs_one.mp first
      obtain ⟨rfl, rfl⟩ := ih.mp second
      exact ⟨by rw [eq_of_beq same]; rfl, groups⟩
    · rintro ⟨rfl, groups⟩
      exact ⟨[], w ++ x.2, [], mem_runs_one.mpr ⟨c, beq_self_eq_true c, rfl, rfl⟩,
        ih.mpr ⟨rfl, rfl⟩, groups⟩

theorem mem_of_matchFront (found : matchFront r t = some x) : x ∈ runs r t :=
  List.mem_of_mem_head? found

/-! ## Which match is found -/

variable {g g' : List (List α)} {t' t'' : List α} {c : α}

/-- The first way of each part is taken, if it can be. -/
theorem matchFront_cat (first : matchFront r t = some (g, t'))
    (second : matchFront s t' = some (g', t'')) :
    matchFront (cat r s) t = some (g ++ g', t'') := by
  obtain ⟨others, ways⟩ := List.head?_eq_some_iff.mp first
  obtain ⟨others', ways'⟩ := List.head?_eq_some_iff.mp second
  simp [matchFront, runs, ways, ways']

theorem matchFront_empty (t : List α) : matchFront empty t = some ([], t) := rfl

theorem matchFront_atEnd : matchFront (atEnd : Regex α) [] = some ([], []) := rfl

theorem matchFront_one (ok : p c = true) : matchFront (one p) (c :: t) = some ([], t) := by
  simp [matchFront, runs, ok]

/-- A repetition takes the whole run of its class. -/
theorem matchFront_many : matchFront (many p) t = some ([], t.dropWhile p) := by
  induction t with
  | nil => rfl
  | cons c t ih =>
    rw [matchFront, runs] at ih
    by_cases ok : p c = true
    · simp [matchFront, runs, rounds, ok, ih]
    · simp [matchFront, runs, rounds, ok]

theorem matchFront_plus (ok : p c = true) :
    matchFront (plus p) (c :: t) = some ([], t.dropWhile p) :=
  matchFront_cat (matchFront_one ok) matchFront_many

theorem matchFront_group {w : List α} (inner : matchFront r (w ++ t) = some (g, t)) :
    matchFront (group r) (w ++ t) = some (w :: g, t) := by
  obtain ⟨others, ways⟩ := List.head?_eq_some_iff.mp inner
  simp [matchFront, runs, ways]

theorem matchFront_alt_left (left : matchFront r t = some (g, t')) :
    matchFront (alt r s) t = some (g ++ List.replicate (groups s) [], t') := by
  obtain ⟨others, ways⟩ := List.head?_eq_some_iff.mp left
  simp [matchFront, runs, ways]

theorem matchFront_alt_right (left : ∀ x, x ∉ runs r t) (right : matchFront s t = some (g, t')) :
    matchFront (alt r s) t = some (List.replicate (groups r) [] ++ g, t') := by
  have none : runs r t = [] := List.eq_nil_iff_forall_not_mem.mpr left
  obtain ⟨others, ways⟩ := List.head?_eq_some_iff.mp right
  simp [matchFront, runs, none, ways]

/-- The whole run of a class, where something else follows it. -/
theorem matchFront_group_plus {w : List α} (nonempty : w ≠ []) (all : ∀ c ∈ w, p c = true)
    (stop : ∀ c ∈ t.head?, p c = false) :
    matchFront (group (plus p)) (w ++ t) = some ([w], t) := by
  obtain ⟨c, w, rfl⟩ := List.exists_cons_of_ne_nil nonempty
  refine matchFront_group ?_
  have rest : (w ++ t).dropWhile p = t := by
    rw [List.dropWhile_append_of_pos fun c mem => all c (List.mem_cons_of_mem _ mem)]
    cases t with
    | nil => rfl
    | cons d t => rw [List.dropWhile_cons, stop d rfl]; rfl
  rw [List.cons_append, matchFront_plus (all c List.mem_cons_self), rest]

end Regex

end ECapture.Library
