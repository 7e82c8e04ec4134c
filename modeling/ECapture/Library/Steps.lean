import Mathlib.Data.List.Induction
import Mathlib.Logic.Relation

/-!
# Executable transition systems

A `Machine` is an initial state and a partial step function; `none` means that the
action is not enabled. Several goroutines are one machine whose actions name the
goroutine that moves, so that an interleaving is a list of actions.

`ReachableBy ok` restricts every step to actions that satisfy `ok` in the state where
they are taken. Safety results are two facts, the initial state and one step, put
together by `ReachableBy.invariant`; concrete schedules are replayed by `run`.
-/

namespace ECapture.Library

/-- What every step of a relation keeps, every run keeps. -/
theorem run_invariant {τ : Type*} {R : τ → τ → Prop} {I : τ → Prop}
    (step : ∀ {p q}, I p → R p q → I q) {p q : τ} (hp : I p)
    (h : Relation.ReflTransGen R p q) : I q := by
  induction h with
  | refl => exact hp
  | tail _ next ih => exact step ih next

structure Machine (σ α : Type*) where
  init : σ
  step : σ → α → Option σ

namespace Machine

variable {σ α : Type*} (M : Machine σ α)

/-- One step of `M` by an action that `ok` allows. -/
def Next (ok : σ → α → Prop) (s t : σ) : Prop := ∃ a, ok s a ∧ M.step s a = some t

def ReachableBy (ok : σ → α → Prop) (s : σ) : Prop :=
  Relation.ReflTransGen (M.Next ok) M.init s

/-- Reachable under no restriction on the schedule. -/
def Reachable (s : σ) : Prop := M.ReachableBy (fun _ _ => True) s

/-- Replay a schedule from `s`; every action has to be enabled. -/
def runFrom (s : σ) (as : List α) : Option σ := as.foldlM M.step s

def run (as : List α) : Option σ := M.runFrom M.init as

/-- Replay a schedule from `s` and check `ok` before every action. -/
def runGuardedFrom (ok : σ → α → Prop) [∀ s a, Decidable (ok s a)] (s : σ) (as : List α) : Option σ :=
  as.foldlM (fun s a => if ok s a then M.step s a else none) s

/-- Replay a schedule and check `ok` before every action. -/
def runGuarded (ok : σ → α → Prop) [∀ s a, Decidable (ok s a)] (as : List α) : Option σ :=
  as.foldlM (fun s a => if ok s a then M.step s a else none) M.init

variable {M}

/-- The induction rule: what the initial state has and every allowed step keeps
holds in every state that allowed steps reach. -/
theorem ReachableBy.invariant {ok : σ → α → Prop} {I : σ → Prop} (init : I M.init)
    (step : ∀ s a t, I s → ok s a → M.step s a = some t → I t) {s : σ}
    (h : M.ReachableBy ok s) : I s :=
  run_invariant (fun kept ⟨a, allowed, moved⟩ => step _ a _ kept allowed moved) init h

/-- A weaker restriction allows the same runs. -/
theorem ReachableBy.mono {ok ok' : σ → α → Prop} (weaker : ∀ s a, ok s a → ok' s a) {s : σ}
    (h : M.ReachableBy ok s) : M.ReachableBy ok' s :=
  Relation.ReflTransGen.mono (fun s _ ⟨a, allowed, moved⟩ => ⟨a, weaker s a allowed, moved⟩) _ _ h

/-- Forward simulation: under an invariant, every step is matched by a move of `R` between
the images, so every run is matched by a run of `R`. -/
theorem steps_simulation {τ : Type*} {ok : σ → α → Prop} {I : σ → Prop} {R : τ → τ → Prop}
    {f : σ → τ} (step : ∀ s a t, I s → ok s a → M.step s a = some t → I t ∧ R (f s) (f t))
    {s t : σ} (hs : I s) (h : Relation.ReflTransGen (M.Next ok) s t) :
    I t ∧ Relation.ReflTransGen R (f s) (f t) := by
  induction h with
  | refl => exact ⟨hs, .refl⟩
  | tail _ next ih =>
    obtain ⟨a, allowed, moved⟩ := next
    obtain ⟨kept, matched⟩ := step _ a _ ih.1 allowed moved
    exact ⟨kept, ih.2.tail matched⟩

theorem steps_of_foldlM {ok : σ → α → Prop} {f : σ → α → Option σ}
    (sound : ∀ s a t, f s a = some t → ok s a ∧ M.step s a = some t) :
    ∀ (as : List α) (s t : σ), as.foldlM f s = some t →
      Relation.ReflTransGen (M.Next ok) s t
  | [], s, t, h => by
    simp only [List.foldlM_nil, pure, Option.some.injEq] at h
    exact h ▸ .refl
  | a :: as, s, t, h => by
    simp only [List.foldlM_cons, bind, Option.bind_eq_some_iff] at h
    obtain ⟨u, moved, rest⟩ := h
    exact .head ⟨a, sound s a u moved⟩ (steps_of_foldlM sound as u t rest)

theorem steps_of_runFrom {s t : σ} {as : List α} (h : M.runFrom s as = some t) :
    Relation.ReflTransGen (M.Next fun _ _ => True) s t :=
  steps_of_foldlM (fun _ _ _ moved => ⟨trivial, moved⟩) as s t h

/-- What every step of a schedule keeps, the schedule keeps. -/
theorem runFrom_invariant {I : σ → Prop} {as : List α}
    (step : ∀ s a t, a ∈ as → I s → M.step s a = some t → I t) {s t : σ} (hs : I s)
    (h : M.runFrom s as = some t) : I t := by
  induction as generalizing s with
  | nil =>
    simp only [runFrom, List.foldlM_nil, pure, Option.some.injEq] at h
    exact h ▸ hs
  | cons a as ih =>
    simp only [runFrom, List.foldlM_cons, bind, Option.bind_eq_some_iff] at h
    obtain ⟨u, moved, rest⟩ := h
    exact ih (fun s b t mem => step s b t (List.mem_cons_of_mem a mem))
      (step s a u List.mem_cons_self hs moved) rest

/-- The last action of a schedule. -/
theorem run_concat (as : List α) (a : α) :
    M.run (as ++ [a]) = (M.run as).bind fun s => M.step s a := by
  simp [run, runFrom, List.foldlM_append]

variable (M) in
/-- A schedule passes through a state after a part of its actions. -/
def Passes (as pre : List α) (s : σ) : Prop := pre <+: as ∧ M.run pre = some s

variable (M) in
/-- A step that a schedule takes, after a part of its actions. -/
def Takes (as pre : List α) (s : σ) (a : α) (t : σ) : Prop :=
  pre ++ [a] <+: as ∧ M.run pre = some s ∧ M.step s a = some t

theorem Takes.before {as pre : List α} {s t : σ} {a : α} (h : M.Takes as pre s a t) :
    M.Passes as pre s :=
  ⟨(List.prefix_append _ _).trans h.1, h.2.1⟩

theorem Takes.after {as pre : List α} {s t : σ} {a : α} (h : M.Takes as pre s a t) :
    M.Passes as (pre ++ [a]) t := by
  obtain ⟨le, ran, moved⟩ := h
  exact ⟨le, by rw [run_concat, ran, Option.bind_some, moved]⟩

/-- The induction rule along a schedule. -/
theorem Passes.induction {as : List α} {I : List α → σ → Prop} (init : I [] M.init)
    (step : ∀ pre s a t, M.Takes as pre s a t → I pre s → I (pre ++ [a]) t) {pre : List α} {s : σ}
    (h : M.Passes as pre s) : I pre s := by
  induction pre using List.reverseRecOn generalizing s with
  | nil =>
    obtain ⟨-, ran⟩ := h
    exact Option.some.inj ran ▸ init
  | append_singleton pre a ih =>
    obtain ⟨le, ran⟩ := h
    rw [run_concat, Option.bind_eq_some_iff] at ran
    obtain ⟨t, ran, moved⟩ := ran
    have taken : M.Takes as pre t a s := ⟨le, ran, moved⟩
    exact step pre t a s taken (ih taken.before)

theorem reachable_of_run {s : σ} {as : List α} (h : M.run as = some s) : M.Reachable s :=
  steps_of_runFrom h

theorem steps_of_runGuardedFrom {ok : σ → α → Prop} [∀ s a, Decidable (ok s a)] {s t : σ}
    {as : List α} (h : M.runGuardedFrom ok s as = some t) :
    Relation.ReflTransGen (M.Next ok) s t := by
  refine steps_of_foldlM (fun s a t moved => ?_) as s t h
  split at moved
  · exact ⟨‹_›, moved⟩
  · cases moved

theorem reachableBy_of_runGuarded {ok : σ → α → Prop} [∀ s a, Decidable (ok s a)] {s : σ}
    {as : List α} (h : M.runGuarded ok as = some s) : M.ReachableBy ok s :=
  steps_of_runGuardedFrom h

end Machine

end ECapture.Library
