import ECapture.Library.Steps
import Mathlib.Data.List.Forall2
import Mathlib.Logic.Function.Basic

/-!
# Programs on the entry and on the return of calls

A tracer sees a call twice. Its entry program stores a value under the name of the caller, its
return program finds the value there and may emit a record. `Handover` lists what such a pair of
programs has to satisfy; two results follow, whatever the programs are.

Without any assumption on the calls, a record is made of a value that an earlier entry of the same
caller has stored. If the calls of a caller do not nest, the store has room and a return is not let
through when its entry was turned away, the records are those of the returned calls, in the order
of the returns.
-/

namespace ECapture.Library

/-- `ξ` is what an entry program is given, `υ` what a return program is given, `π` their state. -/
structure CallProbes (κ ξ υ π : Type*) where
  init : π
  caller : ξ → κ
  returner : υ → κ
  entry : ξ → π → π
  ret : υ → π → π

namespace CallProbes

inductive Event (ξ υ : Type*) where
  | entry (x : ξ)
  | ret (y : υ)

variable {κ ξ υ π : Type*} (P : CallProbes κ ξ υ π)

def exec (s : π) : Event ξ υ → π
  | .entry x => P.entry x s
  | .ret y => P.ret y s

def execAll (es : List (Event ξ υ)) : π := es.foldl P.exec P.init

@[simp] theorem execAll_nil : P.execAll [] = P.init := rfl

@[simp] theorem execAll_concat (es : List (Event ξ υ)) (e : Event ξ υ) :
    P.execAll (es ++ [e]) = P.exec (P.execAll es) e := by
  simp [execAll]

/-! ## What is handed over -/

/-- The value under a caller is the one that its entry has stored, and a return that emits makes
its record of this value. -/
structure Handover (ν ρ : Type*) where
  held : π → κ → Option ν
  records : π → List ρ
  /-- What the programs keep true of the rest of their state. -/
  Sound : π → Prop
  /-- What the entry stores, if it is not turned away. -/
  store : ξ → Option ν
  /-- The store does not lose the value of this entry. -/
  Room : ξ → π → Prop
  /-- The entry may push out the value of another caller. -/
  Evicts : ξ → κ → Prop
  emits : υ → ν → Bool
  Describes : υ → ν → ρ → Prop
  init_sound : Sound P.init
  init_held : ∀ k, held P.init k = none
  init_records : records P.init = []
  entry_sound : ∀ x s, Sound s → Sound (P.entry x s)
  entry_records : ∀ x s, records (P.entry x s) = records s
  entry_other : ∀ x s k, k ≠ P.caller x → ¬ Evicts x k → held (P.entry x s) k = held s k
  entry_evicts : ∀ x s k v, k ≠ P.caller x → held (P.entry x s) k = some v → held s k = some v
  entry_turned_away : ∀ x s, store x = none → P.entry x s = s
  entry_self : ∀ x s v, store x = some v → Room x s → held (P.entry x s) (P.caller x) = some v
  entry_only : ∀ x s v, held (P.entry x s) (P.caller x) = some v →
    store x = some v ∨ held s (P.caller x) = some v
  ret_sound : ∀ y s, Sound s → Sound (P.ret y s)
  ret_other : ∀ y s k, k ≠ P.returner y → held (P.ret y s) k = held s k
  ret_only : ∀ y s v, held (P.ret y s) (P.returner y) = some v → held s (P.returner y) = some v
  ret_emits : ∀ y s v, Sound s → held s (P.returner y) = some v → emits y v = true →
    ∃ r, Describes y v r ∧ records (P.ret y s) = records s ++ [r]
  ret_silent : ∀ y s, (∀ v, held s (P.returner y) = some v → emits y v = false) →
    records (P.ret y s) = records s

variable {P} {ν ρ : Type*} (H : P.Handover ν ρ)

namespace Handover

/-- The call leaves a record. -/
def callEmits (call : ξ × υ) : Bool := (H.store call.1).any (H.emits call.2)

/-- The record is made of what the entry of the call has stored. -/
def CallDescribes (call : ξ × υ) (r : ρ) : Prop :=
  ∃ v, H.store call.1 = some v ∧ H.Describes call.2 v r

/-! ## Any sequence of probes -/

/-- A held value was stored by an entry of the caller it is held for. -/
def HeldStored (es : List (Event ξ υ)) : Prop :=
  ∀ k v, H.held (P.execAll es) k = some v →
    ∃ x, P.caller x = k ∧ H.store x = some v ∧ Event.entry x ∈ es

theorem heldStored_concat {es : List (Event ξ υ)} (h : H.HeldStored es) (e : Event ξ υ) :
    H.HeldStored (es ++ [e]) := by
  intro k v held
  rw [execAll_concat] at held
  have before : H.held (P.execAll es) k = some v →
      ∃ x, P.caller x = k ∧ H.store x = some v ∧ Event.entry x ∈ es ++ [e] := fun held =>
    let ⟨x, caller, stored, mem⟩ := h k v held
    ⟨x, caller, stored, List.mem_append_left _ mem⟩
  cases e with
  | entry x =>
    by_cases same : k = P.caller x
    · subst same
      rcases H.entry_only x _ v held with stored | held
      · exact ⟨x, rfl, stored, by simp⟩
      · exact before held
    · exact before (H.entry_evicts x _ k v same held)
  | ret y =>
    by_cases same : k = P.returner y
    · subst same
      exact before (H.ret_only y _ v held)
    · exact before (by rwa [exec, H.ret_other y _ k same] at held)

theorem heldStored (es : List (Event ξ υ)) : H.HeldStored es := by
  induction es using List.reverseRecOn with
  | nil => intro k v held; simp [H.init_held] at held
  | append_singleton es e ih => exact H.heldStored_concat ih e

theorem sound (es : List (Event ξ υ)) : H.Sound (P.execAll es) := by
  induction es using List.reverseRecOn with
  | nil => exact H.init_sound
  | append_singleton es e ih =>
    rw [execAll_concat]
    cases e with
    | entry x => exact H.entry_sound x _ ih
    | ret y => exact H.ret_sound y _ ih

/-- What a return adds to the records. -/
theorem ret_records (y : υ) (s : π) (sound : H.Sound s) :
    H.records (P.ret y s) = H.records s ∨
      ∃ v r, H.held s (P.returner y) = some v ∧ H.emits y v = true ∧ H.Describes y v r ∧
        H.records (P.ret y s) = H.records s ++ [r] := by
  by_cases silent : ∀ v, H.held s (P.returner y) = some v → H.emits y v = false
  · exact .inl (H.ret_silent y s silent)
  · push Not at silent
    obtain ⟨v, held, emits⟩ := silent
    have emits : H.emits y v = true := by simpa using emits
    obtain ⟨r, describes, records⟩ := H.ret_emits y s v sound held emits
    exact .inr ⟨v, r, held, emits, describes, records⟩

/-- Every record is made at a return, of a value that an earlier entry of the same caller has
stored: no order of the probes mixes two callers. -/
theorem records_own (es : List (Event ξ υ)) :
    ∀ r ∈ H.records (P.execAll es), ∃ x y v, [Event.entry x, Event.ret y].Sublist es ∧
      P.caller x = P.returner y ∧ H.store x = some v ∧ H.emits y v = true ∧ H.Describes y v r := by
  induction es using List.reverseRecOn with
  | nil => simp [H.init_records]
  | append_singleton es e ih =>
    have earlier : ∀ r ∈ H.records (P.execAll es), ∃ x y v,
        [Event.entry x, Event.ret y].Sublist (es ++ [e]) ∧ P.caller x = P.returner y ∧
        H.store x = some v ∧ H.emits y v = true ∧ H.Describes y v r := by
      intro r mem
      obtain ⟨x, y, v, order, rest⟩ := ih r mem
      exact ⟨x, y, v, order.trans (List.sublist_append_left _ _), rest⟩
    rw [execAll_concat]
    cases e with
    | entry x =>
      rw [exec, H.entry_records]
      exact earlier
    | ret y =>
      rcases H.ret_records y _ (H.sound es) with same | ⟨v, r, held, emits, describes, more⟩
      · rw [exec, same]
        exact earlier
      · rw [exec, more]
        intro r' mem
        rcases List.mem_append.mp mem with old | new
        · exact earlier r' old
        · obtain rfl := List.mem_singleton.mp new
          obtain ⟨x, caller, stored, entered⟩ := H.heldStored es _ v held
          have order : [Event.entry x, Event.ret y].Sublist (es ++ [Event.ret y]) :=
            (List.singleton_sublist.mpr entered).append (List.Sublist.refl [Event.ret y])
          exact ⟨x, y, v, order, caller, stored, emits, describes⟩

end Handover

/-! ## Paired calls -/

/-- The programs beside the calls: those that are open, and those that have returned. -/
structure Traced (κ ξ υ π : Type*) where
  maps : π
  opened : κ → Option ξ
  returned : List (ξ × υ)

variable [DecidableEq κ] (P)

/-- A caller enters when it is not inside a call, and returns from the call it is in. -/
def trace (s : Traced κ ξ υ π) (e : Event ξ υ) : Option (Traced κ ξ υ π) :=
  match e with
  | .entry x =>
    match s.opened (P.caller x) with
    | some _ => none
    | none =>
      some { s with
        maps := P.entry x s.maps
        opened := Function.update s.opened (P.caller x) (some x) }
  | .ret y =>
    match s.opened (P.returner y) with
    | some x =>
      some { maps := P.ret y s.maps
             opened := Function.update s.opened (P.returner y) none
             returned := s.returned ++ [(x, y)] }
    | none => none

def tracer : Machine (Traced κ ξ υ π) (Event ξ υ) :=
  { init := ⟨P.init, fun _ => none, []⟩, step := P.trace }

variable {P}

namespace Handover

/-- A value that is stored is not lost before its call returns, and the return of a call whose
entry was turned away makes nothing of a value that an earlier call has left behind. -/
def Steady (s : Traced κ ξ υ π) (e : Event ξ υ) : Prop :=
  match e with
  | .entry x => (H.store x).isSome → H.Room x s.maps ∧ ∀ k, H.Evicts x k → s.opened k = none
  | .ret y => ∀ x v, s.opened (P.returner y) = some x → H.store x = none →
      H.held s.maps (P.returner y) = some v → H.emits y v = false

/-- What the state of the tracer says about the records. -/
structure Matched (s : Traced κ ξ υ π) : Prop where
  sound : H.Sound s.maps
  owner : ∀ k x, s.opened k = some x → P.caller x = k
  held : ∀ k x v, s.opened k = some x → H.store x = some v → H.held s.maps k = some v
  records : List.Forall₂ H.CallDescribes (s.returned.filter H.callEmits) (H.records s.maps)

section Step

variable {s : Traced κ ξ υ π} {H}

theorem Matched.entry (h : H.Matched s) (x : ξ)
    (steady : (H.store x).isSome → H.Room x s.maps ∧ ∀ k, H.Evicts x k → s.opened k = none) :
    H.Matched { s with
      maps := P.entry x s.maps
      opened := Function.update s.opened (P.caller x) (some x) } where
  sound := H.entry_sound x _ h.sound
  owner := by
    intro k x' opened
    by_cases same : k = P.caller x
    · subst same
      obtain rfl : x = x' := by simpa using opened
      rfl
    · exact h.owner k x' (by simpa [Function.update_of_ne same] using opened)
  held := by
    intro k x' v opened stored
    by_cases same : k = P.caller x
    · subst same
      obtain rfl : x = x' := by simpa using opened
      exact H.entry_self x _ v stored (steady (by simp [stored])).1
    · have opened : s.opened k = some x' := by simpa [Function.update_of_ne same] using opened
      have held := h.held k x' v opened stored
      cases entered : H.store x with
      | none => rwa [H.entry_turned_away x _ entered]
      | some u =>
        have kept : ¬ H.Evicts x k := fun evicts => by
          rw [(steady (by simp [entered])).2 k evicts] at opened
          cases opened
        rwa [H.entry_other x _ k same kept]
  records := by
    rw [H.entry_records]
    exact h.records

omit [DecidableEq κ] in
/-- The call that returns finds its own value, or there is none to be used. -/
theorem Matched.ret_records (h : H.Matched s) {x : ξ} {y : υ}
    (inside : s.opened (P.returner y) = some x)
    (steady : ∀ v, H.store x = none → H.held s.maps (P.returner y) = some v →
      H.emits y v = false) :
    List.Forall₂ H.CallDescribes ((s.returned ++ [(x, y)]).filter H.callEmits)
      (H.records (P.ret y s.maps)) := by
  rw [List.filter_append]
  cases stored : H.store x with
  | none =>
    have silent : H.callEmits (x, y) = false := by simp [callEmits, stored]
    rw [H.ret_silent y _ fun v => steady v stored]
    simpa [silent] using h.records
  | some v =>
    have held := h.held _ x v inside stored
    cases emits : H.emits y v with
    | false =>
      have silent : H.callEmits (x, y) = false := by simp [callEmits, stored, emits]
      rw [H.ret_silent y _ fun v' held' => by
        rw [held] at held'
        rwa [← Option.some.inj held']]
      simpa [silent] using h.records
    | true =>
      obtain ⟨r, describes, records⟩ := H.ret_emits y _ v h.sound held emits
      have loud : H.callEmits (x, y) = true := by simp [callEmits, stored, emits]
      rw [records, List.filter_cons_of_pos loud]
      exact List.rel_append h.records (.cons ⟨v, stored, describes⟩ .nil)

theorem Matched.ret (h : H.Matched s) {x : ξ} {y : υ}
    (inside : s.opened (P.returner y) = some x)
    (steady : ∀ v, H.store x = none → H.held s.maps (P.returner y) = some v →
      H.emits y v = false) :
    H.Matched { maps := P.ret y s.maps
                opened := Function.update s.opened (P.returner y) none
                returned := s.returned ++ [(x, y)] } where
  sound := H.ret_sound y _ h.sound
  owner := by
    intro k x' opened
    by_cases same : k = P.returner y
    · subst same
      simp at opened
    · exact h.owner k x' (by simpa [Function.update_of_ne same] using opened)
  held := by
    intro k x' v opened stored
    by_cases same : k = P.returner y
    · subst same
      simp at opened
    · rw [H.ret_other y _ k same]
      exact h.held k x' v (by simpa [Function.update_of_ne same] using opened) stored
  records := h.ret_records inside steady

theorem Matched.step {t : Traced κ ξ υ π} {e : Event ξ υ} (h : H.Matched s)
    (steady : H.Steady s e) (moved : P.trace s e = some t) : H.Matched t := by
  cases e with
  | entry x =>
    simp only [trace] at moved
    split at moved
    · cases moved
    · cases moved
      exact h.entry x steady
  | ret y =>
    simp only [trace] at moved
    split at moved
    case h_1 x inside =>
      cases moved
      exact h.ret inside fun v => steady x v inside
    · cases moved

end Step

end Handover

end CallProbes

end ECapture.Library
