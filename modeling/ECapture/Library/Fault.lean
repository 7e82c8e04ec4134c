import ECapture.Library.Bytes

/-!
# Run-time faults

Slicing or indexing past the end stops the program. An operation that may do so returns
`Except Fault`; `Safe` says that it returns. `Safe` passes through binds, so a program is
safe when its slices are within bounds.

A `Traced` program also records the values it works on; `Clean P` says that it returns and
that everything it has recorded satisfies `P`.
-/

namespace ECapture.Library

inductive Fault where
  | sliceBounds
  | indexRange
  deriving DecidableEq, Repr

/-- `s[:n]` of an array or a slice without spare capacity. -/
def sliceTo (n : Nat) (s : Bytes) : Except Fault Bytes :=
  if n ≤ s.length then .ok (s.take n) else .error .sliceBounds

/-- `s[i]`. -/
def index (i : Nat) (s : Bytes) : Except Fault UInt8 :=
  match s[i]? with
  | some b => .ok b
  | none => .error .indexRange

/-- The operation returns. -/
def Safe {α : Type} (x : Except Fault α) : Prop := ∃ a, x = .ok a

namespace Safe

variable {α β : Type}

@[simp] theorem ok (a : α) : Safe (.ok a) := ⟨a, rfl⟩

@[simp] theorem pure (a : α) : Safe (Pure.pure a : Except Fault α) := ⟨a, rfl⟩

@[simp] theorem error (f : Fault) : ¬ Safe (.error f : Except Fault α) := by
  rintro ⟨a, h⟩
  cases h

theorem bind {x : Except Fault α} {f : α → Except Fault β} (hx : Safe x)
    (hf : ∀ a, x = .ok a → Safe (f a)) : Safe (x >>= f) := by
  obtain ⟨a, rfl⟩ := hx
  exact hf a rfl

theorem map {x : Except Fault α} (f : α → β) (h : Safe x) : Safe (f <$> x) := by
  obtain ⟨a, rfl⟩ := h
  exact ok _

end Safe

theorem sliceTo_of_le {n : Nat} {s : Bytes} (h : n ≤ s.length) : sliceTo n s = .ok (s.take n) :=
  if_pos h

@[simp] theorem safe_sliceTo {n : Nat} {s : Bytes} : Safe (sliceTo n s) ↔ n ≤ s.length := by
  unfold sliceTo
  split <;> simp [*]

theorem safe_index {i : Nat} {s : Bytes} (h : i < s.length) : Safe (index i s) := by
  rw [index, List.getElem?_eq_getElem h]
  exact Safe.ok _

/-! ## Recording what a program works on -/

abbrev Traced (β : Type) := StateT (List β) (Except Fault)

namespace Traced

variable {α β γ : Type}

def touch (b : β) : Traced β Unit := fun t => .ok ((), b :: t)

/-- An operation that records nothing. -/
def lift (x : Except Fault α) : Traced β α := fun t => (fun a => (a, t)) <$> x

@[simp] theorem touch_bind (b : β) (f : Unit → Traced β γ) (t : List β) :
    (touch b >>= f) t = f () (b :: t) := rfl

@[simp] theorem lift_ok_bind (a : α) (f : α → Traced β γ) (t : List β) :
    (lift (.ok a) >>= f) t = f a t := rfl

@[simp] theorem lift_error_bind (e : Fault) (f : α → Traced β γ) (t : List β) :
    (lift (.error e) >>= f) t = .error e := rfl

/-- From every trace the program returns, extends the trace, and adds only values with `P`. -/
def Clean (P : β → Prop) (x : Traced β α) : Prop :=
  ∀ t, ∃ a t', x t = .ok (a, t') ∧ t ⊆ t' ∧ ∀ b ∈ t', b ∈ t ∨ P b

variable {P : β → Prop}

theorem Clean.pure (a : α) : Clean P (Pure.pure a : Traced β α) :=
  fun t => ⟨a, t, rfl, List.Subset.refl t, fun _ => .inl⟩

theorem Clean.touch {b : β} (h : P b) : Clean P (Traced.touch b) := by
  intro t
  refine ⟨(), b :: t, rfl, List.subset_cons_self b t, ?_⟩
  rintro c (_ | ⟨_, hc⟩)
  · exact .inr h
  · exact .inl hc

theorem Clean.lift {x : Except Fault α} (h : Safe x) : Clean P (Traced.lift x : Traced β α) := by
  obtain ⟨a, rfl⟩ := h
  exact fun t => ⟨a, t, rfl, List.Subset.refl t, fun _ => .inl⟩

theorem Clean.bind {x : Traced β α} {f : α → Traced β γ} (hx : Clean P x)
    (hf : ∀ a, Clean P (f a)) : Clean P (x >>= f) := by
  intro t
  obtain ⟨a, t', eq, grows, new⟩ := hx t
  obtain ⟨c, t'', eq', grows', new'⟩ := hf a t'
  refine ⟨c, t'', ?_, List.Subset.trans grows grows', ?_⟩
  · change (x t).bind (fun p => f p.1 p.2) = _
    rw [eq]
    exact eq'
  · intro b hb
    rcases new' b hb with old | added
    · exact new b old
    · exact .inr added

end Traced

end ECapture.Library
