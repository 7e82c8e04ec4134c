import Mathlib.Data.List.Basic

/-!
# Buffered channels

A channel is a bounded queue that can be closed once. An `Attempt` is what becomes of an operation:
it is done, it blocks, or it panics. A send on a closed channel panics, also one that was blocked
when the channel was closed; what is in a closed channel can still be received.
-/

namespace ECapture.Library

inductive Panic where
  | sendOnClosed
  | closeOfClosed
  deriving DecidableEq

inductive Attempt (α : Type*) where
  | done (result : α)
  | block
  | panic (p : Panic)
  deriving DecidableEq

namespace Attempt

variable {α β : Type*}

/-- Go on with the result. -/
def map (f : α → β) : Attempt α → Attempt β
  | done a => done (f a)
  | block => block
  | panic p => panic p

@[simp] theorem map_eq_done {f : α → β} {x : Attempt α} {b : β} :
    x.map f = done b ↔ ∃ a, x = done a ∧ f a = b := by
  cases x <;> simp [map]

@[simp] theorem map_eq_panic {f : α → β} {x : Attempt α} {p : Panic} :
    x.map f = panic p ↔ x = panic p := by
  cases x <;> simp [map]

end Attempt

structure Chan (α : Type*) where
  cap : Nat
  items : List α
  closed : Bool
  deriving DecidableEq

namespace Chan

variable {α : Type*}

def make (α : Type*) (cap : Nat) : Chan α := ⟨cap, [], false⟩

/-- An open channel that a send would not block on. -/
def HasRoom (c : Chan α) : Prop := c.closed = false ∧ c.items.length < c.cap

instance (c : Chan α) : Decidable c.HasRoom := inferInstanceAs (Decidable (_ ∧ _))

def send (a : α) (c : Chan α) : Attempt (Chan α) :=
  if c.closed then .panic .sendOnClosed
  else if c.items.length < c.cap then .done { c with items := c.items ++ [a] }
  else .block

/-- `none` is received from a closed channel that is empty. -/
def receive (c : Chan α) : Attempt (Option α × Chan α) :=
  match c.items with
  | a :: rest => .done (some a, { c with items := rest })
  | [] => if c.closed then .done (none, c) else .block

def close (c : Chan α) : Attempt (Chan α) :=
  if c.closed then .panic .closeOfClosed else .done { c with closed := true }

variable {c c' : Chan α} {a : α} {p : Panic}

theorem send_eq_done : c.send a = .done c' ↔
    c.HasRoom ∧ c' = { c with items := c.items ++ [a] } := by
  unfold send HasRoom
  grind

theorem send_eq_panic : c.send a = .panic p ↔ c.closed = true ∧ p = .sendOnClosed := by
  unfold send
  grind

theorem send_eq_block : c.send a = .block ↔ c.closed = false ∧ c.cap ≤ c.items.length := by
  unfold send
  grind

theorem receive_eq_done {o : Option α} : c.receive = .done (o, c') ↔
    (∃ a rest, c.items = a :: rest ∧ o = some a ∧ c' = { c with items := rest }) ∨
      (c.items = [] ∧ c.closed = true ∧ o = none ∧ c' = c) := by
  unfold receive
  grind

theorem receive_ne_panic : c.receive ≠ .panic p := by
  unfold receive
  grind

theorem close_eq_done : c.close = .done c' ↔ c.closed = false ∧ c' = { c with closed := true } := by
  unfold close
  grind

theorem close_eq_panic : c.close = .panic p ↔ c.closed = true ∧ p = .closeOfClosed := by
  unfold close
  grind

end Chan

end ECapture.Library
