import Mathlib.Data.List.Sort
import ECapture.Library.StableSort

/-!
# The perf reorder buffer

`perfLagReorder` of `internal/probe/base/perf_reorder.go`. Events of one perf map arrive
from per-CPU rings in an order that only roughly follows `bpf_ktime_get_ns`. The buffer
holds them back until they are `lagNs` older than the newest pending event, or until
`maxPending` events are waiting.

Timestamps are the unsigned words of the record; the lag path compares them as `int64`,
so the model converts where the code converts and lets the subtractions wrap.
-/

namespace ECapture.Reorder
open Library

/-- `perfReorderItem`: an event with its `PerfMonoNs`. -/
structure PerfReorderItem (ε : Type) where
  ev : ε
  mono : UInt64

/-- The timestamp as the unsigned comparison of `less` sees it. -/
def PerfReorderItem.ns {ε : Type} (x : PerfReorderItem ε) : Nat := x.mono.toNat

structure PerfLagReorder (ε : Type) where
  lagNs : UInt64
  maxPending : Nat
  buf : List (PerfReorderItem ε)

def newPerfLagReorder (ε : Type) (lagNs : UInt64) : PerfLagReorder ε :=
  { lagNs, maxPending := 1024, buf := [] }

variable {ε : Type}

/-- `sort.SliceStable` with `less`. -/
def sortItems (items : List (PerfReorderItem ε)) : List (PerfReorderItem ε) :=
  stableSort PerfReorderItem.ns items

theorem perm_sortItems (items : List (PerfReorderItem ε)) : (sortItems items).Perm items :=
  perm_stableSort _ items

theorem ordered_sortItems (items : List (PerfReorderItem ε)) :
    Ordered PerfReorderItem.ns (sortItems items) :=
  ordered_stableSort _ items

namespace PerfLagReorder

/-- `flushAll` emits the entire buffer in stable time order. -/
def flushAll (r : PerfLagReorder ε) : List ε × PerfLagReorder ε :=
  if r.buf.length = 0 then ([], r)
  else ((sortItems r.buf).map PerfReorderItem.ev, { r with buf := [] })

/-- Half of the buffer, the oldest events first; at least one. -/
def pressureCount (r : PerfLagReorder ε) : Nat :=
  let n := r.buf.length / 2
  if n = 0 then 1 else n

def flushPressure (r : PerfLagReorder ε) : List ε × PerfLagReorder ε :=
  let sorted := sortItems r.buf
  ((sorted.take r.pressureCount).map PerfReorderItem.ev,
    { r with buf := sorted.drop r.pressureCount })

/-- The loop of `flushByLag` over the buffer: `maxNs` and `minNs`, both starting at -1. -/
def spanNs (buf : List (PerfReorderItem ε)) : Int64 × Int64 :=
  buf.foldl (fun (maxNs, minNs) x =>
    let v := x.mono.toInt64
    (if maxNs < v then v else maxNs, if minNs < 0 ∨ v < minNs then v else minNs)) (-1, -1)

def flushByLag (r : PerfLagReorder ε) : List ε × PerfLagReorder ε :=
  if r.buf.length ≤ 1 then ([], r)
  else
    let (maxNs, minNs) := spanNs r.buf
    if maxNs - minNs < r.lagNs.toInt64 then ([], r)
    else
      let cutoff := maxNs - r.lagNs.toInt64
      let flush := r.buf.filter (fun x => decide (x.mono.toInt64 ≤ cutoff))
      let keep := r.buf.filter (fun x => !decide (x.mono.toInt64 ≤ cutoff))
      ((sortItems flush).map PerfReorderItem.ev, { r with buf := keep })

/-- The buffer right after `push` has appended its event. -/
def append (r : PerfLagReorder ε) (x : PerfReorderItem ε) : PerfLagReorder ε :=
  { r with buf := r.buf ++ [x] }

/-- `push` takes the event and its `PerfMonoNs`, and returns the batch to dispatch. -/
def push (r : PerfLagReorder ε) (x : PerfReorderItem ε) : List ε × PerfLagReorder ε :=
  let r := r.append x
  if r.maxPending ≤ r.buf.length then r.flushPressure else r.flushByLag

/-- Successive pushes, with the batch of each. -/
def pushes (r : PerfLagReorder ε) :
    List (PerfReorderItem ε) → List (List ε) × PerfLagReorder ε
  | [] => ([], r)
  | x :: xs =>
    let (batch, r') := r.push x
    let (batches, r'') := r'.pushes xs
    (batch :: batches, r'')

/-- Everything a reader loop dispatches: the batch of each push, then the deferred
`flushAll`. -/
def dispatched (r : PerfLagReorder ε) (xs : List (PerfReorderItem ε)) : List ε :=
  (r.pushes xs).1.flatten ++ (r.pushes xs).2.flushAll.1

@[simp] theorem append_buf (r : PerfLagReorder ε) (x : PerfReorderItem ε) :
    (r.append x).buf = r.buf ++ [x] := rfl

@[simp] theorem append_lagNs (r : PerfLagReorder ε) (x : PerfReorderItem ε) :
    (r.append x).lagNs = r.lagNs := rfl

@[simp] theorem append_maxPending (r : PerfLagReorder ε) (x : PerfReorderItem ε) :
    (r.append x).maxPending = r.maxPending := rfl

/-! ## What one call can do -/

/-- A batch and the buffer left behind, split off a buffer by some threshold: every call
is of this form, with the items it returns sorted. -/
structure Splits (before : List (PerfReorderItem ε)) (batch : List ε)
    (after : List (PerfReorderItem ε)) : Prop where
  exists_items : ∃ items, batch = items.map PerfReorderItem.ev ∧
    Ordered PerfReorderItem.ns items ∧ (items ++ after).Perm before

theorem Splits.nothing (buf : List (PerfReorderItem ε)) : Splits buf [] buf :=
  ⟨[], rfl, List.Pairwise.nil, List.Perm.refl _⟩

theorem flushAll_splits (r : PerfLagReorder ε) :
    Splits r.buf r.flushAll.1 r.flushAll.2.buf ∧ r.flushAll.2.buf = [] := by
  unfold flushAll
  split
  · rename_i empty
    exact ⟨Splits.nothing _, List.length_eq_zero_iff.mp empty⟩
  · refine ⟨⟨sortItems r.buf, rfl, ordered_sortItems _, ?_⟩, rfl⟩
    simpa using perm_sortItems r.buf

theorem flushPressure_splits (r : PerfLagReorder ε) :
    Splits r.buf r.flushPressure.1 r.flushPressure.2.buf := by
  refine ⟨(sortItems r.buf).take r.pressureCount, rfl,
    (ordered_sortItems r.buf).sublist (List.take_sublist _ _), ?_⟩
  simpa [flushPressure] using perm_sortItems r.buf

theorem flushByLag_splits (r : PerfLagReorder ε) :
    Splits r.buf r.flushByLag.1 r.flushByLag.2.buf := by
  unfold flushByLag
  split
  · exact Splits.nothing _
  · dsimp only
    split
    · exact Splits.nothing _
    · refine ⟨_, rfl, ordered_sortItems _, ?_⟩
      exact ((perm_sortItems _).append_right _).trans (List.filter_append_perm _ _)

theorem push_splits (r : PerfLagReorder ε) (x : PerfReorderItem ε) :
    Splits (r.buf ++ [x]) (r.push x).1 (r.push x).2.buf := by
  simp only [push]
  split
  · exact flushPressure_splits (r.append x)
  · exact flushByLag_splits (r.append x)

@[simp] theorem flushPressure_lagNs (r : PerfLagReorder ε) :
    r.flushPressure.2.lagNs = r.lagNs := rfl

@[simp] theorem flushPressure_maxPending (r : PerfLagReorder ε) :
    r.flushPressure.2.maxPending = r.maxPending := rfl

@[simp] theorem flushByLag_lagNs (r : PerfLagReorder ε) : r.flushByLag.2.lagNs = r.lagNs := by
  unfold flushByLag
  split
  · rfl
  · dsimp only
    split <;> rfl

@[simp] theorem flushByLag_maxPending (r : PerfLagReorder ε) :
    r.flushByLag.2.maxPending = r.maxPending := by
  unfold flushByLag
  split
  · rfl
  · dsimp only
    split <;> rfl

@[simp] theorem push_lagNs (r : PerfLagReorder ε) (x : PerfReorderItem ε) :
    (r.push x).2.lagNs = r.lagNs := by
  simp only [push]
  split <;> simp

@[simp] theorem push_maxPending (r : PerfLagReorder ε) (x : PerfReorderItem ε) :
    (r.push x).2.maxPending = r.maxPending := by
  simp only [push]
  split <;> simp

@[simp] theorem pushes_lagNs (r : PerfLagReorder ε) (xs : List (PerfReorderItem ε)) :
    (r.pushes xs).2.lagNs = r.lagNs := by
  induction xs generalizing r with
  | nil => rfl
  | cons x xs ih => simp [pushes, ih]

@[simp] theorem pushes_maxPending (r : PerfLagReorder ε) (xs : List (PerfReorderItem ε)) :
    (r.pushes xs).2.maxPending = r.maxPending := by
  induction xs generalizing r with
  | nil => rfl
  | cons x xs ih => simp [pushes, ih]

end PerfLagReorder

end ECapture.Reorder
