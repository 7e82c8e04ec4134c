import ECapture.Reorder.Order

/-!
# Batches of the reorder buffer

What every call of `push` and `flushAll` returns, in any state and however late the events are: a
batch in the order of the timestamps, none of them newer than what is kept. Each path takes its
batch out of the buffer in order (`Separates`), and that is enough for events with one timestamp
to come out as they arrived, over any number of calls.
-/

namespace ECapture.Reorder
open Library

variable {ε : Type}

/-- A call on the buffer; an event is pushed with its `PerfMonoNs`. -/
inductive Call (ε : Type) where
  | push (mn : ε)
  | flushAll

/-- The event that a call brings. -/
def Call.arrival : Call ε → List ε
  | .push mn => [mn]
  | .flushAll => []

namespace PerfLagReorder

/-! ## One call -/

theorem flushAll_separates (r : PerfLagReorder ε) : ∃ items,
    r.flushAll.1 = items.map PerfReorderItem.ev ∧
      Separates PerfReorderItem.ns r.buf items r.flushAll.2.buf := by
  unfold flushAll
  split
  case isTrue empty => exact ⟨[], rfl, separates_nothing _ _⟩
  case isFalse => exact ⟨_, rfl, separates_stableSort _ _⟩

theorem flushPressure_separates (r : PerfLagReorder ε) : ∃ items,
    r.flushPressure.1 = items.map PerfReorderItem.ev ∧
      Separates PerfReorderItem.ns r.buf items r.flushPressure.2.buf :=
  ⟨_, rfl, separates_take _ _ _⟩

theorem flushByLag_separates (r : PerfLagReorder ε) (small : ∀ x ∈ r.buf, x.ns < 2 ^ 63)
    (lagSmall : r.lagNs.toNat < 2 ^ 63) : ∃ items,
    r.flushByLag.1 = items.map PerfReorderItem.ev ∧
      Separates PerfReorderItem.ns r.buf items r.flushByLag.2.buf := by
  by_cases two : 2 ≤ r.buf.length
  · obtain ⟨hi, -, -, eq⟩ := flushByLag_eq r two small lagSmall
    rw [eq]
    exact ⟨_, rfl, separates_due _ _ _⟩
  · have alone : r.flushByLag = ([], r) := by
      rw [flushByLag, if_pos (by omega)]
    rw [alone]
    exact ⟨[], rfl, separates_nothing _ _⟩

variable (perfMonoNs : ε → UInt64)

def call (r : PerfLagReorder ε) : Call ε → List ε × PerfLagReorder ε
  | .push mn => r.push ⟨mn, perfMonoNs mn⟩
  | .flushAll => r.flushAll

/-- The timestamp of an event. -/
def ns (mn : ε) : Nat := (perfMonoNs mn).toNat

/-- The events that wait. -/
def pending (r : PerfLagReorder ε) : List ε := r.buf.map PerfReorderItem.ev

/-- Every item has the timestamp of its event. -/
def Tagged (r : PerfLagReorder ε) : Prop := ∀ x ∈ r.buf, x.mono = perfMonoNs x.ev

variable {perfMonoNs}

theorem call_lagNs (r : PerfLagReorder ε) (c : Call ε) :
    (r.call perfMonoNs c).2.lagNs = r.lagNs := by
  cases c with
  | push mn => exact push_lagNs r _
  | flushAll =>
    simp only [call, flushAll]
    split <;> rfl

/-- The item of a pushed event. -/
def arrivals (perfMonoNs : ε → UInt64) (c : Call ε) : List (PerfReorderItem ε) :=
  c.arrival.map fun mn => ⟨mn, perfMonoNs mn⟩

theorem call_items (r : PerfLagReorder ε) (lagSmall : r.lagNs.toNat < 2 ^ 63) (c : Call ε)
    (small : ∀ x ∈ r.buf ++ arrivals perfMonoNs c, x.ns < 2 ^ 63) :
    ∃ items, (r.call perfMonoNs c).1 = items.map PerfReorderItem.ev ∧
      Separates PerfReorderItem.ns (r.buf ++ arrivals perfMonoNs c) items
        (r.call perfMonoNs c).2.buf := by
  cases c with
  | push mn =>
    simp only [call, push]
    split
    · exact flushPressure_separates (r.append _)
    · exact flushByLag_separates (r.append _) small lagSmall
  | flushAll =>
    rw [arrivals, Call.arrival, List.map_nil, List.append_nil]
    exact flushAll_separates r

/-- A call takes its batch in order out of what was pending and what has arrived. -/
theorem call_separates {r : PerfLagReorder ε} (tagged : r.Tagged perfMonoNs)
    (lagSmall : r.lagNs.toNat < 2 ^ 63) {c : Call ε}
    (small : ∀ mn ∈ r.pending ++ c.arrival, ns perfMonoNs mn < 2 ^ 63) :
    Separates (ns perfMonoNs) (r.pending ++ c.arrival) (r.call perfMonoNs c).1
        (r.call perfMonoNs c).2.pending ∧
      (r.call perfMonoNs c).2.Tagged perfMonoNs := by
  have tagged' : ∀ x ∈ r.buf ++ arrivals perfMonoNs c, x.mono = perfMonoNs x.ev := by
    intro x mem
    rcases List.mem_append.mp mem with old | new
    · exact tagged x old
    · obtain ⟨mn, -, rfl⟩ := List.mem_map.mp new
      rfl
  have agree : ∀ x ∈ r.buf ++ arrivals perfMonoNs c, ns perfMonoNs x.ev = x.ns := by
    intro x mem
    rw [ns, PerfReorderItem.ns, tagged' x mem]
  have events : (r.buf ++ arrivals perfMonoNs c).map PerfReorderItem.ev =
      r.pending ++ c.arrival := by
    simp [pending, arrivals, Function.comp_def]
  obtain ⟨items, batch, apart⟩ := call_items r lagSmall c fun x mem => by
    rw [← agree x mem]
    exact small x.ev (events ▸ List.mem_map_of_mem mem)
  rw [← events, batch]
  refine ⟨apart.map agree, fun x mem => ?_⟩
  exact tagged' x (apart.mem_before (List.mem_append_right _ mem))

/-! ## Any number of calls -/

/-- Successive calls, with the batch of each. -/
def calls (perfMonoNs : ε → UInt64) (r : PerfLagReorder ε) :
    List (Call ε) → List (List ε) × PerfLagReorder ε
  | [] => ([], r)
  | c :: cs =>
    let (batch, r') := r.call perfMonoNs c
    let (batches, r'') := r'.calls perfMonoNs cs
    (batch :: batches, r'')

/-- After calls that have brought `arrived` and returned `emitted`: the events of one timestamp
are returned in the order in which they arrived, and the others wait in this order. -/
structure InOrder (perfMonoNs : ε → UInt64) (r : PerfLagReorder ε) (arrived emitted : List ε) :
    Prop where
  tagged : r.Tagged perfMonoNs
  perKey : ∀ k, withKey (ns perfMonoNs) k emitted ++ withKey (ns perfMonoNs) k r.pending =
    withKey (ns perfMonoNs) k arrived

variable {r : PerfLagReorder ε} {arrived emitted : List ε}

/-- One call. -/
theorem InOrder.call (h : InOrder perfMonoNs r arrived emitted) (lagSmall : r.lagNs.toNat < 2 ^ 63)
    {c : Call ε} (small : ∀ mn ∈ arrived ++ c.arrival, ns perfMonoNs mn < 2 ^ 63) :
    Separates (ns perfMonoNs) (r.pending ++ c.arrival) (r.call perfMonoNs c).1
        (r.call perfMonoNs c).2.pending ∧
      InOrder perfMonoNs (r.call perfMonoNs c).2 (arrived ++ c.arrival)
        (emitted ++ (r.call perfMonoNs c).1) := by
  obtain ⟨apart, tagged⟩ := call_separates h.tagged lagSmall fun mn mem => by
    rcases List.mem_append.mp mem with waits | new
    · have before := mem_of_perKey h.perKey (List.mem_append_right _ waits)
      exact small mn (List.mem_append_left _ before)
    · exact small mn (List.mem_append_right _ new)
  refine ⟨apart, tagged, fun k => ?_⟩
  rw [withKey_append, List.append_assoc, apart.perKey k, withKey_append, ← List.append_assoc,
    h.perKey k, withKey_append]

/-- All calls, from any state that earlier ones have reached. -/
theorem InOrder.calls (h : InOrder perfMonoNs r arrived emitted)
    (lagSmall : r.lagNs.toNat < 2 ^ 63) (cs : List (Call ε))
    (small : ∀ mn ∈ arrived ++ cs.flatMap Call.arrival, ns perfMonoNs mn < 2 ^ 63) :
    InOrder perfMonoNs (r.calls perfMonoNs cs).2 (arrived ++ cs.flatMap Call.arrival)
        (emitted ++ (r.calls perfMonoNs cs).1.flatten) ∧
      (r.calls perfMonoNs cs).2.lagNs = r.lagNs := by
  induction cs generalizing r arrived emitted with
  | nil => simpa [PerfLagReorder.calls] using h
  | cons c cs ih =>
    rw [List.flatMap_cons, ← List.append_assoc] at small ⊢
    obtain ⟨-, next⟩ := h.call lagSmall fun mn mem => small mn (List.mem_append_left _ mem)
    obtain ⟨last, lag⟩ := ih next (by rwa [call_lagNs]) small
    rw [List.append_assoc emitted] at last
    exact ⟨last, lag.trans (call_lagNs r c)⟩

theorem withKey_ns (t : UInt64) (l : List ε) :
    withKey (ns perfMonoNs) t.toNat l = l.filter (perfMonoNs · = t) := by
  refine List.filter_congr fun mn _ => ?_
  rw [ns, decide_eq_decide, UInt64.toNat_inj]

/-- Whatever calls came before, a call returns its events in the order of their timestamps, none
of them newer than an event that it keeps; events with one timestamp are returned as they arrived,
after those of earlier batches and before those that are kept. -/
theorem batch_ordered (perfMonoNs : ε → UInt64) (lagNs : UInt64) (cs : List (Call ε)) (c : Call ε)
    {earlier : List (List ε)} {batch : List ε} {r r' : PerfLagReorder ε}
    (ran : (newPerfLagReorder ε lagNs).calls perfMonoNs cs = (earlier, r))
    (called : r.call perfMonoNs c = (batch, r')) (lagSmall : lagNs.toNat < 2 ^ 63)
    (small : ∀ mn ∈ cs.flatMap Call.arrival ++ c.arrival, (perfMonoNs mn).toNat < 2 ^ 63) :
    batch.Pairwise (fun a b => perfMonoNs a ≤ perfMonoNs b) ∧
      (∀ t, earlier.flatten.filter (perfMonoNs · = t) ++ batch.filter (perfMonoNs · = t) ++
          r'.pending.filter (perfMonoNs · = t) =
        (cs.flatMap Call.arrival ++ c.arrival).filter (perfMonoNs · = t)) ∧
      ∀ a ∈ batch, ∀ b ∈ r'.pending, perfMonoNs a ≤ perfMonoNs b := by
  have start : InOrder perfMonoNs (newPerfLagReorder ε lagNs) [] [] :=
    ⟨fun x mem => absurd mem List.not_mem_nil, fun k => rfl⟩
  obtain ⟨before, lag⟩ := start.calls lagSmall cs fun mn mem =>
    small mn (List.mem_append_left _ mem)
  rw [ran] at before lag
  obtain ⟨apart, after⟩ := before.call (c := c) (by rwa [lag]) small
  rw [called] at apart after
  refine ⟨apart.ordered.imp UInt64.le_iff_toNat_le.mpr, fun t => ?_, fun a ha b hb =>
    UInt64.le_iff_toNat_le.mpr (apart.below a ha b hb)⟩
  have same := after.perKey t.toNat
  simpa only [withKey_ns, List.nil_append, List.filter_append, List.append_assoc] using same

/-- The third event is older than one that has been returned, and the fourth ties with one that
waits. -/
def lateAndTied : List (Call (Nat × UInt64)) :=
  [.push (0, 100), .push (1, 200), .push (2, 60), .push (3, 200)]

theorem batch_ordered_lateAndTied :
    (((newPerfLagReorder (Nat × UInt64) 50).calls Prod.snd lateAndTied).2.call Prod.snd
      (.push (4, 300))).1.Pairwise fun a b => a.2 ≤ b.2 :=
  (batch_ordered Prod.snd 50 lateAndTied (.push (4, 300)) rfl rfl (by decide) (by decide)).1

example : (((newPerfLagReorder (Nat × UInt64) 50).calls Prod.snd lateAndTied).2.call Prod.snd
    (.push (4, 300))).1 = [(1, 200), (3, 200)] := by decide +kernel

end PerfLagReorder

end ECapture.Reorder
