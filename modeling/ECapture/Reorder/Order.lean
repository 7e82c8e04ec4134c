import Mathlib.Data.List.Induction
import ECapture.Reorder.Buffer

/-!
# Conservation and order of the reorder buffer

Two results about every sequence of pushes followed by `flushAll`. Nothing is lost or
duplicated, whatever the timestamps, and the buffer stays below `maxPending`. When no
event is later than `lagNs` and the buffer never fills up, the dispatched events are the
stable sort of the pushed ones.

The second rests on `Progress`: the newest event seen is always still pending, so an event
that has been flushed is at least `lagNs` older than some pending one, and no event still
to come can be older than it.
-/

namespace ECapture.Reorder
open Library

variable {ε : Type}

namespace PerfLagReorder

/-! ## Conservation -/

theorem Splits.perm {before after : List (PerfReorderItem ε)} {batch : List ε}
    (h : Splits before batch after) :
    (batch ++ after.map PerfReorderItem.ev).Perm (before.map PerfReorderItem.ev) := by
  obtain ⟨items, rfl, -, perm⟩ := h
  simpa using perm.map PerfReorderItem.ev

theorem pushes_perm (r : PerfLagReorder ε) (xs : List (PerfReorderItem ε)) :
    ((r.pushes xs).1.flatten ++ (r.pushes xs).2.buf.map PerfReorderItem.ev).Perm
      ((r.buf ++ xs).map PerfReorderItem.ev) := by
  induction xs generalizing r with
  | nil => simp [pushes]
  | cons x xs ih =>
    have first := (push_splits r x).perm.append_right (xs.map PerfReorderItem.ev)
    have rest := (ih (r.push x).2).append_left (r.push x).1
    simp only [pushes, List.flatten_cons, List.append_assoc, List.map_append,
      List.map_cons, List.map_nil, List.cons_append, List.nil_append] at *
    exact rest.trans first

theorem flushByLag_length_le (r : PerfLagReorder ε) :
    r.flushByLag.2.buf.length ≤ r.buf.length := by
  obtain ⟨items, -, -, perm⟩ := flushByLag_splits r
  have := perm.length_eq
  simp only [List.length_append] at this
  omega

theorem flushPressure_length_lt (r : PerfLagReorder ε) (nonempty : r.buf ≠ []) :
    r.flushPressure.2.buf.length < r.buf.length := by
  have := List.length_pos_iff.mpr nonempty
  have sorted : (sortItems r.buf).length = r.buf.length := length_stableSort _ _
  simp only [flushPressure, pressureCount, List.length_drop, sorted]
  split <;> omega

theorem push_length_lt (r : PerfLagReorder ε) (x : PerfReorderItem ε)
    (room : r.buf.length < r.maxPending) : (r.push x).2.buf.length < r.maxPending := by
  have len : (r.append x).buf.length = r.buf.length + 1 := by simp
  have max : (r.append x).maxPending = r.maxPending := rfl
  simp only [push]
  split
  · have := (r.append x).flushPressure_length_lt (by simp)
    omega
  · have := (r.append x).flushByLag_length_le
    omega

theorem pushes_length_lt (r : PerfLagReorder ε) (xs : List (PerfReorderItem ε))
    (room : r.buf.length < r.maxPending) : (r.pushes xs).2.buf.length < r.maxPending := by
  induction xs generalizing r with
  | nil => exact room
  | cons x xs ih =>
    have next := push_length_lt r x room
    simpa [pushes] using ih (r.push x).2 (by simpa using next)

/-- Any mix of the lag, pressure and early-return paths conserves the events, and after
every push fewer than 1024 are pending. -/
theorem dispatched_perm_and_bounded (lagNs : UInt64) (xs : List (PerfReorderItem ε)) :
    ((newPerfLagReorder ε lagNs).dispatched xs).Perm (xs.map PerfReorderItem.ev) ∧
      ∀ n, ((newPerfLagReorder ε lagNs).pushes (xs.take n)).2.buf.length < 1024 := by
  refine ⟨?_, fun n => pushes_length_lt _ _ (by simp [newPerfLagReorder])⟩
  have run := pushes_perm (newPerfLagReorder ε lagNs) xs
  obtain ⟨splits, empty⟩ := flushAll_splits ((newPerfLagReorder ε lagNs).pushes xs).2
  have last := splits.perm
  rw [empty, List.map_nil, List.append_nil] at last
  exact (last.append_left _).trans run

/-! ## The signed cutoff -/

theorem toInt_toInt64 {u : UInt64} (h : u.toNat < 2 ^ 63) : u.toInt64.toInt = u.toNat := by
  have : u.toInt64.toInt = u.toBitVec.toInt := rfl
  rw [this, BitVec.toInt_eq_toNat_of_lt (by simpa using by omega)]
  simp

/-- Below 2^63 a difference does not wrap. -/
theorem toInt_sub_toInt64 {u v : UInt64} (hu : u.toNat < 2 ^ 63) (hv : v.toNat < 2 ^ 63) :
    (u.toInt64 - v.toInt64).toInt = (u.toNat : Int) - v.toNat := by
  rw [Int64.toInt_sub, toInt_toInt64 hu, toInt_toInt64 hv, Int.bmod_eq_of_le (by omega) (by omega)]

/-- `hi` and `lo` bound the timestamps of `buf` and occur in it. -/
structure Span (buf : List (PerfReorderItem ε)) (hi lo : PerfReorderItem ε) : Prop where
  hi_mem : hi ∈ buf
  lo_mem : lo ∈ buf
  le_hi : ∀ x ∈ buf, x.ns ≤ hi.ns
  lo_le : ∀ x ∈ buf, lo.ns ≤ x.ns

/-- A further item takes the place of a bound that it exceeds. -/
theorem Span.snoc {buf : List (PerfReorderItem ε)} {hi lo : PerfReorderItem ε}
    (span : Span buf hi lo) (x : PerfReorderItem ε) :
    Span (buf ++ [x]) (if hi.ns < x.ns then x else hi) (if x.ns < lo.ns then x else lo) := by
  have hm := span.hi_mem
  have lm := span.lo_mem
  refine ⟨?_, ?_, fun y hy => ?_, fun y hy => ?_⟩
  · split <;> simp [hm]
  · split <;> simp [lm]
  · rcases List.mem_append.mp hy with hy | hy
    · have := span.le_hi y hy
      split <;> omega
    · rw [List.mem_singleton.mp hy]
      split <;> omega
  · rcases List.mem_append.mp hy with hy | hy
    · have := span.lo_le y hy
      split <;> omega
    · rw [List.mem_singleton.mp hy]
      split <;> omega

theorem toInt64_lt_iff {x y : PerfReorderItem ε} (hx : x.ns < 2 ^ 63) (hy : y.ns < 2 ^ 63) :
    x.mono.toInt64 < y.mono.toInt64 ↔ x.ns < y.ns := by
  rw [Int64.lt_iff_toInt_lt, toInt_toInt64 hx, toInt_toInt64 hy]
  exact Int.ofNat_lt

/-- Below 2^63 the scan from (-1, -1) finds the newest and the oldest pending event. -/
theorem spanNs_span (buf : List (PerfReorderItem ε)) (nonempty : buf ≠ [])
    (small : ∀ x ∈ buf, x.ns < 2 ^ 63) :
    ∃ hi lo, Span buf hi lo ∧ spanNs buf = (hi.mono.toInt64, lo.mono.toInt64) := by
  induction buf using List.reverseRecOn with
  | nil => exact absurd rfl nonempty
  | append_singleton buf x ih =>
    have hx := small x (by simp)
    by_cases first : buf = []
    · subst first
      refine ⟨x, x, ⟨by simp, by simp, by simp, by simp⟩, ?_⟩
      have : (-1 : Int64) < x.mono.toInt64 := by
        rw [Int64.lt_iff_toInt_lt, toInt_toInt64 hx]
        show (-1 : Int) < _
        omega
      simp [spanNs, this]
    · obtain ⟨hi, lo, span, eq⟩ := ih first (fun y hy => small y (by simp [hy]))
      have hhi := small hi (by simp [span.hi_mem])
      have hlo := small lo (by simp [span.lo_mem])
      have nonneg : ¬ lo.mono.toInt64 < 0 := by
        rw [Int64.lt_iff_toInt_lt, toInt_toInt64 hlo]
        show ¬ _ < (0 : Int)
        omega
      refine ⟨_, _, span.snoc x, ?_⟩
      rw [spanNs] at eq
      rw [spanNs, List.foldl_append, eq]
      simp only [List.foldl_cons, List.foldl_nil, nonneg, false_or, toInt64_lt_iff hhi hx,
        toInt64_lt_iff hx hlo]
      split <;> split <;> rfl

/-- Events at least `lag` older than `newest` are due. -/
def due (lag newest : Nat) (x : PerfReorderItem ε) : Bool := decide (x.ns + lag ≤ newest)

/-- With timestamps and lag below 2^63 the wrapped subtractions are the plain ones: a lag
flush of two or more events emits those that are due and keeps the others. -/
theorem flushByLag_eq (r : PerfLagReorder ε) (two : 2 ≤ r.buf.length)
    (small : ∀ x ∈ r.buf, x.ns < 2 ^ 63) (lagSmall : r.lagNs.toNat < 2 ^ 63) :
    ∃ hi ∈ r.buf, (∀ x ∈ r.buf, x.ns ≤ hi.ns) ∧ r.flushByLag =
      ((sortItems (r.buf.filter (due r.lagNs.toNat hi.ns))).map PerfReorderItem.ev,
        { r with buf := r.buf.filter (fun x => !due r.lagNs.toNat hi.ns x) }) := by
  have nonempty : r.buf ≠ [] := fun h => by simp [h] at two
  obtain ⟨hi, lo, span, eq⟩ := spanNs_span r.buf nonempty small
  refine ⟨hi, span.hi_mem, span.le_hi, ?_⟩
  have hlag := toInt_toInt64 lagSmall
  have gap : (hi.mono.toInt64 - lo.mono.toInt64).toInt = (hi.ns : Int) - lo.ns :=
    toInt_sub_toInt64 (small hi span.hi_mem) (small lo span.lo_mem)
  have cut : (hi.mono.toInt64 - r.lagNs.toInt64).toInt = (hi.ns : Int) - r.lagNs.toNat :=
    toInt_sub_toInt64 (small hi span.hi_mem) lagSmall
  have isDue : ∀ x ∈ r.buf, decide (x.mono.toInt64 ≤ hi.mono.toInt64 - r.lagNs.toInt64) =
      due r.lagNs.toNat hi.ns x := fun x hx => by
    rw [due, decide_eq_decide, Int64.le_iff_toInt_le, cut, toInt_toInt64 (small x hx)]
    have : x.ns = x.mono.toNat := rfl
    omega
  have flush := List.filter_congr isDue
  have keep : r.buf.filter (fun x => !decide (x.mono.toInt64 ≤ hi.mono.toInt64 -
      r.lagNs.toInt64)) = r.buf.filter (fun x => !due r.lagNs.toNat hi.ns x) :=
    List.filter_congr (fun x hx => by rw [isDue x hx])
  unfold flushByLag
  rw [if_neg (by omega), eq]
  dsimp only
  split
  · -- the early return: the oldest pending event is not due, so none is
    rename_i narrow
    rw [Int64.lt_iff_toInt_lt, gap, hlag] at narrow
    have none : ∀ x ∈ r.buf, due r.lagNs.toNat hi.ns x = false := fun x hx => by
      have := span.lo_le x hx
      simp only [due, decide_eq_false_iff_not]
      omega
    have noFlush : r.buf.filter (due r.lagNs.toNat hi.ns) = [] := by
      simpa [List.filter_eq_nil_iff] using none
    have allKept : r.buf.filter (fun x => !due r.lagNs.toNat hi.ns x) = r.buf := by
      simpa [List.filter_eq_self] using none
    simp [noFlush, allKept, sortItems, stableSort]
  · rw [flush, keep]

/-! ## Stable order -/

/-- What is known between two pushes: `emitted` is out, in order and below everything
pending; each key's events are where they were; every event out is `lag` older than some
pending event, and no event pushed is newer than all pending ones. -/
structure Progress (lag : Nat) (pushed emitted buf : List (PerfReorderItem ε)) : Prop where
  ordered : Ordered PerfReorderItem.ns emitted
  below : ∀ a ∈ emitted, ∀ b ∈ buf, a.ns ≤ b.ns
  perKey : ∀ k, withKey PerfReorderItem.ns k emitted ++ withKey PerfReorderItem.ns k buf =
    withKey PerfReorderItem.ns k pushed
  behind : ∀ a ∈ emitted, ∃ b ∈ buf, a.ns + lag ≤ b.ns
  sub : ∀ b ∈ buf, b ∈ pushed

theorem Progress.nil (lag : Nat) : Progress (ε := ε) lag [] [] [] where
  ordered := List.Pairwise.nil
  below := by simp
  perKey := by simp [withKey]
  behind := by simp
  sub := by simp

/-- Appending an event that is not later than `lag` keeps `Progress`. -/
theorem Progress.append {lag : Nat} {pushed emitted buf : List (PerfReorderItem ε)}
    (h : Progress lag pushed emitted buf) (x : PerfReorderItem ε)
    (onTime : ∀ a ∈ pushed, a.ns ≤ x.ns + lag) :
    Progress lag (pushed ++ [x]) emitted (buf ++ [x]) where
  ordered := h.ordered
  below a ha b hb := by
    rcases List.mem_append.mp hb with hb | hb
    · exact h.below a ha b hb
    · obtain ⟨c, hc, old⟩ := h.behind a ha
      have := onTime c (h.sub c hc)
      rw [List.mem_singleton.mp hb]
      omega
  perKey k := by rw [withKey_append, withKey_append, ← List.append_assoc, h.perKey]
  behind a ha := by
    obtain ⟨b, hb, old⟩ := h.behind a ha
    exact ⟨b, List.mem_append_left _ hb, old⟩
  sub b hb := by
    rcases List.mem_append.mp hb with hb | hb
    · exact List.mem_append_left _ (h.sub b hb)
    · exact List.mem_append_right _ hb

/-- The due events are older than the others. -/
theorem separates_due (lag newest : Nat) (buf : List (PerfReorderItem ε)) :
    Separates PerfReorderItem.ns buf (sortItems (buf.filter (due lag newest)))
      (buf.filter (fun x => !due lag newest x)) := by
  refine separates_filter PerfReorderItem.ns buf (fun k => decide (k + lag ≤ newest)) ?_
  intro j k old late
  simp only [decide_eq_true_eq, decide_eq_false_iff_not] at old late
  omega

/-- Emitting the due events in stable order keeps `Progress`; the newest event is not due
because the lag is positive. -/
theorem Progress.emit {lag : Nat} {pushed emitted buf : List (PerfReorderItem ε)}
    (h : Progress lag pushed emitted buf) (positive : 0 < lag) {hi : PerfReorderItem ε}
    (hiMem : hi ∈ buf) :
    Progress lag pushed (emitted ++ sortItems (buf.filter (due lag hi.ns)))
      (buf.filter (fun x => !due lag hi.ns x)) where
  ordered := by
    have apart := separates_due lag hi.ns buf
    refine List.pairwise_append.mpr ⟨h.ordered, apart.ordered, fun a ha b hb => ?_⟩
    exact h.below a ha b (apart.mem_before (List.mem_append_left _ hb))
  below a ha b hb := by
    rcases List.mem_append.mp ha with ha | ha
    · exact h.below a ha b (List.mem_filter.mp hb).1
    · exact (separates_due lag hi.ns buf).below a ha b hb
  perKey k := by
    rw [withKey_append, List.append_assoc, (separates_due lag hi.ns buf).perKey k, h.perKey k]
  behind a ha := by
    have stays : hi ∈ buf.filter (fun x => !due lag hi.ns x) :=
      List.mem_filter.mpr ⟨hiMem, by simp [due]; omega⟩
    rcases List.mem_append.mp ha with ha | ha
    · obtain ⟨b, hb, old⟩ := h.behind a ha
      by_cases isDue : due lag hi.ns b
      · have : b.ns + lag ≤ hi.ns := by simpa [due] using isDue
        exact ⟨hi, stays, by omega⟩
      · exact ⟨b, List.mem_filter.mpr ⟨hb, by simpa using isDue⟩, old⟩
    · have old := (List.mem_filter.mp ((perm_sortItems _).mem_iff.mp ha)).2
      exact ⟨hi, stays, by simpa [due] using old⟩
  sub b hb := h.sub b (List.mem_filter.mp hb).1

/-- One push below `maxPending`. -/
theorem push_progress (r : PerfLagReorder ε) (x : PerfReorderItem ε)
    {pushed emitted : List (PerfReorderItem ε)}
    (h : Progress r.lagNs.toNat pushed emitted r.buf)
    (room : r.buf.length + 1 < r.maxPending) (positive : 0 < r.lagNs.toNat)
    (lagSmall : r.lagNs.toNat < 2 ^ 63) (small : ∀ y ∈ pushed ++ [x], y.ns < 2 ^ 63)
    (onTime : ∀ a ∈ pushed, a.ns ≤ x.ns + r.lagNs.toNat) :
    ∃ batch, (r.push x).1 = batch.map PerfReorderItem.ev ∧
      Progress r.lagNs.toNat (pushed ++ [x]) (emitted ++ batch) (r.push x).2.buf := by
  have appended := h.append x onTime
  simp only [push, append_maxPending, append_buf, List.length_append, List.length_singleton]
  rw [if_neg (by omega)]
  by_cases two : 2 ≤ (r.append x).buf.length
  · obtain ⟨hi, hiMem, -, eq⟩ := flushByLag_eq (r.append x) two
      (fun y hy => small y (appended.sub y hy)) lagSmall
    rw [eq]
    exact ⟨_, rfl, appended.emit positive hiMem⟩
  · have alone : (r.append x).flushByLag = ([], r.append x) := by
      rw [flushByLag, if_pos (by omega)]
    rw [alone]
    exact ⟨[], rfl, by simpa using appended⟩

/-- All pushes, from any state reached by earlier ones. -/
theorem pushes_progress (r : PerfLagReorder ε) (xs : List (PerfReorderItem ε))
    {pushed emitted : List (PerfReorderItem ε)}
    (h : Progress r.lagNs.toNat pushed emitted r.buf)
    (positive : 0 < r.lagNs.toNat) (lagSmall : r.lagNs.toNat < 2 ^ 63)
    (small : ∀ y ∈ pushed ++ xs, y.ns < 2 ^ 63)
    (onTime : ∀ before x after, xs = before ++ x :: after →
      ∀ a ∈ pushed ++ before, a.ns ≤ x.ns + r.lagNs.toNat)
    (room : ∀ before x after, xs = before ++ x :: after →
      (r.pushes before).2.buf.length + 1 < r.maxPending) :
    ∃ out, (r.pushes xs).1.flatten = out.map PerfReorderItem.ev ∧
      Progress r.lagNs.toNat (pushed ++ xs) (emitted ++ out) (r.pushes xs).2.buf := by
  induction xs generalizing r pushed emitted with
  | nil => exact ⟨[], rfl, by simpa [pushes] using h⟩
  | cons x xs ih =>
    obtain ⟨batch, eq, next⟩ := push_progress r x h (by simpa [pushes] using room [] x xs rfl)
      positive lagSmall (fun y hy => small y (by simp at hy ⊢; tauto))
      (by simpa using onTime [] x xs rfl)
    obtain ⟨out, eqs, last⟩ := ih (r.push x).2 (by simpa using next) (by simpa using positive)
      (by simpa using lagSmall) (by simpa using small)
      (fun before y after split a ha => by
        have := onTime (x :: before) y after (by simp [split]) a (by simpa using ha)
        simpa using this)
      (fun before y after split => by
        simpa [pushes] using room (x :: before) y after (by simp [split]))
    refine ⟨batch ++ out, ?_, ?_⟩
    · simp [pushes, eq, eqs]
    · simpa [pushes] using last

/-- When every event is at most `lagNs` older than each event before it and the buffer
never reaches `maxPending`, the loop dispatches the stable sort by timestamp. -/
theorem dispatched_eq_stableSort (lagNs : UInt64) (xs : List (PerfReorderItem ε))
    (positive : 0 < lagNs.toNat) (lagSmall : lagNs.toNat < 2 ^ 63)
    (small : ∀ x ∈ xs, x.ns < 2 ^ 63)
    (onTime : xs.Pairwise (fun a b => a.ns ≤ b.ns + lagNs.toNat))
    (room : ∀ before x after, xs = before ++ x :: after →
      (((newPerfLagReorder ε lagNs).pushes before).2.append x).buf.length <
        (newPerfLagReorder ε lagNs).maxPending) :
    (newPerfLagReorder ε lagNs).dispatched xs =
      (stableSort PerfReorderItem.ns xs).map PerfReorderItem.ev := by
  obtain ⟨out, eq, h⟩ := pushes_progress (newPerfLagReorder ε lagNs) xs (Progress.nil _)
    positive lagSmall (by simpa using small)
    (fun before x after split a ha => by
      subst split
      exact (List.pairwise_append.mp onTime).2.2 a (by simpa using ha) x (by simp))
    (fun before x after split => by simpa using room before x after split)
  have last : ((newPerfLagReorder ε lagNs).pushes xs).2.flushAll.1 =
      (sortItems ((newPerfLagReorder ε lagNs).pushes xs).2.buf).map PerfReorderItem.ev := by
    unfold flushAll
    split
    · rename_i empty
      rw [List.length_eq_zero_iff.mp empty]
      rfl
    · rfl
  rw [dispatched, eq, last, ← List.map_append]
  congr 1
  simp only [List.nil_append] at h
  refine eq_stableSort _ ?_ (fun k => ?_)
  · refine List.pairwise_append.mpr ⟨h.ordered, ordered_sortItems _, fun a ha b hb => ?_⟩
    exact h.below a ha b ((perm_sortItems _).mem_iff.mp hb)
  · rw [withKey_append]
    rw [sortItems, withKey_stableSort, h.perKey]

/-- A late pair within the lag, and a tie, at a lag of 50. -/
theorem dispatched_eq_stableSort_three :
    (newPerfLagReorder Nat 50).dispatched [⟨0, 100⟩, ⟨1, 60⟩, ⟨2, 110⟩, ⟨3, 60⟩] =
      (stableSort PerfReorderItem.ns
        [(⟨0, 100⟩ : PerfReorderItem Nat), ⟨1, 60⟩, ⟨2, 110⟩, ⟨3, 60⟩]).map
          PerfReorderItem.ev := by
  refine dispatched_eq_stableSort 50 _ (by decide) (by decide) (by decide) (by decide) ?_
  intro before x after split
  have short : before.length + 1 ≤ 4 := by
    have := congrArg List.length split
    simp at this
    omega
  have kept := (pushes_perm (newPerfLagReorder Nat 50) before).length_eq
  simp [newPerfLagReorder] at kept ⊢
  omega

end PerfLagReorder

end ECapture.Reorder
