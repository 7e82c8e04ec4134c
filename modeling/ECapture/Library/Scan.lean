import ECapture.Library.Layout
import Mathlib.Data.Nat.Find

/-!
# Scanning a file in overlapping windows

A `Scan` reads a file window by window from some offset on and stops at the first window in which
it finds something. After each window it goes forward by what was read less an overlap, so near the
end of the file, where the reads are short, it stands still.

A `Pattern` is a run of byte classes followed by the longest run of one class. Whether it fits at
a place depends on a fixed number of bytes there, so windows that overlap by that many bytes find
the same place as one search does; how far the match goes may differ.
-/

namespace ECapture.Library

structure Scan (β : Type) where
  file : Bytes
  /-- Where the scan starts. -/
  offset : Nat
  /-- The scan goes on while its position, counted from the offset, is below the limit. -/
  limit : Int
  chunk : Nat
  overlap : Nat
  find : Bytes → Option β

namespace Scan

variable {β : Type} (s : Scan β)

/-- A read at position `t`: as many bytes as remain, up to a chunk. -/
def read (t : Int) : Bytes := (s.file.drop (s.offset + t).toNat).take s.chunk

/-- One round at position `t`: the result, or the next position. A seek before the start of the
file fails and ends the scan. -/
def step (t : Int) : Option β ⊕ Int :=
  if t < s.limit then
    if s.read t = [] then .inl none
    else
      match s.find (s.read t) with
      | some b => .inl (some b)
      | none =>
        let next := t + (s.read t).length - s.overlap
        if s.offset + next < 0 then .inl none else .inr next
  else .inl none

def run : Nat → Int → Option (Option β)
  | 0, _ => none
  | fuel + 1, t =>
    match s.step t with
    | .inl result => some result
    | .inr next => run fuel next

/-- From position `t` the scan ends with this result. -/
def Returns (t : Int) (result : Option β) : Prop := ∃ fuel, s.run fuel t = some result

variable {s}

theorem Returns.of_inl {t : Int} {result : Option β} (h : s.step t = .inl result) :
    s.Returns t result := ⟨1, by rw [run, h]⟩

theorem Returns.of_inr {t next : Int} {result : Option β} (h : s.step t = .inr next)
    (later : s.Returns next result) : s.Returns t result := by
  obtain ⟨fuel, done⟩ := later
  exact ⟨fuel + 1, by rw [run, h, ← done]⟩

theorem run_unique {a b : Option β} : ∀ {m n : Nat} {t : Int}, s.run m t = some a →
    s.run n t = some b → a = b
  | 0, _, _, h, _ => by cases h
  | _ + 1, 0, _, _, h => by cases h
  | m + 1, n + 1, t, ha, hb => by
    rw [run] at ha hb
    split at ha
    case h_1 result done =>
      rw [done] at hb
      cases ha
      cases hb
      rfl
    case h_2 next moved =>
      rw [moved] at hb
      exact run_unique ha hb

theorem Returns.unique {t : Int} {a b : Option β} (ha : s.Returns t a) (hb : s.Returns t b) :
    a = b := by
  obtain ⟨m, ha⟩ := ha
  obtain ⟨n, hb⟩ := hb
  exact run_unique ha hb

/-- A caller that works on the result returns exactly if the scan ends. -/
theorem exists_run_map {γ : Type} (g : Option β → γ) (t : Int) :
    (∃ fuel r, (s.run fuel t).map g = some r) ↔ ∃ result, s.Returns t result := by
  simp only [Option.map_eq_some_iff, Returns]
  constructor
  · rintro ⟨fuel, -, result, done, -⟩
    exact ⟨result, fuel, done⟩
  · rintro ⟨result, fuel, done⟩
    exact ⟨fuel, _, result, done, rfl⟩

/-! ## Rounds -/

theorem step_past {t : Int} (past : s.limit ≤ t) : s.step t = .inl none :=
  if_neg (by omega)

theorem length_read {t : Int} (inside : 0 ≤ s.offset + t) :
    ((s.read t).length : Int) = min (s.chunk : Int) (max 0 (s.file.length - (s.offset + t))) := by
  rw [read, List.length_take, List.length_drop]
  omega

theorem step_found {t : Int} {b : β} (below : t < s.limit) (some_ : s.read t ≠ [])
    (found : s.find (s.read t) = some b) : s.step t = .inl (some b) := by
  rw [step, if_pos below, if_neg some_, found]

theorem step_quiet {t : Int} (below : t < s.limit) (some_ : s.read t ≠ [])
    (quiet : s.find (s.read t) = none)
    (inside : 0 ≤ s.offset + (t + (s.read t).length - s.overlap)) :
    s.step t = .inr (t + (s.read t).length - s.overlap) := by
  rw [step, if_pos below, if_neg some_, quiet]
  exact if_neg (by omega)

/-- A read below the limit gives something, as the limit is within the file. -/
theorem read_ne_nil {t : Int} (below : t < s.limit) (inside : 0 ≤ s.offset + t)
    (chunk : 0 < s.chunk) (within : s.offset + s.limit ≤ s.file.length) : s.read t ≠ [] := by
  intro empty
  have length := length_read inside
  rw [empty] at length
  simp only [List.length_nil] at length
  omega

/-! ## Termination -/

/-- With the end of the file far enough behind the limit every round goes forward. -/
theorem returns_none_of_room (quiet : ∀ t, 0 ≤ t → s.find (s.read t) = none)
    (overlap : s.overlap < s.chunk) (room : s.offset + s.limit + s.overlap ≤ s.file.length) :
    ∀ (n : Nat) (t : Int), (s.limit - t).toNat = n → 0 ≤ t → s.Returns t none := by
  intro n
  induction n using Nat.strongRecOn with
  | ind n ih =>
    intro t dist start
    by_cases below : t < s.limit
    · have some_ := read_ne_nil below (by omega) (by omega) (by omega)
      have length := length_read (s := s) (t := t) (by omega)
      have next := step_quiet below some_ (quiet t start) (by omega)
      have closer : (s.limit - (t + (s.read t).length - s.overlap)).toNat < n := by omega
      exact .of_inr next (ih _ closer _ rfl (by omega))
    · exact .of_inl (step_past (by omega))

/-- A scan whose limit is near the end of the file goes on for ever, unless it finds something. -/
theorem run_of_tight (overlap : s.overlap < s.chunk) (within : s.offset + s.limit ≤ s.file.length)
    (tight : s.file.length < s.offset + s.limit + s.overlap) (long : s.overlap ≤ s.file.length) :
    ∀ (fuel : Nat) (t : Int), 0 ≤ s.offset + t → t < s.limit →
      s.run fuel t = none ∨ ∃ u b, s.find (s.read u) = some b ∧ s.run fuel t = some (some b) := by
  intro fuel
  induction fuel with
  | zero => exact fun _ _ _ => .inl rfl
  | succ fuel ih =>
    intro t inside below
    have length := length_read inside
    have some_ := read_ne_nil below inside (by omega) within
    cases found : s.find (s.read t) with
    | some b => exact .inr ⟨t, b, found, by rw [run, step_found below some_ found]⟩
    | none =>
      rw [run, step_quiet below some_ found (by omega)]
      exact ih _ (by omega) (by omega)

/-- Such a scan does not report that there is nothing. -/
theorem not_returns_none_of_tight (overlap : s.overlap < s.chunk)
    (within : s.offset + s.limit ≤ s.file.length)
    (tight : s.file.length < s.offset + s.limit + s.overlap) (long : s.overlap ≤ s.file.length)
    (below : 0 < s.limit) : ¬ s.Returns 0 none := by
  rintro ⟨fuel, done⟩
  rcases run_of_tight overlap within tight long fuel 0 (by omega) below with never | ⟨u, b, -, some_⟩
  · rw [never] at done
    cases done
  · rw [some_] at done
    cases done

/-- When a scan that finds nothing from its offset on reports so. -/
theorem returns_none_iff (quiet : ∀ t, 0 ≤ t → s.find (s.read t) = none)
    (overlap : s.overlap < s.chunk) (within : s.offset + s.limit ≤ s.file.length) :
    s.Returns 0 none ↔
      s.limit ≤ 0 ∨ s.offset + s.limit + s.overlap ≤ s.file.length ∨ s.file.length < s.overlap := by
  constructor
  · intro done
    by_contra stuck
    exact not_returns_none_of_tight overlap within (by omega) (by omega) (by omega) done
  · rintro (empty | room | short)
    · exact .of_inl (step_past empty)
    · exact returns_none_of_room quiet overlap room _ 0 rfl (Int.le_refl 0)
    · by_cases below : 0 < s.limit
      · -- the first read ends before the overlap, so the seek fails
        have length := length_read (s := s) (t := 0) (by omega)
        have some_ := read_ne_nil below (by omega) (by omega) within
        refine .of_inl ?_
        rw [step, if_pos below, if_neg some_, quiet 0 (Int.le_refl 0)]
        exact if_pos (by omega)
      · exact .of_inl (step_past (by omega))

/-- When a scan that finds nothing at all comes to an end. -/
theorem terminates_iff (quiet : ∀ t, s.find (s.read t) = none) (overlap : s.overlap < s.chunk)
    (within : s.offset + s.limit ≤ s.file.length) :
    (∃ result, s.Returns 0 result) ↔
      s.limit ≤ 0 ∨ s.offset + s.limit + s.overlap ≤ s.file.length ∨ s.file.length < s.overlap := by
  constructor
  · rintro ⟨result, fuel, done⟩
    by_contra stuck
    rcases run_of_tight overlap within (by omega) (by omega) fuel 0 (by omega) (by omega) with
      never | ⟨u, b, found, -⟩
    · rw [never] at done
      cases done
    · rw [quiet u] at found
      cases found
  · intro room
    exact ⟨none, (returns_none_iff (fun t _ => quiet t) overlap within).mpr room⟩

/-! ## Full windows -/

/-- The position after `k` full reads. -/
def pos (s : Scan β) (k : Nat) : Int := k * (s.chunk - s.overlap)

theorem pos_succ (k : Nat) : s.pos (k + 1) = s.pos k + (s.chunk - s.overlap) := by
  rw [pos, pos, Int.natCast_add, Int.natCast_one, Int.add_mul, Int.one_mul]

theorem pos_nonneg (overlap : s.overlap < s.chunk) (k : Nat) : 0 ≤ s.pos k :=
  Int.mul_nonneg (by omega) (by omega)

/-- After full windows in which nothing is found the scan is at the next position, if it has not
passed its limit before. -/
theorem returns_after {k : Nat} {result : Option β} (overlap : s.overlap < s.chunk)
    (full : ∀ j < k, s.offset + s.pos j + s.chunk ≤ s.file.length)
    (quiet : ∀ j < k, s.find (s.read (s.pos j)) = none) (result_ : s.limit ≤ s.pos k → result = none)
    (later : s.Returns (s.pos k) result) : s.Returns 0 result := by
  have back : ∀ n ≤ k, s.Returns (s.pos (k - n)) result := by
    intro n
    induction n with
    | zero => exact fun _ => later
    | succ n ih =>
      intro le
      have next := ih (by omega)
      have after := s.pos_succ (k - (n + 1))
      rw [show k - (n + 1) + 1 = k - n by omega] at after
      have start := pos_nonneg overlap (k - (n + 1))
      by_cases below : s.pos (k - (n + 1)) < s.limit
      · have length := length_read (s := s) (t := s.pos (k - (n + 1))) (by omega)
        have room := full (k - (n + 1)) (by omega)
        have some_ : s.read (s.pos (k - (n + 1))) ≠ [] := by
          intro empty
          rw [empty] at length
          simp only [List.length_nil] at length
          omega
        have moved := step_quiet below some_ (quiet _ (by omega)) (by omega)
        rw [show s.pos (k - (n + 1)) + (s.read (s.pos (k - (n + 1)))).length - s.overlap =
          s.pos (k - n) by omega] at moved
        exact .of_inr moved next
      · -- past the limit already, so the later position is past it too
        have grows : s.pos (k - (n + 1)) ≤ s.pos k :=
          Int.mul_le_mul_of_nonneg_right (by omega) (by omega)
        rw [result_ (by omega)]
        exact .of_inl (step_past (by omega))
  have start := back k (Nat.le_refl k)
  rwa [Nat.sub_self, show s.pos 0 = 0 from Int.zero_mul _] at start

end Scan

/-! ## Patterns -/

structure Pattern where
  head : List (UInt8 → Bool)
  tail : UInt8 → Bool

namespace Pattern

/-- The classes hold of the first bytes. -/
def fits : List (UInt8 → Bool) → Bytes → Bool
  | [], _ => true
  | _ :: _, [] => false
  | c :: cs, b :: bs => c b && fits cs bs

variable (p : Pattern)

/-- The match at the front, if there is one. -/
def text (bs : Bytes) : Bytes :=
  bs.take p.head.length ++ (bs.drop p.head.length).takeWhile p.tail

/-- The leftmost match. -/
def find : Bytes → Option Bytes
  | [] => none
  | b :: bs => if fits p.head (b :: bs) then some (p.text (b :: bs)) else find bs

/-- The pattern fits at `a` and nowhere before. -/
def FirstAt (bs : Bytes) (a : Nat) : Prop :=
  fits p.head (bs.drop a) ∧ ∀ b < a, ¬ fits p.head (bs.drop b)

theorem fits_take {cs : List (UInt8 → Bool)} : ∀ {bs : Bytes} {n : Nat},
    fits cs (bs.take n) ↔ fits cs bs ∧ cs.length ≤ n := by
  induction cs with
  | nil => simp [fits]
  | cons c cs ih =>
    intro bs n
    cases bs with
    | nil => simp [fits]
    | cons b bs =>
      cases n with
      | zero => simp [fits]
      | succ n =>
        simp only [List.take_succ_cons, fits, Bool.and_eq_true, ih, List.length_cons,
          Nat.add_le_add_iff_right]
        tauto

theorem length_of_fits {cs : List (UInt8 → Bool)} {bs : Bytes} (h : fits cs bs) :
    cs.length ≤ bs.length := by
  have whole : fits cs (bs.take bs.length) := by rwa [List.take_length]
  exact (fits_take.mp whole).2

variable {p}

theorem find_of_firstAt {bs : Bytes} {a : Nat} (ne : p.head ≠ []) (h : p.FirstAt bs a) :
    p.find bs = some (p.text (bs.drop a)) := by
  induction bs generalizing a with
  | nil =>
    have long := length_of_fits h.1
    simp [ne] at long
  | cons b bs ih =>
    cases a with
    | zero =>
      rw [find, if_pos (by simpa using h.1)]
      rfl
    | succ a =>
      rw [find, if_neg (by simpa using h.2 0 (by omega))]
      exact ih ⟨by simpa using h.1, fun c lt => by simpa using h.2 (c + 1) (by omega)⟩

theorem find_eq_none {bs : Bytes} (h : ∀ a, ¬ fits p.head (bs.drop a)) :
    p.find bs = none := by
  induction bs with
  | nil => rfl
  | cons b bs ih =>
    rw [find, if_neg (by simpa using h 0)]
    exact ih fun a => by simpa using h (a + 1)

/-- Either the pattern fits nowhere, or it fits at a first place. -/
theorem firstAt_or (p : Pattern) (bs : Bytes) :
    (∃ a, p.FirstAt bs a) ∨ ∀ a, ¬ fits p.head (bs.drop a) := by
  by_cases h : ∃ a, fits p.head (bs.drop a)
  · have least := Nat.find_spec h
    exact .inl ⟨Nat.find h, least, fun b lt => Nat.find_min h lt⟩
  · exact .inr fun a fit => h ⟨a, fit⟩

theorem FirstAt.unique {p : Pattern} {bs : Bytes} {a b : Nat} (ha : p.FirstAt bs a)
    (hb : p.FirstAt bs b) : a = b := by
  rcases Nat.lt_trichotomy a b with lt | same | lt
  · exact absurd ha.1 (hb.2 a lt)
  · exact same
  · exact absurd hb.1 (ha.2 b lt)

theorem takeWhile_take {α : Type*} (c : α → Bool) (l : List α) (n : Nat) :
    (l.take n).takeWhile c = (l.takeWhile c).take n := by
  induction l generalizing n with
  | nil => simp
  | cons x l ih =>
    cases n with
    | zero => simp
    | succ n =>
      rw [List.take_succ_cons, List.takeWhile_cons, List.takeWhile_cons]
      split
      · rw [ih, List.take_succ_cons]
      · rfl

/-- A match is cut where the bytes are cut. -/
theorem text_take (p : Pattern) {bs : Bytes} {n : Nat} (le : p.head.length ≤ n) :
    p.text (bs.take n) = (p.text bs).take n := by
  rw [text, text, List.take_take, Nat.min_eq_left le, List.drop_take, List.take_append]
  by_cases long : p.head.length ≤ bs.length
  · have whole : (bs.take p.head.length).take n = bs.take p.head.length := by
      rw [List.take_take, Nat.min_eq_right le]
    rw [whole, List.length_take, Nat.min_eq_left long, takeWhile_take]
  · have nothing : bs.drop p.head.length = [] := List.drop_eq_nil_of_le (by omega)
    have all : (bs.take p.head.length).take n = bs.take p.head.length := by
      rw [List.take_take, Nat.min_eq_right le]
    rw [nothing, all]
    simp

/-! ## Windows -/

theorem fits_drop_window {cs : List (UInt8 → Bool)} {bs : Bytes} {t n i : Nat} :
    fits cs ((window bs t n).drop i) ↔ fits cs (bs.drop (t + i)) ∧ cs.length ≤ n - i := by
  rw [drop_window]
  exact fits_take

/-- A window with the whole head of the first match finds it, as far as the window goes. -/
theorem find_window {bs : Bytes} {a t n : Nat} (ne : p.head ≠ []) (first : p.FirstAt bs a)
    (start : t ≤ a) (head : a + p.head.length ≤ t + n) :
    p.find (window bs t n) = some ((p.text (bs.drop a)).take (t + n - a)) := by
  have here : p.FirstAt (window bs t n) (a - t) := by
    refine ⟨fits_drop_window.mpr ⟨?_, by omega⟩, fun i lt fit => ?_⟩
    · rw [show t + (a - t) = a by omega]
      exact first.1
    · exact first.2 (t + i) (by omega) (fits_drop_window.mp fit).1
  rw [find_of_firstAt ne here, drop_window, show t + (a - t) = a by omega,
    show n - (a - t) = t + n - a by omega, window, text_take p (by omega)]

/-- A window that ends before the head of the first match finds nothing. -/
theorem find_window_before {bs : Bytes} {a t n : Nat} (ne : p.head ≠ []) (first : p.FirstAt bs a)
    (before : t + n < a + p.head.length) : p.find (window bs t n) = none := by
  have some_ := List.length_pos_of_ne_nil ne
  refine find_eq_none fun i fit => ?_
  obtain ⟨fit, room⟩ := fits_drop_window.mp fit
  by_cases lt : t + i < a
  · exact first.2 (t + i) lt fit
  · omega

theorem find_window_nowhere {bs : Bytes} (nowhere : ∀ a, ¬ fits p.head (bs.drop a)) (t n : Nat) :
    p.find (window bs t n) = none :=
  find_eq_none fun i fit => nowhere (t + i) (fits_drop_window.mp fit).1

/-! ## Zero bytes behind a window -/

/-- No class of the pattern holds of a zero byte. -/
def NoZero (p : Pattern) : Prop := (∀ c ∈ p.head, c 0 = false) ∧ p.tail 0 = false

theorem fits_append_zeros {cs : List (UInt8 → Bool)} (clean : ∀ c ∈ cs, c 0 = false) (k : Nat) :
    ∀ bs : Bytes, fits cs (bs ++ List.replicate k 0) = fits cs bs := by
  induction cs with
  | nil => exact fun _ => rfl
  | cons c cs ih =>
    intro bs
    cases bs with
    | nil =>
      cases k with
      | zero => rfl
      | succ k => simp [List.replicate_succ, fits, clean c]
    | cons b bs =>
      rw [List.cons_append, fits, fits, ih fun c mem => clean c (List.mem_cons_of_mem _ mem)]

theorem takeWhile_append_zeros {c : UInt8 → Bool} (clean : c 0 = false) (k : Nat) (bs : Bytes) :
    (bs ++ List.replicate k 0).takeWhile c = bs.takeWhile c := by
  induction bs with
  | nil => cases k <;> simp [List.replicate_succ, clean]
  | cons b bs ih => rw [List.cons_append, List.takeWhile_cons, List.takeWhile_cons, ih]

/-- Searching a window that is filled up with zeros is searching the window. -/
theorem find_append_zeros (noZero : p.NoZero) (ne : p.head ≠ []) (k : Nat) (bs : Bytes) :
    p.find (bs ++ List.replicate k 0) = p.find bs := by
  induction bs with
  | nil =>
    refine find_eq_none fun a => ?_
    rw [List.nil_append, List.drop_replicate]
    have zeros := fits_append_zeros noZero.1 (k - a) []
    rw [List.nil_append] at zeros
    rw [zeros]
    cases h : p.head with
    | nil => exact absurd h ne
    | cons c cs => simp [fits]
  | cons b bs ih =>
    have same := fits_append_zeros noZero.1 k (b :: bs)
    rw [List.cons_append] at same ⊢
    rw [find, find, same, ih]
    split
    case isFalse => rfl
    case isTrue fit =>
      have long := length_of_fits fit
      rw [text, text, ← List.cons_append, List.take_append_of_le_length long,
        List.drop_append_of_le_length long, takeWhile_append_zeros noZero.2]

end Pattern

end ECapture.Library
