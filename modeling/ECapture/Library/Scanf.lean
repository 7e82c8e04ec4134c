import ECapture.Library.Bytes

/-!
# Reading signed decimal numbers

`strconv.Atoi` reads a whole string, the verb `%d` of `fmt.Sscanf` reads a number at the front
of one and skips blanks before it. Both accept an optional sign, at least one digit and the
range of an `int64`. `Numeral s i` says that `s` is such a text of `i`; each reader is
characterised by it.
-/

namespace ECapture.Library

def decimal (b : UInt8) : Bool := decide (48 ≤ b ∧ b ≤ 57)

def sign (b : UInt8) : Bool := b == 43 || b == 45

/-- The sign at the front, and the rest. -/
def cutSign : Bytes → Bytes × Bytes
  | b :: s => if sign b then ([b], s) else ([], b :: s)
  | [] => ([], [])

/-- The value of a sign and digits, within the range of an `int64`. -/
def toInt64 (front digits : Bytes) : Option Int :=
  let i : Int := if front = [45] then -natOf digits else natOf digits
  if -0x8000000000000000 ≤ i ∧ i ≤ 0x7fffffffffffffff then some i else none

/-- `strconv.Atoi`. -/
def atoi? (s : Bytes) : Option Int :=
  let (front, digits) := cutSign s
  if digits ≠ [] ∧ digits.all decimal then toInt64 front digits else none

/-! ## Blanks -/

/-- White space of one byte, other than a line feed. -/
def blank1 (b : UInt8) : Bool := b == 9 || b == 11 || b == 12 || b == 13 || b == 32

/-- U+0085 and U+00A0. -/
def blank2 (b c : UInt8) : Bool := b == 0xC2 && (c == 0x85 || c == 0xA0)

/-- U+1680, U+2000 to U+200A, U+2028, U+2029, U+202F, U+205F and U+3000. -/
def blank3 (b c d : UInt8) : Bool :=
  (b == 0xE1 && c == 0x9A && d == 0x80) ||
  (b == 0xE2 && c == 0x80 &&
    (decide (0x80 ≤ d ∧ d ≤ 0x8A) || d == 0xA8 || d == 0xA9 || d == 0xAF)) ||
  (b == 0xE2 && c == 0x81 && d == 0x9F) ||
  (b == 0xE3 && c == 0x80 && d == 0x80)

/-- `SkipSpace` of a scan for which line feeds are no space: one of them is an error. -/
def skipSpace : Bytes → Option Bytes
  | [] => some []
  | b :: s =>
    if b = 10 then none
    else if blank1 b then skipSpace s
    else match s with
      | [] => some [b]
      | c :: s =>
        if blank2 b c then skipSpace s
        else match s with
          | [] => some [b, c]
          | d :: s => if blank3 b c d then skipSpace s else some (b :: c :: d :: s)

/-- `%d`: the number at the front, and the rest. -/
def scanInt (s : Bytes) : Option (Int × Bytes) := do
  let s ← skipSpace s
  let (front, s) := cutSign s
  let digits := s.takeWhile decimal
  if digits = [] then none
  else (toInt64 front digits).map fun i => (i, s.dropWhile decimal)

/-! ## Texts of numbers -/

/-- `s` is an optional sign and digits whose value is `i`. -/
def Numeral (s : Bytes) (i : Int) : Prop :=
  ∃ front digits, s = front ++ digits ∧ (front = [] ∨ front = [43] ∨ front = [45]) ∧
    digits ≠ [] ∧ (∀ b ∈ digits, decimal b) ∧ toInt64 front digits = some i

/-- The next byte, if there is one, is no digit. -/
def Ends (rest : Bytes) : Prop := ∀ b, rest.head? = some b → ¬ decimal b

/-- A byte that can stand in a number. -/
def numeric (b : UInt8) : Bool := decimal b || sign b

theorem decimal_not_sign {b : UInt8} (h : decimal b) : sign b = false := by
  simp only [decimal, decide_eq_true_eq] at h
  simp only [sign, Bool.or_eq_false_iff, beq_eq_false_iff_ne]
  grind

/-- What `cutSign` takes off is nothing or one sign. -/
theorem cutSign_spec (s : Bytes) :
    s = (cutSign s).1 ++ (cutSign s).2 ∧
      ((cutSign s).1 = [] ∨ (cutSign s).1 = [43] ∨ (cutSign s).1 = [45]) := by
  cases s with
  | nil => simp [cutSign]
  | cons b s =>
    by_cases h : sign b
    · have : b = 43 ∨ b = 45 := by simpa [sign] using h
      simpa [cutSign, h] using this
    · simp [cutSign, h]

theorem cutSign_append {front digits : Bytes}
    (hf : front = [] ∨ front = [43] ∨ front = [45]) (nonempty : digits ≠ [])
    (all : ∀ b ∈ digits, decimal b) (rest : Bytes) :
    cutSign (front ++ digits ++ rest) = (front, digits ++ rest) := by
  rcases hf with rfl | rfl | rfl
  · obtain ⟨d, ds, rfl⟩ := List.exists_cons_of_ne_nil nonempty
    have := decimal_not_sign (all d List.mem_cons_self)
    simp [cutSign, this]
  · rfl
  · rfl

/-- The digits at the front are all of them, and what follows is left. -/
theorem span_digits {digits rest : Bytes} (all : ∀ b ∈ digits, decimal b) (stop : Ends rest) :
    (digits ++ rest).takeWhile decimal = digits ∧ (digits ++ rest).dropWhile decimal = rest := by
  rw [List.takeWhile_append_of_pos all, List.dropWhile_append_of_pos all]
  cases rest with
  | nil => simp
  | cons b rest => simp [stop b rfl]

theorem Numeral.ne_nil {s : Bytes} {i : Int} (h : Numeral s i) : s ≠ [] := by
  obtain ⟨front, digits, rfl, -, nonempty, -⟩ := h
  simp [nonempty]

/-- A number is made of digits and signs. -/
theorem Numeral.numeric {s : Bytes} {i : Int} (h : Numeral s i) : ∀ b ∈ s, numeric b := by
  obtain ⟨front, digits, rfl, hf, -, all, -⟩ := h
  intro b mem
  rcases List.mem_append.mp mem with mem | mem
  · rcases hf with rfl | rfl | rfl
    · simp at mem
    · simp_all [Library.numeric, sign]
    · simp_all [Library.numeric, sign]
  · simp [Library.numeric, all b mem]

/-- `Atoi` accepts exactly the numerals. -/
theorem atoi?_eq_some_iff {s : Bytes} {i : Int} : atoi? s = some i ↔ Numeral s i := by
  constructor
  · intro h
    obtain ⟨eq, hf⟩ := cutSign_spec s
    simp only [atoi?] at h
    split at h
    case isTrue whole =>
      have all : ∀ b ∈ (cutSign s).2, decimal b := List.all_eq_true.mp whole.2
      exact ⟨_, _, eq, hf, whole.1, all, h⟩
    case isFalse => simp at h
  · rintro ⟨front, digits, rfl, hf, nonempty, all, value⟩
    have cut := cutSign_append hf nonempty all []
    rw [List.append_nil, List.append_nil] at cut
    have whole : digits ≠ [] ∧ digits.all decimal = true := ⟨nonempty, List.all_eq_true.mpr all⟩
    simp only [atoi?, cut]
    rw [if_pos whole, value]

/-- The digits of a numeral are maximal: a longer text that reads on with something else has
another front. -/
theorem Numeral.append_left {s more : Bytes} {i j : Int} (h : Numeral s i)
    (stop : Ends more) (longer : Numeral (s ++ more) j) : more = [] := by
  obtain ⟨front, digits, rfl, hf, nonempty, all, -⟩ := h
  obtain ⟨front', digits', eq, hf', nonempty', all', -⟩ := longer
  have cut := cutSign_append hf nonempty all more
  have cut' := cutSign_append hf' nonempty' all' []
  rw [List.append_nil, List.append_nil, ← eq, cut] at cut'
  obtain ⟨-, same⟩ := Prod.mk.inj cut'
  cases more with
  | nil => rfl
  | cons b more =>
    have digit : decimal b = true := all' b (by rw [← same]; simp)
    exact absurd digit (stop b rfl)

/-! ## The reader -/

/-- No printable ASCII. Every byte of a blank is one. -/
def Unprinted (b : UInt8) : Prop := b ≤ 32 ∨ 128 ≤ b

theorem Unprinted.not_numeric {b : UInt8} (h : Unprinted b) : ¬ numeric b := by
  simp only [Unprinted] at h
  simp only [numeric, decimal, sign, Bool.or_eq_true, decide_eq_true_eq, beq_iff_eq]
  grind

theorem unprinted_of_blank1 {b : UInt8} (h : blank1 b) : Unprinted b := by
  simp only [blank1, Bool.or_eq_true, beq_iff_eq] at h
  simp only [Unprinted]
  grind

theorem unprinted_of_blank2 {b c : UInt8} (h : blank2 b c) : Unprinted b ∧ Unprinted c := by
  simp only [blank2, Bool.and_eq_true, Bool.or_eq_true, beq_iff_eq] at h
  simp only [Unprinted]
  grind

theorem unprinted_of_blank3 {b c d : UInt8} (h : blank3 b c d) :
    Unprinted b ∧ Unprinted c ∧ Unprinted d := by
  simp only [blank3, Bool.and_eq_true, Bool.or_eq_true, beq_iff_eq, decide_eq_true_eq] at h
  simp only [Unprinted]
  grind

theorem skipSpace_spec {s t : Bytes} (h : skipSpace s = some t) :
    ∃ blanks, s = blanks ++ t ∧ ∀ b ∈ blanks, Unprinted b := by
  fun_induction skipSpace s with
  | case1 => exact ⟨[], by simpa using h, by simp⟩
  | case2 s => simp at h
  | case3 b s other is_blank ih =>
    obtain ⟨blanks, rfl, no⟩ := ih h
    refine ⟨b :: blanks, rfl, ?_⟩
    simpa [unprinted_of_blank1 is_blank] using no
  | case4 b => exact ⟨[], by simpa using h, by simp⟩
  | case5 b other not_blank c s is_blank ih =>
    obtain ⟨blanks, rfl, no⟩ := ih h
    refine ⟨b :: c :: blanks, rfl, ?_⟩
    simpa [unprinted_of_blank2 is_blank] using no
  | case6 b other not_blank c => exact ⟨[], by simpa using h, by simp⟩
  | case7 b other not_blank c not_blank2 d s is_blank ih =>
    obtain ⟨blanks, rfl, no⟩ := ih h
    refine ⟨b :: c :: d :: blanks, rfl, ?_⟩
    simpa [unprinted_of_blank3 is_blank] using no
  | case8 => exact ⟨[], by simpa using h, by simp⟩

/-- Nothing is skipped in front of a number. -/
theorem skipSpace_of_numeric {b : UInt8} {s : Bytes} (h : numeric b) :
    skipSpace (b :: s) = some (b :: s) := by
  have other : b ≠ 10 := by rintro rfl; simp [numeric, decimal, sign] at h
  have not_blank : ¬ blank1 b := fun is_blank => (unprinted_of_blank1 is_blank).not_numeric h
  have not_blank2 : ∀ c, ¬ blank2 b c := fun c is_blank =>
    (unprinted_of_blank2 is_blank).1.not_numeric h
  have not_blank3 : ∀ c d, ¬ blank3 b c d := fun c d is_blank =>
    (unprinted_of_blank3 is_blank).1.not_numeric h
  rcases s with _ | ⟨c, _ | ⟨d, s⟩⟩ <;>
    simp [skipSpace, other, not_blank, not_blank2, not_blank3]

/-- A number at the front is read, with all its digits. -/
theorem scanInt_numeral {token rest : Bytes} {i : Int} (h : Numeral token i) (stop : Ends rest) :
    scanInt (token ++ rest) = some (i, rest) := by
  obtain ⟨b, bs, eq⟩ := List.exists_cons_of_ne_nil h.ne_nil
  have skip : skipSpace (token ++ rest) = some (token ++ rest) := by
    rw [eq]
    exact skipSpace_of_numeric (h.numeric b (by simp [eq]))
  obtain ⟨front, digits, rfl, hf, nonempty, all, value⟩ := h
  obtain ⟨taken, left⟩ := span_digits all stop
  simp only [scanInt, skip, Option.bind_eq_bind, Option.bind_some, cutSign_append hf nonempty all _,
    taken, left]
  simp [nonempty, value]

/-- Whatever is read is a number behind blanks, and no digit is left at the front. -/
theorem scanInt_spec {s rest : Bytes} {i : Int} (h : scanInt s = some (i, rest)) :
    ∃ blanks token, s = blanks ++ token ++ rest ∧ (∀ b ∈ blanks, Unprinted b) ∧
      Numeral token i ∧ Ends rest := by
  simp only [scanInt, Option.bind_eq_bind, Option.bind_eq_some_iff] at h
  obtain ⟨t, skip, h⟩ := h
  obtain ⟨blanks, rfl, no⟩ := skipSpace_spec skip
  obtain ⟨eq, hf⟩ := cutSign_spec t
  set front := (cutSign t).1
  set u := (cutSign t).2
  split at h
  case isTrue => simp at h
  case isFalse nonempty =>
    simp only [Option.map_eq_some_iff, Prod.mk.injEq] at h
    obtain ⟨j, value, rfl, rfl⟩ := h
    refine ⟨blanks, front ++ u.takeWhile decimal, ?_, no, ?_, ?_⟩
    · rw [List.append_assoc, List.append_assoc, List.takeWhile_append_dropWhile, ← eq]
    · have all : ∀ b ∈ u.takeWhile decimal, decimal b := List.all_eq_true.mp List.all_takeWhile
      exact ⟨front, _, rfl, hf, nonempty, all, value⟩
    · intro b hb digit
      have := List.head?_dropWhile_not decimal u
      simp [hb, digit] at this

end ECapture.Library
