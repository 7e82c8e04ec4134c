import Mathlib.Algebra.Group.Nat.Defs
import Mathlib.Data.List.Basic

/-!
# Byte strings

A Go string or byte slice is a `Bytes`. Text is built from ASCII literals (`str`), decimal
numbers (`dec`) and lower-case hexadecimal (`hex`). The results are the ones that make such
text unambiguous: `hex` is injective and uses no separator, and a string is cut in one way
at the last occurrence of a separator.
-/

namespace ECapture.Library

abbrev Bytes := List UInt8

instance : LawfulBEq Bytes := inferInstance

/-- The bytes of an ASCII literal. -/
def str (s : String) : Bytes := s.toList.map (fun c => UInt8.ofNat c.toNat)

/-- `%d` of a natural number. -/
def dec (n : Nat) : Bytes := (Nat.toDigits 10 n).map (fun c => UInt8.ofNat c.toNat)

/-- `%d` of a signed number. -/
def decInt (i : Int) : Bytes := if i < 0 then str "-" ++ dec i.natAbs else dec i.natAbs

def hexDigit (n : Nat) : UInt8 := UInt8.ofNat (if n < 10 then 48 + n else 87 + n)

def hexByte (b : UInt8) : Bytes := [hexDigit (b.toNat / 16), hexDigit (b.toNat % 16)]

/-- `%x` of a byte slice: two lower-case digits for each byte. -/
def hex (bs : Bytes) : Bytes := bs.flatMap hexByte

/-- `%x` of a number, with at least `width` characters: zeros follow the sign. -/
def hexInt (width : Nat) (i : Int) : Bytes :=
  let digits := (Nat.toDigits 16 i.natAbs).map (fun c => UInt8.ofNat c.toNat)
  let sign := if i < 0 then str "-" else []
  sign ++ List.replicate (width - sign.length - digits.length) 48 ++ digits

/-- A hexadecimal digit string in upper case. -/
def upper (bs : Bytes) : Bytes := bs.map (fun c => if 97 ≤ c ∧ c ≤ 122 then c - 32 else c)

/-- A byte in the right column of a dump. -/
def dumpChar (b : UInt8) : UInt8 := if b < 32 ∨ 126 < b then 46 else b

/-- The `i`-th of the sixteen columns of a dump. -/
def dumpCell (row : Bytes) (i : Nat) : Bytes :=
  (match row[i]? with | some b => hexByte b ++ [32] | none => [32, 32, 32]) ++
    (if i = 7 then [32] else if i = 15 then [32, 124] else [])

/-- `hex.Dump`: lines of sixteen bytes with their offset and their printable characters. -/
def hexDump (bs : Bytes) : Bytes :=
  (List.range ((bs.length + 15) / 16)).flatMap fun k =>
    let row := (bs.drop (16 * k)).take 16
    hexInt 8 (16 * k % 2 ^ 32 : Nat) ++ [32, 32] ++ (List.range 16).flatMap (dumpCell row) ++
      row.map dumpChar ++ [124, 10]

/-- Cut at the last `sep`, as `strings.LastIndex` finds it. -/
def cutLast (sep : UInt8) (bs : Bytes) : Option (Bytes × Bytes) :=
  let tail := (bs.reverse.takeWhile (· ≠ sep)).reverse
  if tail.length = bs.length then none
  else some (bs.take (bs.length - tail.length - 1), tail)

/-- `strings.LastIndex` of one byte; `none` is -1. -/
def lastIndex (sep : UInt8) : Bytes → Option Nat
  | [] => none
  | b :: bs =>
    match lastIndex sep bs with
    | some i => some (i + 1)
    | none => if b = sep then some 0 else none

/-- `strconv.ParseUint(_, 10, 64)`. -/
def parseUint (bs : Bytes) : Option UInt64 :=
  let n := bs.foldl (fun n b => 10 * n + (b.toNat - 48)) 0
  if bs ≠ [] ∧ bs.all (fun b => 48 ≤ b ∧ b ≤ 57) ∧ n < 2 ^ 64 then some (.ofNat n) else none

/-- The number a string of decimal digits stands for. -/
def natOf (bs : Bytes) : Nat := bs.foldl (fun n b => 10 * n + (b.toNat - 48)) 0

/-- `strconv.ParseUint(_, 10, 32)`, as a `uint32`. -/
def parseUint32 (bs : Bytes) : Option UInt32 :=
  if bs ≠ [] ∧ bs.all (fun b => 48 ≤ b ∧ b ≤ 57) ∧ natOf bs < 2 ^ 32 then some (.ofNat (natOf bs))
  else none

@[simp] theorem hex_nil : hex [] = [] := rfl

@[simp] theorem hex_cons (b : UInt8) (bs : Bytes) : hex (b :: bs) = hexByte b ++ hex bs := rfl

theorem toNat_hexDigit {n : Nat} (h : n < 16) :
    (hexDigit n).toNat = if n < 10 then 48 + n else 87 + n := by
  rw [hexDigit, UInt8.toNat_ofNat']
  split <;> omega

theorem hexDigit_inj {m n : Nat} (hm : m < 16) (hn : n < 16) (h : hexDigit m = hexDigit n) :
    m = n := by
  have := congrArg UInt8.toNat h
  rw [toNat_hexDigit hm, toNat_hexDigit hn] at this
  split at this <;> split at this <;> omega

theorem hexByte_inj {a b : UInt8} (h : hexByte a = hexByte b) : a = b := by
  have ha := a.toNat_lt
  have hb := b.toNat_lt
  simp only [hexByte, List.cons.injEq, and_true] at h
  have hi := hexDigit_inj (by omega) (by omega) h.1
  have lo := hexDigit_inj (by omega) (by omega) h.2
  exact UInt8.toNat_inj.mp (by omega)

theorem hex_injective : Function.Injective hex := by
  intro a b h
  induction a generalizing b with
  | nil => cases b with
    | nil => rfl
    | cons y b => simp [hexByte] at h
  | cons x a ih => cases b with
    | nil => simp [hexByte] at h
    | cons y b =>
      have parts : hexByte x = hexByte y ∧ hex a = hex b := List.append_inj h rfl
      rw [hexByte_inj parts.1, ih parts.2]

/-- Bytes of hexadecimal text are digits or `a` to `f`. -/
theorem mem_hex {c : UInt8} {bs : Bytes} (h : c ∈ hex bs) :
    (48 ≤ c.toNat ∧ c.toNat < 58) ∨ (97 ≤ c.toNat ∧ c.toNat < 103) := by
  simp only [hex, List.mem_flatMap] at h
  obtain ⟨b, -, hc⟩ := h
  have hb := b.toNat_lt
  have digit : ∀ n, n < 16 → (48 ≤ (hexDigit n).toNat ∧ (hexDigit n).toNat < 58) ∨
      (97 ≤ (hexDigit n).toNat ∧ (hexDigit n).toNat < 103) := fun n hn => by
    rw [toNat_hexDigit hn]
    split <;> omega
  simp only [hexByte, List.mem_cons, List.not_mem_nil, or_false] at hc
  rcases hc with rfl | rfl
  · exact digit _ (by omega)
  · exact digit _ (by omega)

theorem underscore_not_mem_hex (bs : Bytes) : (95 : UInt8) ∉ hex bs := fun h => by
  have : (95 : UInt8).toNat = 95 := rfl
  have := mem_hex h
  omega

theorem space_not_mem_hex (bs : Bytes) : (32 : UInt8) ∉ hex bs := fun h => by
  have : (32 : UInt8).toNat = 32 := rfl
  have := mem_hex h
  omega

/-! ## Decimal text -/

theorem toNat_of_mem_toDigits {c : Char} {n : Nat} (h : c ∈ Nat.toDigits 10 n) :
    48 ≤ c.toNat ∧ c.toNat ≤ 57 := by
  have digit := Nat.isDigit_of_mem_toDigits (by decide) (by decide) h
  simp only [Char.isDigit, Bool.and_eq_true, decide_eq_true_eq] at digit
  exact digit

/-- Bytes of decimal text are digits. -/
theorem mem_dec {b : UInt8} {n : Nat} (h : b ∈ dec n) : 48 ≤ b.toNat ∧ b.toNat ≤ 57 := by
  simp only [dec, List.mem_map] at h
  obtain ⟨c, mem, rfl⟩ := h
  have := toNat_of_mem_toDigits mem
  rw [UInt8.toNat_ofNat', Nat.mod_eq_of_lt (by omega)]
  exact this

theorem underscore_not_mem_dec (n : Nat) : (95 : UInt8) ∉ dec n := fun h => by
  have : (95 : UInt8).toNat = 95 := rfl
  have := mem_dec h
  omega

theorem dec_injective : Function.Injective dec := by
  have back : ∀ n, (dec n).map (fun b => Char.ofNat b.toNat) = Nat.toDigits 10 n := by
    intro n
    rw [dec, List.map_map]
    conv_rhs => rw [← List.map_id (Nat.toDigits 10 n)]
    apply List.map_congr_left
    intro c mem
    have := toNat_of_mem_toDigits mem
    simp only [Function.comp_apply, UInt8.toNat_ofNat', id_eq]
    rw [Nat.mod_eq_of_lt (by omega), Char.ofNat_toNat]
  intro m n same
  rw [← Nat.ofDigitChars_toDigits (b := 10) (n := m) (by decide) (by decide), ← back, same, back,
    Nat.ofDigitChars_toDigits (by decide) (by decide)]

theorem dec_ne_nil (n : Nat) : dec n ≠ [] := by
  simp [dec]

theorem natOf_dec (n : Nat) : natOf (dec n) = n := by
  have digit : ∀ m, ∀ c ∈ Nat.toDigits 10 n,
      10 * m + ((UInt8.ofNat c.toNat).toNat - 48) = 10 * m + (c.toNat - '0'.toNat) := by
    intro m c mem
    have := toNat_of_mem_toDigits mem
    rw [UInt8.toNat_ofNat', Nat.mod_eq_of_lt (by omega)]
    rfl
  have value := Nat.ofDigitChars_toDigits (b := 10) (n := n) (by decide) (by decide)
  rw [natOf, dec, List.foldl_map]
  conv_rhs => rw [← value, Nat.ofDigitChars]
  exact List.foldl_ext _ _ _ digit

theorem length_dec_le_iff {n k : Nat} (pos : 0 < k) : (dec n).length ≤ k ↔ n < 10 ^ k := by
  rw [dec, List.length_map, Nat.length_toDigits_le_iff (by decide) pos]

/-- A number whose digits begin another's is not above it. -/
theorem le_of_dec_isPrefix {p q : Nat} (h : dec p <+: dec q) : p ≤ q := by
  have grows : ∀ (bs : Bytes) (n : Nat),
      n ≤ bs.foldl (fun n b => 10 * n + (b.toNat - 48)) n := by
    intro bs
    induction bs with
    | nil => exact fun n => Nat.le_refl n
    | cons b bs ih =>
      intro n
      have later := ih (10 * n + (b.toNat - 48))
      rw [List.foldl_cons]
      omega
  obtain ⟨rest, eq⟩ := h
  calc p = natOf (dec p) := (natOf_dec p).symm
    _ ≤ natOf (dec p ++ rest) := by
      rw [natOf, natOf, List.foldl_append]
      exact grows rest _
    _ = q := by rw [eq, natOf_dec]

/-- Positive numbers are printed without leading zeros. -/
theorem not_zero_prefix_dec {p : Nat} (pos : 0 < p) : ¬ dec 0 <+: dec p := by
  induction p using Nat.strongRecOn with
  | ind p ih =>
    intro zero
    by_cases small : p < 10
    · have digits : ∀ d < 10, 0 < d → ¬ dec 0 <+: dec d := by decide
      exact digits p small pos zero
    · have step : dec p = dec (p / 10) ++ [UInt8.ofNat (p % 10).digitChar.toNat] := by
        rw [dec, Nat.toDigits_of_base_le (by decide) (by omega), List.map_append]
        rfl
      rw [step] at zero
      refine ih (p / 10) (by omega) (by omega) ?_
      refine List.prefix_of_prefix_length_le zero (List.prefix_append _ _) ?_
      exact List.length_pos_of_ne_nil (dec_ne_nil _)

/-- A printed number is read back. -/
theorem parseUint32_dec {n : Nat} (small : n < 2 ^ 32) : parseUint32 (dec n) = some (.ofNat n) := by
  have digits : (dec n).all (fun b => 48 ≤ b ∧ b ≤ 57) = true := by
    simp only [List.all_eq_true, decide_eq_true_eq]
    intro b mem
    exact mem_dec mem
  rw [parseUint32, natOf_dec, if_pos ⟨dec_ne_nil n, digits, small⟩]

/-! ## Decimal strings -/

/-- Digits only, and at least one of them. -/
def IsDecimal (bs : Bytes) : Prop := bs ≠ [] ∧ ∀ b ∈ bs, 48 ≤ b ∧ b ≤ 57

theorem IsDecimal.underscore_not_mem {bs : Bytes} (digits : IsDecimal bs) : (95 : UInt8) ∉ bs := by
  intro mem
  have bounds := digits.2 95 mem
  exact absurd bounds.2 (by decide)

theorem parseUint_eq_some {bs : Bytes} {n : UInt64} :
    parseUint bs = some n ↔ IsDecimal bs ∧ natOf bs < 2 ^ 64 ∧ n = .ofNat (natOf bs) := by
  rw [parseUint, IsDecimal]
  change (if bs ≠ [] ∧ bs.all (fun b => 48 ≤ b ∧ b ≤ 57) ∧ natOf bs < 2 ^ 64 then
    some (UInt64.ofNat (natOf bs)) else none) = some n ↔ _
  simp only [List.all_eq_true, decide_eq_true_eq, Option.ite_none_right_eq_some,
    Option.some.injEq, and_assoc, eq_comm (a := n)]

theorem underscore_not_mem_decInt (i : Int) : (95 : UInt8) ∉ decInt i := by
  have digits := underscore_not_mem_dec i.natAbs
  rw [decInt]
  split
  · rw [List.mem_append]
    rintro (sign | mem)
    · exact absurd sign (by decide +kernel)
    · exact digits mem
  · exact digits

theorem decInt_injective : Function.Injective decInt := by
  intro i j same
  -- A minus sign is no digit.
  have signed : ∀ m n, str "-" ++ dec m ≠ dec n := by
    intro m n same
    have minus : (45 : UInt8) ∈ dec n := same ▸ List.mem_cons_self
    have := mem_dec minus
    exact absurd this.1 (by decide)
  rw [decInt, decInt] at same
  split at same <;> split at same
  · have := dec_injective (List.append_cancel_left same)
    omega
  · exact absurd same (signed _ _)
  · exact absurd same.symm (signed _ _)
  · have := dec_injective same
    omega

/-! ## Cutting -/

/-- No piece of a split holds the separator. -/
theorem not_mem_of_mem_splitOn {α : Type*} [BEq α] [LawfulBEq α] {sep : α} (l : List α) :
    ∀ piece ∈ l.splitOn sep, sep ∉ piece := by
  induction l with
  | nil => simp
  | cons x l ih =>
    obtain ⟨first, rest, cut⟩ := List.exists_cons_of_ne_nil (List.splitOn_ne_nil sep l)
    rw [cut] at ih
    rw [List.splitOn_cons_eq_if_modifyHead, cut]
    intro piece mem
    split at mem
    case isTrue =>
      rcases List.mem_cons.mp mem with rfl | mem
      · exact List.not_mem_nil
      · exact ih piece mem
    case isFalse other =>
      rcases List.mem_cons.mp mem with rfl | mem
      · intro held
        rcases List.mem_cons.mp held with rfl | held
        · simp at other
        · exact ih first List.mem_cons_self held
      · exact ih piece (List.mem_cons_of_mem _ mem)

theorem mem_intercalate {α : Type*} {sep : List α} {x : α} :
    ∀ {ls : List (List α)}, x ∈ sep.intercalate ls → x ∈ sep ∨ ∃ l ∈ ls, x ∈ l
  | [], h => by simp at h
  | [l], h => by
    rw [List.intercalate_singleton] at h
    exact .inr ⟨l, by simp, h⟩
  | l :: l' :: ls, h => by
    rw [List.intercalate_cons_cons, List.mem_append, List.mem_append] at h
    rcases h with (h | h) | h
    · exact .inr ⟨l, by simp, h⟩
    · exact .inl h
    · rcases mem_intercalate h with h | ⟨m, mem, h⟩
      · exact .inl h
      · exact .inr ⟨m, List.mem_cons_of_mem _ mem, h⟩

theorem intercalate_concat {α : Type*} (sep : List α) {ls : List (List α)} (nonempty : ls ≠ [])
    (l : List α) : sep.intercalate (ls ++ [l]) = sep.intercalate ls ++ (sep ++ l) := by
  induction ls with
  | nil => exact absurd rfl nonempty
  | cons first rest ih =>
    cases rest with
    | nil => simp [List.intercalate_cons_cons]
    | cons second rest =>
      have tail := ih (List.cons_ne_nil _ _)
      rw [List.cons_append, List.cons_append, List.intercalate_cons_cons,
        List.intercalate_cons_cons, ← List.cons_append, tail]
      simp only [List.append_assoc]

/-- A list is cut in one way at the last occurrence of `sep`. -/
theorem cut_at_last {α : Type*} {sep : α} {a b c d : List α} (hb : sep ∉ b) (hd : sep ∉ d)
    (h : a ++ sep :: b = c ++ sep :: d) : a = c ∧ b = d := by
  rcases List.append_eq_append_iff.mp h with ⟨m, rfl, hm⟩ | ⟨m, rfl, hm⟩
  · cases m with
    | nil => simpa using hm
    | cons x m =>
      obtain ⟨-, rfl⟩ := List.cons.inj hm
      exact absurd (by simp) hb
  · cases m with
    | nil => simpa [eq_comm] using hm
    | cons x m =>
      obtain ⟨-, rfl⟩ := List.cons.inj hm
      exact absurd (by simp) hd

/-- A list is cut in one way at the first occurrence of `sep`. -/
theorem cut_at_first {α : Type*} {sep : α} {a b c d : List α} (ha : sep ∉ a) (hc : sep ∉ c)
    (h : a ++ sep :: b = c ++ sep :: d) : a = c ∧ b = d := by
  rcases List.append_eq_append_iff.mp h with ⟨m, rfl, hm⟩ | ⟨m, rfl, hm⟩
  · cases m with
    | nil => simpa using hm
    | cons x m =>
      obtain ⟨rfl, -⟩ := List.cons.inj hm
      exact absurd (by simp) hc
  · cases m with
    | nil => simpa [eq_comm] using hm
    | cons x m =>
      obtain ⟨rfl, -⟩ := List.cons.inj hm
      exact absurd (by simp) ha

theorem exists_cut_at_last {α : Type*} {sep : α} {l : List α} (mem : sep ∈ l) :
    ∃ a b, l = a ++ sep :: b ∧ sep ∉ b := by
  obtain ⟨b, a, cut, clean⟩ := List.eq_append_cons_of_mem (List.mem_reverse.mpr mem)
  refine ⟨a.reverse, b.reverse, ?_, fun held => clean (List.mem_reverse.mp held)⟩
  rw [← List.reverse_reverse l, cut]
  simp

theorem cutLast_of_not_mem {sep : UInt8} {bs : Bytes} (clean : sep ∉ bs) :
    cutLast sep bs = none := by
  have all : bs.reverse.takeWhile (· ≠ sep) = bs.reverse := by
    rw [← List.append_nil bs.reverse, List.takeWhile_append_of_pos, List.takeWhile_nil]
    intro b mem
    have : b ∈ bs := List.mem_reverse.mp mem
    grind
  simp only [cutLast, all, List.reverse_reverse, if_true]

theorem cutLast_append {sep : UInt8} (a : Bytes) {b : Bytes} (clean : sep ∉ b) :
    cutLast sep (a ++ sep :: b) = some (a, b) := by
  have tail : (a ++ sep :: b).reverse.takeWhile (· ≠ sep) = b.reverse := by
    rw [List.reverse_append, List.reverse_cons, List.append_assoc,
      List.takeWhile_append_of_pos, List.singleton_append, List.takeWhile_cons_of_neg (by simp),
      List.append_nil]
    intro x mem
    have : x ∈ b := List.mem_reverse.mp mem
    grind
  have shorter : b.length ≠ (a ++ sep :: b).length := by simp; omega
  have front : (a ++ sep :: b).length - b.length - 1 = a.length := by simp; omega
  simp only [cutLast, tail, List.reverse_reverse, if_neg shorter, front, List.take_left]

theorem lastIndex_of_not_mem {sep : UInt8} {bs : Bytes} (clean : sep ∉ bs) :
    lastIndex sep bs = none := by
  induction bs with
  | nil => rfl
  | cons b bs ih =>
    obtain ⟨other, clean⟩ := not_or.mp (mt List.mem_cons.mpr clean)
    rw [lastIndex, ih clean]
    exact if_neg (Ne.symm other)

theorem lastIndex_append {sep : UInt8} (a : Bytes) {b : Bytes} (clean : sep ∉ b) :
    lastIndex sep (a ++ sep :: b) = some a.length := by
  induction a with
  | nil =>
    rw [List.nil_append, lastIndex, lastIndex_of_not_mem clean]
    exact if_pos rfl
  | cons x a ih => rw [List.cons_append, lastIndex, ih, List.length_cons]

end ECapture.Library
