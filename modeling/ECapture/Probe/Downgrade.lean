import ECapture.Probe.Version
import Mathlib.Data.List.Dedup

/-!
# The downgrade search against the order of versions

Versions `openssl M.m.p` with a letter suffix are compared by `p` and then by the suffix within a
series `M.m`. The search goes by prefixes and by the order of strings instead, which cuts numbers in
two, so it may take an older key than the greatest one below the version. That matters in three
series: elsewhere the key it takes has the same bytecode.
-/

namespace ECapture.Probe
open Library

/-! ## Versions -/

/-- The front `openssl M.m.` of a series of versions. -/
def series (major minor : Nat) : Bytes := openssl_ ++ (dec major ++ 46 :: (dec minor ++ [46]))

def versionOf (major minor patch : Nat) (suffix : Bytes) : Bytes :=
  series major minor ++ (dec patch ++ suffix)

def IsLetter (b : UInt8) : Prop := (65 ≤ b ∧ b ≤ 90) ∨ (97 ≤ b ∧ b ≤ 122)

instance (b : UInt8) : Decidable (IsLetter b) := inferInstanceAs (Decidable (_ ∨ _))

def Letters (suffix : Bytes) : Prop := ∀ b ∈ suffix, IsLetter b

instance (suffix : Bytes) : Decidable (Letters suffix) := List.decidableBAll IsLetter suffix

theorem IsLetter.not_digit {b : UInt8} (h : IsLetter b) : isDigit b = false := by
  rw [isDigit, decide_eq_false_iff_not]
  simp only [IsLetter, UInt8.le_iff_toNat_le] at h ⊢
  have bounds : (48 : UInt8).toNat = 48 ∧ (57 : UInt8).toNat = 57 ∧ (65 : UInt8).toNat = 65 ∧
    (97 : UInt8).toNat = 97 := by decide
  omega

theorem IsLetter.ne_dot {b : UInt8} (h : IsLetter b) : b ≠ 46 := by
  rintro rfl
  revert h
  decide

theorem isDigit_of_mem_dec {b : UInt8} {n : Nat} (h : b ∈ dec n) : isDigit b = true := by
  have bounds : (48 : UInt8).toNat = 48 ∧ (57 : UInt8).toNat = 57 := by decide
  have range := mem_dec h
  rw [isDigit, decide_eq_true_eq, UInt8.le_iff_toNat_le, UInt8.le_iff_toNat_le]
  omega

theorem dot_not_mem_dec (n : Nat) : (46 : UInt8) ∉ dec n := by
  intro mem
  have digit := isDigit_of_mem_dec mem
  revert digit
  decide

theorem dot_not_mem_tail {suffix : Bytes} (letters : Letters suffix) (n : Nat) :
    (46 : UInt8) ∉ dec n ++ suffix := by
  intro mem
  rcases List.mem_append.mp mem with number | letter
  · exact dot_not_mem_dec n number
  · exact (letters 46 letter).ne_dot rfl

theorem versionParts_series (major minor : Nat) (rest : Bytes) :
    versionParts (series major minor ++ rest) = dec major :: dec minor :: rest.splitOn 46 := by
  have front : openssl_.isPrefixOf (series major minor ++ rest) = true := by
    rw [series, List.append_assoc, List.isPrefixOf_iff_prefix]
    exact List.prefix_append _ _
  rw [versionParts, if_pos front, series, List.append_assoc, List.drop_left,
    List.append_assoc, List.cons_append, List.append_assoc, List.singleton_append,
    List.splitOn_append_cons_self_of_not_mem (dot_not_mem_dec _),
    List.splitOn_append_cons_self_of_not_mem (dot_not_mem_dec _)]

theorem versionParts_versionOf {suffix : Bytes} (letters : Letters suffix) (major minor patch : Nat) :
    versionParts (versionOf major minor patch suffix) =
      [dec major, dec minor, dec patch ++ suffix] := by
  rw [versionOf, versionParts_series, List.splitOn_eq_singleton (dot_not_mem_tail letters _)]

theorem takeWhile_tail {suffix : Bytes} (letters : Letters suffix) (n : Nat) :
    (dec n ++ suffix).takeWhile isDigit = dec n := by
  rw [List.takeWhile_append_of_pos fun b mem => isDigit_of_mem_dec mem]
  cases suffix with
  | nil => simp
  | cons b rest => simp [(letters b (by simp)).not_digit]

theorem extractVersionPart_tail {suffix : Bytes} (letters : Letters suffix) (n : Nat) :
    extractVersionPart (dec n ++ suffix) = (min n (2 ^ 63 - 1), suffix) := by
  rw [extractVersionPart, takeWhile_tail letters]
  simp only [dec_ne_nil, ↓reduceIte, atoi, natOf_dec, List.drop_left]

theorem letters_nil : Letters [] := fun _ mem => absurd mem List.not_mem_nil

theorem extractVersionPart_dec (n : Nat) :
    extractVersionPart (dec n) = (min n (2 ^ 63 - 1), []) := by
  have tail := extractVersionPart_tail letters_nil n
  rwa [List.append_nil] at tail

/-- Versions of one series are compared by their patch numbers, then by their suffixes. -/
theorem isVersionLessOrEqual_iff {q p : Nat} {x suffix : Bytes} (hx : Letters x)
    (hs : Letters suffix) (small : q < 2 ^ 63 - 1) (major minor : Nat) :
    isVersionLessOrEqual (versionOf major minor q x) (versionOf major minor p suffix) ↔
      q < p ∨ q = p ∧ x ≤ suffix := by
  have same : ∀ n rest, partsLessOrEqual ((dec n, dec n) :: rest) = partsLessOrEqual rest := by
    intro n rest
    rw [partsLessOrEqual, extractVersionPart_dec]
    simp
  rw [isVersionLessOrEqual, versionParts_versionOf hx, versionParts_versionOf hs]
  show partsLessOrEqual [(dec major, dec major), (dec minor, dec minor),
    (dec q ++ x, dec p ++ suffix)] = true ↔ _
  rw [same, same, partsLessOrEqual, extractVersionPart_tail hx, extractVersionPart_tail hs]
  dsimp only
  rcases Nat.lt_trichotomy q p with lt | rfl | gt
  · rw [if_pos (by omega)]
    simp [lt]
  · rw [if_neg (Nat.lt_irrefl _), if_neg (Nat.lt_irrefl _)]
    by_cases above : suffix < x
    · rw [if_neg (List.lt_asymm above), if_pos above]
      simpa using above
    · simp only [if_neg above, partsLessOrEqual, ite_self]
      simpa using above
  · rw [if_neg (by omega), if_pos (by omega)]
    simp only [Bool.false_eq_true, false_iff]
    omega

/-! ## The table by versions -/

structure Entry where
  major : Nat
  minor : Nat
  patch : Nat
  suffix : Bytes
  code : Bytes
  deriving DecidableEq

def Entry.tail (e : Entry) : Bytes := dec e.patch ++ e.suffix
def Entry.key (e : Entry) : Bytes := versionOf e.major e.minor e.patch e.suffix

/-- An entry that is not above the version with this patch number and suffix. -/
def Entry.Below (e : Entry) (patch : Nat) (suffix : Bytes) : Prop :=
  e.patch < patch ∨ e.patch = patch ∧ e.suffix ≤ suffix

def lettered (major minor patch : Nat) (first last : Char) (code : String) : List Entry :=
  (letters first last).map fun suffix => { major, minor, patch, suffix, code := str code }

def numbered (major minor first last : Nat) (code : String) : List Entry :=
  (List.range' first (last + 1 - first)).map fun patch =>
    { major, minor, patch, suffix := [], code := str code }

def entries111 : List Entry :=
  lettered 1 1 1 'a' 'a' "openssl_1_1_1a_kern.o" ++
  lettered 1 1 1 'b' 'c' "openssl_1_1_1b_kern.o" ++
  lettered 1 1 1 'd' 'i' "openssl_1_1_1d_kern.o" ++
  lettered 1 1 1 'j' 'w' "openssl_1_1_1j_kern.o"

def entries31 : List Entry :=
  numbered 3 1 0 8 "openssl_3_1_0_kern.o" ++
  numbered 3 2 0 2 "openssl_3_2_0_kern.o" ++
  numbered 3 2 3 3 "openssl_3_2_3_kern.o" ++
  numbered 3 2 4 6 "openssl_3_2_4_kern.o" ++
  numbered 3 3 0 1 "openssl_3_3_0_kern.o" ++
  numbered 3 3 2 2 "openssl_3_3_2_kern.o" ++
  numbered 3 3 3 7 "openssl_3_3_3_kern.o" ++
  numbered 3 4 0 0 "openssl_3_4_0_kern.o" ++
  numbered 3 4 1 6 "openssl_3_4_1_kern.o" ++
  numbered 3 5 0 7 "openssl_3_5_0_kern.o" ++
  numbered 3 6 0 2 "openssl_3_5_0_kern.o" ++
  numbered 4 0 0 1 "openssl_3_5_0_kern.o" ++
  lettered 1 1 0 'a' 'l' "openssl_1_1_0a_kern.o" ++
  lettered 1 0 2 'a' 'u' "openssl_1_0_2a_kern.o"

/-- The assignments for OpenSSL, in the order of the code. -/
def assigned : List Entry :=
  entries111 ++ numbered 3 0 0 21 "openssl_3_0_0_kern.o" ++
    numbered 3 0 12 12 "openssl_3_0_12_kern.o" ++ entries31

/-- The entries that stay: version 3.0.12 is assigned twice. -/
def entries : List Entry :=
  entries111 ++ numbered 3 0 0 11 "openssl_3_0_0_kern.o" ++
    numbered 3 0 12 12 "openssl_3_0_12_kern.o" ++ numbered 3 0 13 21 "openssl_3_0_0_kern.o" ++
    entries31

/-- Two entries for one version. -/
def Entry.SameVersion (a b : Entry) : Prop :=
  a.patch = b.patch ∧ a.minor = b.minor ∧ a.major = b.major ∧ a.suffix = b.suffix

instance (a b : Entry) : Decidable (a.SameVersion b) := inferInstanceAs (Decidable (_ ∧ _))

theorem sslVersionBpfMap_eq :
    sslVersionBpfMap = (assigned.reverse.map fun e => (e.key, e.code)) ++ defaultBpfMap := by
  decide +kernel

theorem not_openssl_default : ∀ e ∈ defaultBpfMap, ¬ openssl_ <+: e.1 := by
  decide +kernel

theorem entries_newest : ∀ e ∈ entries,
    (assigned.reverse.find? fun a => a.SameVersion e) = some e := by
  decide +kernel

theorem assigned_entries : ∀ a ∈ assigned, ∃ e ∈ entries, a.SameVersion e := by
  decide +kernel

theorem assigned_letters : ∀ a ∈ assigned, Letters a.suffix := by
  decide +kernel

theorem entries_patch : ∀ e ∈ entries, e.patch ≤ 21 := by
  decide +kernel

theorem entries_series : ∀ e ∈ entries, (e.major = 1 ∧ e.minor = 0) ∨ (e.major = 1 ∧ e.minor = 1) ∨
    (e.major = 3 ∧ e.minor ≤ 6) ∨ (e.major = 4 ∧ e.minor = 0) := by
  decide +kernel

theorem series_inj {M m M' m' : Nat} {r r' : Bytes} (h : series M m ++ r = series M' m' ++ r') :
    M = M' ∧ m = m' ∧ r = r' := by
  have parts := congrArg versionParts h
  rw [versionParts_series, versionParts_series, List.cons.injEq, List.cons.injEq] at parts
  obtain rfl := dec_injective parts.1
  obtain rfl := dec_injective parts.2.1
  exact ⟨rfl, rfl, List.append_cancel_left h⟩

theorem tail_inj {q p : Nat} {x y : Bytes} (hx : Letters x) (hy : Letters y)
    (h : dec q ++ x = dec p ++ y) : q = p ∧ x = y := by
  have numbers := congrArg (List.takeWhile isDigit) h
  rw [takeWhile_tail hx, takeWhile_tail hy] at numbers
  obtain rfl := dec_injective numbers
  exact ⟨rfl, List.append_cancel_left h⟩

theorem Entry.key_inj {a b : Entry} (ha : Letters a.suffix) (hb : Letters b.suffix) :
    a.key = b.key ↔ a.SameVersion b := by
  constructor
  · intro same
    obtain ⟨major, minor, tails⟩ := series_inj same
    obtain ⟨patch, suffix⟩ := tail_inj ha hb tails
    exact ⟨patch, minor, major, suffix⟩
  · rintro ⟨patch, minor, major, suffix⟩
    rw [Entry.key, Entry.key, patch, minor, major, suffix]

theorem mem_assigned {e : Entry} (he : e ∈ entries) : e ∈ assigned :=
  List.mem_reverse.mp (List.mem_of_find?_eq_some (entries_newest e he))

theorem entries_letters {e : Entry} (he : e ∈ entries) : Letters e.suffix :=
  assigned_letters e (mem_assigned he)

/-- The keys of a series are those of its entries. -/
theorem mem_keys_series {M m : Nat} {r : Bytes} :
    series M m ++ r ∈ sslVersionBpfMap.keys ↔
      ∃ e ∈ entries, e.major = M ∧ e.minor = m ∧ e.tail = r := by
  rw [BpfMap.keys, sslVersionBpfMap_eq, List.map_append, List.mem_append, List.mem_map, List.mem_map]
  constructor
  · rintro (⟨pair, mem, eq⟩ | ⟨pair, mem, eq⟩)
    · obtain ⟨a, ha, rfl⟩ := List.mem_map.mp mem
      obtain ⟨e, he, patch, minor, major, suffix⟩ := assigned_entries a (List.mem_reverse.mp ha)
      obtain ⟨hM, hm, tail⟩ := series_inj eq
      refine ⟨e, he, major ▸ hM, minor ▸ hm, ?_⟩
      rw [← tail, Entry.tail, patch, suffix]
    · refine absurd ?_ (not_openssl_default pair mem)
      rw [eq, series, List.append_assoc]
      exact List.prefix_append _ _
  · rintro ⟨e, he, rfl, rfl, rfl⟩
    exact .inl ⟨(e.key, e.code),
      List.mem_map.mpr ⟨e, List.mem_reverse.mpr (mem_assigned he), rfl⟩, rfl⟩

theorem lookup_key {e : Entry} (he : Letters e.suffix) (rest : BpfMap) : ∀ {l : List Entry},
    (∀ a ∈ l, Letters a.suffix) → (l.find? fun a => a.SameVersion e) = some e →
      List.lookup e.key (l.map (fun a => (a.key, a.code)) ++ rest) = some e.code := by
  intro l
  induction l with
  | nil => exact fun _ found => by cases found
  | cons a l ih =>
    intro letters found
    rw [List.map_cons, List.cons_append, List.lookup_cons]
    have same := Entry.key_inj (letters a (by simp)) he
    rw [List.find?_cons] at found
    by_cases here : a.SameVersion e
    · simp only [here, decide_true, Option.some.injEq] at found
      rw [found]
      simp
    · simp only [here, decide_false] at found
      have other : (e.key == a.key) = false := by
        rw [beq_eq_false_iff_ne]
        exact fun eq => here (same.mp eq.symm)
      rw [other]
      exact ih (fun b mem => letters b (List.mem_cons_of_mem _ mem)) found

theorem get_key {e : Entry} (he : e ∈ entries) : sslVersionBpfMap.get e.key = e.code := by
  have letters : ∀ a ∈ assigned.reverse, Letters a.suffix :=
    fun a mem => assigned_letters a (List.mem_reverse.mp mem)
  rw [BpfMap.get, sslVersionBpfMap_eq,
    lookup_key (entries_letters he) _ letters (entries_newest e he), Option.getD_some]

/-! ## The search in a series -/

/-- The ends of the keys of a series that are not above the version. -/
def Fits (major minor patch : Nat) (suffix r : Bytes) : Prop :=
  ∃ e ∈ entries, e.major = major ∧ e.minor = minor ∧ e.tail = r ∧ e.Below patch suffix

/-- What the search takes, as the end of a key. -/
def Taken (major minor patch : Nat) (suffix r : Bytes) : Prop :=
  Found (· ≤ ·) (Fits major minor patch suffix) (dec patch ++ suffix)
    ((dec patch ++ suffix).length - 1) r

variable {M m p : Nat} {suffix : Bytes}

theorem append_le_append (front a b : Bytes) : front ++ a ≤ front ++ b ↔ a ≤ b := by
  induction front with
  | nil => rfl
  | cons c front ih =>
    rw [List.cons_append, List.cons_append, List.cons_le_cons_iff, ih]
    simp

theorem Entry.lessOrEqual_iff {e : Entry} (he : e ∈ entries) (letters : Letters suffix) :
    isVersionLessOrEqual e.key (versionOf e.major e.minor p suffix) ↔ e.Below p suffix := by
  have small := entries_patch e he
  exact isVersionLessOrEqual_iff (entries_letters he) letters (by omega) _ _

theorem accepted_iff_fits (letters : Letters suffix) (r : Bytes) :
    (series M m ++ r ∈ sslVersionBpfMap.keys ∧
      isVersionLessOrEqual (series M m ++ r) (versionOf M m p suffix)) ↔ Fits M m p suffix r := by
  rw [mem_keys_series]
  constructor
  · rintro ⟨⟨e, he, rfl, rfl, rfl⟩, le⟩
    exact ⟨e, he, rfl, rfl, rfl, (Entry.lessOrEqual_iff he letters).mp le⟩
  · rintro ⟨e, he, rfl, rfl, rfl, below⟩
    exact ⟨⟨e, he, rfl, rfl, rfl⟩, (Entry.lessOrEqual_iff he letters).mpr below⟩

theorem stringLe_trans (a b c : Bytes) (hab : stringLe a b = true) (hbc : stringLe b c = true) :
    stringLe a c = true := by
  rw [stringLe, decide_eq_true_eq] at *
  exact List.le_trans hab hbc

theorem stringLe_total (a b : Bytes) : (stringLe a b || stringLe b a) = true := by
  rw [stringLe, stringLe, Bool.or_eq_true, decide_eq_true_eq, decide_eq_true_eq]
  exact List.le_total a b

theorem series_length_pos (M m : Nat) : 0 < (series M m).length := by
  rw [series, List.length_append]
  exact Nat.lt_of_lt_of_le (by decide : 0 < openssl_.length) (Nat.le_add_right _ _)

theorem downgradeOpensslVersion_taken {order : Nat → List Bytes} (ranges : Ranges order)
    (letters : Letters suffix) {r : Bytes} (fits : Fits M m p suffix r)
    (sslVersion soPath : Bytes) :
    ∃ e ∈ entries, e.major = M ∧ e.minor = m ∧ Taken M m p suffix e.tail ∧
      downgradeOpensslVersion order sslVersion (versionOf M m p suffix) soPath =
        { bpfFile := e.code, found := true, sslVersion } := by
  have accepted := (accepted_iff_fits letters r).mpr fits
  have some_ := List.length_pos_of_ne_nil (dec_ne_nil p)
  have long : (series M m).length ≤ (versionOf M m p suffix).length - 1 := by
    rw [versionOf, List.length_append, List.length_append]
    omega
  have there : Matches (fun k => k ∈ sslVersionBpfMap.keys ∧
      isVersionLessOrEqual k (versionOf M m p suffix)) (versionOf M m p suffix)
      (series M m).length (series M m ++ r) := by
    refine ⟨accepted, ?_⟩
    rw [versionOf, List.take_left]
    exact List.prefix_append _ _
  obtain ⟨key, taken, found⟩ := exists_search stringLe_trans stringLe_total (fun i => (ranges i).2)
    (series_length_pos M m) long there
  obtain ⟨rest, rfl, stripped⟩ := found.strip long accepted
  have cut : (versionOf M m p suffix).length - 1 - (series M m).length =
      (dec p ++ suffix).length - 1 := by
    rw [versionOf, List.length_append]
    omega
  rw [cut] at stripped
  have same : (fun r => series M m ++ r ∈ sslVersionBpfMap.keys ∧
      isVersionLessOrEqual (series M m ++ r) (versionOf M m p suffix)) = Fits M m p suffix :=
    funext fun r => propext (accepted_iff_fits letters r)
  have order_ : (fun a b => (stringLe (series M m ++ a) (series M m ++ b) : Prop)) = (· ≤ ·) := by
    funext a b
    rw [stringLe, decide_eq_true_eq, append_le_append]
  have tail : Taken M m p suffix rest := by
    rw [Taken, ← same, ← order_]
    exact stripped
  obtain ⟨e, he, hM, hm, rfl, below⟩ := tail.accepted
  refine ⟨e, he, hM, hm, tail, ?_⟩
  rw [downgradeOpensslVersion, taken]
  dsimp only
  rw [← get_key he, Entry.key, versionOf, hM, hm]
  rfl

/-- The greatest entry of its series that is not above the version. -/
structure Entry.Greatest (g : Entry) (patch : Nat) (suffix : Bytes) : Prop where
  mem : g ∈ entries
  below : g.Below patch suffix
  top : ∀ e ∈ entries, e.major = g.major → e.minor = g.minor → e.Below patch suffix →
    e.Below g.patch g.suffix

/-! ## Series of numbers -/

/-- The series has the patch numbers up to `n`, without suffixes. -/
structure Numbered (major minor n : Nat) (code : Nat → Bytes) : Prop where
  only : ∀ e ∈ entries, e.major = major → e.minor = minor →
    e.patch ≤ n ∧ e.suffix = [] ∧ e.code = code e.patch
  all : ∀ q ≤ n, { major, minor, patch := q, suffix := [], code := code q } ∈ entries

variable {n q : Nat} {code : Nat → Bytes}

theorem nil_le (suffix : Bytes) : [] ≤ suffix := List.not_lt_nil _

theorem Numbered.fits_iff (h : Numbered M m n code) {r : Bytes} :
    Fits M m p suffix r ↔ ∃ q ≤ n, q ≤ p ∧ r = dec q := by
  constructor
  · rintro ⟨e, he, hM, hm, rfl, below⟩
    obtain ⟨le, empty, -⟩ := h.only e he hM hm
    refine ⟨e.patch, le, ?_, by rw [Entry.tail, empty, List.append_nil]⟩
    rcases below with lt | ⟨same, -⟩
    · exact Nat.le_of_lt lt
    · exact Nat.le_of_eq same
  · rintro ⟨q, le, below, rfl⟩
    refine ⟨_, h.all q le, rfl, rfl, List.append_nil _, ?_⟩
    rcases Nat.lt_or_eq_of_le below with lt | same
    · exact .inl lt
    · exact .inr ⟨same, nil_le _⟩

theorem Numbered.greatest (h : Numbered M m n code) {g : Entry} (hM : g.major = M)
    (hm : g.minor = m) (top : g.Greatest p suffix) : g.patch = min n p := by
  have most := h.only g top.mem hM hm
  have below := top.below
  have best := top.top _ (h.all (min n p) (Nat.min_le_left _ _)) hM.symm hm.symm (by
    rcases Nat.lt_or_eq_of_le (Nat.min_le_right n p) with lt | same
    · exact .inl lt
    · exact .inr ⟨same, nil_le _⟩)
  simp only [Entry.Below] at below best
  omega

/-- A patch number of the series with a suffix behind it: the key without the suffix is taken. -/
theorem Numbered.taken_of_le (h : Numbered M m n code) (taken : Taken M m p suffix (dec q))
    (le : p ≤ n) (ne : suffix ≠ []) : q = p := by
  obtain ⟨q', -, below, same⟩ := h.fits_iff.mp taken.accepted
  obtain rfl := dec_injective same
  have room := List.length_pos_of_ne_nil ne
  have here : Matches (Fits M m p suffix) (dec p ++ suffix) (dec p).length (dec p) := by
    refine ⟨h.fits_iff.mpr ⟨p, le, Nat.le_refl p, rfl⟩, ?_⟩
    rw [List.take_left]
  have begins := (taken.longest (by rw [List.length_append]; omega) here).2
  rw [List.take_left] at begins
  exact Nat.le_antisymm below (le_of_dec_isPrefix begins)

/-- A patch number beyond the series: the search gets into its digits. -/
theorem Numbered.taken_of_gt (h : Numbered M m n code) (taken : Taken M m p suffix (dec q))
    (above : n < p) :
    ∃ j < (dec p).length, (dec p).take j <+: dec q ∧
      (∀ d ≤ n, (dec p).take j <+: dec d → dec d ≤ dec q) ∧
      ∀ i, j < i → i < (dec p).length → ∀ d ≤ n, ¬ (dec p).take i <+: dec d := by
  obtain ⟨j, -, here, greatest, longer⟩ := taken
  obtain ⟨q', le, -, same⟩ := h.fits_iff.mp here.1
  obtain rfl := dec_injective same
  have inside : j < (dec p).length := by
    by_contra outside
    have all := (List.take_prefix_take_left (Nat.le_of_not_lt outside)).trans here.2
    rw [List.take_left] at all
    exact absurd (le_of_dec_isPrefix all) (by omega)
  have cut : ∀ i ≤ (dec p).length, (dec p ++ suffix).take i = (dec p).take i :=
    fun i hi => List.take_append_of_le_length hi
  have fits : ∀ d ≤ n, Fits M m p suffix (dec d) :=
    fun d hd => h.fits_iff.mpr ⟨d, hd, by omega, rfl⟩
  refine ⟨j, inside, ?_, fun d hd begins => ?_, fun i lt hi d hd begins => ?_⟩
  · rw [← cut j (by omega)]
    exact here.2
  · exact greatest (dec d) ⟨fits d hd, by rwa [cut j (by omega)]⟩
  · refine longer i lt ?_ (dec d) ⟨fits d hd, by rwa [cut i (by omega)]⟩
    rw [List.length_append]
    omega

theorem length_digit {d : Nat} (small : d < 10) : (dec d).length = 1 := by
  have le := (length_dec_le_iff (k := 1) (by decide)).mpr (show d < 10 ^ 1 by omega)
  have pos := List.length_pos_of_ne_nil (dec_ne_nil d)
  omega

/-- A number begins with one digit only. -/
theorem first_digit {d q : Nat} (hd : d < 10) (hq : q < 10) (d_first : dec d <+: dec p)
    (q_first : dec q <+: dec p) : d = q := by
  have lengths := (length_digit hd).trans (length_digit hq).symm
  have begins := List.prefix_of_prefix_length_le d_first q_first (Nat.le_of_eq lengths)
  exact dec_injective (begins.eq_of_length lengths)

theorem two_digits (p : Nat) : 10 ≤ p ↔ 1 < (dec p).length := by
  have le := length_dec_le_iff (n := p) (k := 1) (by decide)
  omega

/-- In a series of digits the search takes the first digit of the number, if it is one of the
series, and the last digit of the series otherwise. -/
theorem Numbered.taken_digit (h : Numbered M m n code) (small : n < 10)
    (taken : Taken M m p suffix (dec q)) (le : q ≤ n) (above : n < p) :
    (10 ≤ p ∧ dec q <+: dec p) ∨ (q = n ∧ ∀ d ≤ n, 10 ≤ p → ¬ dec d <+: dec p) := by
  obtain ⟨j, inside, here, greatest, longer⟩ := h.taken_of_gt taken above
  have one := length_digit (Nat.lt_of_le_of_lt le small)
  by_cases zero : j = 0
  · rw [zero, List.take_zero] at greatest
    have digits : ∀ n < 10, ∀ q < 10, dec n ≤ dec q → n ≤ q := by decide
    have last := digits n small q (by omega) (greatest n (Nat.le_refl n) List.nil_prefix)
    refine .inr ⟨by omega, fun d hd long begins => ?_⟩
    refine longer 1 (by omega) ((two_digits p).mp long) d hd ?_
    rw [← length_digit (show d < 10 by omega), ← List.prefix_iff_eq_take.mp begins]
  · have whole := here.length_le
    rw [List.length_take, one] at whole
    have first := here.eq_of_length (by rw [List.length_take, one]; omega)
    refine .inl ⟨(two_digits p).mpr (by omega), ?_⟩
    rw [← first]
    exact List.take_prefix _ _

/-- When the key taken in a series of digits has the right code: the digits that mislead are not
the first of the number. -/
theorem Numbered.code_iff (h : Numbered M m n code) (small : n < 10) {misleading : List Nat}
    (within : ∀ d ∈ misleading, d ≤ n)
    (codes : ∀ d ≤ n, 0 < d → (code d = code n ↔ d ∉ misleading))
    (taken : Taken M m p suffix (dec q)) (le : q ≤ n) (notKey : p ≤ n → suffix ≠ []) :
    code q = code (min n p) ↔ ¬ (10 ≤ p ∧ ∃ d ∈ misleading, dec d <+: dec p) := by
  by_cases inside : p ≤ n
  · rw [h.taken_of_le taken inside (notKey inside), Nat.min_eq_right inside]
    simp only [true_iff, not_and]
    omega
  · rw [Nat.min_eq_left (by omega)]
    rcases h.taken_digit small taken le (by omega) with ⟨long, begins⟩ | ⟨rfl, none_⟩
    · have pos : 0 < q := by
        rcases Nat.eq_zero_or_pos q with rfl | pos
        · exact absurd begins (not_zero_prefix_dec (by omega))
        · exact pos
      rw [codes q le pos, not_iff_not]
      constructor
      · exact fun mem => ⟨long, q, mem, begins⟩
      · rintro ⟨-, d, mem, first⟩
        rwa [first_digit (by omega) (Nat.lt_of_le_of_lt (within d mem) small) begins first]
    · simp only [true_iff]
      rintro ⟨long, d, mem, first⟩
      exact none_ d (within d mem) long first

theorem three_digits (p : Nat) : 100 ≤ p ↔ 2 < (dec p).length := by
  have le := length_dec_le_iff (n := p) (k := 2) (by decide)
  omega

/-- In the series up to 21 the search takes 12 for greater numbers exactly if they begin so. -/
theorem Numbered.taken_12 (h : Numbered M m 21 code) (taken : Taken M m p suffix (dec q))
    (le : q ≤ 21) (above : 21 < p) : q = 12 ↔ 100 ≤ p ∧ dec 12 <+: dec p := by
  obtain ⟨j, inside, here, greatest, longer⟩ := h.taken_of_gt taken above
  constructor
  · rintro rfl
    have two : (dec 12).length = 2 := by decide
    have whole := here.length_le
    rw [List.length_take, two] at whole
    have split := List.prefix_iff_eq_take.mp here
    rw [List.length_take, Nat.min_eq_left (by omega)] at split
    rw [split] at greatest
    -- with fewer than two digits 9 or 19 would be taken
    have j_two : j = 2 := by
      match j with
      | 0 => exact absurd (greatest 9 (by omega) (by decide)) (by decide)
      | 1 => exact absurd (greatest 19 (by omega) (by decide)) (by decide)
      | j + 2 => omega
    rw [j_two] at split inside
    refine ⟨(three_digits p).mpr inside, ?_⟩
    rw [show dec 12 = (dec 12).take 2 by decide, ← split]
    exact List.take_prefix _ _
  · rintro ⟨long, begins⟩
    have split : dec 12 = (dec p).take 2 := List.prefix_iff_eq_take.mp begins
    have enough : 2 ≤ j := by
      by_contra short
      refine longer 2 (by omega) ((three_digits p).mp long) 12 (by omega) ?_
      rw [← split]
    have first : dec 12 <+: dec q := by
      rw [split]
      exact (List.take_prefix_take_left enough).trans here
    have keys : ∀ q < 22, dec 12 <+: dec q → q = 12 := by decide
    exact keys q (by omega) first

/-! ## The series 1.1 -/

/-- Keys of the series are a digit and a letter. -/
theorem shape11 : ∀ e ∈ entries, e.major = 1 → e.minor = 1 →
    (e.patch = 0 ∨ e.patch = 1) ∧ e.suffix.length = 1 ∧ ∀ c ∈ e.suffix, 97 ≤ c := by
  decide +kernel

theorem code110 : ∀ e ∈ entries, e.major = 1 → e.minor = 1 → e.patch = 0 →
    e.code = str "openssl_1_1_0a_kern.o" := by
  decide +kernel

theorem code_of_sameVersion {e g : Entry} (he : e ∈ entries) (hg : g ∈ entries)
    (same : e.SameVersion g) : e.code = g.code := by
  rw [← get_key he, ← get_key hg, (Entry.key_inj (entries_letters he) (entries_letters hg)).mpr same]

/-- An entry taken in place of the greatest one is that one, if the strings are in this order. -/
theorem suffix_of_tail_le {e g : Entry} {c c' : UInt8} (he : e.patch = 0 ∨ e.patch = 1)
    (hc : e.suffix = [c]) (hg : g.patch = 1) (hc' : g.suffix = [c']) (below : e.Below 1 [c'])
    (le : g.tail ≤ e.tail) : e.patch = 1 ∧ c = c' := by
  have zero : dec 0 = [48] := by decide
  have one : dec 1 = [49] := by decide
  rw [Entry.tail, Entry.tail, hg, hc, hc', one] at le
  rcases he with he | he
  · rw [he, zero] at le
    simp [List.cons_le_cons_iff] at le
  · rw [he, one] at le
    simp only [Entry.Below, he, hc, List.cons_append, List.nil_append, List.cons_le_cons_iff]
      at le below
    refine ⟨he, ?_⟩
    simp only [UInt8.lt_iff_toNat_lt, ← UInt8.toNat_inj] at le below ⊢
    omega

/-- A key of the series that begins with the first digit of a positive number begins with 1. -/
theorem first_digit11 {x y : Bytes} (hq : q = 0 ∨ q = 1) (pos : 0 < p)
    (begins : (dec p ++ x).take 1 <+: dec q ++ y) : q = 1 ∧ (dec p).take 1 = dec 1 := by
  have digits := List.length_pos_of_ne_nil (dec_ne_nil p)
  have small : q < 10 := by omega
  rw [List.take_append_of_le_length digits] at begins
  have inside := List.prefix_of_prefix_length_le begins (List.prefix_append (dec q) y) (by
    rw [List.length_take, length_digit small]
    omega)
  have first := inside.eq_of_length (by rw [List.length_take, length_digit small]; omega)
  rcases hq with rfl | rfl
  · refine absurd ?_ (not_zero_prefix_dec pos)
    rw [← first]
    exact List.take_prefix _ _
  · exact ⟨rfl, first⟩

/-- If the second byte is a letter, the number is one digit and the suffix begins with the letter. -/
theorem second_letter11 {c : UInt8} (letter : 97 ≤ c) (first : (dec p).take 1 = dec 1)
    (long : 2 ≤ (dec p ++ suffix).length) (begins : (dec p ++ suffix).take 2 <+: dec 1 ++ [c]) :
    p = 1 ∧ ∃ rest, suffix = c :: rest := by
  have one : dec 1 = [49] := by decide
  have whole : (dec p ++ suffix).take 2 = [49, c] := by
    rw [one] at begins
    exact begins.eq_of_length (by rw [List.length_take, Nat.min_eq_left long]; rfl)
  by_cases small : p < 10
  · have p_one : p = 1 := by
      refine first_digit (p := p) small (by decide) List.prefix_rfl ?_
      rw [← first]
      exact List.take_prefix _ _
    rw [p_one, one, List.singleton_append] at whole
    refine ⟨p_one, ?_⟩
    cases suffix with
    | nil => simp at whole
    | cons b rest => simp_all
  · have digits := (two_digits p).mp (by omega)
    rw [List.take_append_of_le_length (by omega)] at whole
    have mem : c ∈ dec p := List.mem_of_mem_take (by rw [whole]; simp)
    have digit := (mem_dec mem).2
    rw [UInt8.le_iff_toNat_le] at letter
    have bound : (97 : UInt8).toNat = 97 := by decide
    omega

theorem taken11 {e g : Entry} (he : e ∈ entries) (he_major : e.major = 1) (he_minor : e.minor = 1)
    (hg_major : g.major = 1) (hg_minor : g.minor = 1) (letters : Letters suffix)
    (greatest : g.Greatest p suffix) (taken : Taken 1 1 p suffix e.tail) : e.code = g.code := by
  obtain ⟨e_patch, e_one, e_letter⟩ := shape11 e he he_major he_minor
  obtain ⟨g_patch, g_one, -⟩ := shape11 g greatest.mem hg_major hg_minor
  obtain ⟨c, hc⟩ := List.length_eq_one_iff.mp e_one
  obtain ⟨c', hc'⟩ := List.length_eq_one_iff.mp g_one
  have e_below : e.Below p suffix := by
    obtain ⟨e', he', hM, hm, tail, below⟩ := taken.accepted
    obtain ⟨patch, suffix_⟩ := tail_inj (entries_letters he') (entries_letters he) tail
    rwa [Entry.Below, patch, suffix_] at below
  have below := greatest.top e he (by omega) (by omega) e_below
  rcases g_patch with zero | one
  · rw [zero] at below
    have e_zero : e.patch = 0 := by
      simp only [Entry.Below] at below
      omega
    rw [code110 e he he_major he_minor e_zero, code110 g greatest.mem hg_major hg_minor zero]
  · rw [one, hc'] at below
    suffices same : e.patch = 1 ∧ c = c' by
      refine code_of_sameVersion he greatest.mem ⟨by omega, by omega, by omega, ?_⟩
      rw [hc, hc', same.2]
    have fits : Fits 1 1 p suffix g.tail :=
      ⟨g, greatest.mem, hg_major, hg_minor, rfl, greatest.below⟩
    have one_le : 1 ≤ p := by
      have g_below := greatest.below
      simp only [Entry.Below] at g_below
      omega
    obtain ⟨j, hj, here, top, -⟩ := taken
    have tail_le : g.tail ≤ e.tail → e.patch = 1 ∧ c = c' :=
      suffix_of_tail_le e_patch hc one hc' below
    by_cases start : j = 0
    · rw [start] at top
      exact tail_le (top g.tail ⟨fits, List.nil_prefix⟩)
    · -- the key begins with the first digit of the number
      obtain ⟨e_patch_one, first⟩ := first_digit11 (x := suffix) (y := e.suffix) e_patch one_le
        ((List.take_prefix_take_left (by omega)).trans here.2)
      have digits := List.length_pos_of_ne_nil (dec_ne_nil p)
      by_cases level : j = 1
      · refine tail_le (top g.tail ⟨fits, ?_⟩)
        rw [level, List.take_append_of_le_length digits, first, Entry.tail, one]
        exact List.prefix_append _ _
      · -- and goes on with the letter of the version
        have begins := (List.take_prefix_take_left (i := 2) (j := j) (by omega)).trans here.2
        rw [Entry.tail, e_patch_one, hc] at begins
        obtain ⟨rfl, rest, rfl⟩ := second_letter11 (e_letter c (by simp [hc])) first (by omega) begins
        have g_below := greatest.below
        simp only [Entry.Below, one, hc', e_patch_one, hc, List.cons_le_cons_iff] at g_below below
        refine ⟨e_patch_one, ?_⟩
        simp only [UInt8.lt_iff_toNat_lt, ← UInt8.toNat_inj] at g_below below ⊢
        omega

/-! ## All series -/

def code30 (q : Nat) : Bytes :=
  if q = 12 then str "openssl_3_0_12_kern.o" else str "openssl_3_0_0_kern.o"

def code32 (q : Nat) : Bytes :=
  if q ≤ 2 then str "openssl_3_2_0_kern.o" else if q = 3 then str "openssl_3_2_3_kern.o"
  else str "openssl_3_2_4_kern.o"

def code33 (q : Nat) : Bytes :=
  if q ≤ 1 then str "openssl_3_3_0_kern.o" else if q = 2 then str "openssl_3_3_2_kern.o"
  else str "openssl_3_3_3_kern.o"

def code34 (q : Nat) : Bytes :=
  if q = 0 then str "openssl_3_4_0_kern.o" else str "openssl_3_4_1_kern.o"

theorem numbered30 : Numbered 3 0 21 code30 := by
  constructor <;> decide +kernel

theorem numbered32 : Numbered 3 2 6 code32 := by
  constructor <;> decide +kernel

theorem numbered33 : Numbered 3 3 7 code33 := by
  constructor <;> decide +kernel

theorem numbered34 : Numbered 3 4 6 code34 := by
  constructor <;> decide +kernel

/-- Every other series has one bytecode. -/
theorem uniform_code : ∀ e ∈ entries, (e.major, e.minor) ∈ [(1, 0), (3, 1), (3, 5), (3, 6), (4, 0)] →
    ∀ g ∈ entries, g.major = e.major → g.minor = e.minor → e.code = g.code := by
  decide +kernel

/-- The numbers for which the search takes a key with another bytecode. -/
def Misled (major minor patch : Nat) : Prop :=
  match major, minor with
  | 3, 0 => 100 ≤ patch ∧ dec 12 <+: dec patch
  | 3, 2 => 10 ≤ patch ∧ ∃ d ∈ [1, 2, 3], dec d <+: dec patch
  | 3, 3 => 10 ≤ patch ∧ ∃ d ∈ [1, 2], dec d <+: dec patch
  | _, _ => False

/-- The key taken in a series of numbers, against the greatest one. -/
theorem Numbered.codes (h : Numbered M m n code) {e g : Entry} (he : e ∈ entries)
    (hM : e.major = M) (hm : e.minor = m) (gM : g.major = M) (gm : g.minor = m)
    (greatest : g.Greatest p suffix) (taken : Taken M m p suffix e.tail) :
    ∃ q ≤ n, Taken M m p suffix (dec q) ∧ e.code = code q ∧ g.code = code (min n p) := by
  obtain ⟨le, empty, e_code⟩ := h.only e he hM hm
  obtain ⟨-, -, g_code⟩ := h.only g greatest.mem gM gm
  rw [h.greatest gM gm greatest] at g_code
  rw [Entry.tail, empty, List.append_nil] at taken
  exact ⟨e.patch, le, taken, e_code, g_code⟩

theorem codes30 {e g : Entry} (he : e ∈ entries) (hM : e.major = 3) (hm : e.minor = 0)
    (gM : g.major = 3) (gm : g.minor = 0) (greatest : g.Greatest p suffix)
    (taken : Taken 3 0 p suffix e.tail) (notKey : p ≤ 21 → suffix ≠ []) :
    e.code = g.code ↔ ¬ Misled 3 0 p := by
  obtain ⟨q, le, taken, e_code, g_code⟩ := numbered30.codes he hM hm gM gm greatest taken
  rw [e_code, g_code]
  by_cases inside : p ≤ 21
  · rw [numbered30.taken_of_le taken inside (notKey inside), Nat.min_eq_right inside]
    exact iff_of_true rfl fun misled => absurd misled.1 (by omega)
  · rw [Nat.min_eq_left (by omega)]
    have other : ∀ q ≤ 21, code30 q = code30 21 ↔ ¬ q = 12 := by decide
    rw [other q le]
    exact not_congr (numbered30.taken_12 taken le (by omega))

/-- The key taken has the bytecode of the greatest one, unless the number misleads the search. -/
theorem codes_eq_iff {e g : Entry} (he : e ∈ entries) (gM : g.major = e.major)
    (gm : g.minor = e.minor) (letters : Letters suffix) (greatest : g.Greatest p suffix)
    (taken : Taken e.major e.minor p suffix e.tail)
    (notKey : ∀ k ∈ entries, k.major = e.major → k.minor = e.minor → k.patch = p →
      k.suffix ≠ suffix) :
    e.code = g.code ↔ ¬ Misled e.major e.minor p := by
  have ends : ∀ {n code}, Numbered e.major e.minor n code → p ≤ n → suffix ≠ [] :=
    fun h le empty => notKey _ (h.all p le) rfl rfl rfl empty.symm
  have uniform : (e.major, e.minor) ∈ [(1, 0), (3, 1), (3, 5), (3, 6), (4, 0)] → e.code = g.code :=
    fun mem => uniform_code e he mem g greatest.mem gM gm
  generalize hM : e.major = M at *
  generalize hm : e.minor = m at *
  have listed := entries_series e he
  rw [hM, hm] at listed
  have minors : m ≤ 6 → m = 0 ∨ m = 1 ∨ m = 2 ∨ m = 3 ∨ m = 4 ∨ m = 5 ∨ m = 6 := by omega
  rcases listed with ⟨rfl, rfl⟩ | ⟨rfl, rfl⟩ | ⟨rfl, le⟩ | ⟨rfl, rfl⟩
  · exact iff_of_true (uniform (by decide)) id
  · exact iff_of_true (taken11 he hM hm gM gm letters greatest taken) id
  · rcases minors le with rfl | rfl | rfl | rfl | rfl | rfl | rfl
    · exact codes30 he hM hm gM gm greatest taken (ends numbered30)
    · exact iff_of_true (uniform (by decide)) id
    · obtain ⟨q, le, taken, e_code, g_code⟩ := numbered32.codes he hM hm gM gm greatest taken
      rw [e_code, g_code]
      exact numbered32.code_iff (by decide) (by decide) (by decide) taken le (ends numbered32)
    · obtain ⟨q, le, taken, e_code, g_code⟩ := numbered33.codes he hM hm gM gm greatest taken
      rw [e_code, g_code]
      exact numbered33.code_iff (by decide) (by decide) (by decide) taken le (ends numbered33)
    · obtain ⟨q, le, taken, e_code, g_code⟩ := numbered34.codes he hM hm gM gm greatest taken
      have none_ : ∀ d ∈ ([] : List Nat), d ≤ 6 := by decide
      rw [e_code, g_code,
        numbered34.code_iff (by decide) none_ (by decide) taken le (ends numbered34)]
      simp [Misled]
    · exact iff_of_true (uniform (by decide)) id
    · exact iff_of_true (uniform (by decide)) id
  · exact iff_of_true (uniform (by decide)) id

/-! ## The greatest key -/

/-- The greatest key of a series that is not above the version. -/
structure GreatestKey (major minor : Nat) (ver g : Bytes) : Prop where
  mem : g ∈ sslVersionBpfMap.keys
  series : series major minor <+: g
  lessOrEqual : isVersionLessOrEqual g ver
  greatest : ∀ key ∈ sslVersionBpfMap.keys, ECapture.Probe.series major minor <+: key →
    isVersionLessOrEqual key ver → isVersionLessOrEqual key g

instance (e : Entry) (patch : Nat) (suffix : Bytes) : Decidable (e.Below patch suffix) :=
  inferInstanceAs (Decidable (_ ∨ _))

theorem Entry.Below.trans {a b : Entry} (hab : a.Below b.patch b.suffix) (hb : b.Below p suffix) :
    a.Below p suffix := by
  rcases hab with lt | ⟨same, le⟩ <;> rcases hb with lt' | ⟨same', le'⟩
  · exact .inl (by omega)
  · exact .inl (by omega)
  · exact .inl (by omega)
  · exact .inr ⟨by omega, List.le_trans le le'⟩

theorem Entry.below_total (a b : Entry) : a.Below b.patch b.suffix ∨ b.Below a.patch a.suffix := by
  rcases Nat.lt_trichotomy a.patch b.patch with lt | same | gt
  · exact .inl (.inl lt)
  · exact (List.le_total a.suffix b.suffix).imp (fun le => .inr ⟨same, le⟩)
      fun le => .inr ⟨same.symm, le⟩
  · exact .inr (.inl gt)

theorem exists_greatest {e : Entry} (he : e ∈ entries) (below : e.Below p suffix) :
    ∃ g : Entry, g.major = e.major ∧ g.minor = e.minor ∧ g.Greatest p suffix := by
  let le : Entry → Entry → Bool := fun a b => decide (a.Below b.patch b.suffix)
  let fitting := entries.filter fun k => k.major = e.major ∧ k.minor = e.minor ∧ k.Below p suffix
  have mem : ∀ k, k ∈ fitting ↔
      k ∈ entries ∧ k.major = e.major ∧ k.minor = e.minor ∧ k.Below p suffix := by
    intro k
    simp [fitting]
  have trans : ∀ a b c, le a b = true → le b c = true → le a c = true := by
    intro a b c hab hbc
    exact decide_eq_true ((of_decide_eq_true hab).trans (of_decide_eq_true hbc))
  have total : ∀ a b, (le a b || le b a) = true := by
    intro a b
    rw [Bool.or_eq_true, decide_eq_true_eq, decide_eq_true_eq]
    exact a.below_total b
  cases last : (fitting.mergeSort le).getLast? with
  | none =>
    have empty : e ∈ fitting.mergeSort le :=
      List.mem_mergeSort.mpr ((mem e).mpr ⟨he, rfl, rfl, below⟩)
    rw [List.getLast?_eq_none_iff.mp last] at empty
    cases empty
  | some g =>
    obtain ⟨hg, greatest⟩ := le_last_mergeSort trans total last
    obtain ⟨hg, major, minor, g_below⟩ := (mem g).mp hg
    refine ⟨g, major, minor, hg, g_below, fun k hk k_major k_minor k_below => ?_⟩
    exact of_decide_eq_true (greatest k
      ((mem k).mpr ⟨hk, k_major.trans major, k_minor.trans minor, k_below⟩))

theorem Entry.key_lessOrEqual_iff {e g : Entry} (he : e ∈ entries) (hg : g ∈ entries)
    (major : e.major = g.major) (minor : e.minor = g.minor) :
    isVersionLessOrEqual e.key g.key ↔ e.Below g.patch g.suffix := by
  rw [← Entry.lessOrEqual_iff he (entries_letters hg), major, minor]
  rfl

theorem greatestKey_iff (letters : Letters suffix) {key : Bytes} :
    GreatestKey M m (versionOf M m p suffix) key ↔
      ∃ g : Entry, g.major = M ∧ g.minor = m ∧ g.key = key ∧ g.Greatest p suffix := by
  constructor
  · rintro ⟨mem, ⟨r, rfl⟩, le, greatest⟩
    obtain ⟨g, hg, rfl, rfl, rfl, below⟩ := (accepted_iff_fits letters r).mp ⟨mem, le⟩
    refine ⟨g, rfl, rfl, rfl, hg, below, fun e he major minor e_below => ?_⟩
    obtain ⟨e_mem, e_le⟩ := (accepted_iff_fits letters e.tail).mpr
      ⟨e, he, major, minor, rfl, e_below⟩
    have top := greatest _ e_mem (List.prefix_append _ _) e_le
    rw [← Entry.key_lessOrEqual_iff he hg major minor, Entry.key, versionOf, major, minor]
    exact top
  · rintro ⟨g, rfl, rfl, rfl, hg⟩
    obtain ⟨g_mem, g_le⟩ := (accepted_iff_fits letters g.tail).mpr
      ⟨g, hg.mem, rfl, rfl, rfl, hg.below⟩
    refine ⟨g_mem, List.prefix_append _ _, g_le, ?_⟩
    rintro key mem ⟨r, rfl⟩ le
    obtain ⟨e, he, major, minor, rfl, below⟩ := (accepted_iff_fits letters r).mp ⟨mem, le⟩
    have top := hg.top e he major minor below
    rw [← Entry.key_lessOrEqual_iff he hg.mem major minor, Entry.key, versionOf, major, minor] at top
    exact top

/-- The bytecode that the search gives for a version, against that of the greatest entry. -/
theorem downgradeOpensslVersion_code {order : Nat → List Bytes} (ranges : Ranges order)
    (letters : Letters suffix) (notKey : versionOf M m p suffix ∉ sslVersionBpfMap.keys)
    (below : ∃ key ∈ sslVersionBpfMap.keys, series M m <+: key ∧
      isVersionLessOrEqual key (versionOf M m p suffix))
    (sslVersion soPath : Bytes) :
    ∃ code,
      (downgradeOpensslVersion order sslVersion (versionOf M m p suffix) soPath).bpfFile = code ∧
      (∃ key, GreatestKey M m (versionOf M m p suffix) key) ∧
      ∀ key, GreatestKey M m (versionOf M m p suffix) key →
        (code = sslVersionBpfMap.get key ↔ ¬ Misled M m p) := by
  obtain ⟨key, mem, ⟨r, rfl⟩, le⟩ := below
  have fits := (accepted_iff_fits letters r).mp ⟨mem, le⟩
  obtain ⟨e, he, rfl, rfl, taken, result⟩ :=
    downgradeOpensslVersion_taken ranges letters fits sslVersion soPath
  obtain ⟨k, k_mem, k_major, k_minor, -, k_below⟩ := fits
  have other : ∀ k ∈ entries, k.major = e.major → k.minor = e.minor → k.patch = p →
      k.suffix ≠ suffix := by
    rintro k hk major minor rfl rfl
    exact notKey (mem_keys_series.mpr ⟨k, hk, major, minor, rfl⟩)
  refine ⟨e.code, congrArg Downgrade.bpfFile result, ?_, fun key greatest => ?_⟩
  · obtain ⟨g, gM, gm, greatest⟩ := exists_greatest k_mem k_below
    exact ⟨g.key, (greatestKey_iff letters).mpr
      ⟨g, gM.trans k_major, gm.trans k_minor, rfl, greatest⟩⟩
  · obtain ⟨g, gM, gm, rfl, top⟩ := (greatestKey_iff letters).mp greatest
    rw [get_key top.mem]
    exact codes_eq_iff he gM gm letters top taken other

/-- When the downgrade search finds the bytecode of the greatest key below the version. -/
theorem downgradeOpensslVersion_greatest_iff {order : Nat → List Bytes} (ranges : Ranges order)
    (letters : Letters suffix) (notKey : versionOf M m p suffix ∉ sslVersionBpfMap.keys)
    (below : ∃ key ∈ sslVersionBpfMap.keys, series M m <+: key ∧
      isVersionLessOrEqual key (versionOf M m p suffix))
    (sslVersion soPath : Bytes) :
    (∃ g, GreatestKey M m (versionOf M m p suffix) g ∧
      (downgradeOpensslVersion order sslVersion (versionOf M m p suffix) soPath).bpfFile =
        sslVersionBpfMap.get g) ↔ ¬ Misled M m p := by
  obtain ⟨code, result, ⟨key, greatest⟩, codes⟩ :=
    downgradeOpensslVersion_code ranges letters notKey below sslVersion soPath
  rw [result]
  constructor
  · rintro ⟨g, greatest, same⟩
    exact (codes g greatest).mp same
  · exact fun right => ⟨key, greatest, (codes key greatest).mpr right⟩

/-- The keys, each once. -/
def anyOrder (_ : Nat) : List Bytes := sslVersionBpfMap.keys.dedup

theorem ranges_anyOrder : Ranges anyOrder :=
  fun _ => ⟨List.nodup_dedup _, fun _ => List.mem_dedup⟩

theorem downgradeOpensslVersion_greatest_3022 :
    (∃ g, GreatestKey 3 0 (versionOf 3 0 22 []) g ∧
      (downgradeOpensslVersion anyOrder [] (versionOf 3 0 22 []) []).bpfFile =
        sslVersionBpfMap.get g) ↔ ¬ Misled 3 0 22 :=
  downgradeOpensslVersion_greatest_iff ranges_anyOrder letters_nil (by decide +kernel)
    ⟨versionOf 3 0 21 [], by decide +kernel, by decide +kernel, by decide +kernel⟩ [] []

/-- Version 3.2.10 does not get the bytecode of 3.2.6, the greatest key below it. -/
theorem downgrade_3210 :
    versionOf 3 2 10 [] ∉ sslVersionBpfMap.keys ∧
    GreatestKey 3 2 (versionOf 3 2 10 []) (versionOf 3 2 6 []) ∧
    ∀ order, Ranges order →
      (downgradeOpensslVersion order [] (versionOf 3 2 10 []) []).bpfFile ≠
        sslVersionBpfMap.get (versionOf 3 2 6 []) := by
  have notKey : versionOf 3 2 10 [] ∉ sslVersionBpfMap.keys := by decide +kernel
  have greatest : GreatestKey 3 2 (versionOf 3 2 10 []) (versionOf 3 2 6 []) := by
    constructor <;> decide +kernel
  refine ⟨notKey, greatest, fun order ranges => ?_⟩
  obtain ⟨code, result, -, codes⟩ := downgradeOpensslVersion_code ranges
    letters_nil notKey ⟨_, greatest.mem, greatest.series, greatest.lessOrEqual⟩ [] []
  rw [result]
  intro same
  exact (codes _ greatest).mp same ⟨by decide, 1, by decide, by decide⟩

end ECapture.Probe
